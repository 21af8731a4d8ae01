import GatewayLedger.Time.Calendar
import Mathlib.Order.Monotone.Basic
import Mathlib.Order.Nat

/-!
# Day numbers and dates

Every day number from 1 on is the number of the date that is made of it, so no two days have one
date. Years and months go up with the day number, and a week of a year is known by its Thursday.
-/

namespace GatewayLedger

namespace Calendar

variable {year month n : Nat}

theorem isLeap_iff : isLeap year = true ↔ year % 4 = 0 ∧ (year % 100 ≠ 0 ∨ year % 400 = 0) := by
  simp [isLeap]

theorem daysBeforeYear_eq (y : Nat) :
    daysBeforeYear (y + 1) = y * 365 + y / 4 - y / 100 + y / 400 := rfl

theorem daysBeforeYear_succ (h : 1 ≤ year) :
    daysBeforeYear (year + 1) = daysBeforeYear year + daysInYear year := by
  obtain ⟨y, rfl⟩ : ∃ y, year = y + 1 := ⟨year - 1, by omega⟩
  have hcentury : y / 100 ≤ y := Nat.div_le_self y 100
  have hmod : (y + 1) % 400 = 0 → (y + 1) % 100 = 0 := by omega
  have hfour : (y + 1) % 100 = 0 → (y + 1) % 4 = 0 := by omega
  rw [daysBeforeYear_eq, daysBeforeYear_eq, daysInYear]
  simp only [isLeap_iff, Nat.succ_div, Nat.dvd_iff_mod_eq_zero]
  generalize y / 4 = a at *
  generalize y / 100 = b at *
  generalize y / 400 = c at *
  split_ifs <;> omega

theorem daysBeforeYear_mono : Monotone daysBeforeYear := by
  apply monotone_nat_of_le_succ
  intro year
  by_cases h : 1 ≤ year
  · rw [daysBeforeYear_succ h]
    exact Nat.le_add_right _ _
  · obtain rfl : year = 0 := by omega
    decide

theorem daysBeforeMonth_mono (year : Nat) : Monotone (daysBeforeMonth year) :=
  monotone_nat_of_le_succ fun _ => Nat.le_add_right _ _

theorem daysBeforeMonth_twelve (year : Nat) : daysBeforeMonth year 12 = daysInYear year := by
  cases h : isLeap year <;> simp [daysBeforeMonth, daysInMonth, daysInYear, h]

/-- What a month and a day in it say about the day `n` of the year, counted from 0. -/
structure Marks (year n month day : Nat) : Prop where
  one_le_month : 1 ≤ month
  one_le_day : 1 ≤ day
  day_le : day ≤ daysInMonth year month
  days_eq : daysBeforeMonth year (month - 1) + day = n + 1

theorem marks_monthAndDay {fuel : Nat}
    (h : n < daysBeforeMonth year (month + 1 + fuel) - daysBeforeMonth year month) :
    Marks year (daysBeforeMonth year month + n) (monthAndDay year fuel (month + 1) n).1
        (monthAndDay year fuel (month + 1) n).2 ∧
      (monthAndDay year fuel (month + 1) n).1 ≤ month + 1 + fuel := by
  induction fuel generalizing month n with
  | zero =>
    have hlt : n < daysInMonth year (month + 1) := by
      simp only [daysBeforeMonth] at h
      omega
    exact ⟨⟨by simp [monthAndDay], by simp [monthAndDay], hlt, by simp [monthAndDay, Nat.add_assoc]⟩,
      Nat.le_refl _⟩
  | succ fuel ih =>
    unfold monthAndDay
    dsimp only
    by_cases hlt : n < daysInMonth year (month + 1)
    · rw [if_pos hlt]
      exact ⟨⟨by simp, by simp, hlt, by simp [Nat.add_assoc]⟩, by simp⟩
    · rw [if_neg hlt]
      have hsucc : daysBeforeMonth year (month + 1) =
          daysBeforeMonth year month + daysInMonth year (month + 1) := rfl
      have hplace : month + 1 + (fuel + 1) = month + 1 + 1 + fuel := by omega
      have hnext : n - daysInMonth year (month + 1) <
          daysBeforeMonth year (month + 1 + 1 + fuel) - daysBeforeMonth year (month + 1) := by
        rw [← hplace]
        omega
      have hsame : daysBeforeMonth year (month + 1) + (n - daysInMonth year (month + 1)) =
          daysBeforeMonth year month + n := by omega
      have hmarks := ih hnext
      rw [hsame, ← hplace] at hmarks
      exact hmarks

end Calendar

namespace Date

open Calendar

variable {n k : Nat}

/-- The mean length of a year leads to the year of a day number or to one next to it. -/
theorem guess_bounds {q : Nat} (hlow : q * 146097 ≤ (n - 1) * 400)
    (hhigh : (n - 1) * 400 < (q + 1) * 146097) (h : 1 ≤ n) :
    (1 ≤ q → daysBeforeYear q < n) ∧ n ≤ daysBeforeYear (q + 3) := by
  constructor
  · intro hq
    obtain ⟨p, rfl⟩ : ∃ p, q = p + 1 := ⟨q - 1, by omega⟩
    rw [daysBeforeYear_eq]
    omega
  · rw [daysBeforeYear_eq]
    omega

/-- The year of a day number is the one whose days it lies among. -/
theorem daysBeforeYear_lt_le (h : 1 ≤ n) :
    1 ≤ yearOfDayNumber n ∧ daysBeforeYear (yearOfDayNumber n) < n ∧
      n ≤ daysBeforeYear (yearOfDayNumber n + 1) := by
  unfold yearOfDayNumber
  dsimp only
  generalize hguess : (n - 1) * 400 / 146097 = q
  obtain ⟨hbefore, hafter⟩ := guess_bounds (q := q) (by omega) (by omega) h
  by_cases hle : n ≤ daysBeforeYear (q + 1)
  · rw [if_pos hle, Nat.add_sub_cancel]
    have hq : 1 ≤ q := by
      by_contra hq
      obtain rfl : q = 0 := by omega
      have hfirst : daysBeforeYear (0 + 1) = 0 := rfl
      omega
    exact ⟨hq, hbefore hq, hle⟩
  · rw [if_neg hle]
    by_cases hlt : daysBeforeYear (q + 1 + 1) < n
    · rw [if_pos hlt]
      exact ⟨by omega, hlt, hafter⟩
    · rw [if_neg hlt]
      exact ⟨by omega, by omega, by omega⟩

theorem yearOfDayNumber_mono {m : Nat} (hm : 1 ≤ m) (h : m ≤ n) :
    yearOfDayNumber m ≤ yearOfDayNumber n := by
  obtain ⟨_, hlow, _⟩ := daysBeforeYear_lt_le hm
  obtain ⟨_, _, hhigh⟩ := daysBeforeYear_lt_le (hm.trans h)
  by_contra hyear
  have hnext := daysBeforeYear_mono (show yearOfDayNumber n + 1 ≤ yearOfDayNumber m by omega)
  omega

theorem marks_ofDayNumber (h : 1 ≤ n) :
    Marks (ofDayNumber n).year (n - daysBeforeYear (ofDayNumber n).year - 1)
      (ofDayNumber n).month (ofDayNumber n).day ∧ (ofDayNumber n).month ≤ 12 := by
  obtain ⟨hone, hlow, hhigh⟩ := daysBeforeYear_lt_le h
  have hlen := daysBeforeYear_succ hone
  have hday : n - daysBeforeYear (yearOfDayNumber n) - 1 <
      daysBeforeMonth (yearOfDayNumber n) (0 + 1 + 11) -
        daysBeforeMonth (yearOfDayNumber n) 0 := by
    rw [daysBeforeMonth_twelve]
    simp only [daysBeforeMonth]
    omega
  have hmarks := marks_monthAndDay hday
  simp only [daysBeforeMonth, Nat.zero_add] at hmarks
  exact hmarks

theorem dayNumber_ofDayNumber (h : 1 ≤ n) : (ofDayNumber n).dayNumber = n := by
  obtain ⟨_, hlow, _⟩ := daysBeforeYear_lt_le h
  have hdays := (marks_ofDayNumber h).1.days_eq
  have hyear : (ofDayNumber n).year = yearOfDayNumber n := rfl
  rw [dayNumber]
  rw [hyear] at hdays ⊢
  omega

theorem isValid_ofDayNumber (h : 1 ≤ n) (hn : n ≤ dayCount) : (ofDayNumber n).isValid = true := by
  obtain ⟨⟨hmonth, hday, hle, _⟩, htwelve⟩ := marks_ofDayNumber h
  obtain ⟨hyear, hbefore, _⟩ := daysBeforeYear_lt_le h
  have hlast : (ofDayNumber n).year ≤ maxYear := by
    by_contra hlate
    have hmono := daysBeforeYear_mono (show maxYear + 1 ≤ yearOfDayNumber n by
      have : (ofDayNumber n).year = yearOfDayNumber n := rfl
      omega)
    exact absurd hn (Nat.not_le.mpr (Nat.lt_of_le_of_lt hmono hbefore))
  simp only [isValid, Bool.and_eq_true, decide_eq_true_eq]
  exact ⟨⟨⟨⟨⟨hyear, hlast⟩, hmonth⟩, htwelve⟩, hday⟩, hle⟩

theorem ofDayNumber_inj {m : Nat} (hm : 1 ≤ m) (hn : 1 ≤ n) :
    ofDayNumber m = ofDayNumber n ↔ m = n := by
  constructor
  · intro h
    rw [← dayNumber_ofDayNumber hm, h, dayNumber_ofDayNumber hn]
  · exact congrArg ofDayNumber

/-! ## Months and weeks one after the other -/

def monthIndex (d : Date) : Nat := 12 * d.year + d.month

theorem monthIndex_mono {m : Nat} (hm : 1 ≤ m) (h : m ≤ n) :
    (ofDayNumber m).monthIndex ≤ (ofDayNumber n).monthIndex := by
  have hn := hm.trans h
  have hyear : (ofDayNumber m).year ≤ (ofDayNumber n).year := yearOfDayNumber_mono hm h
  obtain ⟨hmarks, hmle⟩ := marks_ofDayNumber hm
  obtain ⟨hmarks', hnle⟩ := marks_ofDayNumber hn
  have hone := hmarks.one_le_month
  have hone' := hmarks'.one_le_month
  unfold monthIndex
  by_cases hlt : (ofDayNumber m).year < (ofDayNumber n).year
  · omega
  have hsame : (ofDayNumber m).year = (ofDayNumber n).year := by omega
  by_contra hmonth
  -- in one year a later month begins after the end of an earlier one
  have hnext := daysBeforeMonth_mono (ofDayNumber n).year
    (show (ofDayNumber n).month - 1 + 1 ≤ (ofDayNumber m).month - 1 by omega)
  have hmonthEnd : daysBeforeMonth (ofDayNumber n).year ((ofDayNumber n).month - 1 + 1) =
      daysBeforeMonth (ofDayNumber n).year ((ofDayNumber n).month - 1) +
        daysInMonth (ofDayNumber n).year ((ofDayNumber n).month - 1 + 1) := rfl
  have hplace : (ofDayNumber n).month - 1 + 1 = (ofDayNumber n).month := by omega
  have hdays := hmarks.days_eq
  have hdays' := hmarks'.days_eq
  have hday := hmarks.one_le_day
  have hday' := hmarks'.day_le
  rw [hplace] at hnext hmonthEnd
  rw [hsame] at hdays
  omega

theorem monthIndex_inj {m : Nat} (hm : 1 ≤ m) (hn : 1 ≤ n) :
    (ofDayNumber m).monthIndex = (ofDayNumber n).monthIndex ↔
      (ofDayNumber m).year = (ofDayNumber n).year ∧ (ofDayNumber m).month = (ofDayNumber n).month := by
  obtain ⟨hmarks, hmle⟩ := marks_ofDayNumber hm
  obtain ⟨hmarks', hnle⟩ := marks_ofDayNumber hn
  have hone := hmarks.one_le_month
  have hone' := hmarks'.one_le_month
  unfold monthIndex
  omega

def weekIndex (n : Nat) : Nat := (n + 6) / 7

theorem weekIndex_mono {m : Nat} (h : m ≤ n) : weekIndex m ≤ weekIndex n := by
  unfold weekIndex
  omega

theorem thursday_eq (h : 1 ≤ n) : thursday n + 3 = 7 * weekIndex n ∧ 1 ≤ thursday n := by
  unfold thursday weekday weekIndex
  omega

/-- Two days belong to one week of one year if no Monday lies between them. -/
theorem isoWeek_inj {m : Nat} (hm : 1 ≤ m) (hn : 1 ≤ n) :
    isoWeek m = isoWeek n ↔ weekIndex m = weekIndex n := by
  obtain ⟨hthursday, hpos⟩ := thursday_eq hm
  obtain ⟨hthursday', hpos'⟩ := thursday_eq hn
  constructor
  · intro h
    obtain ⟨hyear, hnumber⟩ := Prod.mk.inj h
    obtain ⟨_, hlow, _⟩ := daysBeforeYear_lt_le hpos
    obtain ⟨_, hlow', _⟩ := daysBeforeYear_lt_le hpos'
    rw [hyear] at hnumber hlow
    generalize daysBeforeYear (yearOfDayNumber (thursday n)) = first at hnumber hlow hlow'
    omega
  · intro h
    have hsame : thursday m = thursday n := by omega
    rw [isoWeek, isoWeek, hsame]

end Date

end GatewayLedger
