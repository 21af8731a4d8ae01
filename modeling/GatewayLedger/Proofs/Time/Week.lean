import GatewayLedger.Proofs.Time.Calendar
import Mathlib.Data.Finset.Card
import Mathlib.Order.Interval.Finset.Nat

/-!
# Weeks and their Thursdays

A week runs from a Monday to the Sunday after it. It belongs to the year in which its Thursday lies,
and its number is the number of Thursdays that this year has seen by then.
-/

namespace GatewayLedger.Date

open Calendar

variable {m n t year : Nat}

/-- Two days between a Monday and the Sunday after it. -/
def SameWeek (m n : Nat) : Prop :=
  ∃ monday, weekday monday = 0 ∧ monday ≤ m ∧ m ≤ monday + 6 ∧ monday ≤ n ∧ n ≤ monday + 6

theorem sameWeek_iff (hm : 1 ≤ m) : SameWeek m n ↔ weekIndex m = weekIndex n := by
  unfold SameWeek weekIndex weekday
  constructor
  · rintro ⟨monday, hmonday, hbounds⟩
    omega
  · intro h
    refine ⟨m - (m + 6) % 7, ?_⟩
    omega

theorem weekday_thursday (h : 1 ≤ n) : weekday (thursday n) = 3 := by
  unfold thursday weekday
  omega

theorem sameWeek_thursday (h : 1 ≤ n) : SameWeek (thursday n) n := by
  obtain ⟨hthursday, hpos⟩ := thursday_eq h
  rw [sameWeek_iff hpos]
  unfold weekIndex at hthursday ⊢
  omega

/-- The year of a day is the one whose first day is not after it and whose successor's is. -/
theorem yearOfDayNumber_eq_iff (h : 1 ≤ n) :
    yearOfDayNumber n = year ↔ daysBeforeYear year < n ∧ n ≤ daysBeforeYear (year + 1) := by
  obtain ⟨_, hlow, hhigh⟩ := daysBeforeYear_lt_le h
  constructor
  · rintro rfl
    exact ⟨hlow, hhigh⟩
  · rintro ⟨hbefore, hafter⟩
    by_contra hne
    rcases Nat.lt_or_gt_of_ne hne with hlt | hgt
    · have hmono := daysBeforeYear_mono (show yearOfDayNumber n + 1 ≤ year by omega)
      omega
    · have hmono := daysBeforeYear_mono (show year + 1 ≤ yearOfDayNumber n by omega)
      omega

/-- The Thursdays of a year up to a day. -/
def thursdays (year last : Nat) : Finset Nat :=
  (Finset.Icc 1 last).filter fun n => weekday n = 3 ∧ (ofDayNumber n).year = year

/-- Counted back from one of them, the Thursdays of a year are seven days apart. -/
theorem thursdays_eq_image (h : 1 ≤ t) (ht : weekday t = 3) :
    thursdays (yearOfDayNumber t) t =
      (Finset.range ((t - daysBeforeYear (yearOfDayNumber t) - 1) / 7 + 1)).image fun k =>
        t - 7 * k := by
  obtain ⟨hlow, hhigh⟩ := (yearOfDayNumber_eq_iff h).mp rfl
  ext n
  simp only [thursdays, Finset.mem_filter, Finset.mem_Icc, Finset.mem_image, Finset.mem_range]
  have hyear : (ofDayNumber n).year = yearOfDayNumber n := rfl
  rw [hyear]
  generalize yearOfDayNumber t = year at hlow hhigh ⊢
  unfold weekday at ht ⊢
  constructor
  · rintro ⟨⟨hone, hle⟩, hthursday, hsame⟩
    have hbefore := ((yearOfDayNumber_eq_iff hone).mp hsame).1
    exact ⟨(t - n) / 7, by omega, by omega⟩
  · rintro ⟨k, hk, rfl⟩
    have hone : 1 ≤ t - 7 * k := by omega
    exact ⟨⟨hone, by omega⟩, by omega, (yearOfDayNumber_eq_iff hone).mpr (by omega)⟩

theorem card_thursdays (h : 1 ≤ t) (ht : weekday t = 3) :
    (thursdays (yearOfDayNumber t) t).card =
      (t - daysBeforeYear (yearOfDayNumber t) - 1) / 7 + 1 := by
  obtain ⟨hlow, _⟩ := (yearOfDayNumber_eq_iff h).mp rfl
  rw [thursdays_eq_image h ht, Finset.card_image_of_injOn, Finset.card_range]
  intro j hj k hk hsame
  simp only [Finset.coe_range, Set.mem_Iio] at hj hk hsame
  omega

/-- Year and number of a week are those of its Thursday. -/
theorem isoWeek_eq (h : 1 ≤ n) :
    isoWeek n = ((ofDayNumber (thursday n)).year,
      (thursdays (ofDayNumber (thursday n)).year (thursday n)).card) := by
  have hcard := card_thursdays (thursday_eq h).2 (weekday_thursday h)
  have hyear : (ofDayNumber (thursday n)).year = yearOfDayNumber (thursday n) := rfl
  rw [hyear, hcard]
  rfl

theorem card_thursdays_bounds (h : 1 ≤ t) (ht : weekday t = 3) :
    1 ≤ (thursdays (ofDayNumber t).year t).card ∧ (thursdays (ofDayNumber t).year t).card ≤ 53 := by
  obtain ⟨hone, hlow, hhigh⟩ := daysBeforeYear_lt_le h
  have hlength := daysBeforeYear_succ hone
  have hdays : daysInYear (yearOfDayNumber t) ≤ 366 := by
    unfold daysInYear
    split <;> decide
  have hyear : (ofDayNumber t).year = yearOfDayNumber t := rfl
  rw [hyear, card_thursdays h ht]
  omega

end GatewayLedger.Date
