import GatewayLedger.Proofs.Ledger.Period
import GatewayLedger.Proofs.Time.Week

/-!
# What the key of a period says

The key of a week names the year of its Thursday and the number of Thursdays of that year until then.
Keys tell days, weeks and months apart, and once a key has been left it does not return.
-/

namespace GatewayLedger

namespace Iso

theorem padded_one (n : Nat) : padded 1 n = toString n := by
  have hpos : 0 < (Nat.toDigits 10 n).length := List.length_pos_iff.mpr Nat.toDigits_ne_nil
  have hzeros : 1 - (Nat.toDigits 10 n).length = 0 := by omega
  rw [padded, Decimal.digitChars, hzeros]
  rfl

theorem padded_two (n : Nat) : padded 2 n = (if n < 10 then "0" else "") ++ toString n := by
  have htext : toString n = String.ofList (Nat.toDigits 10 n) := Nat.repr_eq_ofList_toDigits
  have hpos : 0 < (Nat.toDigits 10 n).length := List.length_pos_iff.mpr Nat.toDigits_ne_nil
  have hlength : (Nat.toDigits 10 n).length ≤ 1 ↔ n < 10 :=
    Nat.length_toDigits_le_iff (by decide) Nat.one_pos
  rw [padded, Decimal.digitChars, htext, String.ofList_append]
  by_cases h : n < 10
  · have hzeros : 2 - (Nat.toDigits 10 n).length = 1 := by
      have := hlength.mpr h
      omega
    rw [if_pos h, hzeros]
    rfl
  · have hzeros : 2 - (Nat.toDigits 10 n).length = 0 := by
      have := mt hlength.mp h
      omega
    rw [if_neg h, hzeros]
    rfl

end Iso

namespace Period

variable {g : Granularity} {a b : Moment}

theorem key_week (m : Moment) :
    (of .week m).key = toString (Date.isoWeek m.dayNumber).1 ++ "-W" ++
      ((if (Date.isoWeek m.dayNumber).2 < 10 then "0" else "") ++
        toString (Date.isoWeek m.dayNumber).2) := by
  rw [← Iso.padded_one, ← Iso.padded_two]
  rfl

theorem key_eq_iff_index : (of g a).key = (of g b).key ↔ g.index a = g.index b :=
  Granularity.key_eq_iff.trans Granularity.of_eq_iff

theorem key_month_eq_iff : (of .month a).key = (of .month b).key ↔
    a.date.year = b.date.year ∧ a.date.month = b.date.month :=
  key_eq_iff_index.trans (Date.monthIndex_inj a.one_le_dayNumber b.one_le_dayNumber)

theorem key_day_eq_iff : (of .day a).key = (of .day b).key ↔ a.date = b.date :=
  key_eq_iff_index.trans (Date.ofDayNumber_inj a.one_le_dayNumber b.one_le_dayNumber).symm

/-- The key of a week names the year of its Thursday and counts the Thursdays of that year. Two
moments have one key exactly if they lie in one week, one month or on one date, and a key that has
been left does not come back. -/
theorem key_names_period :
    (∀ m : Moment, ∃ thursday year number, Date.weekday thursday = 3 ∧
      Date.SameWeek thursday m.dayNumber ∧ year = (Date.ofDayNumber thursday).year ∧
      number = (Date.thursdays year thursday).card ∧ 1 ≤ number ∧ number ≤ 53 ∧
      (of .week m).key =
        toString year ++ "-W" ++ ((if number < 10 then "0" else "") ++ toString number)) ∧
    (∀ a b : Moment,
      ((of .week a).key = (of .week b).key ↔ Date.SameWeek a.dayNumber b.dayNumber) ∧
      ((of .month a).key = (of .month b).key ↔
        a.date.year = b.date.year ∧ a.date.month = b.date.month) ∧
      ((of .day a).key = (of .day b).key ↔ a.date = b.date)) ∧
    ∀ (g : Granularity) (a b c : Moment), a.IsUtc → b.IsUtc → c.IsUtc →
      a.instant ≤ b.instant → b.instant ≤ c.instant →
      (of g a).key ≠ (of g b).key → (of g c).key ≠ (of g a).key := by
  refine ⟨?_, ?_, ?_⟩
  · intro m
    have hday := m.one_le_dayNumber
    have hweekday := Date.weekday_thursday hday
    obtain ⟨hlow, hhigh⟩ := Date.card_thursdays_bounds (Date.thursday_eq hday).2 hweekday
    refine ⟨Date.thursday m.dayNumber, _, _, hweekday, Date.sameWeek_thursday hday, rfl, rfl, hlow,
      hhigh, ?_⟩
    rw [key_week, Date.isoWeek_eq hday]
  · intro a b
    refine ⟨?_, key_month_eq_iff, key_day_eq_iff⟩
    exact key_eq_iff_index.trans (Date.sameWeek_iff a.one_le_dayNumber).symm
  · intro g a b c ha hb hc hab hbc hleft
    have hfirst := Granularity.index_le_of_instant_le g ha hb hab
    have hlast := Granularity.index_le_of_instant_le g hb hc hbc
    rw [Ne, key_eq_iff_index] at hleft ⊢
    omega

/-- From the last Sunday of 2024 to the day after it, and on to the first Sunday of 2025. -/
theorem key_names_period_of_turn_of_year :
    let sunday : Moment := ⟨739248 * Moment.microsPerDay, some 0, by decide⟩
    let monday : Moment := ⟨739249 * Moment.microsPerDay, some 0, by decide⟩
    let nextSunday : Moment := ⟨739255 * Moment.microsPerDay, some 0, by decide⟩
    (sunday.IsUtc ∧ monday.IsUtc ∧ nextSunday.IsUtc ∧ sunday.instant ≤ monday.instant ∧
      monday.instant ≤ nextSunday.instant ∧ (of .week sunday).key ≠ (of .week monday).key) ∧
    (of .week sunday).key = "2024-W52" ∧ (of .week nextSunday).key = "2025-W01" ∧
      (of .week nextSunday).key ≠ (of .week sunday).key := by
  intro sunday monday nextSunday
  have hfirst : sunday.instant ≤ monday.instant := by decide
  have hlast : monday.instant ≤ nextSunday.instant := by decide
  have hleft : (of .week sunday).key ≠ (of .week monday).key := by decide +kernel
  obtain ⟨_, _, hreturn⟩ := key_names_period
  refine ⟨⟨rfl, rfl, rfl, hfirst, hlast, hleft⟩, by decide +kernel, by decide +kernel, ?_⟩
  exact hreturn .week sunday monday nextSunday rfl rfl rfl hfirst hlast hleft

end Period

end GatewayLedger
