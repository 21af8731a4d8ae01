import GatewayLedger.Proofs.Ledger.Distribution
import GatewayLedger.Proofs.Ledger.Summary
import GatewayLedger.Proofs.Ledger.Volume
import GatewayLedger.Record.Amount

/-!
# The range of all figures

Admitted amounts stay below `10 ^ 101`, so a running sum of them never passes `10 ^ 129` and a sum of
such sums never passes `10 ^ 157`, which is far from where decimals end. So the figures of a ledger
exist, however many records it has.
-/

namespace GatewayLedger

open Decimal (minExponent maxAdjusted precision)

theorem Amount.abs_toRat_le {a : Decimal} (h : isAdmitted a = true) : |a.toRat| ≤ 10 ^ (101 : Int) := by
  have hadjusted : a.adjusted ≤ 100 := of_decide_eq_true h
  exact (Decimal.abs_toRat_lt_zpow a).le.trans (Decimal.ten_zpow_mono (by omega))

/-- A total whose running sums all exist and stay at most `10 ^ 129`. -/
structure IsRunningTotal (amounts : List Decimal) (total : Decimal) : Prop where
  sum_eq : sumAmounts amounts = .ok total
  bounded : ∀ part, part <+: amounts → ∃ s, sumAmounts part = .ok s ∧ |s.toRat| ≤ 10 ^ 129

variable {amounts : List Decimal} {records : List Record} {now : Moment}

theorem exists_isRunningTotal (h : ∀ a ∈ amounts, Amount.isAdmitted a = true) :
    ∃ total, IsRunningTotal amounts total := by
  have hpart : ∀ part, part <+: amounts → ∃ s, sumAmounts part = .ok s ∧ |s.toRat| ≤ 10 ^ 129 := by
    intro part hpart
    have hle : ∀ a ∈ part, |a.toRat| ≤ 10 ^ (101 : Int) :=
      fun a ha => Amount.abs_toRat_le (h a (hpart.subset ha))
    exact exists_sumAmounts_le (by decide) (by decide) hle
  obtain ⟨total, htotal, _⟩ := hpart amounts List.prefix_rfl
  exact ⟨total, htotal, hpart⟩

theorem IsRunningTotal.abs_toRat_le {total : Decimal} (h : IsRunningTotal amounts total) :
    |total.toRat| ≤ 10 ^ (129 : Int) := by
  obtain ⟨s, hs, hle⟩ := h.bounded amounts List.prefix_rfl
  obtain rfl := Except.ok.inj (hs.symm.trans h.sum_eq)
  exact hle

namespace Volume

/-- Every report of admitted amounts exists, and so does the total over its periods. -/
theorem exists_of_admitted (hutc : ∀ r ∈ records, r.occurredAt.IsUtc)
    (hamounts : ∀ r ∈ records, Amount.isAdmitted r.amount = true) (g : Granularity) :
    ∃ v total, ofRecords g records = .ok v ∧ v.total = .ok total ∧ ∀ b ∈ v.buckets,
      IsRunningTotal (Record.amountsIn g b.period (records.mergeSort Record.notNewer)) b.total := by
  have hrunning : ∀ p, ∃ total,
      IsRunningTotal (Record.amountsIn g p (records.mergeSort Record.notNewer)) total := by
    intro p
    apply exists_isRunningTotal
    intro a ha
    obtain ⟨r, hr, rfl⟩ := List.mem_map.mp ha
    exact hamounts r ((List.mergeSort_perm records _).mem_iff.mp (List.mem_filter.mp hr).1)
  rcases describe_or_overflow_of_utc hutc g with ⟨buckets, hv, hdescribe⟩ | ⟨_, r, _, hsum⟩
  · have htotals : ∀ b ∈ buckets,
        IsRunningTotal (Record.amountsIn g b.period (records.mergeSort Record.notNewer)) b.total := by
      intro b hb
      obtain ⟨total, htotal⟩ := hrunning b.period
      obtain rfl := Except.ok.inj (htotal.sum_eq.symm.trans (hdescribe.total_eq b hb))
      exact htotal
    have hle : ∀ t ∈ buckets.map (·.total), |t.toRat| ≤ 10 ^ (129 : Int) := by
      intro t ht
      obtain ⟨b, hb, rfl⟩ := List.mem_map.mp ht
      exact (htotals b hb).abs_toRat_le
    obtain ⟨total, htotal, _⟩ := exists_sumAmounts_le (by decide) (by decide) hle
    exact ⟨_, total, hv, htotal, htotals⟩
  · obtain ⟨total, htotal⟩ := hrunning (r.periodOf g)
    rw [htotal.sum_eq] at hsum
    cases hsum

end Volume

namespace Summary

theorem exists_of_admitted (hclock : ∀ r ∈ records, r.occurredAt.comparable now = true)
    (hamounts : ∀ r ∈ records, Amount.isAdmitted r.amount = true)
    (hnow : 7 * Moment.microsPerDay ≤ now.reading) :
    ∃ s, ofRecords records now = .ok s ∧
      IsRunningTotal ((completedSince 1 now records).map (·.amount)) s.volumeOfDay ∧
      IsRunningTotal ((completedSince 7 now records).map (·.amount)) s.volumeOfWeek := by
  have hrunning : ∀ days, ∃ total,
      IsRunningTotal ((completedSince days now records).map (·.amount)) total := by
    intro days
    apply exists_isRunningTotal
    intro a ha
    obtain ⟨r, hr, rfl⟩ := List.mem_map.mp ha
    exact hamounts r (List.mem_filter.mp (List.mem_filter.mp hr).1).1
  obtain ⟨ofDay, hday⟩ := hrunning 1
  obtain ⟨ofWeek, hweek⟩ := hrunning 7
  obtain ⟨s, hs, rfl, rfl⟩ := exists_ofRecords (fun r hr => hclock r (List.mem_filter.mp hr).1) hnow
    hday.sum_eq hweek.sum_eq
  exact ⟨s, hs, hday, hweek⟩

end Summary

namespace Record

/-- All figures of records with admitted amounts exist, and their running sums are bounded whatever
the number of records. -/
theorem exists_figures_of_admitted (hutc : ∀ r ∈ records, r.occurredAt.IsUtc)
    (hamounts : ∀ r ∈ records, Amount.isAdmitted r.amount = true) (haware : now.isAware = true)
    (hnow : 7 * Moment.microsPerDay ≤ now.reading) :
    (∃ ordered, IsOldestFirst records ordered ∧ ∀ g, ∃ v total,
      Volume.ofRecords g records = .ok v ∧ v.total = .ok total ∧
        ∀ b ∈ v.buckets, IsRunningTotal (amountsIn g b.period ordered) b.total) ∧
      (∃ d, Distribution.ofRecords records = .ok d) ∧
      ∃ s, Summary.ofRecords records now = .ok s ∧
        IsRunningTotal ((Summary.completedSince 1 now records).map (·.amount)) s.volumeOfDay ∧
        IsRunningTotal ((Summary.completedSince 7 now records).map (·.amount)) s.volumeOfWeek := by
  have hclock : ∀ r ∈ records, r.occurredAt.comparable now = true := by
    intro r hr
    rw [Moment.comparable, Moment.isAware_of_isUtc (hutc r hr), haware]
    rfl
  exact ⟨⟨_, isOldestFirst_mergeSort records, Volume.exists_of_admitted hutc hamounts⟩,
    Distribution.exists_ofRecords records, Summary.exists_of_admitted hclock hamounts hnow⟩

open Volume (samplePayment lastDayOf2024)

/-- The largest power of ten among the admitted amounts, and a small one of the other sign. -/
theorem exists_figures_of_largest_amount :
    let records := [samplePayment ⟨false, 1, 100⟩ lastDayOf2024,
      samplePayment ⟨true, 5, -2⟩ lastDayOf2024]
    ((∀ r ∈ records, r.occurredAt.IsUtc) ∧ (∀ r ∈ records, Amount.isAdmitted r.amount = true) ∧
      lastDayOf2024.isAware = true ∧ 7 * Moment.microsPerDay ≤ lastDayOf2024.reading) ∧
      ∃ s, Summary.ofRecords records lastDayOf2024 = .ok s ∧ |s.volumeOfDay.toRat| ≤ 10 ^ 129 := by
  intro records
  have hutc : ∀ r ∈ records, r.occurredAt.IsUtc := by
    intro r hr
    simp only [records, List.mem_cons, List.not_mem_nil, or_false] at hr
    rcases hr with rfl | rfl
    · rfl
    · rfl
  have hamounts : ∀ r ∈ records, Amount.isAdmitted r.amount = true := by
    intro r hr
    simp only [records, List.mem_cons, List.not_mem_nil, or_false] at hr
    have hdigit : ∀ n, n < 10 → Rounding.numDigits n = 1 := fun _ => Rounding.numDigits_of_lt
    rcases hr with rfl | rfl
    · simp [samplePayment, Amount.isAdmitted, Decimal.adjusted, Decimal.numDigits, hdigit 1,
        Amount.maxAdjusted]
    · simp [samplePayment, Amount.isAdmitted, Decimal.adjusted, Decimal.numDigits, hdigit 5,
        Amount.maxAdjusted]
  have hnow : 7 * Moment.microsPerDay ≤ lastDayOf2024.reading := by decide
  obtain ⟨_, _, s, hs, hday, _⟩ := exists_figures_of_admitted hutc hamounts rfl hnow
  exact ⟨⟨hutc, hamounts, rfl, hnow⟩, s, hs, hday.abs_toRat_le⟩

end Record

end GatewayLedger
