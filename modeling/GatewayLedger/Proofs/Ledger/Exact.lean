import GatewayLedger.Proofs.Ledger.Summary
import GatewayLedger.Proofs.Ledger.Volume
import GatewayLedger.Proofs.Number.Exact

/-!
# Exact reports

If 28 digits above some place hold the absolute amounts of all records together, they hold the sum of
any of these records, and also the sums of such sums. Then all totals of a report are exact, and a
report depends on the records but not on their order.
-/

namespace GatewayLedger

open Decimal (FitAt value)

variable {e : Int} {g : Granularity} {records others seen : List Record} {buckets : List Bucket}
variable {b : Bucket} {now : Moment}

/-- Adding up key by key adds up every item, if its key is one of them. -/
theorem sum_filter_eq {α β : Type} [DecidableEq β] (f : α → β) (w : α → ℚ) {keys : List β}
    (h : keys.Nodup) {items : List α} (hall : ∀ a ∈ items, f a ∈ keys) :
    (keys.map fun k => ((items.filter fun a => f a = k).map w).sum).sum = (items.map w).sum := by
  induction items with
  | nil => simp
  | cons a items ih =>
    have hone : (keys.map fun k => if f a = k then w a else 0).sum = w a := by
      rw [List.sum_map_eq_nsmul_single (f a) _ fun k hk _ => if_neg hk.symm,
        List.count_eq_one_of_mem h (hall a List.mem_cons_self), one_nsmul, if_pos rfl]
    have hsplit : ∀ k, (((a :: items).filter fun a => f a = k).map w).sum =
        (if f a = k then w a else 0) + ((items.filter fun a => f a = k).map w).sum := by
      intro k
      by_cases hk : f a = k
      · rw [List.filter_cons_of_pos (by simpa using hk), if_pos hk, List.map_cons, List.sum_cons]
      · rw [List.filter_cons_of_neg (by simpa using hk), if_neg hk, zero_add]
    rw [List.map_congr_left fun k _ => hsplit k, List.sum_map_add, hone,
      ih fun a ha => hall a (List.mem_cons_of_mem _ ha), List.map_cons, List.sum_cons]

namespace Record

/-- The exact sum of the amounts of records. -/
def worth (records : List Record) : ℚ := (records.map fun r => r.amount.toRat).sum

theorem value_amounts (records : List Record) : value (records.map (·.amount)) = worth records := by
  rw [value, List.map_map]
  rfl

theorem worth_eq_of_perm (h : others.Perm records) : worth others = worth records :=
  (h.map fun r : Record => r.amount.toRat).sum_eq

/-- A sum over some of the records is the exact one. -/
theorem exists_sumAmounts_eq_worth (h : FitAt e (records.map (·.amount)))
    (hsub : others.Sublist records) :
    ∃ s, sumAmounts (others.map (·.amount)) = .ok s ∧ s.toRat = worth others ∧ e ≤ s.exponent := by
  rw [← value_amounts]
  exact exists_sumAmounts_eq (h.of_sublist (hsub.map _))

end Record

open Record (worth)

/-! ## Volumes -/

namespace Bucket.Describe

theorem toRat_total (h : Describe g seen buckets) (hfit : FitAt e (seen.map (·.amount)))
    (hb : b ∈ buckets) :
    b.total.toRat = worth (seen.filter fun r => r.periodOf g = b.period) ∧ e ≤ b.total.exponent := by
  obtain ⟨s, hs, hworth, hexponent⟩ :=
    Record.exists_sumAmounts_eq_worth hfit (List.filter_sublist (p := fun r => r.periodOf g = b.period))
  obtain rfl := Except.ok.inj (hs.symm.trans (h.total_eq b hb))
  exact ⟨hworth, hexponent⟩

/-- A sum over all records is a sum over the buckets, each with the records of its period. -/
theorem sum_buckets (h : Describe g seen buckets) (w : Record → ℚ) :
    (buckets.map fun b => ((seen.filter fun r => r.periodOf g = b.period).map w).sum).sum =
      (seen.map w).sum := by
  have hall : ∀ r ∈ seen, r.periodOf g ∈ buckets.map (·.period) :=
    fun r hr => (h.mem_iff _).mpr ⟨r, hr, rfl⟩
  rw [← sum_filter_eq (Record.periodOf g) w h.nodup hall, List.map_map]
  rfl

/-- The totals of the buckets can be added up in their turn. -/
theorem fitAt_totals (h : Describe g seen buckets) (hfit : FitAt e (seen.map (·.amount))) :
    FitAt e (buckets.map (·.total)) := by
  refine ⟨hfit.least, hfit.le_zero, ?_, ?_⟩
  · intro t ht
    obtain ⟨b, hb, rfl⟩ := List.mem_map.mp ht
    exact (h.toRat_total hfit hb).2
  · have hsize := hfit.size
    rw [List.map_map] at hsize ⊢
    refine lt_of_le_of_lt ?_ hsize
    rw [← h.sum_buckets]
    apply List.sum_le_sum
    intro b hb
    have hle := Decimal.abs_value_le ((seen.filter fun r => r.periodOf g = b.period).map (·.amount))
    rw [Record.value_amounts, ← (h.toRat_total hfit hb).1, List.map_map] at hle
    exact hle

theorem value_totals (h : Describe g seen buckets) (hfit : FitAt e (seen.map (·.amount))) :
    value (buckets.map (·.total)) = worth seen := by
  rw [worth, ← h.sum_buckets, value, List.map_map]
  congr 1
  exact List.map_congr_left fun b hb => (h.toRat_total hfit hb).1

/-- Which periods there are, and their order, depends on the records only. -/
theorem periods_eq {buckets' : List Bucket} {seen' : List Record} (h : Describe g seen buckets)
    (h' : Describe g seen' buckets') (hperm : seen'.Perm seen) :
    buckets'.map (·.period) = buckets.map (·.period) := by
  have hmem : ∀ p, p ∈ buckets'.map (·.period) ↔ p ∈ buckets.map (·.period) := by
    intro p
    rw [h.mem_iff, h'.mem_iff]
    simp only [hperm.mem_iff]
  have hsame : (buckets'.map (·.period)).Perm (buckets.map (·.period)) :=
    (List.perm_ext_iff_of_nodup h'.nodup h.nodup).mpr hmem
  apply hsame.eq_of_pairwise _ h'.ascending h.ascending
  intro p q hp hq hpq hqp
  obtain ⟨r, _, hr⟩ := (h'.mem_iff p).mp hp
  obtain ⟨s, _, hs⟩ := (h.mem_iff q).mp hq
  have hlt := hpq r.occurredAt s.occurredAt hr hs
  have hgt := hqp s.occurredAt r.occurredAt hs hr
  exact absurd hlt (Nat.not_lt.mpr hgt.le)

end Bucket.Describe

namespace Volume

/-- A report all of whose totals are exact. -/
structure IsExact (v : Volume) (records : List Record) : Prop where
  bucket : ∀ b ∈ v.buckets,
    b.total.toRat = worth (records.filter fun r => r.keyOf v.granularity = b.period.key)
  total : ∃ total, v.total = .ok total ∧ total.toRat = worth records

/-- What a report says: key, number of records and total of each bucket, and the figures of all
buckets together. -/
def figures (v : Volume) : Except Fault (List (String × Nat × ℚ) × Nat × ℚ) :=
  v.total.map fun total =>
    (v.buckets.map fun b => (b.period.key, b.count, b.total.toRat), v.count, total.toRat)

theorem isExact_of_describe (h : Bucket.Describe g seen buckets)
    (hfit : FitAt e (seen.map (·.amount))) (hperm : seen.Perm records) :
    IsExact ⟨g, buckets⟩ records := by
  constructor
  · intro b hb
    simp only [h.keyOf_eq_iff hb]
    rw [(h.toRat_total hfit hb).1]
    exact Record.worth_eq_of_perm (hperm.filter _)
  · obtain ⟨total, htotal, hvalue, _⟩ := exists_sumAmounts_eq (h.fitAt_totals hfit)
    refine ⟨total, htotal, ?_⟩
    rw [hvalue, h.value_totals hfit]
    exact Record.worth_eq_of_perm hperm

theorem figures_eq_of_describe {buckets' : List Bucket} {seen' : List Record}
    (h : Bucket.Describe g seen buckets) (h' : Bucket.Describe g seen' buckets')
    (hfit : FitAt e (seen.map (·.amount))) (hperm : seen'.Perm seen) :
    figures ⟨g, buckets'⟩ = figures ⟨g, buckets⟩ := by
  have hfit' : FitAt e (seen'.map (·.amount)) := hfit.of_perm (hperm.map _)
  have hlist : ∀ {bs : List Bucket} {rs : List Record}, Bucket.Describe g rs bs →
      FitAt e (rs.map (·.amount)) → rs.Perm seen →
      (bs.map fun b => (b.period.key, b.count, b.total.toRat)) = (bs.map (·.period)).map fun p =>
        (p.key, seen.countP fun r => r.periodOf g = p, worth (seen.filter fun r => r.periodOf g = p)) := by
    intro bs rs hd hf hp
    rw [List.map_map]
    apply List.map_congr_left
    intro b hb
    rw [Function.comp_apply, hd.count_eq b hb, (hd.toRat_total hf hb).1, hp.countP_eq,
      Record.worth_eq_of_perm (hp.filter _)]
  have hbuckets : (buckets'.map fun b => (b.period.key, b.count, b.total.toRat)) =
      buckets.map fun b => (b.period.key, b.count, b.total.toRat) := by
    rw [hlist h' hfit' hperm, hlist h hfit (List.Perm.refl _), h.periods_eq h' hperm]
  have hcount : count ⟨g, buckets'⟩ = count ⟨g, buckets⟩ := by
    have hcounts := congrArg (List.map fun f : String × Nat × ℚ => f.2.1) hbuckets
    rw [List.map_map, List.map_map] at hcounts
    rw [count_eq_sum, count_eq_sum]
    exact congrArg List.sum hcounts
  obtain ⟨total, htotal, hworth⟩ := (isExact_of_describe h hfit (List.Perm.refl _)).total
  obtain ⟨total', htotal', hworth'⟩ := (isExact_of_describe h' hfit' hperm).total
  rw [figures, figures, htotal, htotal']
  simp only [Except.map, hbuckets, hcount, hworth, hworth']

theorem exists_describe (hutc : ∀ r ∈ records, r.occurredAt.IsUtc)
    (hfit : FitAt e (records.map (·.amount))) (g : Granularity) :
    ∃ buckets, ofRecords g records = .ok ⟨g, buckets⟩ ∧
      Bucket.Describe g (records.mergeSort Record.notNewer) buckets := by
  rcases describe_or_overflow_of_utc hutc g with ⟨buckets, hv, hdescribe⟩ | ⟨_, r, _, hsum⟩
  · exact ⟨buckets, hv, hdescribe⟩
  · have hfit' := hfit.of_perm ((List.mergeSort_perm records Record.notNewer).map (·.amount))
    obtain ⟨s, hs, _⟩ := Record.exists_sumAmounts_eq_worth hfit'
      (List.filter_sublist (p := fun s => s.periodOf g = r.periodOf g))
    rw [Record.amountsIn, hs] at hsum
    cases hsum

theorem exists_isExact (hutc : ∀ r ∈ records, r.occurredAt.IsUtc)
    (hfit : FitAt e (records.map (·.amount))) (g : Granularity) :
    ∃ v, ofRecords g records = .ok v ∧ v.granularity = g ∧ v.IsExact records := by
  have hperm := List.mergeSort_perm records Record.notNewer
  obtain ⟨buckets, hv, hdescribe⟩ := exists_describe hutc hfit g
  exact ⟨_, hv, rfl, isExact_of_describe hdescribe (hfit.of_perm (hperm.map _)) hperm⟩

theorem figures_eq_of_perm (hutc : ∀ r ∈ records, r.occurredAt.IsUtc)
    (hfit : FitAt e (records.map (·.amount))) (hperm : others.Perm records) (g : Granularity) :
    (ofRecords g others).bind figures = (ofRecords g records).bind figures := by
  have hutc' : ∀ r ∈ others, r.occurredAt.IsUtc := fun r hr => hutc r (hperm.mem_iff.mp hr)
  obtain ⟨buckets, hv, hdescribe⟩ := exists_describe hutc hfit g
  obtain ⟨buckets', hv', hdescribe'⟩ := exists_describe hutc' (hfit.of_perm (hperm.map _)) g
  have hsorted : (others.mergeSort Record.notNewer).Perm (records.mergeSort Record.notNewer) :=
    (List.mergeSort_perm others _).trans (hperm.trans (List.mergeSort_perm records _).symm)
  have hfit' := hfit.of_perm ((List.mergeSort_perm records Record.notNewer).map (·.amount))
  rw [hv, hv']
  exact figures_eq_of_describe hdescribe hdescribe' hfit' hsorted

end Volume

/-! ## Summaries -/

namespace Summary

/-- Both volumes of a summary are exact. -/
structure IsExact (s : Summary) (records : List Record) (now : Moment) : Prop where
  day : s.volumeOfDay.toRat = worth (completedSince 1 now records)
  week : s.volumeOfWeek.toRat = worth (completedSince 7 now records)

/-- What a summary says, its volumes as numbers. -/
def figures (s : Summary) : Moment × Nat × List (Kind × Nat) × Nat × ℚ × ℚ :=
  (s.asOf, s.total, s.byKind, s.completed, s.volumeOfDay.toRat, s.volumeOfWeek.toRat)

theorem completedSince_sublist (days : Nat) (now : Moment) (records : List Record) :
    (completedSince days now records).Sublist records :=
  List.filter_sublist.trans List.filter_sublist

theorem completedSince_perm (h : others.Perm records) (days : Nat) (now : Moment) :
    (completedSince days now others).Perm (completedSince days now records) :=
  (h.filter _).filter _

theorem exists_isExact (hutc : ∀ r ∈ records, r.occurredAt.IsUtc)
    (hfit : FitAt e (records.map (·.amount))) (h : obstacle? records now = none) :
    ∃ s, ofRecords records now = .ok s ∧ s.IsExact records now := by
  obtain ⟨hnow, hclock⟩ := obstacle?_eq_none_iff.mp h
  have hcomparable : ∀ r ∈ records.filter isCompleted, r.occurredAt.comparable now = true := by
    intro r hr
    obtain ⟨hr, hcompleted⟩ := List.mem_filter.mp hr
    rw [Moment.comparable, Moment.isAware_of_isUtc (hutc r hr), hclock ⟨r, hr, hcompleted⟩]
    rfl
  obtain ⟨ofDay, hday, hdayWorth, _⟩ :=
    Record.exists_sumAmounts_eq_worth hfit (completedSince_sublist 1 now records)
  obtain ⟨ofWeek, hweek, hweekWorth, _⟩ :=
    Record.exists_sumAmounts_eq_worth hfit (completedSince_sublist 7 now records)
  obtain ⟨s, hs, rfl, rfl⟩ := exists_ofRecords hcomparable hnow hday hweek
  exact ⟨s, hs, hdayWorth, hweekWorth⟩

theorem isExact_of_ofRecords {s : Summary} (hutc : ∀ r ∈ records, r.occurredAt.IsUtc)
    (hfit : FitAt e (records.map (·.amount))) (h : ofRecords records now = .ok s) :
    s.IsExact records now := by
  cases hobstacle : obstacle? records now with
  | none =>
    obtain ⟨t, ht, hexact⟩ := exists_isExact hutc hfit hobstacle
    obtain rfl := Except.ok.inj (ht.symm.trans h)
    exact hexact
  | some fault =>
    rw [ofRecords_of_obstacle hutc hobstacle] at h
    cases h

theorem figures_eq_of_perm (hutc : ∀ r ∈ records, r.occurredAt.IsUtc)
    (hfit : FitAt e (records.map (·.amount))) (hperm : others.Perm records) (now : Moment) :
    (ofRecords others now).map figures = (ofRecords records now).map figures := by
  have hutc' : ∀ r ∈ others, r.occurredAt.IsUtc := fun r hr => hutc r (hperm.mem_iff.mp hr)
  have hobstacles : obstacle? others now = obstacle? records now := by
    rw [obstacle?, obstacle?, hperm.any_eq]
  cases hobstacle : obstacle? records now with
  | none =>
    obtain ⟨s, hs, hday, hweek⟩ := exists_isExact hutc hfit hobstacle
    obtain ⟨t, ht, hday', hweek'⟩ :=
      exists_isExact hutc' (hfit.of_perm (hperm.map _)) (hobstacles.trans hobstacle)
    obtain ⟨hasOf, htotal, hkinds, hcompleted⟩ := counts_of_ofRecords hs
    obtain ⟨hasOf', htotal', hkinds', hcompleted'⟩ := counts_of_ofRecords ht
    have hvolumes : ∀ days, worth (completedSince days now others) =
        worth (completedSince days now records) :=
      fun days => Record.worth_eq_of_perm (completedSince_perm hperm days now)
    rw [hs, ht]
    simp only [Except.map, figures, hasOf, htotal, hkinds, hcompleted, hday, hweek, hasOf', htotal',
      hkinds', hcompleted', hday', hweek', hvolumes, hperm.length_eq, hperm.countP_eq,
      (hperm.filter isCompleted).length_eq]
  | some fault =>
    rw [ofRecords_of_obstacle hutc hobstacle,
      ofRecords_of_obstacle hutc' (hobstacles.trans hobstacle)]

end Summary

namespace Record

/-- Reports of UTC records whose amounts fit are exact, and they are the same reports whatever the
order of the records. -/
theorem exact_figures (hutc : ∀ r ∈ records, r.occurredAt.IsUtc)
    (hfit : FitAt e (records.map (·.amount))) :
    (∀ g, ∃ v, Volume.ofRecords g records = .ok v ∧ v.granularity = g ∧ v.IsExact records) ∧
      (∀ now, (now.isAware = true → 7 * Moment.microsPerDay ≤ now.reading →
          ∃ s, Summary.ofRecords records now = .ok s) ∧
        ∀ s, Summary.ofRecords records now = .ok s → s.IsExact records now) ∧
      ∀ others : List Record, others.Perm records →
        (∀ g, (Volume.ofRecords g others).bind Volume.figures =
          (Volume.ofRecords g records).bind Volume.figures) ∧
        ∀ now, (Summary.ofRecords others now).map Summary.figures =
          (Summary.ofRecords records now).map Summary.figures := by
  refine ⟨Volume.exists_isExact hutc hfit, ?_, ?_⟩
  · intro now
    refine ⟨?_, fun s hs => Summary.isExact_of_ofRecords hutc hfit hs⟩
    intro haware hnow
    have hnone : Summary.obstacle? records now = none :=
      Summary.obstacle?_eq_none_iff.mpr ⟨hnow, fun _ => haware⟩
    obtain ⟨s, hs, _⟩ := Summary.exists_isExact hutc hfit hnone
    exact ⟨s, hs⟩
  · intro others hperm
    exact ⟨Volume.figures_eq_of_perm hutc hfit hperm, Summary.figures_eq_of_perm hutc hfit hperm⟩

open Volume (samplePayment lastDayOf2024)

/-- Amounts of both signs, from `10 ^ -20` to thousands, are added exactly and in any order. -/
theorem exact_figures_of_mixed_exponents :
    let records := [samplePayment ⟨false, 150, -2⟩ ⟨63871286400000000, some 0, by decide⟩,
      samplePayment ⟨true, 2, 0⟩ lastDayOf2024, samplePayment ⟨false, 25, 3⟩ lastDayOf2024,
      samplePayment ⟨false, 1, -20⟩ lastDayOf2024]
    ((∀ r ∈ records, r.occurredAt.IsUtc) ∧ FitAt (-20) (records.map (·.amount))) ∧
      (∃ v total, Volume.ofRecords .week records = .ok v ∧ v.total = .ok total ∧
        total.toRat = 49999 / 2 + 1 / 10 ^ 20) ∧
      (Volume.ofRecords .week records.reverse).bind Volume.figures =
        (Volume.ofRecords .week records).bind Volume.figures := by
  intro records
  have hutc : ∀ r ∈ records, r.occurredAt.IsUtc := by
    intro r hr
    simp only [records, List.mem_cons, List.not_mem_nil, or_false] at hr
    rcases hr with rfl | rfl | rfl | rfl <;> rfl
  have hamounts : records.map (·.amount) =
      [⟨false, 150, -2⟩, ⟨true, 2, 0⟩, ⟨false, 25, 3⟩, ⟨false, 1, -20⟩] := rfl
  have hfit : FitAt (-20) (records.map (·.amount)) := by
    rw [hamounts]
    constructor
    · decide
    · decide
    · simp
    · norm_num [Decimal.abs_toRat, Decimal.precision]
  obtain ⟨hvolumes, _, hperm⟩ := exact_figures hutc hfit
  obtain ⟨v, hv, _, hexact⟩ := hvolumes .week
  obtain ⟨total, htotal, hworth⟩ := hexact.total
  refine ⟨⟨hutc, hfit⟩, ⟨v, total, hv, htotal, ?_⟩, (hperm _ records.reverse_perm).1 .week⟩
  rw [hworth, ← value_amounts, hamounts]
  norm_num [value, Decimal.toRat_eq, Decimal.signed]

end Record

end GatewayLedger
