import GatewayLedger.Proofs.Ledger.Bucket

/-!
# Volume by period

A report divides records by period, from the oldest period to the newest, and exists unless the sum
of some period does not. The report of days refines those of weeks and of months.
-/

namespace GatewayLedger

namespace Volume

variable {g : Granularity} {listed ordered : List Record} {buckets : List Bucket}

/-- What a report says about records, `ordered` being the same records by time. -/
structure Partitions (v : Volume) (listed ordered : List Record) : Prop where
  nodup_keys : (v.buckets.map fun b => b.period.key).Nodup
  exists_bucket : ∀ r ∈ listed, ∃ b ∈ v.buckets, r.keyOf v.granularity = b.period.key
  count_pos : ∀ b ∈ v.buckets, 0 < b.count
  count_eq : ∀ b ∈ v.buckets,
    b.count = listed.countP fun r => r.keyOf v.granularity = b.period.key
  older : v.buckets.Pairwise fun b c => ∀ r ∈ listed, ∀ s ∈ listed,
    r.keyOf v.granularity = b.period.key → s.keyOf v.granularity = c.period.key →
      r.occurredAt.instant < s.occurredAt.instant
  total_eq : ∀ b ∈ v.buckets,
    sumAmounts ((ordered.filter fun r => r.keyOf v.granularity = b.period.key).map (·.amount)) =
      .ok b.total
  count_total : v.count = listed.length

theorem count_eq_sum (v : Volume) : v.count = (v.buckets.map (·.count)).sum := by
  rw [count, ← List.foldl_map, List.sum_eq_foldl]

end Volume

namespace Bucket.Describe

variable {g : Granularity} {seen : List Record} {buckets : List Bucket} {b : Bucket} {r : Record}

/-- Buckets that describe records divide them by period. -/
theorem partitions {listed : List Record} (h : Describe g seen buckets) (hperm : seen.Perm listed)
    (htime : ∀ r ∈ listed, ∀ s ∈ listed, r.indexOf g < s.indexOf g →
      r.occurredAt.instant < s.occurredAt.instant) :
    Volume.Partitions ⟨g, buckets⟩ listed seen := by
  constructor
  · exact h.nodup_keys
  · intro r hr
    have hmem : r.periodOf g ∈ buckets.map (·.period) :=
      (h.mem_iff _).mpr ⟨r, hperm.mem_iff.mpr hr, rfl⟩
    obtain ⟨b, hb, hperiod⟩ := List.mem_map.mp hmem
    exact ⟨b, hb, (h.keyOf_eq_iff hb).mpr hperiod.symm⟩
  · exact fun b hb => h.count_pos hb
  · intro b hb
    simp only [h.keyOf_eq_iff hb]
    rw [h.count_eq b hb]
    exact hperm.countP_eq _
  · refine (List.pairwise_map.mp h.ascending).imp_of_mem ?_
    intro b c hb hc hbefore r hr s hs hrb hsc
    exact htime r hr s hs (hbefore _ _ ((h.keyOf_eq_iff hb).mp hrb) ((h.keyOf_eq_iff hc).mp hsc))
  · intro b hb
    simp only [h.keyOf_eq_iff hb]
    exact h.total_eq b hb
  · have hall := h.sum_count fun _ => true
    have hmem : ∀ r ∈ seen, decide (r.periodOf g ∈ buckets.map (·.period)) = true := by
      intro r hr
      rw [decide_eq_true_eq]
      exact (h.mem_iff _).mpr ⟨r, hr, rfl⟩
    rw [List.filter_true, List.countP_eq_length.mpr hmem] at hall
    rw [Volume.count_eq_sum, hall, hperm.length_eq]

/-- The buckets of days that lie in the bucket of a longer period have as many records together. -/
theorem count_eq_sum_days {days : List Bucket} (hdays : Describe .day seen days)
    (h : Describe g seen buckets) (hb : b ∈ buckets) (within : Bucket → Bool)
    (hwithin : ∀ d ∈ days, within d = true ↔ ∀ r ∈ seen, r.periodOf .day = d.period →
      r.periodOf g = b.period) :
    b.count = ((days.filter within).map (·.count)).sum := by
  rw [hdays.sum_count, h.count_eq b hb]
  apply List.countP_congr
  intro r hr
  rw [decide_eq_true_eq, decide_eq_true_eq]
  constructor
  · intro hperiod
    have hmem : r.periodOf .day ∈ days.map (·.period) := (hdays.mem_iff _).mpr ⟨r, hr, rfl⟩
    obtain ⟨d, hd, hday⟩ := List.mem_map.mp hmem
    have hin : within d = true := by
      rw [hwithin d hd]
      intro s _ hs
      have hsame : Granularity.day.index s.occurredAt = Granularity.day.index r.occurredAt :=
        Granularity.of_eq_iff.mp (hs.trans hday)
      exact (Granularity.of_eq_iff.mpr (g.index_of_day_eq hsame)).trans hperiod
    exact List.mem_map.mpr ⟨d, List.mem_filter.mpr ⟨hd, hin⟩, hday⟩
  · intro hmem
    obtain ⟨d, hd, hday⟩ := List.mem_map.mp hmem
    obtain ⟨hd, hin⟩ := List.mem_filter.mp hd
    exact (hwithin d hd).mp hin r hr hday.symm

end Bucket.Describe

namespace Volume

variable {g : Granularity} {records ordered : List Record} {days coarse : Volume}

/-- All records of a bucket of the finer report are in a bucket of the coarser one. -/
def Within (fine coarse : Volume) (records : List Record) (d b : Bucket) : Prop :=
  ∀ r ∈ records, r.keyOf fine.granularity = d.period.key →
    r.keyOf coarse.granularity = b.period.key

instance (fine coarse : Volume) (records : List Record) (d b : Bucket) :
    Decidable (Within fine coarse records d b) :=
  inferInstanceAs (Decidable (∀ r ∈ records, _ → _))

structure Refines (fine coarse : Volume) (records : List Record) : Prop where
  exists_bucket : ∀ d ∈ fine.buckets, ∃ b ∈ coarse.buckets, Within fine coarse records d b
  count_eq : ∀ b ∈ coarse.buckets,
    b.count = ((fine.buckets.filter fun d => Within fine coarse records d b).map (·.count)).sum

theorem refines_of_describe {fine longer : List Bucket}
    (hfine : Bucket.Describe .day ordered fine) (hlonger : Bucket.Describe g ordered longer)
    (hperm : ordered.Perm records) : Refines ⟨.day, fine⟩ ⟨g, longer⟩ records := by
  have hwithin : ∀ d ∈ fine, ∀ b ∈ longer, Within ⟨.day, fine⟩ ⟨g, longer⟩ records d b ↔
      ∀ r ∈ ordered, r.periodOf .day = d.period → r.periodOf g = b.period := by
    intro d hd b hb
    simp only [Within, hfine.keyOf_eq_iff hd, hlonger.keyOf_eq_iff hb, hperm.mem_iff]
  constructor
  · intro d hd
    obtain ⟨r, hr, hday⟩ := hfine.exists_of_mem hd
    obtain ⟨b, hb, hperiod⟩ := List.mem_map.mp ((hlonger.mem_iff _).mpr ⟨r, hr, rfl⟩)
    refine ⟨b, hb, (hwithin d hd b hb).mpr ?_⟩
    intro s _ hs
    have hsame : Granularity.day.index s.occurredAt = Granularity.day.index r.occurredAt :=
      Granularity.of_eq_iff.mp (hs.trans hday.symm)
    exact (Granularity.of_eq_iff.mpr (g.index_of_day_eq hsame)).trans hperiod.symm
  · intro b hb
    apply Bucket.Describe.count_eq_sum_days hfine hlonger hb
    intro d hd
    rw [decide_eq_true_eq]
    exact hwithin d hd b hb

end Volume

namespace Volume

variable {g : Granularity} {records ordered : List Record}

theorem ofRecords_of_isAware (haware : ∀ r ∈ records, r.occurredAt.isAware = true)
    (g : Granularity) :
    ofRecords g records =
      ((records.mergeSort Record.notNewer).foldlM (addRecord g) []).map fun buckets =>
        ⟨g, buckets⟩ := by
  have hclock := Record.haveOneClock_of_isAware haware
  simp only [ofRecords, Record.oldestFirst, hclock, if_true, bind, Except.bind]
  cases (records.mergeSort Record.notNewer).foldlM (addRecord g) [] <;> rfl

theorem ofRecords_eq (hutc : ∀ r ∈ records, r.occurredAt.IsUtc) (g : Granularity) :
    ofRecords g records =
      ((records.mergeSort Record.notNewer).foldlM (addRecord g) []).map fun buckets =>
        ⟨g, buckets⟩ :=
  ofRecords_of_isAware (fun r hr => Moment.isAware_of_isUtc (hutc r hr)) g

/-- A report is made of the buckets that describe the records by time, or there is none because
some period has no sum. -/
theorem describe_or_overflow_of_utc (hutc : ∀ r ∈ records, r.occurredAt.IsUtc)
    (g : Granularity) :
    (∃ buckets, ofRecords g records = .ok ⟨g, buckets⟩ ∧
        Bucket.Describe g (records.mergeSort Record.notNewer) buckets) ∨
      (ofRecords g records = .error .amountOverflow ∧ ∃ r ∈ records,
        sumAmounts (Record.amountsIn g (r.periodOf g) (records.mergeSort Record.notNewer)) =
          .error .amountOverflow) := by
  have hordered := Record.isOldestFirst_mergeSort records
  have hindex : (records.mergeSort Record.notNewer).Pairwise fun a b =>
      a.indexOf g ≤ b.indexOf g := by
    refine hordered.ascending.imp_of_mem ?_
    intro r s hr hs hle
    have hr := hutc r (hordered.perm.mem_iff.mp hr)
    have hs := hutc s (hordered.perm.mem_iff.mp hs)
    exact Granularity.index_le_of_instant_le g hr hs hle
  rw [ofRecords_eq hutc]
  rcases Bucket.describe_or_overflow hindex with ⟨buckets, hfold, hdescribe⟩ | ⟨hfold, r, hr, hsum⟩
  · exact .inl ⟨buckets, by rw [hfold]; rfl, hdescribe⟩
  · exact .inr ⟨by rw [hfold]; rfl, r, hordered.perm.mem_iff.mp hr, hsum⟩

theorem instant_lt_of_indexOf_lt {r s : Record} (hr : r.occurredAt.IsUtc) (hs : s.occurredAt.IsUtc)
    (h : r.indexOf g < s.indexOf g) : r.occurredAt.instant < s.occurredAt.instant := by
  by_contra hle
  have hindex := Granularity.index_le_of_instant_le g hs hr (by omega)
  exact Nat.not_lt.mpr hindex h

/-- There is a report and it divides the records into periods, or some period has no sum. -/
def Reported (g : Granularity) (records ordered : List Record) : Prop :=
  match ofRecords g records with
  | .ok v => v.granularity = g ∧ v.Partitions records ordered
  | .error fault => fault = .amountOverflow ∧ ∃ r ∈ records,
    sumAmounts ((ordered.filter fun s => s.keyOf g = r.keyOf g).map (·.amount)) =
      .error .amountOverflow

/-- Reports of UTC records divide them into periods from the oldest to the newest, the report of days
refines all others, and there is no report only if the sum of some period does not exist. -/
theorem partitions_of_utc (hutc : ∀ r ∈ records, r.occurredAt.IsUtc) :
    ∃ ordered, Record.IsOldestFirst records ordered ∧ (∀ g, Reported g records ordered) ∧
      ∀ g days coarse, ofRecords .day records = .ok days → ofRecords g records = .ok coarse →
        days.Refines coarse records := by
  have hordered := Record.isOldestFirst_mergeSort records
  refine ⟨records.mergeSort Record.notNewer, hordered, ?_, ?_⟩
  · intro g
    unfold Reported
    rcases describe_or_overflow_of_utc hutc g with ⟨buckets, hv, hdescribe⟩ | ⟨hv, r, hr, hsum⟩
    · rw [hv]
      refine ⟨rfl, hdescribe.partitions hordered.perm ?_⟩
      intro r hr s hs hlt
      exact instant_lt_of_indexOf_lt (hutc r hr) (hutc s hs) hlt
    · rw [hv]
      refine ⟨rfl, r, hr, ?_⟩
      have hkey : ∀ s : Record, s.keyOf g = r.keyOf g ↔ s.periodOf g = r.periodOf g :=
        fun _ => Granularity.key_eq_iff
      simp only [hkey]
      exact hsum
  · intro g days coarse hdays hcoarse
    rcases describe_or_overflow_of_utc hutc .day with ⟨fine, hfine, hfineDescribe⟩ | ⟨hfine, _⟩
    · rcases describe_or_overflow_of_utc hutc g with ⟨longer, hlonger, hdescribe⟩ | ⟨hlonger, _⟩
      · rw [hfine] at hdays
        rw [hlonger] at hcoarse
        cases hdays
        cases hcoarse
        exact refines_of_describe hfineDescribe hdescribe hordered.perm
      · rw [hlonger] at hcoarse
        cases hcoarse
    · rw [hfine] at hdays
      cases hdays

/-- A completed payment of which only the amount and the time matter. -/
def samplePayment (amount : Decimal) (time : Moment) : Record where
  id := ""
  kind := .payment
  asset := "USDT"
  amount := amount
  network := none
  address := none
  txHash := none
  status := .completed
  rawStatus := .text "Completed"
  occurredAt := time
  metadata := []

/-- The last day of 2024, in a week that belongs to 2025. -/
def lastDayOf2024 : Moment := ⟨63871200000000000, some 0, by decide⟩

theorem partitions_of_turn_of_year :
    let records := [samplePayment ⟨false, 150, -2⟩ ⟨63871286400000000, some 0, by decide⟩,
      samplePayment ⟨true, 2, 0⟩ lastDayOf2024]
    (∀ r ∈ records, r.occurredAt.IsUtc) ∧
      ∃ ordered, Record.IsOldestFirst records ordered ∧ Reported .week records ordered := by
  intro records
  have hutc : ∀ r ∈ records, r.occurredAt.IsUtc := by
    intro r hr
    simp only [records, List.mem_cons, List.not_mem_nil, or_false] at hr
    rcases hr with rfl | rfl
    · rfl
    · rfl
  obtain ⟨ordered, hordered, hreported, _⟩ := partitions_of_utc hutc
  exact ⟨hutc, ordered, hordered, hreported .week⟩

/-- A single amount beyond the largest exponent leaves its period without a sum. -/
theorem ofRecords_eq_overflow {r : Record} (hutc : r.occurredAt.IsUtc)
    (hamount : r.amount.coefficient ≠ 0) (h : Decimal.maxAdjusted < r.amount.adjusted)
    (g : Granularity) :
    ofRecords g [r] = .error .amountOverflow := by
  have hadd : addAmounts Decimal.zero r.amount = .error .amountOverflow := by
    rw [addAmounts, Decimal.add_zero_eq_overflow hamount h]
    rfl
  rw [ofRecords_eq (by simpa using hutc), List.mergeSort_singleton]
  simp only [List.foldlM_cons, addRecord, Bucket.add, hadd]
  rfl

theorem overflow_of_ten_to_million :
    let r := samplePayment ⟨false, 1, 1000000⟩ lastDayOf2024
    r.occurredAt.IsUtc ∧ ofRecords .day [r] = .error .amountOverflow := by
  intro r
  have hutc : r.occurredAt.IsUtc := rfl
  have hadjusted : Decimal.maxAdjusted < r.amount.adjusted := by
    have hdigits : r.amount.numDigits = 1 := Rounding.numDigits_of_lt (by decide)
    rw [Decimal.adjusted, hdigits]
    decide
  exact ⟨hutc, ofRecords_eq_overflow hutc Nat.one_ne_zero hadjusted .day⟩

end Volume

end GatewayLedger
