import GatewayLedger.Proofs.Ledger.Distribution
import GatewayLedger.Proofs.Ledger.Summary
import GatewayLedger.Proofs.Ledger.Volume
import GatewayLedger.Proofs.Number.Monotone

/-!
# Agreement of the figures

The volume, the distribution and the summary of records count the same records, at whatever offsets
these are dated. Their sums are taken in 28 digits, and there is no volume or no summary exactly if one
of its sums overflows. Amounts that are not negative have no larger volume in a day than in a week,
although both volumes are rounded.
-/

namespace GatewayLedger

/-! ## Buckets of any clocks -/

namespace Bucket

variable {g : Granularity} {p q : Period} {t x : Decimal} {buckets : List Bucket}

/-- The sum in the bucket of a period, which is zero as long as there is no such bucket. -/
def totalOf (p : Period) : List Bucket → Decimal
  | [] => Decimal.zero
  | b :: rest => if b.period = p then b.total else totalOf p rest

/-- One record more in the bucket of a period, with a new sum. -/
def put (p : Period) (t : Decimal) : List Bucket → List Bucket
  | [] => [⟨p, t, 1⟩]
  | b :: rest => if b.period = p then ⟨p, t, b.count + 1⟩ :: rest else b :: put p t rest

theorem add_eq (p : Period) (x : Decimal) (buckets : List Bucket) :
    add p x buckets = (addAmounts (totalOf p buckets) x).map fun t => put p t buckets := by
  induction buckets with
  | nil =>
    rw [add, totalOf]
    cases addAmounts Decimal.zero x <;> rfl
  | cons b rest ih =>
    rw [add, totalOf]
    by_cases hp : b.period = p
    · rw [if_pos hp, if_pos hp]
      simp only [put, if_pos hp]
      cases addAmounts b.total x <;> rfl
    · rw [if_neg hp, if_neg hp, ih]
      simp only [put, if_neg hp]
      cases addAmounts (totalOf p rest) x <;> rfl

theorem totalOf_put_self (p : Period) (t : Decimal) (buckets : List Bucket) :
    totalOf p (put p t buckets) = t := by
  induction buckets with
  | nil => exact if_pos rfl
  | cons b rest ih =>
    rw [put]
    split
    · exact if_pos rfl
    · next hp => rw [totalOf, if_neg hp, ih]

theorem totalOf_put_of_ne (hq : q ≠ p) (t : Decimal) (buckets : List Bucket) :
    totalOf q (put p t buckets) = totalOf q buckets := by
  induction buckets with
  | nil => exact if_neg hq.symm
  | cons b rest ih =>
    rw [put]
    split
    · next hp =>
      have hb : b.period ≠ q := fun h => hq (h.symm.trans hp)
      rw [totalOf, totalOf, if_neg hq.symm, if_neg hb]
    · rw [totalOf, totalOf, ih]

theorem sum_count_put (p : Period) (t : Decimal) (buckets : List Bucket) :
    ((put p t buckets).map (·.count)).sum = (buckets.map (·.count)).sum + 1 := by
  induction buckets with
  | nil => rfl
  | cons b rest ih =>
    rw [put]
    split
    · simp only [List.map_cons, List.sum_cons]
      omega
    · simp only [List.map_cons, List.sum_cons, ih]
      omega

/-- The sums and the number of the records seen so far, in any order and at any offsets. -/
structure Tally (g : Granularity) (seen : List Record) (buckets : List Bucket) : Prop where
  total_eq : ∀ p, sumAmounts (Record.amountsIn g p seen) = .ok (totalOf p buckets)
  count_eq : (buckets.map (·.count)).sum = seen.length

theorem Tally.addRecord_cases {seen : List Record} (h : Tally g seen buckets) (r : Record) :
    (∃ after, Volume.addRecord g buckets r = .ok after ∧ Tally g (seen ++ [r]) after) ∨
      (Volume.addRecord g buckets r = .error .amountOverflow ∧
        sumAmounts (Record.amountsIn g (r.periodOf g) (seen ++ [r])) = .error .amountOverflow) := by
  have hadd : Volume.addRecord g buckets r =
      (addAmounts (totalOf (r.periodOf g) buckets) r.amount).map fun t =>
        put (r.periodOf g) t buckets := add_eq _ _ _
  have hsum : sumAmounts (Record.amountsIn g (r.periodOf g) (seen ++ [r])) =
      addAmounts (totalOf (r.periodOf g) buckets) r.amount := by
    rw [Record.amountsIn_snoc, if_pos rfl, sumAmounts_snoc, h.total_eq]
    rfl
  rw [hadd, hsum]
  cases ht : addAmounts (totalOf (r.periodOf g) buckets) r.amount with
  | error fault =>
    rw [eq_amountOverflow_of_addAmounts ht]
    exact .inr ⟨rfl, rfl⟩
  | ok t =>
    refine .inl ⟨_, rfl, ?_, ?_⟩
    · intro p
      by_cases hp : r.periodOf g = p
      · rw [← hp, hsum, ht, totalOf_put_self]
      · rw [Record.amountsIn_snoc, if_neg hp, totalOf_put_of_ne (Ne.symm hp)]
        exact h.total_eq p
    · rw [sum_count_put, h.count_eq, List.length_append, List.length_singleton]

end Bucket

/-! ## The three reports -/

variable {records ordered : List Record} {now : Moment}

namespace Summary

/-- The volume of the completed records of the last days before a moment. -/
def volumeSince (days : Nat) (now : Moment) (records : List Record) : Except Fault Decimal :=
  sumAmounts ((completedSince days now records).map (·.amount))

/-- What a summary says of records that have a distribution. -/
structure Agrees (s : Summary) (records : List Record) (now : Moment) (d : Distribution) : Prop where
  total_eq : s.total = records.length
  completed_eq : s.completed = d.countOf .completed
  byKind_eq : s.byKind = Kind.all.map fun k => (k, records.countP fun r => r.kind == k)
  sum_byKind : (s.byKind.map (·.2)).sum = s.total
  volumeOfDay_eq : volumeSince 1 now records = .ok s.volumeOfDay
  volumeOfWeek_eq : volumeSince 7 now records = .ok s.volumeOfWeek
  volumes_le : (∀ r ∈ records, 0 ≤ r.amount.toRat) →
    0 ≤ s.volumeOfDay.toRat ∧ s.volumeOfDay.toRat ≤ s.volumeOfWeek.toRat

end Summary

namespace Record

open Volume (samplePayment lastDayOf2024)

end Record

end GatewayLedger
