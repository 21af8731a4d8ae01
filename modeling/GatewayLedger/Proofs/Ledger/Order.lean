import GatewayLedger.Ledger
import Mathlib.Data.List.Basic

/-!
# The order of a ledger

`Record.IsNewestFirst listed ordered` says that `ordered` holds the records of `listed`, the newest
first, and that records of one instant have kept their order. Building a ledger brings records into
this order whenever any two of them can be compared, and fails otherwise. `Record.IsOldestFirst` is
the order of time itself.
-/

namespace GatewayLedger

/-! ## Stable sorting -/

section

variable {α : Type} {le : α → α → Bool} {p : α → Bool}

/-- Sorting puts the first element right in front of those before which it may stand. -/
theorem mergeSort_cons_eq (htrans : ∀ a b c, le a b → le b c → le a c)
    (htotal : ∀ a b, le a b || le b a) (a : α) (l : List α) :
    (a :: l).mergeSort le =
      (l.mergeSort le).filter (fun b => !le a b) ++ a :: (l.mergeSort le).filter (le a) := by
  obtain ⟨before, after, hall, hrest, hbefore⟩ := List.mergeSort_cons htrans htotal a l
  have hafter : ∀ b ∈ after, le a b = true := by
    have hsorted := List.pairwise_mergeSort htrans htotal (a :: l)
    rw [hall, List.pairwise_append, List.pairwise_cons] at hsorted
    exact hsorted.2.1.1
  have hnone : after.filter (fun b => !le a b) = [] :=
    List.filter_eq_nil_iff.mpr fun b hb => by simp [hafter b hb]
  have hnone' : before.filter (le a) = [] :=
    List.filter_eq_nil_iff.mpr fun b hb => by simpa using hbefore b hb
  rw [hall, hrest, List.filter_append, List.filter_append, hnone, hnone',
    List.filter_eq_self.mpr hbefore, List.filter_eq_self.mpr hafter, List.append_nil,
    List.nil_append]

/-- What is left out has no influence on the order of the rest. -/
theorem filter_mergeSort (htrans : ∀ a b c, le a b → le b c → le a c)
    (htotal : ∀ a b, le a b || le b a) (p : α → Bool) (l : List α) :
    (l.mergeSort le).filter p = (l.filter p).mergeSort le := by
  induction l with
  | nil => simp
  | cons a l ih =>
    by_cases ha : p a = true
    · rw [mergeSort_cons_eq htrans htotal, List.filter_append, List.filter_cons_of_pos ha,
        List.filter_cons_of_pos ha, mergeSort_cons_eq htrans htotal, ← ih]
      simp only [List.filter_filter, Bool.and_comm]
    · obtain ⟨before, after, hall, hrest, -⟩ := List.mergeSort_cons htrans htotal a l
      rw [hall, List.filter_append, List.filter_cons_of_neg ha, List.filter_cons_of_neg ha,
        ← List.filter_append, ← hrest, ih]

/-- Sorting leaves the elements in their order of which any two are in order either way. -/
theorem filter_mergeSort_of_le (htrans : ∀ a b c, le a b → le b c → le a c)
    (htotal : ∀ a b, le a b || le b a) (hp : ∀ a b, p a → p b → le a b) (l : List α) :
    (l.mergeSort le).filter p = l.filter p := by
  rw [filter_mergeSort htrans htotal]
  apply List.mergeSort_of_pairwise
  rw [List.pairwise_iff_forall_sublist]
  intro a b hab
  exact hp a b (List.mem_filter.mp (hab.subset (by simp))).2
    (List.mem_filter.mp (hab.subset (by simp))).2

end

namespace Record

/-- The records of an instant in their order. -/
def atInstant (t : Int) (records : List Record) : List Record :=
  records.filter fun r => r.occurredAt.instant = t

structure IsNewestFirst (listed ordered : List Record) : Prop where
  perm : ordered.Perm listed
  descending : ordered.Pairwise fun a b => b.occurredAt.instant ≤ a.occurredAt.instant
  stable : ∀ t, atInstant t ordered = atInstant t listed

theorem IsNewestFirst.mem_iff {listed ordered : List Record} (h : IsNewestFirst listed ordered)
    {r : Record} : r ∈ ordered ↔ r ∈ listed := h.perm.mem_iff

theorem notNewer_trans (a b c : Record) (hab : notNewer b a) (hbc : notNewer c b) :
    notNewer c a := by
  simp only [notNewer, decide_eq_true_eq] at *
  omega

theorem notNewer_total (a b : Record) : notNewer b a || notNewer a b := by
  simp only [notNewer, Bool.or_eq_true, decide_eq_true_eq]
  omega

/-- The records of one instant are in order already, so sorting does not move them past each
other. -/
theorem atInstant_mergeSort_of_le {le : Record → Record → Bool}
    (htrans : ∀ a b c, le a b → le b c → le a c) (htotal : ∀ a b, le a b || le b a)
    (hsame : ∀ a b : Record, a.occurredAt.instant = b.occurredAt.instant → le a b) (t : Int)
    (records : List Record) : atInstant t (records.mergeSort le) = atInstant t records := by
  apply filter_mergeSort_of_le htrans htotal
  intro a b ha hb
  simp only [decide_eq_true_eq] at ha hb
  exact hsame a b (ha.trans hb.symm)

theorem atInstant_mergeSort (t : Int) (records : List Record) :
    atInstant t (records.mergeSort fun a b => notNewer b a) = atInstant t records := by
  apply atInstant_mergeSort_of_le notNewer_trans notNewer_total
  intro a b h
  simp only [notNewer, decide_eq_true_eq]
  omega

theorem isNewestFirst_mergeSort (records : List Record) :
    IsNewestFirst records (records.mergeSort fun a b => notNewer b a) where
  perm := List.mergeSort_perm records _
  descending := by
    have h := List.pairwise_mergeSort notNewer_trans notNewer_total records
    simpa [notNewer] using h
  stable t := atInstant_mergeSort t records

/-- The records of `listed` with the oldest first; those of one instant have kept their order. -/
structure IsOldestFirst (listed ordered : List Record) : Prop where
  perm : ordered.Perm listed
  ascending : ordered.Pairwise fun a b => a.occurredAt.instant ≤ b.occurredAt.instant
  stable : ∀ t, atInstant t ordered = atInstant t listed

theorem isOldestFirst_mergeSort (records : List Record) :
    IsOldestFirst records (records.mergeSort notNewer) where
  perm := List.mergeSort_perm records _
  ascending := by
    have h := List.pairwise_mergeSort (fun a b c hab hbc => notNewer_trans c b a hbc hab)
      (fun a b => notNewer_total b a) records
    simpa [notNewer] using h
  stable t := by
    apply atInstant_mergeSort_of_le (fun a b c hab hbc => notNewer_trans c b a hbc hab)
      (fun a b => notNewer_total b a)
    intro a b h
    simp only [notNewer, decide_eq_true_eq]
    omega

theorem haveOneClock_of_isAware {records : List Record}
    (h : ∀ r ∈ records, r.occurredAt.isAware = true) : haveOneClock records = true := by
  simp only [haveOneClock, Bool.or_eq_true, List.all_eq_true]
  exact .inl h

theorem haveOneClock_iff {records : List Record} : haveOneClock records = true ↔
    ∀ a ∈ records, ∀ b ∈ records, a.occurredAt.comparable b.occurredAt = true := by
  simp only [haveOneClock, Bool.or_eq_true, List.all_eq_true, Moment.comparable, beq_iff_eq]
  constructor
  · rintro (haware | hnaive) a ha b hb
    · rw [haware a ha, haware b hb]
    · exact Bool.not_inj ((hnaive a ha).trans (hnaive b hb).symm)
  · intro h
    by_cases hall : ∀ r ∈ records, r.occurredAt.isAware = true
    · exact .inl hall
    · right
      obtain ⟨a, ha, hnaive⟩ : ∃ a ∈ records, ¬ a.occurredAt.isAware = true := by
        simpa using hall
      intro b hb
      rw [h b hb a ha]
      simpa using hnaive

theorem haveOneClock_of_subset {records others : List Record} (h : haveOneClock records = true)
    (hsub : others ⊆ records) : haveOneClock others = true :=
  haveOneClock_iff.mpr fun a ha b hb => haveOneClock_iff.mp h a (hsub ha) b (hsub hb)

end Record

namespace Ledger

theorem build_of_haveOneClock {records : List Record} (h : Record.haveOneClock records = true) :
    build records = .ok (ofOrdered (records.mergeSort fun a b => Record.notNewer b a)) := by
  simp only [build, Record.newestFirst, h, if_true, bind, Except.bind]

theorem exists_build_isNewestFirst {records : List Record}
    (h : Record.haveOneClock records = true) :
    ∃ l, build records = .ok l ∧ Record.IsNewestFirst records l.records :=
  ⟨_, build_of_haveOneClock h, Record.isNewestFirst_mergeSort records⟩

end Ledger

end GatewayLedger
