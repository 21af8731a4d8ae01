import GatewayLedger.Log
import GatewayLedger.Proofs.Ledger.Reconciliation

/-!
# The index of a ledger

However a ledger came about, its index leads from an identifier to the first record that has it, which
is one of the most recent ones, and has no other identifiers. Every later record with an identifier
that occurred before is reported once, in the order of the ledger.
-/

namespace GatewayLedger

namespace Ledger

variable {l sub : Ledger} {records ordered : List Record} {r : Record} {id asset : String}
variable {position first : Nat}

/-! ## Filling the index -/

def firstPosition? (id : String) (records : List Record) : Option Nat :=
  records.findIdx? fun r => r.id == id

theorem firstPosition?_cons (id : String) (r : Record) (rest : List Record) :
    firstPosition? id (r :: rest) =
      if r.id = id then some 0 else (firstPosition? id rest).map (· + 1) := by
  simp [firstPosition?, List.findIdx?_cons]

theorem firstPosition?_eq_some_iff : firstPosition? id records = some first ↔
    ∃ r, records[first]? = some r ∧ r.id = id ∧ ∀ s ∈ records.take first, s.id ≠ id := by
  rw [firstPosition?, List.findIdx?_eq_some_iff_getElem]
  constructor
  · rintro ⟨hlt, hid, hbefore⟩
    refine ⟨records[first], List.getElem?_eq_getElem hlt, by simpa using hid, ?_⟩
    intro s hs
    obtain ⟨i, hi, rfl⟩ := List.mem_take_iff_getElem.mp hs
    simpa using hbefore i (by omega)
  · rintro ⟨r, hr, hid, hbefore⟩
    obtain ⟨hlt, rfl⟩ := List.getElem?_eq_some_iff.mp hr
    refine ⟨hlt, by simpa using hid, ?_⟩
    intro i hi
    simpa using hbefore _ (List.mem_take_iff_getElem.mpr ⟨i, by omega, rfl⟩)

theorem firstPosition?_eq_none_iff :
    firstPosition? id records = none ↔ ∀ r ∈ records, r.id ≠ id := by
  simp [firstPosition?, List.findIdx?_eq_none_iff]

/-- Going through more records does not change where an identifier leads that the index has. -/
theorem getElem?_indexFrom (position : Nat) (index : Std.TreeMap String Nat)
    (records : List Record) (id : String) :
    (indexFrom position index records)[id]? =
      index[id]?.or ((firstPosition? id records).map (· + position)) := by
  induction records generalizing position index with
  | nil => simp [indexFrom, firstPosition?]
  | cons r rest ih =>
    rw [indexFrom, ih, Std.TreeMap.getElem?_insertIfNew, firstPosition?_cons]
    by_cases hid : r.id = id
    · subst hid
      by_cases hmem : r.id ∈ index
      · simp [hmem]
      · simp [hmem]
    · have hshift : ((firstPosition? id rest).map (· + 1)).map (· + position) =
          (firstPosition? id rest).map (· + (position + 1)) := by
        rw [Option.map_map]
        congr 1
        funext n
        exact Nat.add_right_comm n 1 position
      rw [if_neg hid, hshift, if_neg (by simp [hid])]

theorem getElem?_index_ofOrdered (ordered : List Record) (id : String) :
    (ofOrdered ordered).index[id]? = firstPosition? id ordered := by
  rw [ofOrdered, getElem?_indexFrom]
  simp

/-! ## Looking up and reporting -/

theorem get?_ofOrdered (ordered : List Record) (id : String) :
    (ofOrdered ordered).get? id = (firstPosition? id ordered).bind (ordered[·]?) := by
  rw [get?, getElem?_index_ofOrdered]
  rfl

/-- The records whose identifier occurred before them. -/
def shadowed (l : Ledger) : List (Record × Nat) :=
  l.records.zipIdx.filter fun p => (l.records.take p.2).any fun s => s.id == p.1.id

/-- A warning about a record names its kind and that of the record which the index has. -/
def Reports (l : Ledger) (p : Record × Nat) (d : Duplicate) : Prop :=
  ∃ kept, l.get? p.1.id = some kept ∧ d = ⟨p.1.id, kept.kind, p.1.kind⟩

/-- A record is reported exactly if the index leads from its identifier to a record before it. -/
theorem duplicateAt?_ofOrdered {p : Record × Nat} (hp : p ∈ ordered.zipIdx) :
    if (ordered.take p.2).any (fun s => s.id == p.1.id) then
      ∃ d, (ofOrdered ordered).duplicateAt? p.1 p.2 = some d ∧ (ofOrdered ordered).Reports p d
    else (ofOrdered ordered).duplicateAt? p.1 p.2 = none := by
  obtain ⟨r, position⟩ := p
  have hr : ordered[position]? = some r := List.mk_mem_zipIdx_iff_getElem?.mp hp
  obtain ⟨first, hfirst⟩ : ∃ first, firstPosition? r.id ordered = some first := by
    rw [← Option.ne_none_iff_exists', Ne, firstPosition?_eq_none_iff]
    intro hnone
    exact hnone r (List.mem_of_getElem? hr) rfl
  obtain ⟨kept, hkept, hid, hbefore⟩ := firstPosition?_eq_some_iff.mp hfirst
  have hget : (ofOrdered ordered).get? r.id = some kept := by
    rw [get?_ofOrdered, hfirst, Option.bind_some, hkept]
  have hduplicate : (ofOrdered ordered).duplicateAt? r position =
      if first < position then some ⟨r.id, kept.kind, r.kind⟩ else none := by
    rw [duplicateAt?, getElem?_index_ofOrdered, hfirst]
    simp [records_ofOrdered, hkept]
  have hany : (ordered.take position).any (fun s => s.id == r.id) = true ↔ first < position := by
    rw [List.any_eq_true]
    constructor
    · rintro ⟨s, hs, hsid⟩
      by_contra hle
      have hsub := List.take_subset_take_left ordered (Nat.not_lt.mp hle)
      exact hbefore s (hsub hs) (by simpa using hsid)
    · intro hlt
      have hmem : kept ∈ ordered.take position := by
        rw [List.mem_take_iff_getElem]
        obtain ⟨hi, rfl⟩ := List.getElem?_eq_some_iff.mp hkept
        exact ⟨first, by omega, rfl⟩
      exact ⟨kept, hmem, by simpa using hid⟩
  split
  · next h => exact ⟨_, hduplicate.trans (if_pos (hany.mp h)), kept, hget, rfl⟩
  · next h => exact hduplicate.trans (if_neg fun hlt => h (hany.mpr hlt))

/-- Filtering a list and filtering the images of its members go along, if an image exists exactly for
the members that are kept. -/
theorem forall₂_filter_filterMap {α β : Type} {p : α → Bool} {f : α → Option β} {R : α → β → Prop}
    {xs : List α} (h : ∀ a ∈ xs, if p a then ∃ b, f a = some b ∧ R a b else f a = none) :
    List.Forall₂ R (xs.filter p) (xs.filterMap f) := by
  induction xs with
  | nil => exact .nil
  | cons a xs ih =>
    have ha := h a List.mem_cons_self
    have hxs := ih fun x hx => h x (List.mem_cons_of_mem a hx)
    split at ha
    · next hp =>
      obtain ⟨b, hb, hR⟩ := ha
      rw [List.filter_cons_of_pos hp, List.filterMap_cons_some hb]
      exact .cons hR hxs
    · next hp =>
      rw [List.filter_cons_of_neg hp, List.filterMap_cons_none ha]
      exact hxs

theorem forall₂_reports (ordered : List Record) :
    List.Forall₂ (ofOrdered ordered).Reports (ofOrdered ordered).shadowed
      (ofOrdered ordered).duplicates :=
  forall₂_filter_filterMap fun _ hp => duplicateAt?_ofOrdered hp

/-! ## Every ledger -/

/-- What the index of a ledger and the warnings about it say. -/
structure Indexes (l : Ledger) : Prop where
  get?_eq_some_iff : ∀ id r, l.get? id = some r ↔
    ∃ before after, l.records = before ++ r :: after ∧ r.id = id ∧ ∀ s ∈ before, s.id ≠ id
  get?_eq_none_iff : ∀ id, l.get? id = none ↔ ∀ r ∈ l.records, r.id ≠ id
  newest : ∀ id r, l.get? id = some r → ∀ s ∈ l.records, s.id = id →
    s.occurredAt.instant ≤ r.occurredAt.instant
  mem_index_iff : ∀ id, id ∈ l.index ↔ ∃ r ∈ l.records, r.id = id
  warnings : ∃ duplicates, l.log = duplicates.map .duplicateId ∧
    List.Forall₂ l.Reports l.shadowed duplicates

theorem get?_ofOrdered_eq_some_iff : (ofOrdered ordered).get? id = some r ↔
    ∃ before after, ordered = before ++ r :: after ∧ r.id = id ∧ ∀ s ∈ before, s.id ≠ id := by
  rw [get?_ofOrdered, Option.bind_eq_some_iff]
  constructor
  · rintro ⟨first, hfirst, hr⟩
    obtain ⟨kept, hkept, hid, hbefore⟩ := firstPosition?_eq_some_iff.mp hfirst
    obtain rfl : kept = r := Option.some.inj (hkept.symm.trans hr)
    obtain ⟨hlt, hget⟩ := List.getElem?_eq_some_iff.mp hr
    refine ⟨ordered.take first, ordered.drop (first + 1), ?_, hid, hbefore⟩
    rw [← hget, List.getElem_cons_drop, List.take_append_drop]
  · rintro ⟨before, after, rfl, hid, hbefore⟩
    have hr : (before ++ r :: after)[before.length]? = some r := by simp
    refine ⟨before.length, firstPosition?_eq_some_iff.mpr ⟨r, hr, hid, ?_⟩, hr⟩
    rwa [List.take_left]

theorem get?_ofOrdered_eq_none_iff :
    (ofOrdered ordered).get? id = none ↔ ∀ r ∈ ordered, r.id ≠ id := by
  rw [← firstPosition?_eq_none_iff, get?_ofOrdered]
  cases hfirst : firstPosition? id ordered with
  | none => simp
  | some first =>
    obtain ⟨kept, hkept, _⟩ := firstPosition?_eq_some_iff.mp hfirst
    simp [hkept]

theorem instant_le_of_get? (hordered : ordered.Pairwise fun a b =>
    b.occurredAt.instant ≤ a.occurredAt.instant) (hr : (ofOrdered ordered).get? id = some r)
    {s : Record} (hs : s ∈ ordered) (hid : s.id = id) :
    s.occurredAt.instant ≤ r.occurredAt.instant := by
  obtain ⟨before, after, rfl, _, hbefore⟩ := get?_ofOrdered_eq_some_iff.mp hr
  obtain ⟨_, hlater, _⟩ := List.pairwise_append.mp hordered
  rcases List.mem_append.mp hs with hs | hs
  · exact absurd hid (hbefore s hs)
  · rcases List.mem_cons.mp hs with rfl | hs
    · exact Int.le_refl _
    · exact List.rel_of_pairwise_cons hlater hs

theorem indexes_ofOrdered
    (hordered : ordered.Pairwise fun a b => b.occurredAt.instant ≤ a.occurredAt.instant) :
    (ofOrdered ordered).Indexes where
  get?_eq_some_iff _ _ := get?_ofOrdered_eq_some_iff
  get?_eq_none_iff _ := get?_ofOrdered_eq_none_iff
  newest _ _ hr _ hs hid := instant_le_of_get? hordered hr hs hid
  mem_index_iff id := by
    rw [Std.TreeMap.mem_iff_isSome_getElem?, getElem?_index_ofOrdered, Option.isSome_iff_ne_none, Ne,
      firstPosition?_eq_none_iff]
    simp [records_ofOrdered]
  warnings := ⟨_, rfl, forall₂_reports ordered⟩

/-- The ledgers that records lead to: the empty one, the one that is built of them or that a pass makes
of them, and the ledgers of one asset of any of these. -/
inductive ReachableFrom (records : List Record) : Ledger → Prop
  | empty : ReachableFrom records empty
  | build {l : Ledger} (h : Ledger.build records = .ok l) : ReachableFrom records l
  | reconcile {r : Reconciler} {s : Sources} {clock : RowClock} {l : Ledger}
      (hr : s.records clock = .ok records) (h : (r.reconcile s clock).2 = .ok l) :
      ReachableFrom records l
  | forAsset {l sub : Ledger} {asset : String} (h : ReachableFrom records l)
      (hs : l.forAsset asset = .ok sub) : ReachableFrom records sub

/-- A ledger that was built of records in order of time, all of which can be compared. -/
def IsBuilt (l : Ledger) : Prop :=
  ∃ ordered, l = ofOrdered ordered ∧ Record.haveOneClock ordered = true ∧
    ordered.Pairwise fun a b => b.occurredAt.instant ≤ a.occurredAt.instant

theorem isBuilt_of_build (h : build records = .ok l) : l.IsBuilt := by
  cases hclock : Record.haveOneClock records with
  | false => simp [build, Record.newestFirst, hclock, bind, Except.bind] at h
  | true =>
    have hnewest := Record.isNewestFirst_mergeSort records
    rw [build_of_haveOneClock hclock] at h
    exact ⟨_, (Except.ok.inj h).symm, Record.haveOneClock_of_subset hclock hnewest.perm.subset,
      hnewest.descending⟩

theorem IsBuilt.exists_forAsset (h : l.IsBuilt) (asset : String) :
    ∃ sub, l.forAsset asset = .ok sub := by
  obtain ⟨ordered, rfl, hclock, _⟩ := h
  exact ⟨_, build_of_haveOneClock
    (Record.haveOneClock_of_subset hclock (List.filter_subset_self _))⟩

theorem ReachableFrom.isBuilt (h : ReachableFrom records l) : l.IsBuilt := by
  induction h with
  | empty => exact ⟨[], rfl, rfl, List.Pairwise.nil⟩
  | build h => exact isBuilt_of_build h
  | reconcile hr h =>
    simp only [Reconciler.reconcile, Sources.ledger, hr, bind, Except.bind] at h
    exact isBuilt_of_build h
  | forAsset _ hs _ => exact isBuilt_of_build hs

/-- Records that can be compared make a ledger. The index of every ledger that they lead to has the
first record of each identifier, and one warning is due for each later record. -/
theorem indexes_of_reachableFrom (hclock : ∀ a ∈ records, ∀ b ∈ records,
    a.occurredAt.comparable b.occurredAt = true) :
    (∃ l, build records = .ok l) ∧ ∀ l, ReachableFrom records l →
      (∀ asset, ∃ sub, l.forAsset asset = .ok sub) ∧ l.Indexes := by
  refine ⟨⟨_, build_of_haveOneClock (Record.haveOneClock_iff.mpr hclock)⟩, ?_⟩
  intro l hl
  obtain ⟨ordered, rfl, honce, hordered⟩ := hl.isBuilt
  exact ⟨IsBuilt.exists_forAsset ⟨ordered, rfl, honce, hordered⟩, indexes_ofOrdered hordered⟩

/-- A record of which only the identifier, the kind, the asset and the time matter. -/
def sampleRecord (id : String) (kind : Kind) (asset : String) (time : Moment) : Record where
  id := id
  kind := kind
  asset := asset
  amount := Decimal.zero
  network := none
  address := none
  txHash := none
  status := .completed
  rawStatus := .null
  occurredAt := time
  metadata := []

/-- Of three records with one identifier the first wins, and in the ledger of an asset without it the
second. -/
theorem indexes_of_repeated_id :
    let early : Moment := ⟨1, some 0, by decide⟩
    let late : Moment := ⟨2, some 0, by decide⟩
    let records := [sampleRecord "x" .deposit "BTC" late, sampleRecord "x" .withdrawal "USDT" late,
      sampleRecord "x" .payment "usdt" early]
    (∀ a ∈ records, ∀ b ∈ records, a.occurredAt.comparable b.occurredAt = true) ∧
      ∃ l sub, build records = .ok l ∧ l.forAsset "Usdt" = .ok sub ∧
        (l.get? "x").map (·.kind) = some .deposit ∧
        (sub.get? "x").map (·.kind) = some .withdrawal ∧
        l.log = [.duplicateId ⟨"x", .deposit, .withdrawal⟩, .duplicateId ⟨"x", .deposit, .payment⟩] ∧
        sub.log = [.duplicateId ⟨"x", .withdrawal, .payment⟩] := by
  intro early late records
  have hclock : ∀ a ∈ records, ∀ b ∈ records, a.occurredAt.comparable b.occurredAt = true := by
    decide
  obtain ⟨⟨l, hl⟩, hreachable⟩ := indexes_of_reachableFrom hclock
  obtain ⟨hassets, hindex⟩ := hreachable l (.build hl)
  obtain ⟨sub, hsub⟩ := hassets "Usdt"
  obtain ⟨_, hsubIndex⟩ := hreachable sub (.forAsset (.build hl) hsub)
  have hrecords : l.records = records := by
    rw [build_of_haveOneClock (by decide), List.mergeSort_of_pairwise (by decide)] at hl
    rw [← Except.ok.inj hl]
    rfl
  have hsubRecords : sub.records = records.tail := by
    have hbtc : Text.toUpper "BTC" = "BTC" := by decide +kernel
    have husdt : ∀ asset ∈ ["USDT", "usdt", "Usdt"], Text.toUpper asset = "USDT" := by
      decide +kernel
    have hfilter : (records.filter fun r => Text.toUpper r.asset == Text.toUpper "Usdt") =
        records.tail := by
      simp [records, sampleRecord, hbtc, husdt]
    rw [forAsset, hrecords, hfilter, build_of_haveOneClock (by decide),
      List.mergeSort_of_pairwise (by decide)] at hsub
    rw [← Except.ok.inj hsub]
    rfl
  have hfirst : l.get? "x" = some (sampleRecord "x" .deposit "BTC" late) :=
    (hindex.get?_eq_some_iff _ _).mpr ⟨[], _, hrecords, rfl, by simp⟩
  have hsubFirst : sub.get? "x" = some (sampleRecord "x" .withdrawal "USDT" late) :=
    (hsubIndex.get?_eq_some_iff _ _).mpr ⟨[], _, hsubRecords, rfl, by simp⟩
  refine ⟨hclock, l, sub, hl, hsub, by rw [hfirst]; rfl, by rw [hsubFirst]; rfl, ?_, ?_⟩
  · obtain ⟨duplicates, hlog, hreports⟩ := hindex.warnings
    have hshadowed : l.shadowed = [(sampleRecord "x" .withdrawal "USDT" late, 1),
        (sampleRecord "x" .payment "usdt" early, 2)] := by
      rw [shadowed, hrecords]
      rfl
    rw [hshadowed] at hreports
    rw [hlog]
    obtain _ | ⟨⟨_, h₁, rfl⟩, _ | ⟨⟨_, h₂, rfl⟩, ⟨⟩⟩⟩ := hreports
    obtain rfl := Option.some.inj (hfirst.symm.trans h₁)
    obtain rfl := Option.some.inj (hfirst.symm.trans h₂)
    rfl
  · obtain ⟨duplicates, hlog, hreports⟩ := hsubIndex.warnings
    have hshadowed : sub.shadowed = [(sampleRecord "x" .payment "usdt" early, 1)] := by
      rw [shadowed, hsubRecords]
      rfl
    rw [hshadowed] at hreports
    rw [hlog]
    obtain _ | ⟨⟨_, h₁, rfl⟩, ⟨⟩⟩ := hreports
    obtain rfl := Option.some.inj (hsubFirst.symm.trans h₁)
    rfl

end Ledger

end GatewayLedger
