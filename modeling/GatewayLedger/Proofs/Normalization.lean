import GatewayLedger.Ledger.Reconciliation
import GatewayLedger.Proofs.Json
import GatewayLedger.Proofs.Record.Status
import GatewayLedger.Proofs.Time.Moment
import Mathlib.Data.List.Forall2

/-!
# Normalization of rows

Every moment that a row yields is one of the UTC clock, and a row of JSON yields a record unless its
status is a number that memory cannot hold. `Record.forall₂_ofKindRows` says what the rows of a pass
come to: one record for each row, in the order of the rows, with an answer of the clock where the row
has no time.
-/

namespace GatewayLedger

namespace Moment

theorem isUtc_of_ofMillis? {x : Binary64} {m : Moment} (h : ofMillis? x = some m) : m.IsUtc := by
  simp only [ofMillis?, Option.bind_eq_bind, Option.bind_eq_some_iff] at h
  obtain ⟨whole, _, micros, _, h⟩ := h
  exact offset_of_ofReading? h

end Moment

namespace Timestamp

theorem isUtc_of_ofNumeral? {n : Numeral} {m : Moment} (h : ofNumeral? n = some m) : m.IsUtc := by
  cases n with
  | finite d => exact Moment.isUtc_of_ofMillis? h
  | _ => cases h

theorem isUtc_of_ofText? {text : String} {m : Moment} (h : ofText? text = some m) : m.IsUtc := by
  unfold ofText? at h
  dsimp only at h
  split at h
  · exact isUtc_of_ofNumeral? h
  · simp only [ofIso?, Option.bind_eq_bind, Option.bind_eq_some_iff] at h
    obtain ⟨p, _, hp⟩ := h
    exact Moment.isUtc_of_toUtc? hp

theorem isUtc_of_ofValue {v : Value} {m : Moment} (h : ofValue v = .ok (some m)) : m.IsUtc := by
  unfold ofValue at h
  split at h
  · cases h
  · cases h
  · split at h
    · next u hu =>
      cases h
      exact Moment.isUtc_of_toUtc? hu
    · cases h
  · exact Moment.isUtc_of_ofMillis? (Except.ok.inj h)
  · exact Moment.isUtc_of_ofMillis? (Except.ok.inj h)
  · exact isUtc_of_ofNumeral? (Except.ok.inj h)
  · exact isUtc_of_ofText? (Except.ok.inj h)

theorem isUtc_of_firstOf {row : Fields} {names : List String} {m : Moment}
    (h : firstOf row names = .ok (some m)) : m.IsUtc := by
  induction names with
  | nil => cases h
  | cons name rest ih =>
    obtain ⟨found, hv, h⟩ := exists_of_bind_eq_ok h
    cases found with
    | some u =>
      cases h
      exact isUtc_of_ofValue hv
    | none => exact ih h

/-- Reading a time fails for a moment of another clock only, and JSON has no moments. -/
theorem exists_ofValue_of_isJson {v : Value} (h : v.IsJson) : ∃ found, ofValue v = .ok found := by
  cases h <;> exact ⟨_, rfl⟩

theorem exists_firstOf_of_areJson {row : Fields} (h : row.AreJson) (names : List String) :
    ∃ found, firstOf row names = .ok found := by
  induction names with
  | nil => exact ⟨none, rfl⟩
  | cons name rest ih =>
    obtain ⟨found, hv⟩ := exists_ofValue_of_isJson (Value.isJson_field h name)
    obtain ⟨others, hr⟩ := ih
    rw [firstOf, hv]
    cases found with
    | some m => exact ⟨some m, rfl⟩
    | none => exact ⟨others, hr⟩

end Timestamp

namespace RowClock

def IsUtc (c : RowClock) : Prop := ∀ n, (c.answer n).IsUtc

def IsAware (c : RowClock) : Prop := ∀ n, (c.answer n).isAware = true

theorem IsUtc.isAware {c : RowClock} (h : c.IsUtc) : c.IsAware := fun n => Moment.isAware_of_isUtc (h n)

end RowClock

namespace Record

/-- The record is what a row of the kind is normalized to, at some answer of the clock. -/
def IsNormalized (clock : RowClock) (kind : Kind) (row : Fields) (r : Record) : Prop :=
  ∃ n, ofRow kind (clock.answer n) row = .ok r

/-- The row has a status: it is no number that its kind looks up and memory cannot hold. -/
def HasStatus (kind : Kind) (row : Fields) : Prop :=
  kind ≠ .payment → ¬ (Value.field row "status").ExceedsMemory

variable {clock : RowClock} {kind : Kind} {row : Fields} {rows : List (Kind × Fields)} {r : Record}
  {now : Moment} {time : Option Moment}

theorem exists_statusOf (h : HasStatus kind row) : ∃ status, statusOf kind row = .ok status := by
  rcases Status.ofRaw_cases kind (Value.field row "status") with ⟨hkind, hexceeds, -⟩ | ⟨-, hs⟩
  · exact absurd hexceeds (h hkind)
  · exact hs

theorem statusOf_eq_error (h : ¬ HasStatus kind row) : statusOf kind row = .error .outOfMemory := by
  rcases Status.ofRaw_cases kind (Value.field row "status") with ⟨-, -, herror⟩ | ⟨hfits, -⟩
  · exact herror
  · exact absurd hfits h

theorem exists_of_ofRow (h : ofRow kind now row = .ok r) :
    ∃ status time, statusOf kind row = .ok status ∧
      Timestamp.firstOf row (timeFields kind) = .ok time ∧
      r = ofTimedRow kind row status (time.getD now) := by
  obtain ⟨status, hs, h⟩ := exists_of_bind_eq_ok h
  obtain ⟨time, ht, h⟩ := exists_of_bind_eq_ok h
  exact ⟨status, time, hs, ht, (Except.ok.inj h).symm⟩

theorem exists_ofRow (hs : HasStatus kind row)
    (ht : Timestamp.firstOf row (timeFields kind) = .ok time) (now : Moment) :
    ∃ status, statusOf kind row = .ok status ∧
      ofRow kind now row = .ok (ofTimedRow kind row status (time.getD now)) := by
  obtain ⟨status, hstatus⟩ := exists_statusOf hs
  exact ⟨status, hstatus, by rw [ofRow, hstatus, ht]; rfl⟩

/-- A row of JSON comes to a record exactly if it has a status. -/
theorem exists_ofRow_iff (h : row.AreJson) (kind : Kind) (now : Moment) :
    (∃ r, ofRow kind now row = .ok r) ↔ HasStatus kind row := by
  constructor
  · rintro ⟨r, hr⟩
    obtain ⟨status, _, hstatus, -⟩ := exists_of_ofRow hr
    by_contra hs
    cases (statusOf_eq_error hs).symm.trans hstatus
  · intro hs
    obtain ⟨time, ht⟩ := Timestamp.exists_firstOf_of_areJson h (timeFields kind)
    obtain ⟨status, -, hr⟩ := exists_ofRow hs ht now
    exact ⟨_, hr⟩

theorem IsNormalized.ofRaw_eq (h : IsNormalized clock kind row r) :
    Status.ofRaw r.kind r.rawStatus = .ok r.status := by
  obtain ⟨n, hn⟩ := h
  obtain ⟨status, time, hs, _, rfl⟩ := exists_of_ofRow hn
  exact hs

/-- The time of a record comes from its row, and then it is UTC, or else from the clock. -/
theorem IsNormalized.occurredAt_cases (h : IsNormalized clock kind row r) :
    r.occurredAt.IsUtc ∨ ∃ n, r.occurredAt = clock.answer n := by
  obtain ⟨n, hn⟩ := h
  obtain ⟨status, time, _, ht, rfl⟩ := exists_of_ofRow hn
  cases time with
  | some m => exact .inl (Timestamp.isUtc_of_firstOf ht)
  | none => exact .inr ⟨n, rfl⟩

theorem IsNormalized.isUtc (h : IsNormalized clock kind row r) (hc : clock.IsUtc) :
    r.occurredAt.IsUtc := by
  rcases h.occurredAt_cases with hu | ⟨n, hn⟩
  · exact hu
  · exact hn ▸ hc n

theorem IsNormalized.isAware (h : IsNormalized clock kind row r) (hc : clock.IsAware) :
    r.occurredAt.isAware = true := by
  rcases h.occurredAt_cases with hu | ⟨n, hn⟩
  · exact Moment.isAware_of_isUtc hu
  · exact hn ▸ hc n

theorem IsNormalized.of_next (h : IsNormalized clock.next kind row r) :
    IsNormalized clock kind row r := by
  obtain ⟨n, hn⟩ := h
  exact ⟨n + 1, hn⟩

theorem exists_append_of_forall₂ {α β : Type} {R : α → β → Prop} {as bs : List α} {u : List β}
    (h : List.Forall₂ R (as ++ bs) u) :
    ∃ us vs, u = us ++ vs ∧ List.Forall₂ R as us ∧ List.Forall₂ R bs vs := by
  induction as generalizing u with
  | nil => exact ⟨[], u, rfl, .nil, h⟩
  | cons a as ih =>
    obtain ⟨x, u', hx, hrest, rfl⟩ := List.forall₂_cons_left_iff.mp h
    obtain ⟨us, vs, rfl, hu, hv⟩ := ih hrest
    exact ⟨x :: us, vs, rfl, .cons hx hu, hv⟩

/-- Rows of JSON that have a status come to one record each. The induction lets the clock move on,
since a row without a time takes an answer away from the rows that follow. -/
theorem forall₂_ofKindRows (clock : RowClock) (h : ∀ p ∈ rows, p.2.AreJson)
    (hs : ∀ p ∈ rows, HasStatus p.1 p.2) :
    ∃ records, ofKindRows clock rows = .ok records ∧
      List.Forall₂ (fun p r => IsNormalized clock p.1 p.2 r) rows records := by
  induction rows generalizing clock with
  | nil => exact ⟨[], rfl, .nil⟩
  | cons p rest ih =>
    obtain ⟨kind, row⟩ := p
    obtain ⟨hrow, hrest⟩ := List.forall_mem_cons.mp h
    obtain ⟨hsrow, hsrest⟩ := List.forall_mem_cons.mp hs
    obtain ⟨time, ht⟩ := Timestamp.exists_firstOf_of_areJson hrow (timeFields kind)
    obtain ⟨status, hstatus, hr⟩ := exists_ofRow hsrow ht clock.now
    obtain ⟨records, hrecords, hf⟩ := ih (if time.isSome then clock else clock.next) hrest hsrest
    refine ⟨ofTimedRow kind row status (time.getD clock.now) :: records, ?_, .cons ⟨0, hr⟩ ?_⟩
    · simp only [ofKindRows, hstatus, ht, hrecords, bind, Except.bind]
    · refine hf.imp fun q r hq => ?_
      split at hq
      · exact hq
      · exact hq.of_next

/-- The first row without a status is the end of rows of JSON. -/
theorem ofKindRows_eq_error (clock : RowClock) (h : ∀ p ∈ rows, p.2.AreJson)
    (hs : ¬ ∀ p ∈ rows, HasStatus p.1 p.2) : ofKindRows clock rows = .error .outOfMemory := by
  induction rows generalizing clock with
  | nil => exact absurd (fun _ hp => absurd hp List.not_mem_nil) hs
  | cons p rest ih =>
    obtain ⟨kind, row⟩ := p
    obtain ⟨hrow, hrest⟩ := List.forall_mem_cons.mp h
    by_cases hsrow : HasStatus kind row
    · obtain ⟨time, ht⟩ := Timestamp.exists_firstOf_of_areJson hrow (timeFields kind)
      obtain ⟨status, hstatus⟩ := exists_statusOf hsrow
      have hothers := ih (if time.isSome then clock else clock.next) hrest fun hall =>
        hs (List.forall_mem_cons.mpr ⟨hsrow, hall⟩)
      simp only [ofKindRows, hstatus, ht, hothers, bind, Except.bind]
    · simp only [ofKindRows, statusOf_eq_error hsrow, bind, Except.bind]

end Record

end GatewayLedger
