import GatewayLedger.Proofs.Dashboard.Refresh

/-!
# Refreshes that overlap

Refreshes of one dashboard start and end in any order. `Overlap.Reachable` lists the steps of such a
run. A start may strike while the dashboard shows data or an error, and it hides nothing of that but
the state, so at any point the dashboard shows what the last refresh that has ended left there.
-/

namespace GatewayLedger

namespace Dashboard

/-- How a refresh ends that leaves no failure to its caller. -/
inductive Ending where
  | data (balances : List Balance) (ledger : Ledger)
  | error (e : GatewayError)

namespace Ending

def ledger? : Ending → Option Ledger
  | data _ ledger => some ledger
  | error _ => none

def error? : Ending → Option GatewayError
  | data _ _ => none
  | error e => some e

/-- The ending that the outcome of the requests leads to. -/
inductive Of (clock : RowClock) : Except Failure Fetched → Ending → Prop
  | data {f : Fetched} {ledger : Ledger} {balances : List Balance}
      (hl : f.sources.ledger clock = .ok ledger) (hb : Balance.ofPayload f.account = .ok balances) :
      Of clock (.ok f) (data (Balance.nonZero balances) ledger)
  | error (e : GatewayError) : Of clock (.error (.gateway e)) (error e)

end Ending

/-- A refresh that has ended, by its number in the order of the starts. -/
structure Ended where
  number : Nat
  ending : Ending
  time : Option Moment

def Ended.shown (e : Ended) : Context :=
  match e.ending with
  | .data balances ledger => ⟨.ready, balances, ledger, none, e.time⟩
  | .error failure => ⟨.error, [], Ledger.empty, some failure.userMessage, e.time⟩

end Dashboard

open Dashboard (Ending Ended)

structure Overlap where
  dashboard : Dashboard
  started : Nat
  /-- The refreshes that have ended, in this order. -/
  ended : List Ended
  effects : List Effect

namespace Overlap

def initial (r : Reconciler) : Overlap := ⟨⟨Context.initial, r⟩, 0, [], []⟩

def InFlight (o : Overlap) (number : Nat) : Prop :=
  number < o.started ∧ number ∉ o.ended.map (·.number)

instance (o : Overlap) (number : Nat) : Decidable (o.InFlight number) :=
  inferInstanceAs (Decidable (_ ∧ _))

def start (o : Overlap) : Overlap :=
  { o with dashboard := o.dashboard.start, started := o.started + 1 }

def finish (o : Overlap) (e : Ended) (outcome : Except Failure Fetched) (clock : RowClock) :
    Overlap :=
  let c := o.dashboard.complete outcome clock e.time
  { o with dashboard := c.dashboard, ended := o.ended ++ [e], effects := o.effects ++ c.effects }

inductive Reachable (r : Reconciler) : Overlap → Prop
  | initial : Reachable r (initial r)
  | start {o : Overlap} (h : Reachable r o) : Reachable r o.start
  | finish {o : Overlap} {e : Ended} {outcome : Except Failure Fetched} {clock : RowClock}
      (h : Reachable r o) (hf : o.InFlight e.number) (he : Ending.Of clock outcome e.ending) :
      Reachable r (o.finish e outcome clock)

/-! ## What the refreshes leave behind -/

/-- What the last refresh to end has shown, or else what a new dashboard shows. -/
def lastShown (o : Overlap) : Context := (o.ended.map Ended.shown).getLastD Context.initial

/-- The ledger of the last refresh that succeeded, or else the one that was there before. -/
def lastLedger (r : Reconciler) (o : Overlap) : Ledger :=
  (o.ended.filterMap fun e => e.ending.ledger?).getLastD r.published

def errors (o : Overlap) : List GatewayError := o.ended.filterMap fun e => e.ending.error?

variable {r : Reconciler} {o : Overlap} {e : Ended} {outcome : Except Failure Fetched}
  {clock : RowClock}

theorem context_finish (he : Ending.Of clock outcome e.ending) :
    (o.finish e outcome clock).dashboard.context = e.shown := by
  obtain ⟨number, ending, time⟩ := e
  cases he with
  | data hl hb => simp only [finish, o.dashboard.complete_of_data hl hb, Ended.shown]
  | error failure => rfl

theorem published_finish (he : Ending.Of clock outcome e.ending) :
    (o.finish e outcome clock).dashboard.reconciler.published =
      e.ending.ledger?.getD o.dashboard.reconciler.published := by
  obtain ⟨number, ending, time⟩ := e
  cases he with
  | data hl hb =>
    simp only [finish, o.dashboard.complete_of_data hl hb, Ending.ledger?, Option.getD_some]
  | error failure => rfl

theorem notified_finish (he : Ending.Of clock outcome e.ending) :
    Effect.notified (o.finish e outcome clock).effects =
      Effect.notified o.effects ++
        e.ending.error?.toList.map fun e => ⟨"error", e.userMessage⟩ := by
  obtain ⟨number, ending, time⟩ := e
  rw [finish, Effect.notified_append]
  cases he with
  | data hl hb =>
    simp only [o.dashboard.complete_of_data hl hb, Effect.notified_map_log]
    rfl
  | error failure => rfl

theorem lastShown_finish : (o.finish e outcome clock).lastShown = e.shown := by
  simp [lastShown, finish]

theorem lastLedger_finish :
    (o.finish e outcome clock).lastLedger r = e.ending.ledger?.getD (o.lastLedger r) := by
  cases h : e.ending.ledger? <;> simp [lastLedger, finish, List.filterMap_append, h]

theorem errors_finish :
    (o.finish e outcome clock).errors = o.errors ++ e.ending.error?.toList := by
  cases h : e.ending.error? <;> simp [errors, finish, List.filterMap_append, h]

theorem shown_cases (r : Reconciler) (o : Overlap) :
    o.lastShown = Context.initial ∨
      ∃ before e, o.ended = before ++ [e] ∧ o.lastShown = e.shown ∧
        ∀ ledger, e.ending.ledger? = some ledger → o.lastLedger r = ledger := by
  rcases List.eq_nil_or_concat' o.ended with hnil | ⟨before, e, hlast⟩
  · left
    simp [lastShown, hnil]
  · right
    refine ⟨before, e, hlast, by simp [lastShown, hlast], ?_⟩
    intro ledger hledger
    simp [lastLedger, hlast, List.filterMap_append, hledger]

/-! ## The invariant -/

/-- The state alone may differ from what was shown last, and only while a refresh is in flight. -/
structure Consistent (r : Reconciler) (o : Overlap) : Prop where
  shown : o.dashboard.context = { o.lastShown with state := o.dashboard.context.state }
  state : o.dashboard.context.state = o.lastShown.state ∨
    o.dashboard.context.state = .loading ∧ ∃ number, o.InFlight number
  published : o.dashboard.reconciler.published = o.lastLedger r
  notified : Effect.notified o.effects = o.errors.map fun e => ⟨"error", e.userMessage⟩
  started : ∀ number ∈ o.ended.map (·.number), number < o.started
  nodup : (o.ended.map (·.number)).Nodup

theorem consistent_initial (r : Reconciler) : Consistent r (initial r) where
  shown := rfl
  state := .inl rfl
  published := rfl
  notified := rfl
  started := by simp [initial]
  nodup := by simp [initial]

theorem Consistent.start (h : Consistent r o) : Consistent r o.start where
  shown := by
    have hshown := h.shown
    simp only [Overlap.start, Dashboard.start]
    rw [hshown]
    rfl
  state := by
    refine .inr ⟨rfl, o.started, Nat.lt_succ_self _, ?_⟩
    intro hmem
    have := h.started _ hmem
    omega
  published := h.published
  notified := h.notified
  started number hmem := Nat.lt_succ_of_lt (h.started number hmem)
  nodup := h.nodup

theorem Consistent.finish (h : Consistent r o) (hf : o.InFlight e.number)
    (he : Ending.Of clock outcome e.ending) : Consistent r (o.finish e outcome clock) where
  shown := by rw [context_finish he, lastShown_finish]
  state := by
    left
    rw [context_finish he, lastShown_finish]
  published := by rw [published_finish he, lastLedger_finish, h.published]
  notified := by rw [notified_finish he, errors_finish, List.map_append, h.notified]
  started := by
    intro number hmem
    rcases (by simpa [Overlap.finish] using hmem) with hmem | rfl
    · exact h.started number (by simpa using hmem)
    · exact hf.1
  nodup := by
    have hnew := hf.2
    simp only [Overlap.finish, List.map_append, List.map_cons, List.map_nil]
    rw [List.nodup_append]
    refine ⟨h.nodup, by simp, ?_⟩
    intro a ha b hb hab
    obtain rfl : b = e.number := by simpa using hb
    exact hnew (hab ▸ ha)

theorem Reachable.consistent (h : Reachable r o) : Consistent r o := by
  induction h with
  | initial => exact consistent_initial r
  | start _ ih => exact ih.start
  | finish _ hf he ih => exact ih.finish hf he

theorem Consistent.context_eq (h : Consistent r o)
    (hs : o.dashboard.context.state = o.lastShown.state) : o.dashboard.context = o.lastShown := by
  rw [h.shown, hs]

/-- Whatever the order in which refreshes start and end, the dashboard shows what the last of them
to end has shown, apart from the state while others are in flight. Its ledger is the one of the last
success, and the user was told once of each refresh that failed. -/
theorem shows_last_ended (h : Reachable r o) :
    let c := o.dashboard.context
    c = { o.lastShown with state := c.state } ∧
      (c.state = .ready →
        c.errorMessage = none ∧ c.ledger = o.dashboard.reconciler.published) ∧
      (c.state = .error →
        c.balances = [] ∧ c.ledger = Ledger.empty ∧
          ∃ before e failure, o.ended = before ++ [e] ∧ e.ending = .error failure ∧
            c.errorMessage = some failure.userMessage) ∧
      ((o.ended.map (·.number)).Nodup ∧
        Effect.notified o.effects = o.errors.map fun e => ⟨"error", e.userMessage⟩) ∧
      o.dashboard.reconciler.published = o.lastLedger r ∧
      ((∀ number, ¬ o.InFlight number) → c = o.lastShown) := by
  intro c
  have hc := h.consistent
  have hsettled (hs : c.state ≠ .loading) : c = o.lastShown := by
    rcases hc.state with hstate | ⟨hloading, _⟩
    · exact hc.context_eq hstate
    · exact absurd hloading hs
  refine ⟨hc.shown, ?_, ?_, ⟨hc.nodup, hc.notified⟩, hc.published, ?_⟩
  · intro hready
    have hlast := hsettled (by simp [hready])
    rw [hc.published]
    rcases shown_cases r o with hinit | ⟨before, e, _, hshown, hledger⟩
    · rw [hlast, hinit] at hready
      cases hready
    · rw [hlast, hshown] at hready ⊢
      obtain ⟨number, ending, time⟩ := e
      cases ending with
      | data balances ledger => exact ⟨rfl, (hledger ledger rfl).symm⟩
      | error failure => cases hready
  · intro herror
    have hlast := hsettled (by simp [herror])
    rcases shown_cases r o with hinit | ⟨before, e, hended, hshown, _⟩
    · rw [hlast, hinit] at herror
      cases herror
    · rw [hlast, hshown] at herror ⊢
      obtain ⟨number, ending, time⟩ := e
      cases ending with
      | data balances ledger => cases herror
      | error failure => exact ⟨rfl, rfl, before, _, failure, hended, rfl, rfl⟩
  · intro hnone
    rcases hc.state with hstate | ⟨_, number, hflight⟩
    · exact hc.context_eq hstate
    · exact absurd hflight (hnone number)

/-- Of two refreshes the one that started last fails first, and the other one then has data. -/
theorem shows_last_of_two_refreshes :
    let r := Reconciler.initial
    let clock := RowClock.still ⟨0, some 0, by decide⟩
    let denied := GatewayError.auth 401 ""
    let empty : Fetched := ⟨.null, .null, .null, .null⟩
    let o := ((initial r).start.start.finish ⟨1, .error denied, none⟩ (.error (.gateway denied))
      clock).finish ⟨0, .data [] Ledger.empty, none⟩ (.ok empty) clock
    Reachable r o ∧ o.dashboard.context = ⟨.ready, [], Ledger.empty, none, none⟩ ∧
      Effect.notified o.effects = [⟨"error", denied.userMessage⟩] := by
  intro r clock denied empty o
  have hledger : empty.sources.ledger clock = .ok Ledger.empty := by
    simp [empty, Sources.ledger, Sources.records, Sources.rows, Value.rowsUnder,
      Record.ofKindRows, Ledger.build, Record.newestFirst, Record.haveOneClock, Ledger.empty,
      bind, Except.bind]
  have hdata : Ending.Of clock (.ok empty) (.data [] Ledger.empty) := .data hledger rfl
  have hdenied : Ending.Of clock (.error (.gateway denied)) (.error denied) := .error denied
  have ho : Reachable r o :=
    .finish (.finish (.start (.start .initial)) (by decide) hdenied) (by decide) hdata
  obtain ⟨_, _, _, ⟨_, hnotified⟩, _, hsettled⟩ := shows_last_ended ho
  refine ⟨ho, hsettled ?_, hnotified⟩
  rintro number ⟨hlt, hnot⟩
  simp [o, finish, start, initial] at hlt hnot
  omega

end Overlap

end GatewayLedger
