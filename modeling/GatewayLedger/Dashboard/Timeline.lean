import GatewayLedger.Dashboard

/-!
# Timelines

A refresh in flight is laid out in time as soon as it starts: its start, the arrivals of its
answers, and its completion. What happens to a dashboard is the timeline of all its refreshes. Much of
what falls due at one instant may happen in any order. That is up to the event loop, whose choice is a
`Plan`.
-/

namespace GatewayLedger

inductive Event where
  | start
  | arrival (part : Part) (log : List LogEvent)
  | completion (outcome : Except Failure Fetched)

namespace Event

/-- The order of what happens to one refresh at one instant. -/
def rank : Event → Nat
  | start => 0
  | arrival _ _ => 1
  | completion _ => 2

end Event

/-- An event of a refresh, which is told from others by its number. -/
structure Happening where
  refresh : Nat
  event : Event

abbrev Timeline := List (Timed Happening)

/-- One refresh with all that is to become of it. -/
structure Flight where
  number : Nat
  start : Nat
  account : Issued
  history : HistoryRequests

namespace Flight

def issued (f : Flight) : List Issued := f.account :: f.history.toList

def parts (f : Flight) : List (Part × Issued) := (.account, f.account) :: f.history.parts

def requests (f : Flight) : List Request := f.issued.filterMap (·.request)

def withTurns (f : Flight) (turn : Turns) : Flight :=
  { f with history := { f.history with turn := turn } }

/-- The requests as a job: those for the history are a group of their own. -/
def job (f : Flight) : Job Failure Value :=
  let account := .running (f.account.task f.start)
  let history := f.history.job f.start
  .group (if f.history.turn .history < f.history.turn .account then [history, account]
    else [account, history])

def fetched (f : Flight) : Except Failure Fetched := do
  let account ← f.account.settlement.outcome
  let sources ← f.history.sources
  .ok ⟨account, sources⟩

def task (f : Flight) : Task Failure Fetched :=
  f.job.settle Failure.isGateway f.start f.fetched

def startOf (f : Flight) : Timed Happening := ⟨f.start, f.number, .start⟩

def completionOf (f : Flight) : Timed Happening :=
  ⟨f.task.instant, f.number, .completion f.task.value⟩

/-- The arrivals before the refresh is over; later ones are cancelled. -/
def arrivals (f : Flight) : Timeline :=
  (f.parts.map fun p => ⟨p.2.instant f.start, f.number, .arrival p.1 p.2.settlement.log⟩).filter
    (·.instant ≤ f.task.instant)

def timeline (f : Flight) : Timeline := f.startOf :: f.arrivals ++ [f.completionOf]

def failure? (f : Flight) (clock : RowClock) : Option Failure :=
  Dashboard.failureOf f.task.value clock

end Flight

namespace Client

/-- Starts a refresh: the request for the account, and then those for the history. -/
def launch (c : Client) (filter : Filter) (number start : Nat) : Flight × Client :=
  let (account, c) := c.issue .balances
  let (history, c) := c.requestHistory filter
  (⟨number, start, account, history⟩, c)

end Client

/-! ## The order of one instant -/

namespace Timeline

/-- The first of two happenings has to come before the second: it is earlier, or it is of one instant
and one refresh with it and of lower rank, or both are starts of that instant. -/
def Precedes (a b : Timed Happening) : Prop :=
  a.instant < b.instant ∨ a.instant = b.instant ∧
    (a.value.refresh = b.value.refresh ∧ a.value.event.rank < b.value.event.rank ∨
      a.value.refresh < b.value.refresh ∧ a.value.event.rank = 0 ∧ b.value.event.rank = 0)

/-- Everything up to the first happening of a kind, and what comes after it. -/
def through (p : Timed Happening → Bool) : Timeline → Timeline × Timeline
  | [] => ([], [])
  | h :: rest =>
    if p h then ([h], rest)
    else
      let (done, later) := through p rest
      (h :: done, later)

end Timeline

/-- The choices of an event loop: the turns of what is due together in each refresh, and an order of
all that happens. -/
structure Plan where
  turns : Nat → Turns
  arrange : Timeline → Timeline
  perm : ∀ t, (arrange t).Perm t
  inOrder : ∀ t, (arrange t).Pairwise fun a b => ¬ Timeline.Precedes b a

/-- An event loop chooses in view of all that it has been given to run. -/
abbrev Scheduler := List Flight → Plan

namespace Plan

/-- By the instant, by the rank, and then by a place that is given to each happening. Starts keep the
order of their numbers. -/
def notAfter (place : Happening → Nat) (a b : Timed Happening) : Bool :=
  let placeOf (h : Happening) : Nat := if h.event.rank = 0 then h.refresh else place h
  a.instant < b.instant || (a.instant == b.instant &&
    (a.value.event.rank < b.value.event.rank ||
      (a.value.event.rank == b.value.event.rank && placeOf a.value ≤ placeOf b.value)))

theorem notAfter_iff {place : Happening → Nat} {a b : Timed Happening} :
    notAfter place a b = true ↔ a.instant < b.instant ∨ a.instant = b.instant ∧
      (a.value.event.rank < b.value.event.rank ∨ a.value.event.rank = b.value.event.rank ∧
        (if a.value.event.rank = 0 then a.value.refresh else place a.value) ≤
          (if b.value.event.rank = 0 then b.value.refresh else place b.value)) := by
  simp [notAfter]

theorem pairwise_mergeSort (place : Happening → Nat) (t : Timeline) :
    (t.mergeSort (notAfter place)).Pairwise fun a b => ¬ Timeline.Precedes b a := by
  have htrans : ∀ a b c, notAfter place a b → notAfter place b c → notAfter place a c := by
    intro a b c hab hbc
    rw [notAfter_iff] at *
    omega
  have htotal : ∀ a b, notAfter place a b || notAfter place b a := by
    intro a b
    rw [Bool.or_eq_true, notAfter_iff, notAfter_iff]
    omega
  refine (List.pairwise_mergeSort htrans htotal t).imp ?_
  intro a b hab hba
  rw [notAfter_iff] at hab
  unfold Timeline.Precedes at hba
  rcases hba with hlt | ⟨heq, ⟨hsame, hrank⟩ | ⟨hnumber, ha, hb⟩⟩
  · omega
  · omega
  · rw [if_pos ha, if_pos hb] at hab
    omega

/-- At one instant starts come first and completions last. -/
def byPlace (turns : Nat → Turns) (place : Happening → Nat) : Plan where
  turns := turns
  arrange t := t.mergeSort (notAfter place)
  perm t := List.mergeSort_perm t _
  inOrder := pairwise_mergeSort place

end Plan

end GatewayLedger
