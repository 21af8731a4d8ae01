import GatewayLedger.Concurrent
import GatewayLedger.Exchange.Client
import GatewayLedger.Ledger.Reconciliation
import GatewayLedger.Time.Tick

/-!
# Fetching the history

The requests for deposits, withdrawals and payments are made together, at one instant and with one
filter. They make up the sources of a ledger if all three succeed.
-/

namespace GatewayLedger

namespace Issued

def instant (i : Issued) (start : Nat) : Nat := Tick.after start i.delay

def task (i : Issued) (start : Nat) : Task Failure Value := ⟨i.instant start, i.settlement.outcome⟩

/-- The log lines of a call, at the instant of its outcome. -/
def arrival (i : Issued) (start : Nat) : Timed (List LogEvent) := ⟨i.instant start, i.settlement.log⟩

end Issued

/-- What is under way together in a refresh: four requests, and the history as the group of three of
them. -/
inductive Part where
  | account
  | history
  | deposits
  | withdrawals
  | payments
deriving DecidableEq

/-- In which order the parts take effect that are due at one instant. That is up to the event loop. -/
abbrev Turns := Part → Nat

structure HistoryRequests where
  deposits : Issued
  withdrawals : Issued
  payments : Issued
  turn : Turns

namespace HistoryRequests

def toList (h : HistoryRequests) : List Issued := [h.deposits, h.withdrawals, h.payments]

def parts (h : HistoryRequests) : List (Part × Issued) :=
  [(.deposits, h.deposits), (.withdrawals, h.withdrawals), (.payments, h.payments)]

/-- The requests in the order in which they take effect if they are due together. -/
def inTurn (h : HistoryRequests) : List Issued :=
  (h.parts.mergeSort fun a b => h.turn a.1 ≤ h.turn b.1).map (·.2)

def job (h : HistoryRequests) (start : Nat) : Job Failure Value :=
  .group (h.inTurn.map fun i => .running (i.task start))

def sources (h : HistoryRequests) : Except Failure Sources := do
  let deposits ← h.deposits.settlement.outcome
  let withdrawals ← h.withdrawals.settlement.outcome
  let payments ← h.payments.settlement.outcome
  .ok ⟨deposits, withdrawals, payments⟩

def task (h : HistoryRequests) (start : Nat) : Task Failure Sources :=
  (h.job start).settle Failure.isGateway start h.sources

end HistoryRequests

/-- The log lines that arrive up to an instant, in their order. -/
def logUntil (instant : Nat) (arrivals : List (Timed (List LogEvent))) : List LogEvent :=
  ((arrivals.filter (·.instant ≤ instant)).mergeSort fun a b => a.instant ≤ b.instant).flatMap
    (·.value)

namespace Client

/-- Requests the history. The requests take effect one after the other in the order in which they are
made, unless the event loop gives them other turns. -/
def requestHistory (c : Client) (filter : Filter) : HistoryRequests × Client :=
  let (deposits, c) := c.issue (.deposits filter)
  let (withdrawals, c) := c.issue (.withdrawals filter)
  let (payments, c) := c.issue (.paymentRequests filter)
  (⟨deposits, withdrawals, payments, fun _ => 0⟩, c)

end Client

/-- What a pass over the exchange brings about. -/
structure Pass where
  reconciler : Reconciler
  result : Except Failure Ledger
  log : List LogEvent

namespace Reconciler

/-- Fetches the history and publishes the ledger that it makes up. Nothing is published unless all
requests succeed. -/
def refresh (r : Reconciler) (h : HistoryRequests) (clock : RowClock) : Pass :=
  let task := h.task 0
  let log := logUntil task.instant (h.inTurn.map (·.arrival 0))
  let result := task.value.bind fun s => (s.ledger clock).mapError .ledger
  let built :=
    match result with
    | .ok ledger => ledger.log
    | .error _ => []
  ⟨r.settle result, result, log ++ built⟩

end Reconciler

end GatewayLedger
