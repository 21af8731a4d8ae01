import GatewayLedger.Balance
import GatewayLedger.Exchange.Fetch

/-!
# Dashboard

The dashboard shows the balances and the ledger of the refresh that completed last. A refresh that
starts changes the state alone; one that completes replaces the whole context, by what it fetched or
by an error without data. Refreshes may overlap.
-/

namespace GatewayLedger

inductive DashboardState where
  | idle
  | loading
  | ready
  | error
deriving DecidableEq

def DashboardState.name : DashboardState → String
  | .idle => "idle"
  | .loading => "loading"
  | .ready => "ready"
  | .error => "error"

structure Context where
  state : DashboardState
  balances : List Balance
  ledger : Ledger
  errorMessage : Option String
  refreshedAt : Option Moment

def Context.initial : Context := ⟨.idle, [], Ledger.empty, none, none⟩

structure Notification where
  kind : String
  message : String
deriving DecidableEq

def Notification.logEvent (n : Notification) : LogEvent := .notification n.kind n.message

/-- What the dashboard does to the world, in order. -/
inductive Effect where
  | log (event : LogEvent)
  | notify (notification : Notification)

structure Fetched where
  account : Value
  sources : Sources

structure Dashboard where
  context : Context
  reconciler : Reconciler

/-- The dashboard after a refresh has completed, and the failure that is left to its caller. -/
structure Completion where
  dashboard : Dashboard
  effects : List Effect
  raised : Option Failure

namespace Dashboard

def initial : Dashboard := ⟨Context.initial, Reconciler.initial⟩

def start (d : Dashboard) : Dashboard := { d with context := { d.context with state := .loading } }

/-- An error of the exchange is shown and told to the user. -/
def showError (d : Dashboard) (e : GatewayError) (time : Option Moment) : Completion where
  dashboard := { d with context := ⟨.error, [], Ledger.empty, some e.userMessage, time⟩ }
  effects := [.log (.refreshFailed e), .notify ⟨"error", e.userMessage⟩]
  raised := none

/-- Publishes the ledger, and then shows it with the balances. -/
def showData (d : Dashboard) (f : Fetched) (clock : RowClock) (time : Option Moment) :
    Completion :=
  match f.sources.ledger clock with
  | .error fault => ⟨d, [], some (.ledger fault)⟩
  | .ok ledger =>
    let published := { d with reconciler := ⟨ledger⟩ }
    let effects := ledger.log.map .log
    match Balance.ofPayload f.account with
    | .error fault => ⟨published, effects, some (.ledger fault)⟩
    | .ok balances =>
      let context : Context := ⟨.ready, Balance.nonZero balances, ledger, none, time⟩
      ⟨{ published with context := context }, effects, none⟩

def complete (d : Dashboard) (outcome : Except Failure Fetched) (clock : RowClock)
    (time : Option Moment) : Completion :=
  match outcome with
  | .ok fetched => d.showData fetched clock time
  | .error (.gateway e) => d.showError e time
  | .error failure => ⟨d, [], some failure⟩

/-- The failure that a refresh leaves to its caller. Errors of the exchange are not among them. -/
def failureOf (outcome : Except Failure Fetched) (clock : RowClock) : Option Failure :=
  match outcome with
  | .ok f =>
    match f.sources.ledger clock, Balance.ofPayload f.account with
    | .error fault, _ => some (.ledger fault)
    | .ok _, .error fault => some (.ledger fault)
    | .ok _, .ok _ => none
  | .error (.gateway _) => none
  | .error failure => some failure

end Dashboard

end GatewayLedger
