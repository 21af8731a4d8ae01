import GatewayLedger.Command
import GatewayLedger.Command.Confirmation
import GatewayLedger.Dashboard.Monitor
import GatewayLedger.Dashboard.Timers
import GatewayLedger.Json.Printer
import GatewayLedger.Report.Balances
import GatewayLedger.Report.Ledger
import GatewayLedger.Report.Statistics
import GatewayLedger.Settings

/-!
# Running commands

`Run.ofWords` runs a command line against an exchange and tells what is printed, which requests are
sent and how the program ends. Errors of the exchange are shown to the user; any other failure
escapes.
-/

namespace GatewayLedger

/-- All that a command line works with besides its words. -/
structure Surroundings where
  source : Settings.Source
  input : String
  script : Script
  clock : List Seconds
  now : Moment
  platform : Platform

inductive Escape where
  | settings (fault : Settings.Fault)
  | failure (failure : Failure)
deriving DecidableEq

inductive Ending where
  | success
  /-- The words are no command line. -/
  | misuse
  /-- The user has been told why nothing more is done. -/
  | refused
  | escaped (escape : Escape)
deriving DecidableEq

def Ending.exitCode : Ending → Nat
  | .success => 0
  | .misuse => 2
  | .refused => 1
  | .escaped _ => 1

structure Run where
  output : String
  errors : String
  requests : List Request
  sessions : Sessions
  ending : Ending

/-- What a visit to the exchange brings back. -/
structure Visit (α : Type) where
  outcome : Except Failure α
  requests : List Request
  sessions : Sessions
  effects : List Effect

namespace Run

/-! ## Endings -/

def quiet (ending : Ending) : Run := ⟨"", "", [], Sessions.initial, ending⟩

def refused (errors : String) : Run := { quiet .refused with errors := errors }

def printed (output : String) : Run := { quiet .success with output := output }

def after (r : Run) (output errors : String) : Run :=
  { r with output := output ++ r.output, errors := errors ++ r.errors }

def during {α : Type} (r : Run) (v : Visit α) : Run :=
  { r with requests := v.requests, sessions := v.sessions }

def ofFault (f : Fault) : Run := quiet (.escaped (.failure (.ledger f)))

def ofFailure : Failure → Run
  | .gateway e => refused ("Error: " ++ e.userMessage ++ "\n")
  | failure => quiet (.escaped (.failure failure))

def ofReport : Except Fault String → Run
  | .ok text => printed (text ++ "\n")
  | .error f => ofFault f

def ofJson (v : Value) : Run := printed (Json.text v ++ "\n")

def ofVisit {α : Type} (v : Visit α) (next : α → Run) : Run :=
  match v.outcome with
  | .ok x => (next x).during v
  | .error failure => (ofFailure failure).during v

end Run

namespace Surroundings

/-! ## Visits -/

def settings (s : Surroundings) (baseUrl : Option String) : Except Settings.Fault Settings :=
  (Settings.load s.source).map fun settings => settings.withBaseUrl baseUrl

def client (s : Surroundings) (settings : Settings) : Except GatewayError Client := do
  let credentials ← settings.credentials
  let account ← Account.make credentials.apiKey credentials.secret settings.baseUrl settings.timeout
  .ok ⟨account, Sessions.initial, s.clock, s.script, s.platform⟩

/-- Makes a client for one visit and closes it at the end. -/
def visit {α : Type} (s : Surroundings) (settings : Settings)
    (act : Client → Except Failure α × List Request × List Effect × Client) : Visit α :=
  match s.client settings with
  | .error e => ⟨.error (.gateway e), [], Sessions.initial, []⟩
  | .ok client =>
    let (outcome, requests, effects, client) := act client
    ⟨outcome, requests, client.close.sessions, effects⟩

def call (s : Surroundings) (settings : Settings) (call : Call) : Visit Value :=
  s.visit settings fun client =>
    let (issued, client) := client.issue call
    (issued.settlement.outcome, issued.request.toList, [], client)

def filter (settings : Settings) : Filter := { limit := settings.limit }

def fetchLedger (s : Surroundings) (settings : Settings) : Visit Ledger :=
  s.visit settings fun client =>
    let (history, client) := client.requestHistory (filter settings)
    let pass := Reconciler.initial.refresh { history with turn := Timers.turnsOf history } s.now
    (pass.result, history.toList.filterMap (·.request), [], client)

def watch (s : Surroundings) (settings : Settings) (interval : Binary64) (ticks : Int) :
    Visit Context :=
  s.visit settings fun client =>
    let monitor := Monitor.initial client Timers.scheduler s.now s.now
    let (monitor, activity) :=
      monitor.runPeriodic (Tick.ofSeconds interval) ticks.toNat (filter settings)
    let outcome :=
      match activity.raised with
      | none => .ok monitor.dashboard.context
      | some failure => .error failure
    (outcome, activity.requests, activity.effects, monitor.client)

end Surroundings

namespace Run

/-! ## Commands -/

def withSettings (s : Surroundings) (baseUrl : Option String) (next : Settings → Run) : Run :=
  match s.settings baseUrl with
  | .ok settings => next settings
  | .error fault => quiet (.escaped (.settings fault))

/-- A finite decimal, or what the user is told instead. -/
def withAmount (text : String) (next : Decimal → Run) : Run :=
  match Decimal.read? text with
  | some amount => next amount
  | none => refused ("Error: '" ++ text ++ "' is not a valid amount\n")

/-- The ledger of the asset that is named, or the whole ledger if none is. -/
def restrict (l : Ledger) : Option String → Except Fault Ledger
  | none => .ok l
  | some "" => .ok l
  | some asset => l.forAsset asset

def mixedAssetsWarning : String :=
  "Warning: ledger mixes assets; volume totals add amounts across assets. " ++
    "Use --asset to restrict.\n"

/-- The warning is due where several assets occur and none of them is named. -/
def assetWarning (l : Ledger) (asset : Option String) : String :=
  if (asset.getD "") == "" && 1 < l.assets.length then mixedAssetsWarning else ""

def balances (s : Surroundings) (settings : Settings) (showAll : Bool) : Run :=
  ofVisit (s.call settings .balances) fun payload =>
    match Balance.ofPayload payload with
    | .error f => ofFault f
    | .ok bs => ofReport (Report.balances (if showAll then bs else Balance.nonZero bs))

def ledger (s : Surroundings) (settings : Settings) (limit : Option Int) (asset : Option String) :
    Run :=
  ofVisit (s.fetchLedger settings) fun l =>
    match restrict l asset with
    | .error f => ofFault f
    | .ok l => ofReport (Report.ledger l limit asset)

def stats (s : Surroundings) (settings : Settings) (granularity : Granularity)
    (asset : Option String) : Run :=
  ofVisit (s.fetchLedger settings) fun l =>
    match restrict l asset with
    | .error f => ofFault f
    | .ok shown =>
      (ofReport (Report.statisticsOf shown s.now granularity asset)).after "" (assetWarning l asset)

def question (w : Withdrawal) : String :=
  "Withdraw " ++ w.amount.text ++ " " ++ w.coin ++ " to " ++ w.address ++ " on " ++ w.network ++
    "? [y/N]: "

def retryHint : String :=
  "Check the withdrawal history before retrying; the request may have been accepted.\n"

/-- Whether the exchange may have accepted a request that failed in this way. -/
def isAmbiguous : Failure → Bool
  | .gateway (.network _ _ _) => true
  | .gateway (.unknown _ _) => true
  | _ => false

def hintAfter (outcome : Except Failure Value) : String :=
  match outcome with
  | .ok _ => ""
  | .error failure => if isAmbiguous failure then retryHint else ""

def submit (s : Surroundings) (settings : Settings) (w : Withdrawal) : Run :=
  let visit := s.call settings (.submitWithdrawal w)
  let run := ofVisit visit ofJson
  { run with errors := run.errors ++ hintAfter visit.outcome }

def aborted : String := "Aborted.\n"

def confirmed (s : Surroundings) (w : Withdrawal) (next : Run) : Run :=
  let answer := Confirmation.ask (question w) (Confirmation.lines s.input)
  (if answer.agreed then next else refused aborted).after answer.shown ""

def withdraw (s : Surroundings) (baseUrl : Option String) (w : Withdrawal) (isConfirmed : Bool) :
    Run :=
  match w.check with
  | .error failure => ofFailure failure
  | .ok () =>
    let next := withSettings s baseUrl fun settings => submit s settings w
    if isConfirmed then next else confirmed s w next

def requestPayment (s : Surroundings) (settings : Settings) (p : PaymentRequest) : Run :=
  ofVisit (s.call settings (.requestPayment p)) ofJson

def notificationLine (n : Notification) : String := "[" ++ n.kind ++ "] " ++ n.message ++ "\n"

def notifications (effects : List Effect) : String :=
  String.join (effects.map fun e =>
    match e with
    | .notify n => notificationLine n
    | .log _ => "")

def showContext (c : Context) : Run :=
  if c.state = .error then
    refused ("No data: " ++ c.errorMessage.getD "None" ++ "\n")
  else
    match Report.balances c.balances with
    | .error f => ofFault f
    | .ok text => (ofReport (Report.ledger c.ledger none none)).after (text ++ "\n") ""

def watch (s : Surroundings) (settings : Settings) (interval : Option Binary64) (ticks : Int) :
    Run :=
  let visit := s.watch settings (interval.getD settings.interval) ticks
  (ofVisit visit showContext).after "" (notifications visit.effects)

def ofInvocation (s : Surroundings) (i : Invocation) : Run :=
  let loaded := withSettings s i.baseUrl
  match i.command with
  | .balances showAll => loaded fun settings => balances s settings showAll
  | .ledger limit asset => loaded fun settings => ledger s settings limit asset
  | .stats granularity asset => loaded fun settings => stats s settings granularity asset
  | .accountStatus => loaded fun settings => ofVisit (s.call settings .accountStatus) ofJson
  | .withdraw coin address amount network isConfirmed =>
    withAmount amount fun amount =>
      withdraw s i.baseUrl ⟨Text.toUpper coin, address, amount, Text.toUpper network⟩ isConfirmed
  | .requestPayment asset amount customer description =>
    withAmount amount fun amount => loaded fun settings =>
      requestPayment s settings ⟨Text.toUpper asset, amount, customer, description⟩
  | .watch interval ticks => loaded fun settings => watch s settings interval ticks

def verbose : Switch := ⟨"verbose", some "--verbose", some 'v', false⟩

/-- Runs the command that the words name. The settings have to be in order before the words of the
command are read, unless the run is verbose. -/
def ofWords (s : Surroundings) (words : List String) : Run :=
  match Arguments.read false [verbose] words with
  | none => quiet .misuse
  | some a =>
    match a.words with
    | [] => quiet .misuse
    | word :: rest =>
      match CommandName.named? word with
      | none => quiet .misuse
      | some name =>
        match Settings.load s.source with
        | .error fault =>
          if a.has "verbose" then invoke name rest else quiet (.escaped (.settings fault))
        | .ok _ => invoke name rest
where
  invoke (name : CommandName) (words : List String) : Run :=
    match Invocation.read? name words with
    | none => quiet .misuse
    | some i => ofInvocation s i

end Run

end GatewayLedger
