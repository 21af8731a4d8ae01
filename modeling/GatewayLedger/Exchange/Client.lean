import GatewayLedger.Exchange.Script
import GatewayLedger.Exchange.Session
import GatewayLedger.Time.Seconds

/-!
# Clients

A client makes calls in the name of an account. A call that fails its local check sends nothing;
every other one reads the clock, is signed, and is sent exactly once.
-/

namespace GatewayLedger

/-- The client together with the exchange that answers it. -/
structure Client where
  account : Account
  sessions : Sessions
  /-- What the clock will answer; the last answer repeats. -/
  clock : List Seconds
  script : Script
  platform : Platform

structure Issued where
  request : Option Request
  /-- Ticks from the call to its outcome. -/
  delay : Nat
  settlement : Settlement

namespace Issued

/-- A call that comes to nothing before anything is sent. -/
def refused (failure : Failure) : Issued := ⟨none, 0, ⟨.error failure, []⟩⟩

end Issued

namespace Client

def readClock (c : Client) : Seconds × Client :=
  match c.clock with
  | [] => (.whole 0, c)
  | [s] => (s, c)
  | s :: rest => (s, { c with clock := rest })

def send (c : Client) (r : Request) : Issued × Client :=
  let (answer, script) := c.script.answer r
  (⟨some r, answer.delay, answer.delivery.settle c.platform r.endpoint c.account.timeout⟩,
    { c with sessions := c.sessions.acquire, script := script })

def failureOfClock : Seconds.Fault → Failure
  | .notNumber => .noMillisecond
  | .unbounded => .ledger .outsideCalendar

/-- The signed request for a payload at the time that the clock answers. The secret is looked at
before anything is written out. -/
def prepare (c : Client) (e : Endpoint) (payload : Payload) (now : Seconds) :
    Except Failure Request := do
  let millis ← now.millis.mapError failureOfClock
  let request ← (Request.make c.account e payload millis).mapError .gateway
  if Query.areWritable (Request.signedPairs payload millis) then .ok request
  else .error .integerTooLong

def issue (c : Client) (call : Call) : Issued × Client :=
  match call.payload with
  | .error failure => (.refused failure, c)
  | .ok payload =>
    let (now, c) := c.readClock
    match c.prepare call.endpoint payload now with
    | .error failure => (.refused failure, c)
    | .ok request => c.send request

def issueAll (c : Client) : List Call → List Issued × Client
  | [] => ([], c)
  | call :: rest =>
    let (issued, c) := c.issue call
    let (others, c) := c.issueAll rest
    (issued :: others, c)

def close (c : Client) : Client := { c with sessions := c.sessions.close }

end Client

end GatewayLedger
