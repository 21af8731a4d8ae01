import GatewayLedger.Exchange.Request
import GatewayLedger.Json.Reader
import GatewayLedger.Number.Binary64.Reader
import GatewayLedger.Text.Charset

/-!
# Replies

What comes back for a request, and what it means to the caller. Every status outside the range from
200 to 299 is an error, a blank body is an empty object, and any other body has to be JSON. Decoding
and reading a body rest on the platform.
-/

namespace GatewayLedger

structure Reply where
  status : Int := 200
  body : List UInt8 := []
  charset : Option String := none
  retryAfter : Option String := none

inductive Breakage where
  | connection
  | payload
deriving DecidableEq

def Breakage.name : Breakage → String
  | .connection => "ClientError"
  | .payload => "ClientPayloadError"

inductive Delivery where
  | reply (r : Reply)
  | timedOut
  | broken (breakage : Breakage) (text : String)
  | defect

/-- What the reading of a reply takes from the machine on which the client runs. -/
structure Platform where
  codecs : Text.Codecs
  /-- How deep lists and objects may be nested in a body before the stack is exhausted. -/
  nesting : Nat

namespace Platform

def usual : Platform := ⟨Text.Charset.codecs, 960⟩

end Platform

/-- What a caller and the log learn. -/
structure Settlement where
  outcome : Except Failure Value
  log : List LogEvent

namespace Reply

/-- The body as a text, if its codec reads it. -/
def text? (r : Reply) (p : Platform) : Option String := p.codecs.decode r.charset r.body

/-- The seconds that a header asks to wait, if it is a number. -/
def retrySeconds? (r : Reply) : Option Binary64 := r.retryAfter.bind Binary64.read?

def readBody (nesting : Nat) (status : Int) (text : String) : Except Failure Value :=
  if Text.allBlank text then .ok (.object [])
  else
    match Json.readNested nesting text with
    | .ok v => .ok v
    | .error .malformed => .error (.gateway (.unknown status text))
    | .error .integerTooLong => .error .integerTooLong
    | .error .nestedTooDeep => .error .nestedTooDeep

/-- What a reply comes to once its body is a text. -/
def settleText (r : Reply) (nesting : Nat) (e : Endpoint) (text : String) : Settlement :=
  if r.status = 401 ∨ r.status = 403 then
    ⟨.error (.gateway (.auth r.status text)), [.rejectedCredentials e r.status]⟩
  else if r.status = 429 then
    ⟨.error (.gateway (.rateLimit r.retrySeconds? text)), [.rateLimited e r.retryAfter]⟩
  else if r.status < 200 ∨ 300 ≤ r.status then
    ⟨.error (.gateway (.unknown r.status text)), [.unexpectedStatus e r.status]⟩
  else ⟨readBody nesting r.status text, []⟩

/-- The body is decoded before anything else of the reply is looked at. -/
def settle (r : Reply) (p : Platform) (e : Endpoint) : Settlement :=
  match r.text? p with
  | some text => r.settleText p.nesting e text
  | none => ⟨.error .undecodable, []⟩

end Reply

namespace Delivery

def settle (d : Delivery) (p : Platform) (e : Endpoint) (timeout : Binary64) : Settlement :=
  match d with
  | reply r => r.settle p e
  | timedOut =>
    ⟨.error (.gateway (.network e.method e.path "request timed out")), [.timedOut e timeout]⟩
  | broken breakage text =>
    ⟨.error (.gateway (.network e.method e.path (if text = "" then breakage.name else text))),
      [.brokenTransport e text]⟩
  | defect => ⟨.error .transportDefect, []⟩

end Delivery

end GatewayLedger
