import GatewayLedger.Fault
import GatewayLedger.Number.Binary64.Shortest
import GatewayLedger.Value.Display

/-!
# Errors of the exchange

`GatewayError` lists what can go wrong between a caller and the exchange, with a message for the log
and one for the user. A `Failure` is such an error or one of the faults that no caller is expected
to handle.
-/

namespace GatewayLedger

inductive Method where
  | get
  | post
deriving DecidableEq

def Method.name : Method → String
  | .get => "GET"
  | .post => "POST"

/-- What has to be configured before a request can be made. -/
inductive Requirement where
  | apiKey
  | signingSecret
  | keySetting
  | secretSetting
deriving DecidableEq

def Requirement.message : Requirement → String
  | .apiKey => "API key is missing"
  | .signingSecret => "signing secret is missing"
  | .keySetting => "PAYDASH_API_KEY is not set"
  | .secretSetting => "PAYDASH_API_SECRET is not set"

inductive GatewayError where
  | configuration (missing : Requirement)
  | auth (status : Int) (body : String)
  | rateLimit (retryAfter : Option Binary64) (body : String)
  | network (method : Method) (path reason : String)
  | validation (field reason : String)
  | unknown (status : Int) (body : String)
deriving DecidableEq

namespace GatewayError

/-- How many characters of an unexpected body a message shows. -/
def shownBody : Nat := 200

def statusText (status : Int) : String := "(HTTP " ++ Quoted.number status ++ ")"

def retryHint : Option Binary64 → String
  | none => ""
  | some seconds => ", retry after " ++ seconds.text ++ "s"

def message : GatewayError → String
  | configuration missing => "Configuration error: " ++ missing.message
  | auth status _ => "Authentication failed " ++ statusText status
  | rateLimit retryAfter _ => "Rate limit exceeded" ++ retryHint retryAfter
  | network method path reason => method.name ++ " " ++ path ++ " failed: " ++ reason
  | validation field reason => "Validation error on '" ++ field ++ "': " ++ reason
  | unknown status body =>
    "Unexpected exchange response " ++ statusText status ++ ": " ++
      String.ofList (body.toList.take shownBody)

def userMessage : GatewayError → String
  | configuration _ => "Exchange API credentials are not configured."
  | auth _ _ => "The exchange rejected the API credentials. Check your API key and secret."
  | rateLimit _ _ => "The exchange is rate limiting requests. Please try again later."
  | network _ _ _ => "Could not reach the exchange. Check your network connection."
  | validation field reason => "Invalid " ++ field ++ ": " ++ reason
  | unknown status _ =>
    "The exchange returned an unexpected response " ++ statusText status ++ "."

end GatewayError

inductive Failure where
  | gateway (error : GatewayError)
  | ledger (fault : Fault)
  /-- An integer has more digits than are read or written. -/
  | integerTooLong
  /-- The body of an answer is nested deeper than the stack reaches. -/
  | nestedTooDeep
  /-- The codec of an answer refuses its body. -/
  | undecodable
  /-- A moment, or what a clock answers, has no millisecond. -/
  | noMillisecond
  /-- The transport failed in a way that is no failure of the network. -/
  | transportDefect
deriving DecidableEq

namespace Failure

def isGateway : Failure → Bool
  | gateway _ => true
  | _ => false

def invalid {α : Type} (field reason : String) : Except Failure α :=
  .error (.gateway (.validation field reason))

end Failure

end GatewayLedger
