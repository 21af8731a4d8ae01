import GatewayLedger.Exchange.Error
import GatewayLedger.Ledger

/-!
# Log

The lines of the log at the levels that an operator reads, each by its cause.
-/

namespace GatewayLedger

inductive LogLevel where
  | info
  | warning
  | error
deriving DecidableEq

def LogLevel.name : LogLevel → String
  | .info => "INFO"
  | .warning => "WARNING"
  | .error => "ERROR"

structure Endpoint where
  method : Method
  path : String
deriving DecidableEq

def Endpoint.name (e : Endpoint) : String := e.method.name ++ " " ++ e.path

inductive LogEvent where
  | rejectedCredentials (endpoint : Endpoint) (status : Int)
  | rateLimited (endpoint : Endpoint) (retryAfter : Option String)
  | unexpectedStatus (endpoint : Endpoint) (status : Int)
  | timedOut (endpoint : Endpoint) (limit : Binary64)
  | brokenTransport (endpoint : Endpoint) (text : String)
  | duplicateId (duplicate : Duplicate)
  | refreshFailed (error : GatewayError)
  | notification (kind message : String)

namespace LogEvent

/-- The level of a notification; a kind that is not known is plain information. -/
def notificationLevel (kind : String) : LogLevel :=
  if kind == "error" then .error else if kind == "warning" then .warning else .info

def level : LogEvent → LogLevel
  | rejectedCredentials _ _ => .error
  | unexpectedStatus _ _ => .error
  | notification kind _ => notificationLevel kind
  | _ => .warning

def text : LogEvent → String
  | rejectedCredentials e status =>
    e.name ++ " rejected credentials " ++ GatewayError.statusText status
  | rateLimited e retryAfter =>
    e.name ++ " rate limited (Retry-After=" ++ retryAfter.getD "None" ++ ")"
  | unexpectedStatus e status => e.name ++ " failed with HTTP " ++ Quoted.number status
  | timedOut e limit => e.name ++ " timed out after " ++ limit.tenthsText ++ "s"
  | brokenTransport e text => e.name ++ " transport failure: " ++ text
  | duplicateId d =>
    "Duplicate transaction id " ++ d.id ++ " (" ++ d.kept.name ++ " and " ++ d.shadowed.name ++
      "); keeping the more recent"
  | refreshFailed error => "Dashboard refresh failed: " ++ error.message
  | notification kind message => "[" ++ kind ++ "] " ++ message

def line (e : LogEvent) : String := e.level.name ++ " " ++ e.text

/-- Whether a line stands at the level of a warning or above. -/
def isAlert (e : LogEvent) : Bool := e.level != .info

end LogEvent

def Ledger.log (l : Ledger) : List LogEvent := l.duplicates.map LogEvent.duplicateId

end GatewayLedger
