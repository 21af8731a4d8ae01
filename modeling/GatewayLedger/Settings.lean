import GatewayLedger.Credentials
import GatewayLedger.Exchange.Error
import GatewayLedger.Number.Binary64.Reader

/-!
# Settings

The settings of the program and where they come from: a variable of the environment, a line of the
`.env` file, or a default, in this order. The names of variables count in any case. A setting that
has to be a number and is none is a fault of the whole configuration.
-/

namespace GatewayLedger

/-- Names and texts; of several with one name the last one counts. -/
abbrev Variables := List (String × String)

namespace Variables

def fold (name : String) : String := String.ofList (name.toList.map Char.toLower)

def get? (vars : Variables) (name : String) : Option String :=
  (vars.reverse.find? fun v => fold v.1 == name).map (·.2)

/-! ## Files of variables -/

def trimmed (cs : List Char) : String := String.ofList (Text.trim cs)

/-- The text before a comment, which starts at a sharp sign after a blank. -/
def beforeComment : List Char → List Char
  | [] => []
  | c :: rest =>
    if Text.isBlank c && (rest.dropWhile Text.isBlank).head? == some '#' then []
    else c :: beforeComment rest

/-- A value stands in quotes or ends at a comment. -/
def valueOf (cs : List Char) : String :=
  match Text.trim cs with
  | '\'' :: rest => String.ofList (rest.takeWhile (· != '\''))
  | '"' :: rest => String.ofList (rest.takeWhile (· != '"'))
  | bare => trimmed (beforeComment bare)

def withoutExport (cs : List Char) : List Char :=
  match cs with
  | 'e' :: 'x' :: 'p' :: 'o' :: 'r' :: 't' :: ' ' :: rest => rest
  | _ => cs

def ofLine? (line : String) : Option (String × String) :=
  let cs := withoutExport (Text.trim line.toList)
  match cs with
  | '#' :: _ => none
  | _ =>
    match cs.dropWhile (· != '=') with
    | [] => none
    | _ :: value => some (trimmed (cs.takeWhile (· != '=')), valueOf value)

def ofFile (text : String) : Variables := (text.splitOn "\n").filterMap ofLine?

end Variables

structure Settings where
  baseUrl : String
  apiKey : Option String
  apiSecret : Option String
  timeout : Binary64
  limit : Int
  interval : Binary64
  logLevel : String

namespace Settings

/-- A setting that is no number of its kind. -/
structure Fault where
  name : String
deriving DecidableEq

/-- The variables that hold settings, as they are usually spelled. -/
def variableNames : List String :=
  ["PAYDASH_BASE_URL", "PAYDASH_API_KEY", "PAYDASH_API_SECRET", "PAYDASH_TIMEOUT_SECONDS",
    "PAYDASH_DEFAULT_LIMIT", "PAYDASH_REFRESH_INTERVAL_SECONDS", "PAYDASH_LOG_LEVEL"]

/-- Where settings are looked up: the environment first, then the file. -/
structure Source where
  environment : Variables
  file : Variables

def Source.get? (s : Source) (name : String) : Option String :=
  (s.environment.get? ("paydash_" ++ name)).or (s.file.get? ("paydash_" ++ name))

def isAscii (text : String) : Bool := text.toList.all fun c => c.toNat < 128

/-- Removes underscores, none of which may stand at an end or beside another. -/
def withoutUnderscores? (cs : List Char) : Option (List Char) :=
  let doubled := (cs.zip (cs.drop 1)).any fun p => p.1 == '_' && p.2 == '_'
  if cs.head? == some '_' || cs.getLast? == some '_' || doubled then none
  else some (cs.filter (· != '_'))

def readFloat? (text : String) : Option Binary64 :=
  let cs := Text.trim text.toList
  if isAscii (String.ofList cs) then
    (withoutUnderscores? cs).bind fun plain => Binary64.read? (String.ofList plain)
  else none

/-- The digits without a point and zeros behind them. -/
def withoutZeroFraction (cs : List Char) : List Char :=
  match cs.dropWhile (· != '.') with
  | _ :: zeros => if zeros.all (· == '0') then cs.takeWhile (· != '.') else cs
  | [] => cs

def readInteger? (text : String) : Option Int :=
  let cs := withoutZeroFraction (Text.trim text.toList)
  if isAscii (String.ofList cs) then readInt? (String.ofList cs) else none

def number {α : Type} (s : Source) (name : String) (read? : String → Option α) (fallback : α) :
    Except Fault α :=
  match s.get? name with
  | none => .ok fallback
  | some text =>
    match read? text with
    | some n => .ok n
    | none => .error ⟨name⟩

def load (s : Source) : Except Fault Settings := do
  let timeout ← number s "timeout_seconds" readFloat? (Binary64.ofInt 15)
  let limit ← number s "default_limit" readInteger? 20
  let interval ← number s "refresh_interval_seconds" readFloat? (Binary64.ofInt 30)
  .ok {
    baseUrl := (s.get? "base_url").getD "http://localhost:3000/api/v1/binance"
    apiKey := s.get? "api_key"
    apiSecret := s.get? "api_secret"
    timeout := timeout
    limit := limit
    interval := interval
    logLevel := (s.get? "log_level").getD "WARNING" }

/-- Puts another address in place of the one that is set, unless it is empty. -/
def withBaseUrl (s : Settings) : Option String → Settings
  | none => s
  | some "" => s
  | some url => { s with baseUrl := url }

def filled? : Option String → Option String
  | some "" => none
  | other => other

def credentials (s : Settings) : Except GatewayError Credentials :=
  match filled? s.apiKey, filled? s.apiSecret with
  | none, _ => .error (.configuration .keySetting)
  | some _, none => .error (.configuration .secretSetting)
  | some key, some secret => .ok ⟨key, secret⟩

end Settings

end GatewayLedger
