import GatewayLedger.Fault
import GatewayLedger.Time.Epoch
import GatewayLedger.Value.Display

/-!
# Timestamps

A row carries its time as milliseconds since the start of 1970, as a number or as a numeral, or as
ISO 8601 text. `Timestamp.ofValue` reads all of them to a moment of the UTC clock, and to nothing
where no moment can be read.
-/

namespace GatewayLedger.Timestamp

/-- The letter Z is short for the offset of UTC. -/
def expandZulu (text : String) : String :=
  String.ofList (text.toList.flatMap fun c => if c == 'Z' then "+00:00".toList else [c])

def ofIso? (text : String) : Option Moment := do
  let m ← Moment.readIso? (expandZulu text)
  m.toUtc?

def ofNumeral? : Numeral → Option Moment
  | .finite d => Moment.ofMillis? (Binary64.ofDecimal d)
  | _ => none

def ofText? (text : String) : Option Moment :=
  let trimmed := String.ofList (Text.trim text.toList)
  match Numeral.read? trimmed with
  | some n => ofNumeral? n
  | none => ofIso? trimmed

/-- A moment of another clock may lie outside the calendar of the UTC clock; that is the one case
that is not passed over. -/
def ofValue : Value → Except Fault (Option Moment)
  | .null => .ok none
  | .bool _ => .ok none
  | .moment m =>
    match m.toUtc? with
    | some u => .ok (some u)
    | none => .error .outsideCalendar
  | .int n => .ok (Moment.ofMillis? (Binary64.ofInt n))
  | .float x => .ok (Moment.ofMillis? x)
  | .decimal n => .ok (ofNumeral? n)
  | v => .ok (ofText? v.display)

/-- The first timestamp among the named fields of a row. -/
def firstOf (row : Fields) : List String → Except Fault (Option Moment)
  | [] => .ok none
  | name :: rest => do
    match ← ofValue (Value.field row name) with
    | some m => .ok (some m)
    | none => firstOf row rest

end GatewayLedger.Timestamp
