import GatewayLedger.Number.Binary64.Shortest
import GatewayLedger.Text.Hexadecimal
import GatewayLedger.Text.Printable
import GatewayLedger.Time.Iso
import GatewayLedger.Value

/-!
# Display of values

`Value.display` is the text by which a value is named in a query, an identifier or a numeral: a text
is itself, a number is its numeral. Inside a list or an object every value is shown in its quoted
form, `Value.quoted`.
-/

namespace GatewayLedger

namespace Quoted

open Text.Hexadecimal

def escapeChar (quote c : Char) : List Char :=
  if c == quote || c == '\\' then ['\\', c]
  else if c == '\n' then ['\\', 'n']
  else if c == '\r' then ['\\', 'r']
  else if c == '\t' then ['\\', 't']
  else if Text.isPrintable c then [c]
  else
    let n := c.toNat
    if n < 0x100 then '\\' :: 'x' :: lowerDigits 2 n
    else if n < 0x10000 then '\\' :: 'u' :: lowerDigits 4 n
    else '\\' :: 'U' :: lowerDigits 8 n

/-- Single quotes, unless the text holds such quotes and no double ones. -/
def quoteMark (text : String) : Char :=
  if text.contains '\'' && !text.contains '"' then '"' else '\''

def text (text : String) : String :=
  let quote := quoteMark text
  String.ofList (quote :: (text.toList.flatMap (escapeChar quote) ++ [quote]))

def number (n : Int) : String :=
  String.ofList (Decimal.signChars (decide (n < 0)) ++ Decimal.digitChars n.natAbs)

/-- A span of time as days, seconds and microseconds, of which only the days can be negative. -/
def span (micros : Int) : String :=
  let days := Int.fdiv micros Moment.microsPerDay
  let rest := Int.fmod micros Moment.microsPerDay
  let parts := [("days", days), ("seconds", rest / 1000000), ("microseconds", rest % 1000000)]
  let shown := (parts.filter fun p => p.2 != 0).map fun p => p.1 ++ "=" ++ number p.2
  "datetime.timedelta(" ++ (if shown.isEmpty then "0" else ", ".intercalate shown) ++ ")"

def zone (offset : Int) : String :=
  if offset = 0 then "datetime.timezone.utc" else "datetime.timezone(" ++ span offset ++ ")"

/-- Date and time by their parts; seconds are left out at a full minute, and microseconds at a full
second. -/
def moment (m : Moment) : String :=
  let tail :=
    if m.micro != 0 then [m.second, m.micro] else if m.second != 0 then [m.second] else []
  let parts := [m.date.year, m.date.month, m.date.day, m.hour, m.minute] ++ tail
  let shown := parts.map fun (n : Nat) => number n
  let named := (m.offset.map fun o => "tzinfo=" ++ zone o).toList
  "datetime.datetime(" ++ ", ".intercalate (shown ++ named) ++ ")"

end Quoted

namespace Value

mutual

def quoted : Value → String
  | null => "None"
  | bool b => if b then "True" else "False"
  | int n => Quoted.number n
  | float x => x.text
  | decimal n => "Decimal('" ++ n.text ++ "')"
  | text s => Quoted.text s
  | moment m => Quoted.moment m
  | list items => "[" ++ ", ".intercalate (quotedItems items) ++ "]"
  | object fields => "\x7b" ++ ", ".intercalate (quotedFields fields) ++ "\x7d"

def quotedItems : List Value → List String
  | [] => []
  | v :: rest => quoted v :: quotedItems rest

def quotedFields : List (String × Value) → List String
  | [] => []
  | (name, v) :: rest => (Quoted.text name ++ ": " ++ quoted v) :: quotedFields rest

end

def display : Value → String
  | text s => s
  | decimal n => n.text
  | moment m => m.isoTextWith " "
  | v => v.quoted

theorem display_int (n : Int) : display (int n) = Quoted.number n := by
  simp [display, quoted]

end Value

end GatewayLedger
