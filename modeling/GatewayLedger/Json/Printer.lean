import GatewayLedger.Json.Reader
import GatewayLedger.Value.Display

/-!
# Writing JSON

`text` writes values with every item and field on a line of its own, indented by two spaces a level;
`lineText` writes an object of texts on one line. Strings are written in ASCII.
-/

namespace GatewayLedger.Json

def escapeUnit (u : Nat) : List Char := '\\' :: 'u' :: Text.Hexadecimal.lowerDigits 4 u

def escapeChar (c : Char) : List Char :=
  if c == '"' || c == '\\' then ['\\', c]
  else if c == '\n' then ['\\', 'n']
  else if c == '\r' then ['\\', 'r']
  else if c == '\t' then ['\\', 't']
  else if c.toNat == 8 then ['\\', 'b']
  else if c.toNat == 12 then ['\\', 'f']
  else
    let n := c.toNat
    if 32 ≤ n && n < 127 then [c]
    else if n < 0x10000 then escapeUnit n
    else
      escapeUnit (0xD800 + (n - 0x10000) / 0x400) ++ escapeUnit (0xDC00 + (n - 0x10000) % 0x400)

def stringText (s : String) : String :=
  String.ofList ('"' :: (s.toList.flatMap escapeChar ++ ['"']))

def floatText : Binary64 → String
  | .notNumber => "NaN"
  | .infinite negative => if negative then "-Infinity" else "Infinity"
  | x => x.text

def lineBreak (level : Nat) : String := "\n" ++ String.ofList (List.replicate (2 * level) ' ')

/-- Lines between two brackets, one level deeper than the closing bracket. -/
def block (level : Nat) (opening closing : String) (lines : List String) : String :=
  if lines.isEmpty then opening ++ closing
  else
    opening ++ lineBreak (level + 1) ++ ("," ++ lineBreak (level + 1)).intercalate lines ++
      lineBreak level ++ closing

mutual

def textAt (level : Nat) : Value → String
  | .null => "null"
  | .bool b => if b then "true" else "false"
  | .int n => Quoted.number n
  | .float x => floatText x
  | .decimal n => stringText n.text
  | .text s => stringText s
  | .moment m => stringText (m.isoTextWith " ")
  | .list items => block level "[" "]" (itemTexts (level + 1) items)
  | .object fields => block level "\x7b" "\x7d" (fieldTexts (level + 1) fields)

def itemTexts (level : Nat) : List Value → List String
  | [] => []
  | v :: rest => textAt level v :: itemTexts level rest

def fieldTexts (level : Nat) : List (String × Value) → List String
  | [] => []
  | (name, v) :: rest => (stringText name ++ ": " ++ textAt level v) :: fieldTexts level rest

end

def text (v : Value) : String := textAt 0 v

def memberText (field : String × String) : String :=
  stringText field.1 ++ ": " ++ stringText field.2

def lineText (fields : List (String × String)) : String :=
  "\x7b" ++ ", ".intercalate (fields.map memberText) ++ "\x7d"

end GatewayLedger.Json
