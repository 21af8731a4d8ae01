import GatewayLedger.Text.Percent
import GatewayLedger.Value.Display

/-!
# Queries

Parameters are written as `name=value` in the order in which they are given, joined by ampersands.
Values are percent-encoded and names stand as they are. `Query.split` reads a query back into names
and texts.
-/

namespace GatewayLedger.Query

/-- The text of a parameter: truth values in lower case, and decimals without an exponent. -/
def valueText : Value → String
  | .bool b => if b then "true" else "false"
  | .decimal n => n.plainText
  | v => v.display

/-- Integers of more digits cannot be written. -/
def maxIntegerDigits : Nat := 4300

def isWritable : Value → Bool
  | .int n => n.natAbs < Rounding.pow10 maxIntegerDigits
  | _ => true

def areWritable (pairs : List (String × Value)) : Bool := pairs.all fun p => isWritable p.2

def pairText (pair : String × Value) : String :=
  pair.1 ++ "=" ++ Text.Percent.encode (valueText pair.2)

def canonical (pairs : List (String × Value)) : String := "&".intercalate (pairs.map pairText)

def ofFields (fields : List (String × String)) : List (String × Value) :=
  fields.map fun f => (f.1, .text f.2)

/-- The pieces of a text between the marks in it. -/
def pieces (mark : Char) : List Char → List (List Char)
  | [] => [[]]
  | c :: rest =>
    if c == mark then [] :: pieces mark rest
    else
      match pieces mark rest with
      | [] => [[c]]
      | piece :: others => (c :: piece) :: others

/-- Name and text of a piece, parted at its first equals sign. -/
def splitPair (piece : List Char) : String × String :=
  (String.ofList (piece.takeWhile (· != '=')),
    Text.Percent.decode (String.ofList ((piece.dropWhile (· != '=')).drop 1)))

def split (query : String) : List (String × String) :=
  if query == "" then [] else (pieces '&' query.toList).map splitPair

end GatewayLedger.Query
