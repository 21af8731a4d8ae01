import GatewayLedger.Number.Decimal
import GatewayLedger.Text.Blank
import GatewayLedger.Text.DecimalDigit

/-!
# Reading numerals

A numeral is a sign, digits with at most one point, and an exponent, or one of the words for
infinity and for no number. `Numeral.read?` trims the text, passes over underscores, and takes the
digits of every script; it keeps the coefficient as written.
-/

namespace GatewayLedger

inductive Numeral where
  | finite (value : Decimal)
  | infinite (negative : Bool)
  | notNumber (negative signaling : Bool) (payload : Nat)
deriving DecidableEq

namespace Numeral

open Text

def finite? : Numeral → Option Decimal
  | finite d => some d
  | _ => none

/-- The largest exponent that the leading digit of a numeral may have. -/
def maxAdjusted : Int := 999999999999999999

/-- The smallest exponent that the last digit of a numeral may have. -/
def minExponent : Int := -1999999999999999997

def readSign : List Char → Bool × List Char
  | '-' :: r => (true, r)
  | '+' :: r => (false, r)
  | r => (false, r)

/-- Nothing, or the letter of the exponent, a sign and at least one digit. -/
def readExponent? : List Char → Option Int
  | [] => some 0
  | c :: r =>
    if c == 'e' || c == 'E' then
      let (negative, ds) := readSign r
      if ds.isEmpty || !ds.all isAsciiDigit then none
      else
        let magnitude : Int := numberOfDigits ds
        some (if negative then -magnitude else magnitude)
    else none

/-- The digits after a point, if there is one, and what follows them. -/
def readFraction : List Char → List Char × List Char
  | '.' :: r => (r.takeWhile isAsciiDigit, r.dropWhile isAsciiDigit)
  | r => ([], r)

def readFinite? (negative : Bool) (cs : List Char) : Option Decimal :=
  let whole := cs.takeWhile isAsciiDigit
  let (fraction, rest) := readFraction (cs.dropWhile isAsciiDigit)
  if whole.isEmpty && fraction.isEmpty then none
  else
    match readExponent? rest with
    | none => none
    | some e =>
      let d : Decimal := ⟨negative, numberOfDigits (whole ++ fraction), e - fraction.length⟩
      if d.adjusted ≤ maxAdjusted && minExponent ≤ d.exponent then some d else none

/-- The digits that may follow the word for no number. -/
def readPayload? (negative signaling : Bool) (cs : List Char) : Option Numeral :=
  if cs.all isAsciiDigit then some (.notNumber negative signaling (numberOfDigits cs)) else none

def readUnsigned? (negative : Bool) (cs : List Char) : Option Numeral :=
  match cs.map Char.toLower with
  | ['i', 'n', 'f'] => some (.infinite negative)
  | ['i', 'n', 'f', 'i', 'n', 'i', 't', 'y'] => some (.infinite negative)
  | 'n' :: 'a' :: 'n' :: payload => readPayload? negative false payload
  | 's' :: 'n' :: 'a' :: 'n' :: payload => readPayload? negative true payload
  | _ => (readFinite? negative cs).map finite

/-- An ASCII character stands for itself and a digit of another script for its ASCII digit. -/
def plainChar? (c : Char) : Option Char :=
  if 0 < c.toNat && c.toNat < 128 then some c else toAsciiDigit? c

def readChars? (cs : List Char) : Option Numeral :=
  match ((trim cs).filter (· != '_')).mapM plainChar? with
  | none => none
  | some plain =>
    let (negative, rest) := readSign plain
    readUnsigned? negative rest

def read? (text : String) : Option Numeral := readChars? text.toList

end Numeral

def Decimal.read? (text : String) : Option Decimal := (Numeral.read? text).bind Numeral.finite?

end GatewayLedger
