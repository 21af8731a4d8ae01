import GatewayLedger.Number.Binary64
import GatewayLedger.Number.Decimal.Reader

/-!
# Reading floating-point numbers

The numerals of decimals, with two differences: an underscore may only stand between two digits,
and the word for no number takes no digits after it. The decimal is rounded once.
-/

namespace GatewayLedger

open Text

/-- Removes the underscores of a numeral, each of which has to stand between two digits. -/
def dropUnderscores? (previous : Char) : List Char → Option (List Char)
  | [] => if previous == '_' then none else some []
  | c :: r =>
    if c == '_' then if isAsciiDigit previous then dropUnderscores? c r else none
    else if previous == '_' && !isAsciiDigit c then none
    else (dropUnderscores? c r).map (c :: ·)

namespace Binary64

def readUnsigned? (negative : Bool) (cs : List Char) : Option Binary64 :=
  match cs.map Char.toLower with
  | ['i', 'n', 'f'] => some (.infinite negative)
  | ['i', 'n', 'f', 'i', 'n', 'i', 't', 'y'] => some (.infinite negative)
  | ['n', 'a', 'n'] => some .notNumber
  | _ => (readWide? negative cs).map ofDecimal
where
  /-- The decimal of a numeral, which is finite however large its exponent. -/
  readWide? (negative : Bool) (cs : List Char) : Option Decimal :=
    let whole := cs.takeWhile isAsciiDigit
    let (fraction, rest) := Numeral.readFraction (cs.dropWhile isAsciiDigit)
    if whole.isEmpty && fraction.isEmpty then none
    else (Numeral.readExponent? rest).map fun e =>
      ⟨negative, numberOfDigits (whole ++ fraction), e - fraction.length⟩

def readChars? (cs : List Char) : Option Binary64 :=
  match (trim cs).mapM Numeral.plainChar? with
  | none => none
  | some plain =>
    match dropUnderscores? ' ' plain with
    | none => none
    | some plain =>
      let (negative, rest) := Numeral.readSign plain
      readUnsigned? negative rest

def read? (text : String) : Option Binary64 := readChars? text.toList

end Binary64

/-- An integer: a sign and digits, with underscores only between two digits. -/
def readInt? (text : String) : Option Int :=
  match (trim text.toList).mapM Numeral.plainChar? with
  | none => none
  | some plain =>
    let (negative, rest) := Numeral.readSign plain
    match dropUnderscores? ' ' rest with
    | none => none
    | some ds =>
      if ds.isEmpty || !ds.all isAsciiDigit then none
      else
        let magnitude : Int := numberOfDigits ds
        some (if negative then -magnitude else magnitude)

end GatewayLedger
