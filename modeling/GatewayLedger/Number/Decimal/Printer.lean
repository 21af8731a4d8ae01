import GatewayLedger.Number.Decimal.Reader

/-!
# Writing decimals

`text` keeps every digit of the coefficient and turns to an exponent when the exponent is positive
or the value is below a millionth; `plainText` never writes an exponent.
-/

namespace GatewayLedger

namespace Decimal

def digitChars (n : Nat) : List Char := Nat.toDigits 10 n

def signChars (negative : Bool) : List Char := if negative then ['-'] else []

/-- The digits with the last `places` of them after a point. -/
def pointed (ds : List Char) (places : Nat) : List Char :=
  if places = 0 then ds
  else if places < ds.length then
    ds.take (ds.length - places) ++ '.' :: ds.drop (ds.length - places)
  else '0' :: '.' :: (List.replicate (places - ds.length) '0' ++ ds)

/-- One digit before the point and the exponent of that digit behind the letter. -/
def exponential (ds : List Char) (adjusted : Int) : List Char :=
  let body :=
    match ds with
    | [] => []
    | [d] => [d]
    | d :: rest => d :: '.' :: rest
  body ++ 'E' :: (if adjusted < 0 then '-' else '+') :: digitChars adjusted.natAbs

def chars (d : Decimal) : List Char :=
  let ds := digitChars d.coefficient
  signChars d.negative ++
    if d.exponent ≤ 0 && -6 ≤ d.adjusted then pointed ds (-d.exponent).toNat
    else exponential ds d.adjusted

def plainChars (d : Decimal) : List Char :=
  let ds := digitChars d.coefficient
  signChars d.negative ++
    if d.exponent ≤ 0 then pointed ds (-d.exponent).toNat
    else if d.isZero then ['0']
    else ds ++ List.replicate d.exponent.toNat '0'

def text (d : Decimal) : String := String.ofList d.chars

def plainText (d : Decimal) : String := String.ofList d.plainChars

end Decimal

namespace Numeral

def wordText (negative : Bool) (word : String) : String := (if negative then "-" else "") ++ word

def payloadText (payload : Nat) : String :=
  if payload = 0 then "" else String.ofList (Decimal.digitChars payload)

def text : Numeral → String
  | finite d => d.text
  | infinite negative => wordText negative "Infinity"
  | notNumber negative signaling payload =>
    wordText negative (if signaling then "sNaN" else "NaN") ++ payloadText payload

def plainText : Numeral → String
  | finite d => d.plainText
  | n => n.text

end Numeral

end GatewayLedger
