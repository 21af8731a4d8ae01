import GatewayLedger.Number.Binary64
import GatewayLedger.Number.Decimal.Printer

/-!
# Shortest text of a floating-point number

The fewest digits that read back as the number; of two such numerals the one nearer to it. They are
written with a point while the leading digit lies between `10 ^ -4` and `10 ^ 15`, and with an
exponent of at least two digits beyond.
-/

namespace GatewayLedger.Binary64

open Rounding

/-- The exponent of the leading decimal digit of a positive ratio. -/
def leadingDecimal (num den : Nat) : Int :=
  let k : Int := (numDigits num : Int) - numDigits den
  if (if 0 ≤ k then den * pow10 k.toNat ≤ num else den ≤ num * pow10 (-k).toNat) then k else k - 1

/-- The ratio in units of `10 ^ p`, again as a ratio. -/
def inUnits (num den : Nat) (p : Int) : Nat × Nat :=
  if 0 ≤ p then (num, den * pow10 p.toNat) else (num * pow10 (-p).toNat, den)

/-- The neighbour of a positive number, on the grid of numerals with exponent `p`, that reads back
as the number. -/
def neighbour? (x : Binary64) (num den : Nat) (p : Int) : Option Nat :=
  let (n, d) := inUnits num den p
  let low := n / d
  let readsBack (c : Nat) : Bool := ofDecimal ⟨false, c, p⟩ == x
  match readsBack low, readsBack (low + 1) with
  | true, true => some (halfEven n d)
  | true, false => some low
  | false, true => some (low + 1)
  | false, false => none

/-- Coefficient and exponent of the shortest numeral, trying `digits` and more digits. -/
def shortestFrom (x : Binary64) (num den : Nat) (lead : Int) : Nat → Nat → Nat × Int
  | digits, 0 => let p := lead - digits + 1; let (n, d) := inUnits num den p; (halfEven n d, p)
  | digits, tries + 1 =>
    let p := lead - digits + 1
    match neighbour? x num den p with
    | some c => (c, p)
    | none => shortestFrom x num den lead (digits + 1) tries

/-- The digits of the shortest numeral of a positive number, without zeros at the end, and the
exponent of the first of them. -/
def shortest (m : Nat) (e : Int) : List Char × Int :=
  let (num, den) := ratio m e
  let (c, p) := shortestFrom (.finite false m e) num den (leadingDecimal num den) 1 17
  let ds := Decimal.digitChars c
  ((ds.reverse.dropWhile (· == '0')).reverse, p + ds.length - 1)

def twoDigits (n : Nat) : List Char :=
  if n < 10 then ['0', Char.ofNat (48 + n)] else Decimal.digitChars n

/-- Writes digits of which the first has the given exponent. -/
def layout (ds : List Char) (lead : Int) : List Char :=
  if -4 ≤ lead && lead < 16 then
    if lead < 0 then '0' :: '.' :: (List.replicate (-lead - 1).toNat '0' ++ ds)
    else
      let whole := lead.toNat + 1
      if whole < ds.length then ds.take whole ++ '.' :: ds.drop whole
      else ds ++ List.replicate (whole - ds.length) '0' ++ ['.', '0']
  else
    let body :=
      match ds with
      | [] => []
      | [d] => [d]
      | d :: rest => d :: '.' :: rest
    body ++ 'e' :: (if lead < 0 then '-' else '+') :: twoDigits lead.natAbs

def text : Binary64 → String
  | .notNumber => "nan"
  | .infinite negative => if negative then "-inf" else "inf"
  | .finite negative m e =>
    if m = 0 then if negative then "-0.0" else "0.0"
    else
      let (ds, lead) := shortest m e
      String.ofList (Decimal.signChars negative ++ layout ds lead)

/-- One digit after the point. -/
def tenthsText : Binary64 → String
  | .finite negative m e =>
    let (num, den) := ratio m e
    String.ofList (Decimal.signChars negative ++ Decimal.pointed
      (Decimal.digitChars (halfEven (num * 10) den)) 1)
  | x => x.text

end GatewayLedger.Binary64
