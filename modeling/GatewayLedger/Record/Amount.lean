import GatewayLedger.Fault
import GatewayLedger.Number.Decimal.Printer
import GatewayLedger.Value.Display

/-!
# Amounts

`Amount.ofValue` reads an amount out of any value and never fails: what is no finite numeral, or
reaches `10 ^ 101`, counts as zero. `Amount.text` writes an amount for a reader, with at most eight
places and no zeros at the end.
-/

namespace GatewayLedger.Amount

def maxAdjusted : Int := 100

def isAdmitted (d : Decimal) : Bool := d.adjusted ≤ maxAdjusted

def ofNumeral : Numeral → Decimal
  | .finite d => if isAdmitted d then d else Decimal.zero
  | _ => Decimal.zero

def ofText (text : String) : Decimal := ((Numeral.read? text).map ofNumeral).getD Decimal.zero

def ofValue : Value → Decimal
  | .null => Decimal.zero
  | .bool _ => Decimal.zero
  | v => ofText v.display

theorem isAdmitted_zero : isAdmitted Decimal.zero = true := by
  simp [isAdmitted, Decimal.adjusted, Decimal.zero, Decimal.numDigits, maxAdjusted,
    Rounding.numDigits_of_lt]

theorem isAdmitted_ofNumeral (n : Numeral) : isAdmitted (ofNumeral n) = true := by
  cases n with
  | finite d =>
    simp only [ofNumeral]
    split
    · assumption
    · exact isAdmitted_zero
  | _ => exact isAdmitted_zero

theorem isAdmitted_ofText (text : String) : isAdmitted (ofText text) = true := by
  unfold ofText
  cases Numeral.read? text with
  | none => exact isAdmitted_zero
  | some n => exact isAdmitted_ofNumeral n

theorem isAdmitted_ofValue (v : Value) : isAdmitted (ofValue v) = true := by
  unfold ofValue
  split
  · exact isAdmitted_zero
  · exact isAdmitted_zero
  · exact isAdmitted_ofText _

/-- Drops the zeros at the end, and a point that then stands last. -/
def dropZeros (cs : List Char) : List Char :=
  ((cs.reverse.dropWhile (· == '0')).dropWhile (· == '.')).reverse

def text (d : Decimal) : Except Fault String := do
  let rounded ← (d.rescale (-8) .toEven).mapError Fault.ofDecimal
  .ok (String.ofList (dropZeros rounded.plainChars))

end GatewayLedger.Amount
