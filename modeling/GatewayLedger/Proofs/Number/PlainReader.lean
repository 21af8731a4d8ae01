import GatewayLedger.Proofs.Number.Literal
import GatewayLedger.Proofs.Number.Plain

/-!
# Reading plain numerals

A plain numeral is a literal without an exponent, so it is read back as the decimal of its digits: the
places behind its point are the exponent.
-/

namespace GatewayLedger

theorem Numeral.Sign.chars_ofNegative (negative : Bool) :
    (ofNegative negative).chars = Decimal.signChars negative := by
  cases negative <;> rfl

namespace PlainNumeral

open Numeral Text

variable {n : PlainNumeral} {c : Char}

/-- What is read from a plain numeral: all its digits, the last of them behind the point. -/
def decimal (n : PlainNumeral) : Decimal := ⟨n.negative, n.units, -(n.fraction.length : Int)⟩

theorem toRat_decimal (n : PlainNumeral) : n.decimal.toRat = n.value := by
  refine (value_eq_toRat rfl ?_).symm
  rw [decimal, neg_add_cancel, zpow_zero, mul_one]

/-- A plain numeral as a literal. -/
def literal (n : PlainNumeral) : Literal where
  sign := .ofNegative n.negative
  whole := n.whole
  fraction := fractionOf n.fraction
  exponent := none
  digits_ne := List.append_ne_nil_of_left_ne_nil n.whole_ne _
  isDigit := by
    rw [getD_fractionOf]
    exact n.isDigit

theorem chars_literal (n : PlainNumeral) : n.literal.chars = n.chars := by
  rw [Literal.chars, Literal.unsignedChars, literal]
  dsimp only
  rw [Sign.chars_ofNegative, fractionChars_fractionOf, exponentChars, List.append_nil, chars]

theorem decimal_literal (n : PlainNumeral) : n.literal.decimal = n.decimal := by
  have hunits : n.literal.units = n.units := by
    rw [Literal.units, units, literal, getD_fractionOf]
  have hplaces : n.literal.places = n.fraction.length := by
    rw [Literal.places, literal, getD_fractionOf]
  have hsign : n.literal.sign.isMinus = n.negative := Sign.isMinus_ofNegative n.negative
  have hexponent : exponentValue n.literal.exponent = 0 := rfl
  rw [Literal.decimal, hsign, hunits, hplaces, hexponent, zero_sub, decimal]

theorem trim_chars (n : PlainNumeral) : trim n.chars = n.chars := by
  rw [← n.chars_literal, Literal.trim_chars]

/-- A plain numeral is read as the decimal of its digits. -/
theorem read?_text (hsize : n.decimal.adjusted ≤ maxAdjusted)
    (hplaces : minExponent ≤ n.decimal.exponent) :
    Numeral.read? n.text = some (.finite n.decimal) := by
  rw [← n.decimal_literal] at hsize hplaces ⊢
  rw [text, ← n.chars_literal]
  exact read?_eq_finite_iff.mpr ⟨n.literal, n.literal.isSpelledBy_chars, ⟨hsize, hplaces⟩, rfl⟩

end PlainNumeral

end GatewayLedger
