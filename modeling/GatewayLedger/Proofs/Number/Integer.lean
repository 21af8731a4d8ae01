import GatewayLedger.Proofs.Number.Binary64
import GatewayLedger.Proofs.Number.PlainReader
import GatewayLedger.Value.Display

/-!
# Numerals of integers

The numeral of an integer is read as a decimal without places. That decimal is again the integer, and
it is rounded to the same binary number, which is infinite for both if there are hundreds of digits.
-/

namespace GatewayLedger

namespace Decimal

def ofInt (n : Int) : Decimal := ⟨decide (n < 0), n.natAbs, 0⟩

@[simp] theorem exponent_ofInt (n : Int) : (ofInt n).exponent = 0 := rfl

theorem adjusted_ofInt (n : Int) :
    (ofInt n).adjusted = (Rounding.numDigits n.natAbs : Int) - 1 := by
  rw [adjusted, exponent_ofInt, zero_add]
  rfl

theorem toRat_ofInt (n : Int) : (ofInt n).toRat = n := by
  have hsigned : (ofInt n).signed = n := by
    unfold signed ofInt
    dsimp only
    split
    · next h =>
      have hneg := of_decide_eq_true h
      omega
    · next h =>
      rw [decide_eq_true_eq] at h
      omega
  rw [toRat_eq, exponent_ofInt, zpow_zero, mul_one, hsigned]

theorem toInt?_ofInt (n : Int) : (ofInt n).toInt? = some n := toInt?_eq_some_iff.mpr (toRat_ofInt n)

end Decimal

namespace Quoted

open Decimal

variable {n : Int}

theorem exists_plain_number (n : Int) :
    ∃ p : PlainNumeral, p.text = number n ∧ p.decimal = Decimal.ofInt n := by
  obtain ⟨p, hnegative, hchars, hfraction, hunits⟩ :=
    exists_plain_shifted (decide (n < 0)) n.natAbs 0
  refine ⟨p, ?_, ?_⟩
  · rw [PlainNumeral.text, hchars, List.replicate_zero, List.append_nil]
    rfl
  · rw [PlainNumeral.decimal, hnegative, hunits, hfraction, pow_zero, Nat.mul_one]
    rfl

theorem read?_number (h : Rounding.numDigits n.natAbs ≤ 10 ^ 17) :
    Numeral.read? (number n) = some (.finite (Decimal.ofInt n)) := by
  obtain ⟨p, htext, hdecimal⟩ := exists_plain_number n
  have hsize : p.decimal.adjusted ≤ Numeral.maxAdjusted := by
    rw [hdecimal, adjusted_ofInt]
    unfold Numeral.maxAdjusted
    omega
  have hplaces : Numeral.minExponent ≤ p.decimal.exponent := by
    rw [hdecimal, exponent_ofInt]
    decide
  rw [← htext, ← hdecimal]
  exact p.read?_text hsize hplaces

theorem trim_number (n : Int) : Text.trim (number n).toList = (number n).toList := by
  obtain ⟨p, htext, -⟩ := exists_plain_number n
  rw [← htext, PlainNumeral.text, String.toList_ofList, p.trim_chars]

/-- Some character of the numeral is a digit. -/
theorem exists_digit_number (n : Int) : ∃ c ∈ (number n).toList, c.isDigit = true := by
  obtain ⟨p, htext, -⟩ := exists_plain_number n
  obtain ⟨c, hlast, hdigit⟩ := p.exists_getLast?_chars
  rw [← htext, PlainNumeral.text, String.toList_ofList]
  exact ⟨c, List.mem_of_getLast? hlast, hdigit⟩

theorem number_ne_empty (n : Int) : number n ≠ "" := by
  intro h
  obtain ⟨c, hc, -⟩ := exists_digit_number n
  rw [h] at hc
  cases hc

end Quoted

namespace Binary64

open Rounding

variable {num den : Nat}

theorem le_leadingExponent (num den : Nat) : num.log2 - den.log2 - 1 ≤ leadingExponent num den := by
  have hchoice : ∀ (k : Int) (p : Prop) [Decidable p], k - 1 ≤ if p then k else k - 1 := by
    intro k p _
    split <;> omega
  exact hchoice _ _

theorem log2_of_pow_ten_le {k : Nat} (hnum : num ≠ 0) (h : 10 ^ k ≤ num) : 3 * k ≤ num.log2 := by
  rw [Nat.le_log2 hnum]
  calc 2 ^ (3 * k) = (2 ^ 3) ^ k := Nat.pow_mul ..
    _ ≤ 10 ^ k := Nat.pow_le_pow_left (by decide) k
    _ ≤ num := h

theorem ofRatio_eq_infinite (negative : Bool) (hnum : num ≠ 0) (hlog : 1025 ≤ num.log2) :
    ofRatio negative num 1 = .infinite negative := by
  have hone : Nat.log2 1 = 0 := rfl
  have hlead := le_leadingExponent num 1
  have hplace : maxExponent < max (leadingExponent num 1 - 52) minExponent := by
    unfold maxExponent
    omega
  rw [ofRatio, if_neg hnum]
  dsimp only
  split
  · exact if_pos (by omega)
  · rfl

/-- An integer becomes the same binary number by way of a decimal. -/
theorem ofDecimal_ofInt (n : Int) : ofDecimal (Decimal.ofInt n) = ofInt n := by
  by_cases hzero : n = 0
  · subst hzero
    rfl
  have hadjusted := Decimal.adjusted_ofInt n
  have hpos := numDigits_pos n.natAbs
  have hne : n.natAbs ≠ 0 := Int.natAbs_ne_zero.mpr hzero
  have hsome : (Decimal.ofInt n).isZero = false := by simp [Decimal.isZero, Decimal.ofInt, hzero]
  rw [ofDecimal, hsome, Bool.false_or, if_neg (by simp; omega)]
  split
  · have hpower := log2_of_pow_ten_le hne (pow_numDigits_le hne)
    exact (ofRatio_eq_infinite _ hne (by omega)).symm
  · rw [if_pos (Decimal.exponent_ofInt n).ge]
    simp [Decimal.ofInt, ofInt]

end Binary64

end GatewayLedger
