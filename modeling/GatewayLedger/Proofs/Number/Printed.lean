import GatewayLedger.Proofs.Number.Digits
import GatewayLedger.Proofs.Number.PlainReader

/-!
# Reading what is written

A decimal is written as a literal with the same sign, the same digits and the same exponent, whether
the exponent moves the point or stands behind the letter. Zeros at the end and the sign of zero are
kept, and so the decimal itself is read back.
-/

namespace GatewayLedger

open Numeral

namespace Decimal

open Rounding

variable {d : Decimal}

theorem length_digitChars (n : Nat) : (digitChars n).length = Rounding.numDigits n := by
  have hpos : 0 < (digitChars n).length := List.length_pos_iff.mpr (digitChars_ne_nil n)
  have hle : ∀ {k : Nat}, 0 < k → ((digitChars n).length ≤ k ↔ Rounding.numDigits n ≤ k) := fun hk =>
    (Nat.length_toDigits_le_iff (by decide) hk).trans (numDigits_le_iff hk).symm
  exact Nat.le_antisymm ((hle (numDigits_pos n)).mpr le_rfl) ((hle hpos).mp le_rfl)

end Decimal

namespace Numeral

open Decimal

/-- A number with its sign behind the letter. -/
def Exponent.ofInt (e : Int) : Exponent where
  letter := 'E'
  sign := if e < 0 then .minus else .plus
  digits := digitChars e.natAbs
  isLetter := .inr rfl
  digits_ne := digitChars_ne_nil e.natAbs
  isDigit := fun _ => isDigit_of_mem_digitChars

theorem Exponent.chars_ofInt (e : Int) :
    (ofInt e).chars = 'E' :: (if e < 0 then '-' else '+') :: digitChars e.natAbs := by
  rw [chars, ofInt]
  dsimp only
  split <;> rfl

theorem Exponent.value_ofInt (e : Int) : (ofInt e).value = e := by
  rw [value, ofInt]
  dsimp only
  rw [ofDigitChars_digitChars]
  split
  · simp only [Sign.isMinus, if_true]
    omega
  · simp only [Sign.isMinus, Bool.false_eq_true, if_false]
    omega

end Numeral

namespace Decimal

/-- Digits with the point behind the first of them and an exponent. -/
theorem exists_literal_exponential (negative : Bool) (n : Nat) (e : Int) :
    ∃ l : Literal, l.chars = signChars negative ++ exponential (digitChars n) e ∧
      l.decimal = ⟨negative, n, e - ((Rounding.numDigits n : Int) - 1)⟩ := by
  obtain ⟨c, rest, hdigits⟩ := List.exists_cons_of_ne_nil (digitChars_ne_nil n)
  have hdigit : ∀ d ∈ c :: rest, d.isDigit = true := by
    rw [← hdigits]
    exact fun d => isDigit_of_mem_digitChars
  have hlength : rest.length + 1 = Rounding.numDigits n := by
    rw [← length_digitChars, hdigits, List.length_cons]
  refine ⟨⟨.ofNegative negative, [c], fractionOf rest, some (.ofInt e), List.cons_ne_nil _ _, ?_⟩,
    ?_, ?_⟩
  · rw [getD_fractionOf]
    exact hdigit
  · rw [Literal.chars, Literal.unsignedChars, hdigits]
    dsimp only
    rw [Sign.chars_ofNegative, exponentChars, Exponent.chars_ofInt]
    cases rest <;> rfl
  · have hexponent : e - (rest.length : Int) = e - ((Rounding.numDigits n : Int) - 1) := by omega
    rw [Literal.decimal, Literal.units, Literal.places]
    dsimp only
    rw [getD_fractionOf, List.singleton_append, ← hdigits, ofDigitChars_digitChars,
      Sign.isMinus_ofNegative, exponentValue, Exponent.value_ofInt, hexponent]

/-- A decimal is written as a literal of that decimal. -/
theorem exists_literal (d : Decimal) : ∃ l : Literal, l.chars = d.chars ∧ l.decimal = d := by
  unfold chars
  dsimp only
  split
  · next hpointed =>
    rw [Bool.and_eq_true, decide_eq_true_eq] at hpointed
    obtain ⟨p, hnegative, hchars, hlength, hunits⟩ :=
      exists_plain_pointed d.negative d.coefficient (-d.exponent).toNat
    have hexponent : -((-d.exponent).toNat : Int) = d.exponent := by omega
    refine ⟨p.literal, p.chars_literal.trans hchars, ?_⟩
    rw [p.decimal_literal, PlainNumeral.decimal, hnegative, hunits, hlength, hexponent]
  · obtain ⟨l, hchars, hdecimal⟩ := exists_literal_exponential d.negative d.coefficient d.adjusted
    have hexponent : d.adjusted - ((d.numDigits : Int) - 1) = d.exponent := by
      rw [adjusted]
      omega
    refine ⟨l, hchars, hdecimal.trans ?_⟩
    change (⟨d.negative, d.coefficient, d.adjusted - ((d.numDigits : Int) - 1)⟩ : Decimal) = d
    rw [hexponent]

/-- A decimal is read back from its text, also with blanks around it. -/
theorem read?_surrounded (h : d.InRange) {before after : List Char}
    (hbefore : ∀ c ∈ before, Text.isBlank c = true) (hafter : ∀ c ∈ after, Text.isBlank c = true) :
    Numeral.read? (String.ofList (before ++ d.chars ++ after)) = some (.finite d) := by
  obtain ⟨l, hchars, rfl⟩ := d.exists_literal
  rw [← hchars]
  exact read?_eq_finite_iff.mpr ⟨l, l.isSpelledBy_surrounded hbefore hafter, h, rfl⟩

theorem read?_text (h : d.InRange) : Numeral.read? d.text = some (.finite d) := by
  have hread := read?_surrounded h (List.forall_mem_nil _) (List.forall_mem_nil _)
  rwa [List.nil_append, List.append_nil] at hread

/-- The decimals in range are those that some text is read as. -/
theorem inRange_iff_exists_read? : d.InRange ↔ ∃ text, Numeral.read? text = some (.finite d) := by
  constructor
  · intro h
    exact ⟨d.text, read?_text h⟩
  · rintro ⟨text, h⟩
    obtain ⟨l, -, hrange, rfl⟩ := read?_eq_finite_iff.mp h
    exact hrange

end Decimal

end GatewayLedger
