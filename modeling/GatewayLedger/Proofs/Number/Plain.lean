import GatewayLedger.Number.Decimal.Printer
import GatewayLedger.Proofs.Number.Value

/-!
# Plain numerals

A plain numeral has digits before a point, perhaps digits behind it, and no exponent. Every decimal
is written as one without any loss: a negative exponent moves the point, and a positive one adds
zeros.
-/

namespace GatewayLedger

structure PlainNumeral where
  negative : Bool
  whole : List Char
  fraction : List Char
  whole_ne : whole ≠ []
  isDigit : ∀ c ∈ whole ++ fraction, c.isDigit = true

namespace PlainNumeral

def chars (n : PlainNumeral) : List Char :=
  Decimal.signChars n.negative ++ (n.whole ++ if n.fraction = [] then [] else '.' :: n.fraction)

def text (n : PlainNumeral) : String := String.ofList n.chars

/-- All digits as one number, without the point. -/
def units (n : PlainNumeral) : Nat := Nat.ofDigitChars 10 (n.whole ++ n.fraction) 0

def value (n : PlainNumeral) : ℚ :=
  (if n.negative then -1 else 1) * (n.units / 10 ^ n.fraction.length)

variable {n : PlainNumeral} {d : Decimal}

theorem chars_of_fraction_eq_nil (h : n.fraction = []) :
    n.chars = Decimal.signChars n.negative ++ n.whole := by
  rw [chars, if_pos h, List.append_nil]

theorem chars_of_fraction_ne_nil (h : n.fraction ≠ []) :
    n.chars = Decimal.signChars n.negative ++ (n.whole ++ '.' :: n.fraction) := by
  rw [chars, if_neg h]

theorem exists_getLast?_chars (n : PlainNumeral) :
    ∃ c, n.chars.getLast? = some c ∧ c.isDigit = true := by
  by_cases h : n.fraction = []
  · refine ⟨n.whole.getLast n.whole_ne, ?_, n.isDigit _ ?_⟩
    · rw [n.chars_of_fraction_eq_nil h, List.getLast?_append, List.getLast?_eq_some_getLast n.whole_ne,
        Option.some_or]
    · exact List.mem_append_left _ (List.getLast_mem _)
  · refine ⟨n.fraction.getLast h, ?_, n.isDigit _ ?_⟩
    · rw [n.chars_of_fraction_ne_nil h, List.getLast?_append, List.getLast?_append,
        List.getLast?_cons, List.getLast?_eq_some_getLast h, Option.getD_some, Option.some_or,
        Option.some_or]
    · exact List.mem_append_right _ (List.getLast_mem _)

theorem value_eq_toRat (hnegative : n.negative = d.negative)
    (h : (n.units : ℚ) = d.coefficient * 10 ^ (d.exponent + n.fraction.length)) :
    n.value = d.toRat := by
  have hpower : (10 : ℚ) ^ n.fraction.length ≠ 0 := by positivity
  have hmagnitude : (n.units / 10 ^ n.fraction.length : ℚ) = d.coefficient * 10 ^ d.exponent := by
    rw [h, zpow_add₀ (by norm_num), zpow_natCast, ← mul_assoc, mul_div_assoc, div_self hpower,
      mul_one]
  rw [value, hmagnitude, hnegative, Decimal.toRat_eq, Decimal.signed]
  split
  · push_cast
    ring
  · push_cast
    ring

end PlainNumeral

namespace Decimal

theorem digitChars_ne_nil (n : Nat) : digitChars n ≠ [] := Nat.toDigits_ne_nil

theorem isDigit_of_mem_digitChars {c : Char} {n : Nat} (h : c ∈ digitChars n) : c.isDigit = true :=
  Nat.isDigit_of_mem_toDigits (by decide) (by decide) h

theorem ofDigitChars_digitChars (n : Nat) : Nat.ofDigitChars 10 (digitChars n) 0 = n :=
  Nat.ofDigitChars_toDigits (by decide) (by decide)

/-- Digits with zeros behind them. -/
theorem exists_plain_shifted (negative : Bool) (n places : Nat) :
    ∃ p : PlainNumeral, p.negative = negative ∧
      p.chars = signChars negative ++ (digitChars n ++ List.replicate places '0') ∧
      p.fraction = [] ∧ p.units = n * 10 ^ places := by
  refine ⟨⟨negative, digitChars n ++ List.replicate places '0', [],
    List.append_ne_nil_of_left_ne_nil (digitChars_ne_nil n) _, ?_⟩, rfl,
    PlainNumeral.chars_of_fraction_eq_nil rfl, rfl, ?_⟩
  · intro c hc
    simp only [List.append_nil, List.mem_append, List.mem_replicate] at hc
    rcases hc with hc | ⟨_, rfl⟩
    · exact isDigit_of_mem_digitChars hc
    · decide
  · rw [PlainNumeral.units, List.append_nil, Nat.ofDigitChars_append, ofDigitChars_digitChars,
      Nat.ofDigitChars_replicate_zero, Nat.mul_comm]

/-- Digits with the last of them behind a point. -/
theorem exists_plain_pointed (negative : Bool) (n places : Nat) :
    ∃ p : PlainNumeral, p.negative = negative ∧
      p.chars = signChars negative ++ pointed (digitChars n) places ∧
      p.fraction.length = places ∧ p.units = n := by
  have hdigit : ∀ c ∈ digitChars n, c.isDigit = true := fun c hc => isDigit_of_mem_digitChars hc
  by_cases hnone : places = 0
  · obtain ⟨p, hnegative, hchars, hfraction, hunits⟩ := exists_plain_shifted negative n 0
    refine ⟨p, hnegative, ?_, by rw [hfraction, hnone, List.length_nil], ?_⟩
    · rw [hchars, pointed, if_pos hnone, List.replicate_zero, List.append_nil]
    · rw [hunits, pow_zero, Nat.mul_one]
  by_cases hshort : places < (digitChars n).length
  · -- the point stands between two digits
    have hsplit := List.take_append_drop ((digitChars n).length - places) (digitChars n)
    have hlength : ((digitChars n).drop ((digitChars n).length - places)).length = places := by
      rw [List.length_drop]
      omega
    have hfraction : (digitChars n).drop ((digitChars n).length - places) ≠ [] :=
      List.ne_nil_of_length_pos (by rw [hlength]; exact Nat.pos_of_ne_zero hnone)
    refine ⟨⟨negative, _, _, ?_, by rw [hsplit]; exact hdigit⟩, rfl, ?_, hlength, ?_⟩
    · apply List.ne_nil_of_length_pos
      rw [List.length_take]
      omega
    · rw [pointed, if_neg hnone, if_pos hshort]
      exact PlainNumeral.chars_of_fraction_ne_nil hfraction
    · rw [PlainNumeral.units, hsplit, ofDigitChars_digitChars]
  · -- zeros fill the places between the point and the digits
    refine ⟨⟨negative, ['0'], List.replicate (places - (digitChars n).length) '0' ++ digitChars n,
      by simp, ?_⟩, rfl, ?_, ?_, ?_⟩
    · intro c hc
      simp only [List.mem_append, List.mem_singleton, List.mem_replicate] at hc
      rcases hc with rfl | ⟨_, rfl⟩ | hc
      · decide
      · decide
      · exact hdigit c hc
    · rw [pointed, if_neg hnone, if_neg hshort]
      exact PlainNumeral.chars_of_fraction_ne_nil
        (List.append_ne_nil_of_right_ne_nil _ (digitChars_ne_nil n))
    · rw [List.length_append, List.length_replicate]
      omega
    · rw [PlainNumeral.units, ← List.append_assoc, List.singleton_append, ← List.replicate_succ,
        Nat.ofDigitChars_append, Nat.ofDigitChars_replicate_zero, Nat.mul_zero,
        ofDigitChars_digitChars]

/-- With or without an exponent, a decimal ends in a digit. -/
theorem exists_getLast?_chars (d : Decimal) :
    ∃ c, d.chars.getLast? = some c ∧ c.isDigit = true := by
  unfold chars
  dsimp only
  split
  · obtain ⟨p, _, hchars, _⟩ := exists_plain_pointed d.negative d.coefficient (-d.exponent).toNat
    rw [← hchars]
    exact p.exists_getLast?_chars
  · have hne := digitChars_ne_nil d.adjusted.natAbs
    refine ⟨(digitChars d.adjusted.natAbs).getLast hne, ?_,
      isDigit_of_mem_digitChars (List.getLast_mem hne)⟩
    unfold exponential
    dsimp only
    rw [List.getLast?_append, List.getLast?_append, List.getLast?_cons_cons, List.getLast?_cons,
      List.getLast?_eq_some_getLast hne, Option.getD_some, Option.some_or, Option.some_or]

/-- A decimal is written as a plain numeral of its value. -/
theorem exists_plain (d : Decimal) : ∃ p : PlainNumeral, p.text = d.plainText ∧ p.value = d.toRat := by
  by_cases hexponent : d.exponent ≤ 0
  · obtain ⟨p, hnegative, hchars, hlength, hunits⟩ :=
      exists_plain_pointed d.negative d.coefficient (-d.exponent).toNat
    refine ⟨p, ?_, ?_⟩
    · rw [PlainNumeral.text, hchars, plainText, plainChars, if_pos hexponent]
    · apply PlainNumeral.value_eq_toRat hnegative
      have hzero : d.exponent + ((-d.exponent).toNat : Int) = 0 := by omega
      rw [hunits, hlength, hzero, zpow_zero, mul_one]
  by_cases hzero : d.isZero = true
  · obtain ⟨p, hnegative, hchars, hfraction, hunits⟩ := exists_plain_shifted d.negative 0 0
    have hcoefficient : d.coefficient = 0 := by simpa [isZero] using hzero
    refine ⟨p, ?_, ?_⟩
    · rw [PlainNumeral.text, hchars, plainText, plainChars, if_neg hexponent, if_pos hzero]
      rfl
    · apply PlainNumeral.value_eq_toRat hnegative
      rw [hunits, hcoefficient, Nat.zero_mul, Nat.cast_zero, zero_mul]
  · obtain ⟨p, hnegative, hchars, hfraction, hunits⟩ :=
      exists_plain_shifted d.negative d.coefficient d.exponent.toNat
    refine ⟨p, ?_, ?_⟩
    · rw [PlainNumeral.text, hchars, plainText, plainChars, if_neg hexponent, if_neg hzero]
    · apply PlainNumeral.value_eq_toRat hnegative
      have hpower : d.exponent + (([] : List Char).length : Int) = (d.exponent.toNat : Int) := by
        rw [List.length_nil]
        omega
      rw [hunits, hfraction, hpower, zpow_natCast]
      push_cast
      ring

end Decimal

end GatewayLedger
