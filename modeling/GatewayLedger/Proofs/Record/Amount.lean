import GatewayLedger.Proofs.Number.PlainReader
import GatewayLedger.Proofs.Number.Rescale
import GatewayLedger.Record.Amount
import Mathlib.Data.List.Induction

/-!
# Amount texts

The text of an amount is the amount rounded to eight places, as a numeral with no zero that could be
left out. It exists if the rounded amount is below `10 ^ 20`, and what is read from it has the same
text again.
-/

namespace GatewayLedger

open Rounding

namespace PlainNumeral

variable {n : PlainNumeral}

/-- A zero leads only if it is the whole part, and the places do not end in one. -/
structure IsTrimmed (n : PlainNumeral) : Prop where
  whole : n.whole = ['0'] ∨ n.whole.head? ≠ some '0'
  fraction : n.fraction.getLast? ≠ some '0'

theorem units_eq_of_fraction {m : PlainNumeral} {zeros : Nat} (hwhole : m.whole = n.whole)
    (hfraction : n.fraction = m.fraction ++ List.replicate zeros '0') :
    n.units = m.units * 10 ^ zeros := by
  rw [units, units, hfraction, ← List.append_assoc, hwhole, Nat.ofDigitChars_append,
    Nat.ofDigitChars_replicate_zero, Nat.mul_comm]

end PlainNumeral

namespace Decimal

theorem head?_digitChars_ne {n : Nat} (hn : n ≠ 0) : (digitChars n).head? ≠ some '0' := by
  induction n using Nat.strong_induction_on with
  | _ n ih =>
    unfold digitChars at ih ⊢
    rcases Nat.lt_or_ge n 10 with hlt | hge
    · have hdigit : ∀ m < 10, m ≠ 0 → [m.digitChar].head? ≠ some '0' := by decide
      rw [Nat.toDigits_of_lt_base hlt]
      exact hdigit n hlt hn
    · have hq : n / 10 ≠ 0 := by omega
      rw [Nat.toDigits_of_base_le (by decide) hge, List.head?_append_of_ne_nil _ Nat.toDigits_ne_nil]
      exact ih (n / 10) (by omega) hq

end Decimal

namespace Amount

open Decimal

/-! ## Zeros at the end -/

theorem exists_eq_append_zeros (cs : List Char) :
    ∃ kept zeros, cs = kept ++ List.replicate zeros '0' ∧ kept.getLast? ≠ some '0' := by
  induction cs using List.reverseRecOn with
  | nil => exact ⟨[], 0, rfl, by simp⟩
  | append_singleton cs c ih =>
    by_cases hc : c = '0'
    · obtain ⟨kept, zeros, hcs, hlast⟩ := ih
      refine ⟨kept, zeros + 1, ?_, hlast⟩
      rw [hc, hcs, List.append_assoc, List.replicate_succ']
    · exact ⟨cs ++ [c], 0, by simp, by simpa using hc⟩

theorem dropWhile_reverse {cs : List Char} {c : Char} (h : cs.getLast? ≠ some c) :
    cs.reverse.dropWhile (· == c) = cs.reverse := by
  rw [← List.head?_reverse] at h
  cases hcs : cs.reverse with
  | nil => rfl
  | cons d ds =>
    rw [hcs, List.head?_cons] at h
    have hd : d ≠ c := fun heq => h (congrArg some heq)
    exact List.dropWhile_cons_of_neg (by simpa using hd)

theorem dropZeros_append_zeros {kept : List Char} (zeros : Nat) (h : kept.getLast? ≠ some '0') :
    dropZeros (kept ++ List.replicate zeros '0') = (kept.reverse.dropWhile (· == '.')).reverse := by
  have hzeros : ∀ c ∈ List.replicate zeros '0', (c == '0') = true := by simp
  rw [dropZeros, List.reverse_append, List.reverse_replicate, List.dropWhile_append_of_pos hzeros,
    dropWhile_reverse h]

/-- Without the zeros at the end, a numeral with places is a numeral that perhaps has no places. -/
theorem exists_dropZeros_eq {n : PlainNumeral} (hn : n.fraction ≠ []) :
    ∃ (m : PlainNumeral) (zeros : Nat), dropZeros n.chars = m.chars ∧ m.negative = n.negative ∧
      m.whole = n.whole ∧ n.fraction = m.fraction ++ List.replicate zeros '0' ∧
      m.fraction.getLast? ≠ some '0' := by
  obtain ⟨kept, zeros, hfraction, hlast⟩ := exists_eq_append_zeros n.fraction
  have hdigits : ∀ c ∈ n.whole ++ kept, c.isDigit = true := by
    intro c hc
    apply n.isDigit c
    rw [hfraction, ← List.append_assoc]
    exact List.mem_append_left _ hc
  let m : PlainNumeral := ⟨n.negative, n.whole, kept, n.whole_ne, hdigits⟩
  refine ⟨m, zeros, ?_, rfl, rfl, hfraction, hlast⟩
  -- what is left ends in a digit, so the point is dropped at most once
  obtain ⟨c, hc, hdigit⟩ := m.exists_getLast?_chars
  have hpoint : m.chars.getLast? ≠ some '.' := by
    rw [hc]
    rintro heq
    rw [Option.some.inj heq] at hdigit
    exact absurd hdigit (by decide)
  have hchars : n.chars =
      (signChars n.negative ++ n.whole ++ '.' :: kept) ++ List.replicate zeros '0' := by
    rw [PlainNumeral.chars_of_fraction_ne_nil hn, hfraction]
    simp
  have hkept : (signChars n.negative ++ n.whole ++ '.' :: kept).getLast? ≠ some '0' := by
    rw [List.getLast?_append, List.getLast?_cons]
    cases hlast' : kept.getLast? with
    | none => simp
    | some d => simpa [hlast'] using hlast
  rw [hchars, dropZeros_append_zeros zeros hkept]
  by_cases hnone : kept = []
  · have hm : m.chars = signChars n.negative ++ n.whole :=
      PlainNumeral.chars_of_fraction_eq_nil hnone
    rw [hm] at hpoint ⊢
    rw [hnone, List.reverse_append, List.reverse_singleton, List.singleton_append,
      List.dropWhile_cons_of_pos (by decide), dropWhile_reverse hpoint, List.reverse_reverse]
  · have hm : m.chars = signChars n.negative ++ n.whole ++ '.' :: kept := by
      rw [PlainNumeral.chars_of_fraction_ne_nil hnone, List.append_assoc]
    rw [← hm, dropWhile_reverse hpoint, List.reverse_reverse]

/-! ## Texts -/

/-- The whole part of digits with a point among or before them. -/
theorem whole_of_chars_pointed {n : PlainNumeral} {coefficient places : Nat} (hplaces : places ≠ 0)
    (hchars : n.chars = signChars n.negative ++ pointed (digitChars coefficient) places)
    (hlength : n.fraction.length = places) : n.whole = ['0'] ∨ n.whole.head? ≠ some '0' := by
  have hfraction : n.fraction ≠ [] := List.ne_nil_of_length_pos (by omega)
  rw [PlainNumeral.chars_of_fraction_ne_nil hfraction] at hchars
  have hunsigned := List.append_cancel_left hchars
  rw [pointed, if_neg hplaces] at hunsigned
  split at hunsigned
  · next hshort =>
    have hwhole := List.append_inj_left' hunsigned (by simp; omega)
    have hne : coefficient ≠ 0 := by
      rintro rfl
      have hone : (digitChars 0).length = 1 := rfl
      omega
    rw [hwhole, List.head?_take, if_neg (by omega)]
    exact .inr (head?_digitChars_ne hne)
  · next hlong =>
    refine .inl (List.append_inj_left' (hunsigned.trans List.singleton_append.symm) ?_)
    rw [List.length_cons, List.length_cons, List.length_append, List.length_replicate, hlength]
    omega

/-- The text of an amount has the digits of the rounded amount, apart from zeros at the end. -/
theorem exists_text {d : Decimal} (h : d.coefficientAt (-8) < 10 ^ precision) :
    ∃ (n : PlainNumeral) (zeros : Nat), text d = .ok n.text ∧ n.IsTrimmed ∧
      n.negative = d.negative ∧ n.fraction.length + zeros = 8 ∧
      d.coefficientAt (-8) = n.units * 10 ^ zeros := by
  obtain ⟨n, hnegative, hchars, hlength, hunits⟩ :=
    exists_plain_pointed d.negative (d.coefficientAt (-8)) 8
  rw [← hnegative] at hchars
  have hfraction : n.fraction ≠ [] := List.ne_nil_of_length_pos (by omega)
  obtain ⟨m, zeros, hdrop, hsign, hwhole, hplaces, hlast⟩ := exists_dropZeros_eq hfraction
  refine ⟨m, zeros, ?_, ⟨?_, hlast⟩, hsign.trans hnegative, ?_, ?_⟩
  · have hrounded : (⟨d.negative, d.coefficientAt (-8), -8⟩ : Decimal).plainChars = n.chars := by
      rw [hchars, hnegative]
      rfl
    rw [text, rescale_toEven, if_pos h, PlainNumeral.text, ← hdrop, ← hrounded]
    rfl
  · rw [hwhole]
    exact whole_of_chars_pointed (by decide) hchars hlength
  · rw [← hlength, hplaces, List.length_append, List.length_replicate]
  · rw [← hunits]
    exact PlainNumeral.units_eq_of_fraction hwhole hplaces

theorem text_eq_tooManyDigits {d : Decimal} (h : 10 ^ precision ≤ d.coefficientAt (-8)) :
    text d = .error .tooManyDigits := by
  rw [text, rescale_toEven, if_neg (Nat.not_lt.mpr h)]
  rfl

theorem text_congr {a b : Decimal} (hnegative : a.negative = b.negative)
    (h : a.coefficientAt (-8) = b.coefficientAt (-8)) : text a = text b := by
  rw [text, text, rescale_toEven, rescale_toEven, hnegative, h]

/-- A number of eight places that is nearest to another one, and of two of them the one whose last
place is even. -/
def IsRounded (v q : ℚ) : Prop := ∃ n : ℤ, IsHalfEven (v * 10 ^ 8) n ∧ q = n / 10 ^ 8

theorem IsRounded.unique {v p q : ℚ} (hp : IsRounded v p) (hq : IsRounded v q) : p = q := by
  obtain ⟨m, hm, rfl⟩ := hp
  obtain ⟨n, hn, rfl⟩ := hq
  rw [hm.unique hn]

theorem isRounded_movedTo (d : Decimal) : IsRounded d.toRat (d.movedTo (-8)).toRat := by
  have h := isHalfEven_movedTo d (-8)
  have hplace : (10 : ℚ) ^ (-8 : Int) = 1 / 10 ^ 8 := by norm_num
  rw [hplace, div_div_eq_mul_div, div_one] at h
  refine ⟨_, h, ?_⟩
  have hexponent : (d.movedTo (-8)).exponent = -8 := rfl
  rw [toRat_eq, hexponent, hplace, mul_one_div]

theorem abs_movedTo_lt_iff (d : Decimal) :
    |(d.movedTo (-8)).toRat| < 10 ^ 20 ↔ d.coefficientAt (-8) < 10 ^ precision := by
  have hsplit : (10 : ℚ) ^ 20 = 10 ^ precision * 10 ^ (-8 : Int) := by norm_num [precision]
  rw [abs_toRat, hsplit]
  change (d.coefficientAt (-8) : ℚ) * 10 ^ (-8 : Int) < _ ↔ _
  rw [mul_lt_mul_iff_of_pos_right (ten_zpow_pos _)]
  norm_cast

variable {n : PlainNumeral} {d : Decimal} {zeros : Nat}

/-- Zeros behind the places keep the value. -/
theorem value_eq_movedTo (hnegative : n.negative = d.negative) (hlength : n.fraction.length + zeros = 8)
    (hunits : d.coefficientAt (-8) = n.units * 10 ^ zeros) : n.value = (d.movedTo (-8)).toRat := by
  have hsign : n.negative = (d.movedTo (-8)).negative := hnegative
  have hpower : (10 : ℚ) ^ zeros * 10 ^ (-8 + (n.fraction.length : Int)) = 1 := by
    have hzero : (zeros : Int) + (-8 + n.fraction.length) = 0 := by omega
    rw [← zpow_natCast, ← zpow_add₀ (by norm_num), hzero, zpow_zero]
  apply PlainNumeral.value_eq_toRat hsign
  change (n.units : ℚ) = (d.coefficientAt (-8) : Nat) * 10 ^ (-8 + (n.fraction.length : Int))
  rw [hunits, Nat.cast_mul, mul_assoc, Nat.cast_pow, Nat.cast_ofNat, hpower, mul_one]

theorem coefficientAt_decimal (hlength : n.fraction.length + zeros = 8) :
    n.decimal.coefficientAt (-8) = n.units * 10 ^ zeros := by
  have hshift : (-(n.fraction.length : Int) - -8).toNat = zeros := by omega
  rw [coefficientAt, PlainNumeral.decimal]
  dsimp only
  rw [if_pos (by omega), hshift]

theorem read?_text_of_places (hlength : n.fraction.length ≤ 8) (hunits : n.units < 10 ^ precision) :
    Decimal.read? n.text = some n.decimal := by
  have hexponent : n.decimal.exponent = -(n.fraction.length : Int) := rfl
  have hdigits : n.decimal.numDigits ≤ 28 := (numDigits_le_iff (by decide)).mpr hunits
  have hplaces : Numeral.minExponent ≤ n.decimal.exponent := by
    unfold Numeral.minExponent
    omega
  have hsize : n.decimal.adjusted ≤ Numeral.maxAdjusted := by
    unfold adjusted Numeral.maxAdjusted
    omega
  rw [Decimal.read?, n.read?_text hsize hplaces]
  rfl

/-- An amount that is less than `10 ^ 20` when it is rounded to eight places has a text. The text is a
numeral of the rounded amount without an exponent or a zero to leave out, and what is read from it has
the same value and the same text. Any other amount has too many digits. -/
theorem text_is_trimmed_rounded_numeral (d : Decimal) :
    (∃! q, IsRounded d.toRat q) ∧ ∀ q, IsRounded d.toRat q →
      (|q| < 10 ^ 20 → ∃ n : PlainNumeral, text d = .ok n.text ∧ n.IsTrimmed ∧
        n.fraction.length ≤ 8 ∧ n.value = q ∧
        ∃ back, Decimal.read? n.text = some back ∧ back.toRat = q ∧ text back = .ok n.text) ∧
      (10 ^ 20 ≤ |q| → text d = .error .tooManyDigits) := by
  have hrounded := isRounded_movedTo d
  refine ⟨⟨_, hrounded, fun p hp => hp.unique hrounded⟩, fun q hq => ?_⟩
  obtain rfl : q = (d.movedTo (-8)).toRat := hq.unique hrounded
  constructor
  · intro hsmall
    have hlt := (abs_movedTo_lt_iff d).mp hsmall
    obtain ⟨n, zeros, htext, htrimmed, hnegative, hlength, hunits⟩ := exists_text hlt
    have hsame : n.decimal.coefficientAt (-8) = d.coefficientAt (-8) :=
      (coefficientAt_decimal hlength).trans hunits.symm
    have hdigits : n.units < 10 ^ precision :=
      (Nat.le_mul_of_pos_right _ (Nat.pow_pos (by decide))).trans_lt (hunits ▸ hlt)
    have hvalue := value_eq_movedTo hnegative hlength hunits
    refine ⟨n, htext, htrimmed, by omega, hvalue, n.decimal,
      read?_text_of_places (by omega) hdigits, n.toRat_decimal.trans hvalue, ?_⟩
    rw [text_congr hnegative hsame, htext]
  · intro hlarge
    apply text_eq_tooManyDigits
    rw [← Nat.not_lt, ← abs_movedTo_lt_iff]
    exact not_lt.mpr hlarge

/-- A half at the ninth place goes to the even digit, also when it carries into a digit too many. -/
theorem text_of_halves :
    let tie : Decimal := ⟨true, 123456785, -9⟩
    let carry : Decimal := ⟨false, 99999999999999999999999999995, -9⟩
    (IsRounded tie.toRat (-12345678 / 10 ^ 8) ∧ ∃ n : PlainNumeral, text tie = .ok n.text ∧
      n.IsTrimmed ∧ n.value = -12345678 / 10 ^ 8 ∧ n.text = "-0.12345678") ∧
      IsRounded carry.toRat (10 ^ 20) ∧ text carry = .error .tooManyDigits := by
  intro tie carry
  have htie : IsRounded tie.toRat (-12345678 / 10 ^ 8) := by
    refine ⟨-12345678, ⟨?_, fun _ => by decide⟩, by norm_num⟩
    norm_num [tie, toRat_eq, signed, abs_div]
  have hcarry : IsRounded carry.toRat (10 ^ 20) := by
    refine ⟨10 ^ 28, ⟨?_, fun _ => by decide⟩, by norm_num⟩
    norm_num [carry, toRat_eq, signed, abs_div]
  obtain ⟨n, htext, htrimmed, -, hvalue, -⟩ :=
    ((text_is_trimmed_rounded_numeral tie).2 _ htie).1 (by norm_num [abs_div])
  have hshown : text tie = .ok "-0.12345678" := by decide +kernel
  have hn : n.text = "-0.12345678" := Except.ok.inj (htext.symm.trans hshown)
  have htoo := ((text_is_trimmed_rounded_numeral carry).2 _ hcarry).2 (by norm_num)
  exact ⟨⟨htie, n, htext, htrimmed, hvalue, hn⟩, hcarry, htoo⟩

end Amount

end GatewayLedger
