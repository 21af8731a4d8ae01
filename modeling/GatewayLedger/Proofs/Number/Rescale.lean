import GatewayLedger.Proofs.Number.HalfEven
import GatewayLedger.Proofs.Number.Value

/-!
# Decimals at a given place

A decimal can be moved to a place if its value there has at most 28 digits, after rounding. As a half
goes to the even neighbour, and the least number of 29 digits is even, the values that can be moved
end half a unit below that number. The coefficient at the place is the value there, rounded half to
even.
-/

namespace GatewayLedger

namespace Rounding

variable {n k m : Nat}

theorem dropDigits_lt_iff (hm : 0 < m) (heven : m % 2 = 0) :
    dropDigits n k < m ↔ 2 * n + 10 ^ k < 2 * (10 ^ k * m) := by
  have hpos : 0 < 10 ^ k := Nat.pow_pos (by decide)
  rw [dropDigits, pow10_eq]
  split
  · next hdigits =>
    have hsmall : n < 10 ^ (k - 1) :=
      (lt_pow_numDigits n).trans_le (Nat.pow_le_pow_right (by decide) (by omega))
    have hten : 10 ^ k = 10 * 10 ^ (k - 1) := by
      rw [← Nat.pow_succ']
      congr 1
      omega
    have hunit : 10 ^ k * 1 ≤ 10 ^ k * m := Nat.mul_le_mul_left _ hm
    omega
  · exact halfEven_lt_iff hpos heven

end Rounding

namespace Decimal

open Rounding

variable {d : Decimal} {e : Int}

/-- The coefficient of a decimal at another exponent. -/
def coefficientAt (d : Decimal) (e : Int) : Nat :=
  if e ≤ d.exponent then d.coefficient * 10 ^ (d.exponent - e).toNat
  else dropDigits d.coefficient (e - d.exponent).toNat

/-- A decimal whose value at an exponent has at most 28 digits, after rounding. -/
def FitsAt (d : Decimal) (e : Int) : Prop :=
  2 * |d.toRat| + 10 ^ e < 2 * (10 ^ precision * 10 ^ e)

theorem numDigits_add_le_iff {k m : Nat} (hd : d.coefficient ≠ 0) :
    d.numDigits + k ≤ m ↔ d.coefficient * 10 ^ k < 10 ^ m := by
  have hdigits : 0 < d.numDigits := Rounding.numDigits_pos _
  have hpos : 0 < 10 ^ k := Nat.pow_pos (by decide)
  rcases Nat.lt_or_ge k m with hk | hk
  · have hsplit : 10 ^ m = 10 ^ (m - k) * 10 ^ k := by
      rw [← Nat.pow_add]
      congr 1
      omega
    rw [hsplit, Nat.mul_lt_mul_right hpos, ← numDigits_le_iff (by omega), ← numDigits]
    omega
  · have hle : 10 ^ m ≤ d.coefficient * 10 ^ k :=
      (Nat.pow_le_pow_right (by decide) hk).trans (Nat.le_mul_of_pos_left _ (by omega))
    omega

theorem coefficientAt_of_isZero (h : d.isZero = true) (e : Int) : d.coefficientAt e = 0 := by
  have hd : d.coefficient = 0 := by simpa [isZero] using h
  have hdrop : dropDigits 0 (e - d.exponent).toNat = 0 := by
    simp [dropDigits, halfEven]
  rw [coefficientAt, hd, Nat.zero_mul, hdrop, ite_self]

theorem ite_lt_eq_ite {α : Type} {n bound : Nat} {P : Prop} [Decidable P] (h : n ≤ bound ↔ P)
    (x y : α) : (if bound < n then x else y) = if P then y else x := by
  by_cases hP : P
  · rw [if_pos hP, if_neg (Nat.not_lt.mpr (h.mpr hP))]
  · rw [if_neg hP, if_pos (Nat.lt_of_not_le fun hle => hP (h.mp hle))]

theorem rescale_toEven (d : Decimal) (e : Int) :
    d.rescale e .toEven =
      if d.coefficientAt e < 10 ^ precision then .ok ⟨d.negative, d.coefficientAt e, e⟩
      else .error .invalid := by
  cases hzero : d.isZero with
  | true =>
    rw [rescale, if_pos hzero, coefficientAt_of_isZero hzero, if_pos (Nat.pow_pos (by decide))]
  | false =>
    have hd : d.coefficient ≠ 0 := by simpa [isZero] using hzero
    rw [rescale, if_neg (by simp [hzero]), coefficientAt]
    by_cases he : e ≤ d.exponent
    · rw [if_pos he, if_pos he]
      exact ite_lt_eq_ite (numDigits_add_le_iff hd) _ _
    · rw [if_neg he, if_neg he]
      exact ite_lt_eq_ite (numDigits_le_iff (by decide)) _ _

theorem coefficientAt_lt_iff : d.coefficientAt e < 10 ^ precision ↔ d.FitsAt e := by
  have hunit : (0 : ℚ) < 10 ^ d.exponent := ten_zpow_pos _
  unfold FitsAt coefficientAt
  rw [abs_toRat]
  by_cases he : e ≤ d.exponent
  · rw [if_pos he]
    generalize hk : (d.exponent - e).toNat = k
    have hpower : (10 : ℚ) ^ d.exponent = 10 ^ k * 10 ^ e := ten_zpow_eq (by omega)
    have hpos : (0 : ℚ) < 10 ^ e := ten_zpow_pos _
    have hunits : 2 * ((d.coefficient : ℚ) * (10 ^ k * 10 ^ e)) + 10 ^ e =
        (2 * (d.coefficient * 10 ^ k) + 1) * 10 ^ e := by ring
    have hbound : 2 * ((10 : ℚ) ^ precision * 10 ^ e) = 2 * 10 ^ precision * 10 ^ e := by ring
    rw [hpower, hunits, hbound, mul_lt_mul_iff_of_pos_right hpos]
    constructor
    · intro h
      have hnat : 2 * (d.coefficient * 10 ^ k) + 1 < 2 * 10 ^ precision := by omega
      exact_mod_cast hnat
    · intro h
      have hnat : 2 * (d.coefficient * 10 ^ k) + 1 < 2 * 10 ^ precision := by exact_mod_cast h
      omega
  · rw [if_neg he]
    generalize hk : (e - d.exponent).toNat = k
    have hpower : (10 : ℚ) ^ e = 10 ^ k * 10 ^ d.exponent := ten_zpow_eq (by omega)
    have hunits : 2 * ((d.coefficient : ℚ) * 10 ^ d.exponent) + 10 ^ k * 10 ^ d.exponent =
        (2 * d.coefficient + 10 ^ k) * 10 ^ d.exponent := by ring
    have hbound : 2 * ((10 : ℚ) ^ precision * (10 ^ k * 10 ^ d.exponent)) =
        2 * (10 ^ k * 10 ^ precision) * 10 ^ d.exponent := by ring
    rw [hpower, hunits, hbound, mul_lt_mul_iff_of_pos_right hunit,
      dropDigits_lt_iff (Nat.pow_pos (by decide)) (by decide)]
    norm_cast

theorem exists_rescale (h : d.FitsAt e) : ∃ r, d.rescale e .toEven = .ok r :=
  ⟨_, by rw [rescale_toEven, if_pos (coefficientAt_lt_iff.mpr h)]⟩

theorem rescale_eq_invalid (h : ¬ d.FitsAt e) : d.rescale e .toEven = .error .invalid := by
  rw [rescale_toEven, if_neg fun hlt => h (coefficientAt_lt_iff.mp hlt)]

/-! ## Moving by rounding -/

theorem coefficientAt_eq_dropDigits (h : d.exponent ≤ e) :
    d.coefficientAt e = dropDigits d.coefficient (e - d.exponent).toNat := by
  rw [coefficientAt]
  split
  · obtain rfl : e = d.exponent := by omega
    rw [sub_self, Int.toNat_zero, pow_zero, mul_one, dropDigits, if_neg (Nat.not_lt_zero _)]
    exact (halfEven_one d.coefficient).symm
  · rfl

theorem isHalfEven_coefficientAt (d : Decimal) (e : Int) :
    IsHalfEven (d.coefficient * 10 ^ d.exponent / 10 ^ e) (d.coefficientAt e : Nat) := by
  have hunit : (10 : ℚ) ^ e ≠ 0 := (ten_zpow_pos e).ne'
  rcases le_total e d.exponent with he | he
  · have hpower : (10 : ℚ) ^ d.exponent = 10 ^ (d.exponent - e).toNat * 10 ^ e :=
      ten_zpow_eq (by omega)
    have hexact : (d.coefficient * 10 ^ d.exponent / 10 ^ e : ℚ) = (d.coefficientAt e : Nat) := by
      rw [coefficientAt, if_pos he, hpower, ← mul_assoc, mul_div_assoc, div_self hunit, mul_one]
      push_cast
      rfl
    rw [hexact]
    exact isHalfEven_intCast _
  · have hpower : (10 : ℚ) ^ e = 10 ^ (e - d.exponent).toNat * 10 ^ d.exponent :=
      ten_zpow_eq (by omega)
    rw [coefficientAt_eq_dropDigits he, hpower, mul_div_mul_right _ _ (ten_zpow_pos _).ne']
    exact isHalfEven_dropDigits _ _

/-- The decimal at an exponent, whether or not it has too many digits. -/
def movedTo (d : Decimal) (e : Int) : Decimal := ⟨d.negative, d.coefficientAt e, e⟩

/-- A decimal is moved to an exponent by rounding its value there. -/
theorem isHalfEven_movedTo (d : Decimal) (e : Int) :
    IsHalfEven (d.toRat / 10 ^ e) (d.movedTo e).signed := by
  have h := isHalfEven_coefficientAt d e
  rw [toRat_eq]
  unfold movedTo signed
  dsimp only
  split
  · have hneg := h.neg
    have hsign : (-(d.coefficient * 10 ^ d.exponent / 10 ^ e) : ℚ) =
        ((-(d.coefficient : ℤ) : ℤ) : ℚ) * 10 ^ d.exponent / 10 ^ e := by
      push_cast
      ring
    rw [hsign] at hneg
    exact hneg
  · exact_mod_cast h

end Decimal

end GatewayLedger
