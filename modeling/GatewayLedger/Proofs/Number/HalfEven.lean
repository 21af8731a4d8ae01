import GatewayLedger.Proofs.Number.Nearest
import Mathlib.Algebra.Order.Field.Basic
import Mathlib.Algebra.Order.Field.Rat
import Mathlib.Algebra.Order.Ring.Int
import Mathlib.Algebra.Ring.Int.Parity
import Mathlib.Tactic.FieldSimp
import Mathlib.Tactic.Linarith

/-!
# Rounding numbers half to even

`Rounding.IsHalfEven` says what it means to round a number to an integer, whatever the computation.
The integer is unique and goes up with the number.
-/

namespace GatewayLedger

namespace Rounding

variable {x y : ℚ} {m n : ℤ}

/-- An integer at most half a unit away, and the even one of two that are equally near. -/
structure IsHalfEven (x : ℚ) (n : ℤ) : Prop where
  near : |x - n| ≤ 1 / 2
  even_of_tie : |x - n| = 1 / 2 → Even n

theorem isHalfEven_intCast (n : ℤ) : IsHalfEven n n := by
  constructor
  · rw [sub_self, abs_zero]
    norm_num
  · intro h
    rw [sub_self, abs_zero] at h
    norm_num at h

theorem IsHalfEven.neg (h : IsHalfEven x n) : IsHalfEven (-x) (-n) := by
  have habs : |-x - ((-n : ℤ) : ℚ)| = |x - n| := by
    rw [← abs_neg (x - n)]
    congr 1
    push_cast
    ring
  constructor
  · rw [habs]
    exact h.near
  · intro htie
    rw [habs] at htie
    exact (h.even_of_tie htie).neg

/-- The larger of two numbers is not rounded to the smaller integer. If it were, both would lie half
way between the two integers, and both integers would be even. -/
theorem IsHalfEven.mono (hx : IsHalfEven x m) (hy : IsHalfEven y n) (h : x ≤ y) : m ≤ n := by
  by_contra hlt
  have hnext : n + 1 ≤ m := by omega
  have hnext' : (n : ℚ) + 1 ≤ m := by exact_mod_cast hnext
  have hlow := (abs_le.mp hx.near).1
  have hhigh := (abs_le.mp hy.near).2
  have hm : x - m = -(1 / 2) := by linarith
  have hn : y - n = 1 / 2 := by linarith
  have hevenM : Even m := hx.even_of_tie (by rw [hm, abs_neg, abs_of_pos (by norm_num)])
  have hevenN : Even n := hy.even_of_tie (by rw [hn, abs_of_pos (by norm_num)])
  have hsucc : m = n + 1 := by
    have hle : (m : ℚ) ≤ n + 1 := by linarith
    exact le_antisymm (by exact_mod_cast hle) hnext
  rw [hsucc, Int.even_add_one] at hevenM
  exact hevenM hevenN

theorem IsHalfEven.unique (hm : IsHalfEven x m) (hn : IsHalfEven x n) : m = n :=
  le_antisymm (hm.mono hn le_rfl) (hn.mono hm le_rfl)

/-- An integer up to a number is up to what the number is rounded to. -/
theorem IsHalfEven.le_of_le (hy : IsHalfEven y n) (h : (m : ℚ) ≤ y) : m ≤ n :=
  (isHalfEven_intCast m).mono hy h

theorem IsHalfEven.ge_of_le (hx : IsHalfEven x m) (h : x ≤ n) : m ≤ n :=
  hx.mono (isHalfEven_intCast n) h

theorem IsNearest.isHalfEven {num den k : Nat} (hden : 0 < den) (h : IsNearest num den k) :
    IsHalfEven (num / den) k := by
  obtain ⟨hlow, hhigh, hevenLow, hevenHigh⟩ := h
  have hpos : (0 : ℚ) < den := by exact_mod_cast hden
  have hlow' : (2 * (den * k) : ℚ) ≤ 2 * num + den := by exact_mod_cast hlow
  have hhigh' : (2 * num : ℚ) ≤ 2 * (den * k) + den := by exact_mod_cast hhigh
  have hratio : (num / den - (k : ℤ) : ℚ) = (num - den * k) / den := by
    rw [Int.cast_natCast]
    field_simp
  have hhalf : den * (1 / 2 : ℚ) = den / 2 := by ring
  rw [← Nat.even_iff] at hevenLow hevenHigh
  constructor
  · rw [hratio, abs_div, abs_of_pos hpos, div_le_iff₀' hpos, hhalf, abs_le]
    constructor <;> linarith
  · intro htie
    rw [hratio, abs_div, abs_of_pos hpos, div_eq_iff hpos.ne', mul_comm (1 / 2 : ℚ), hhalf] at htie
    rw [Int.even_coe_nat]
    rcases eq_or_eq_neg_of_abs_eq htie with htie | htie
    · have htie' : (2 * num : ℚ) = 2 * (den * k) + den := by linarith
      exact hevenHigh (by exact_mod_cast htie')
    · have htie' : (2 * (den * k) : ℚ) = 2 * num + den := by linarith
      exact hevenLow (by exact_mod_cast htie')

theorem isHalfEven_dropDigits (n k : Nat) : IsHalfEven (n / 10 ^ k) (dropDigits n k : Nat) := by
  have hpos : 0 < 10 ^ k := Nat.pow_pos (by decide)
  rw [dropDigits, pow10_eq]
  split
  · next hdigits =>
    -- so few digits are less than a tenth of a unit
    have hsmall : 10 * n < 10 ^ k := by
      have hlt := lt_pow_numDigits n
      have hle : 10 ^ (numDigits n + 1) ≤ 10 ^ k := Nat.pow_le_pow_right (by decide) hdigits
      rw [Nat.pow_succ] at hle
      omega
    have hzero : IsNearest n (10 ^ k) 0 := by constructor <;> omega
    exact_mod_cast hzero.isHalfEven hpos
  · exact_mod_cast (isNearest_halfEven hpos n).isHalfEven hpos

end Rounding

end GatewayLedger
