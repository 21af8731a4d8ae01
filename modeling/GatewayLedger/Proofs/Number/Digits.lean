import GatewayLedger.Number.Rounding
import Mathlib.Algebra.Group.Nat.Defs
import Mathlib.Order.Nat

/-!
# Digits of a number

A number has `k` digits if it lies between two successive powers of ten. Dropping digits leaves at
most one unit more than the quotient.
-/

namespace GatewayLedger.Rounding

@[simp] theorem pow10_eq (k : Nat) : pow10 k = 10 ^ k := rfl

theorem pow_log2_le {n : Nat} (hn : n ≠ 0) : 10 ^ (n.log2 * 3 / 10) ≤ n := by
  have hpow : (10 ^ (n.log2 * 3 / 10)) ^ 10 ≤ (2 ^ n.log2) ^ 10 :=
    calc (10 ^ (n.log2 * 3 / 10)) ^ 10 = 10 ^ (n.log2 * 3 / 10 * 10) := (Nat.pow_mul ..).symm
      _ ≤ 10 ^ (3 * n.log2) := Nat.pow_le_pow_right (by omega) (by omega)
      _ = (10 ^ 3) ^ n.log2 := Nat.pow_mul ..
      _ ≤ (2 ^ 10) ^ n.log2 := Nat.pow_le_pow_left (by omega) _
      _ = (2 ^ n.log2) ^ 10 := by rw [← Nat.pow_mul, ← Nat.pow_mul, Nat.mul_comm]
  exact ((Nat.pow_le_pow_iff_left (by omega)).mp hpow).trans (Nat.log2_self_le hn)

theorem pow_chunk_le {n : Nat} (hn : 10 ≤ n) : 10 ^ max 1 (n.log2 * 3 / 10) ≤ n := by
  rcases Nat.le_total 1 (n.log2 * 3 / 10) with h | h
  · rw [Nat.max_eq_right h]
    exact pow_log2_le (by omega)
  · rw [Nat.max_eq_left h]
    exact hn

theorem lt_pow_numDigits (n : Nat) : n < 10 ^ numDigits n := by
  fun_induction numDigits n with
  | case1 n h => exact h
  | case2 n h m ih =>
    rw [pow10_eq] at ih ⊢
    rw [Nat.pow_add]
    exact Nat.lt_mul_of_div_lt ih (Nat.pow_pos (by omega))

theorem pow_numDigits_le {n : Nat} (hn : n ≠ 0) : 10 ^ (numDigits n - 1) ≤ n := by
  fun_induction numDigits n with
  | case1 n h => exact Nat.pos_of_ne_zero hn
  | case2 n h m ih =>
    rw [pow10_eq] at ih ⊢
    have hm : 10 ^ m ≤ n := pow_chunk_le (by omega)
    have hpos : 0 < 10 ^ m := Nat.pow_pos (by omega)
    have hq : n / 10 ^ m ≠ 0 := (Nat.div_pos hm hpos).ne'
    have hdigits : numDigits (n / 10 ^ m) + m - 1 = numDigits (n / 10 ^ m) - 1 + m := by
      have := numDigits_pos (n / 10 ^ m)
      omega
    rw [hdigits, Nat.pow_add]
    exact (Nat.le_div_iff_mul_le hpos).mp (ih hq)

theorem numDigits_le_iff {n k : Nat} (hk : 0 < k) : numDigits n ≤ k ↔ n < 10 ^ k := by
  constructor
  · intro h
    exact (lt_pow_numDigits n).trans_le (Nat.pow_le_pow_right (by omega) h)
  · intro h
    by_cases hn : n = 0
    · subst n
      rw [numDigits_of_lt (by omega)]
      exact hk
    · have hlt : 10 ^ (numDigits n - 1) < 10 ^ k := (pow_numDigits_le hn).trans_lt h
      have := (Nat.pow_lt_pow_iff_right (by omega)).mp hlt
      omega

theorem halfEven_le (num den : Nat) : halfEven num den ≤ num / den + 1 := by
  unfold halfEven
  dsimp only
  split
  · omega
  · split <;> omega

/-- What is left of a number after dropping digits has at most as many digits as were not dropped,
or is the least number with one digit more. -/
theorem dropDigits_le {n k p : Nat} (h : n < 10 ^ (p + k)) : dropDigits n k ≤ 10 ^ p := by
  rw [dropDigits, pow10_eq]
  split
  · exact Nat.zero_le _
  · have hq : n / 10 ^ k < 10 ^ p := by
      rw [Nat.div_lt_iff_lt_mul (Nat.pow_pos (by omega)), ← Nat.pow_add]
      exact h
    have := halfEven_le n (10 ^ k)
    omega

end GatewayLedger.Rounding
