import GatewayLedger.Number.Binary64
import GatewayLedger.Proofs.Number.Digits
import Mathlib.Algebra.Order.Field.Power
import Mathlib.Algebra.Order.Field.Rat
import Mathlib.Data.Nat.Cast.Order.Field
import Mathlib.Tactic.FieldSimp
import Mathlib.Tactic.Linarith
import Mathlib.Tactic.Positivity
import Mathlib.Tactic.Ring

/-!
# The magnitude of binary numbers

A ratio that is not too large is rounded to a finite number. The unit of the last place is never
larger than the ratio itself, unless that is below the least number of the format, so rounding at
most doubles a whole bound.
-/

namespace GatewayLedger.Binary64

open Rounding

variable {num den bound : Nat} {m : Nat} {e : Int}

theorem two_zpow_pos (e : Int) : (0 : ℚ) < 2 ^ e := zpow_pos (by norm_num) e

theorem two_zpow_mono {a b : Int} (h : a ≤ b) : (2 : ℚ) ^ a ≤ 2 ^ b :=
  zpow_le_zpow_right₀ (by norm_num) h

theorem two_zpow_toNat (h : 0 ≤ e) : (2 : ℚ) ^ e.toNat = 2 ^ e := by
  rw [← zpow_natCast, Int.toNat_of_nonneg h]

/-- The ratio is the significand times the power of two. -/
theorem ratio_eq (m : Nat) (e : Int) :
    ((ratio m e).1 : ℚ) = m * 2 ^ e * (ratio m e).2 ∧ 0 < (ratio m e).2 := by
  unfold ratio pow2
  by_cases h : 0 ≤ e
  · rw [if_pos h]
    refine ⟨?_, Nat.one_pos⟩
    push_cast
    rw [Nat.pow_eq, Nat.cast_pow, Nat.cast_ofNat, two_zpow_toNat h, mul_one]
  · rw [if_neg h]
    refine ⟨?_, Nat.pow_pos (by decide)⟩
    have hpower : (2 : ℚ) ^ e * 2 ^ (-e).toNat = 1 := by
      rw [two_zpow_toNat (by omega), ← zpow_add₀ (by norm_num), add_neg_cancel, zpow_zero]
    push_cast
    rw [Nat.pow_eq, Nat.cast_pow, Nat.cast_ofNat, mul_assoc, hpower, mul_one]

theorem halfEven_le_div (num den : Nat) :
    (halfEven num den : ℚ) ≤ num / den + 1 := by
  have hquotient : ((num / den : Nat) : ℚ) ≤ num / den := Nat.cast_div_le
  have hround : (halfEven num den : ℚ) ≤ ((num / den : Nat) : ℚ) + 1 := by
    exact_mod_cast halfEven_le num den
  linarith

/-- Rounding to a multiple of a power of two adds that power at most. -/
theorem unitsAt_mul_le (num den : Nat) (e : Int) :
    (unitsAt num den e : ℚ) * 2 ^ e ≤ num / den + 2 ^ e := by
  have hpos := two_zpow_pos e
  have hunits : (unitsAt num den e : ℚ) ≤ num / den / 2 ^ e + 1 := by
    unfold unitsAt pow2
    by_cases h : 0 ≤ e
    · rw [if_pos h]
      have hle := halfEven_le_div num (den * 2 ^ e.toNat)
      push_cast at hle
      rw [two_zpow_toNat h, ← div_div] at hle
      exact hle
    · rw [if_neg h]
      have hle := halfEven_le_div (num * 2 ^ (-e).toNat) den
      push_cast at hle
      rw [two_zpow_toNat (by omega), zpow_neg, ← div_eq_mul_inv, div_right_comm] at hle
      exact hle
  calc (unitsAt num den e : ℚ) * 2 ^ e ≤ (num / den / 2 ^ e + 1) * 2 ^ e :=
        mul_le_mul_of_nonneg_right hunits hpos.le
    _ = num / den + 2 ^ e := by
        field_simp

theorem leadingExponent_le (num den : Nat) : leadingExponent num den ≤ num.log2 - den.log2 := by
  have hchoice : ∀ (k : Int) (p : Prop) [Decidable p], (if p then k else k - 1) ≤ k := by
    intro k p _
    split <;> omega
  exact hchoice _ _

theorem zpow_log2_le (hnum : num ≠ 0) (hden : 0 < den) :
    (2 : ℚ) ^ ((num.log2 : Int) - den.log2 - 1) ≤ num / den := by
  have hlow : (2 : ℚ) ^ num.log2 ≤ num := by exact_mod_cast Nat.log2_self_le hnum
  have hhigh : (den : ℚ) ≤ 2 ^ (den.log2 + 1) := by exact_mod_cast Nat.lt_log2_self.le
  have hpos : (0 : ℚ) < den := by exact_mod_cast hden
  have hsplit : (2 : ℚ) ^ ((num.log2 : Int) - den.log2 - 1) = 2 ^ num.log2 / 2 ^ (den.log2 + 1) := by
    rw [sub_sub, zpow_sub₀ (by norm_num), zpow_natCast]
    norm_cast
  rw [hsplit]
  exact div_le_div₀ (by positivity) hlow hpos hhigh

/-- The place at which a ratio is rounded. -/
def place (num den : Nat) : Int := max (leadingExponent num den - 52) minExponent

theorem zpow_place_le (hnum : num ≠ 0) (hden : 0 < den) (h : num ≤ bound * den) :
    (2 : ℚ) ^ place num den ≤ bound := by
  have hpos : (0 : ℚ) < den := by exact_mod_cast hden
  have hratio : (num / den : ℚ) ≤ bound := by
    rw [div_le_iff₀ hpos]
    exact_mod_cast h
  have hbound : (1 : ℚ) ≤ bound := by
    have hne : bound ≠ 0 := by
      rintro rfl
      omega
    exact_mod_cast Nat.one_le_iff_ne_zero.mpr hne
  rcases le_total (leadingExponent num den - 52) minExponent with hmin | hmin
  · rw [place, max_eq_right hmin]
    have hsmall : (2 : ℚ) ^ minExponent ≤ 2 ^ (0 : Int) := two_zpow_mono (by decide)
    rw [zpow_zero] at hsmall
    exact hsmall.trans hbound
  · rw [place, max_eq_left hmin]
    have hle := leadingExponent_le num den
    exact ((two_zpow_mono (by omega)).trans (zpow_log2_le hnum hden)).trans hratio

theorem place_le (hnum : num ≠ 0) (h : num ≤ bound * den)
    (hbound : bound < 2 ^ 200) : place num den ≤ 148 := by
  have hlog : num.log2 < 200 + (den.log2 + 1) := by
    rw [Nat.log2_lt hnum, Nat.pow_add]
    calc num ≤ bound * den := h
      _ < 2 ^ 200 * 2 ^ (den.log2 + 1) := Nat.mul_lt_mul'' hbound Nat.lt_log2_self
  have hle := leadingExponent_le num den
  unfold place minExponent
  omega

theorem ofRatio_of_ne_zero (negative : Bool) (hnum : num ≠ 0) :
    ofRatio negative num den =
      if unitsAt num den (place num den) = pow2 53 then
        if maxExponent < place num den + 1 then .infinite negative
        else .finite negative (pow2 52) (place num den + 1)
      else if maxExponent < place num den then .infinite negative
      else .finite negative (unitsAt num den (place num den)) (place num den) := by
  rw [ofRatio, if_neg hnum]
  dsimp only
  rw [← place]
  split <;> rfl

/-- A carry into a 54th digit is one unit of the next place. -/
theorem carry_mul_zpow (e : Int) : (pow2 52 : ℚ) * 2 ^ (e + 1) = pow2 53 * 2 ^ e := by
  have hpower : (pow2 53 : ℚ) = pow2 52 * 2 := by norm_num [pow2]
  rw [zpow_add₀ (by norm_num), zpow_one, hpower]
  ring

/-- A ratio below a bound is rounded to a finite number below twice that bound. -/
theorem exists_ofRatio_le (negative : Bool) (hden : 0 < den) (h : num ≤ bound * den)
    (hbound : bound < 2 ^ 200) :
    ∃ m e, ofRatio negative num den = .finite negative m e ∧ (m : ℚ) * 2 ^ e ≤ 2 * bound := by
  by_cases hnum : num = 0
  · refine ⟨0, minExponent, by rw [ofRatio, if_pos hnum]; rfl, ?_⟩
    rw [Nat.cast_zero, zero_mul]
    positivity
  have hplace := place_le hnum h hbound
  have hunit := zpow_place_le hnum hden h
  have hpos : (0 : ℚ) < den := by exact_mod_cast hden
  have hratio : (num / den : ℚ) ≤ bound := by
    rw [div_le_iff₀ hpos]
    exact_mod_cast h
  have hvalue : (unitsAt num den (place num den) : ℚ) * 2 ^ place num den ≤ 2 * bound := by
    have hround := unitsAt_mul_le num den (place num den)
    linarith
  by_cases hcarry : unitsAt num den (place num den) = pow2 53
  · rw [hcarry] at hvalue
    refine ⟨pow2 52, place num den + 1, ?_, ?_⟩
    · rw [ofRatio_of_ne_zero _ hnum, if_pos hcarry, if_neg]
      unfold maxExponent
      omega
    · rw [carry_mul_zpow]
      exact hvalue
  · refine ⟨_, _, ?_, hvalue⟩
    rw [ofRatio_of_ne_zero _ hnum, if_neg hcarry, if_neg]
    unfold maxExponent
    omega

theorem exists_truncate?_mulNat (negative : Bool) (k : Nat) (h : (m : ℚ) * 2 ^ e ≤ bound)
    (hbound : bound * k < 2 ^ 200) :
    ∃ n, (mulNat (.finite negative m e) k).truncate? = some n := by
  obtain ⟨hratio, hden⟩ := ratio_eq m e
  have hnum : (ratio m e).1 * k ≤ bound * k * (ratio m e).2 := by
    have hle : ((ratio m e).1 : ℚ) ≤ bound * (ratio m e).2 := by
      rw [hratio]
      exact mul_le_mul_of_nonneg_right h (Nat.cast_nonneg _)
    have hnat : (ratio m e).1 ≤ bound * (ratio m e).2 := by exact_mod_cast hle
    calc (ratio m e).1 * k ≤ bound * (ratio m e).2 * k := Nat.mul_le_mul_right k hnat
      _ = bound * k * (ratio m e).2 := by ring
  obtain ⟨m', e', hproduct, _⟩ := exists_ofRatio_le negative hden hnum hbound
  have hmul : mulNat (.finite negative m e) k = .finite negative m' e' := hproduct
  rw [hmul]
  exact ⟨_, rfl⟩

end GatewayLedger.Binary64
