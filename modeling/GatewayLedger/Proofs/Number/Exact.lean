import GatewayLedger.Proofs.Number.Addition
import Mathlib.Algebra.Order.BigOperators.Group.List

/-!
# Exact sums

Decimals that end at a place or before it, and whose absolute values add up to less than 28 digits
above that place, are added without rounding: every running sum is a multiple of the unit of that
place and needs 28 digits at most. So their sum is exact, and no order of them gives another one.
-/

namespace GatewayLedger

namespace Decimal

variable {a b d : Decimal} {e : Int} {amounts others : List Decimal}

/-- A decimal with at most 28 digits above a place is rounded to itself, except that the exponent of
a zero is brought into range. -/
theorem exists_round_eq (hmin : minExponent ≤ e) (hmax : e ≤ 0) (hexponent : e ≤ d.exponent)
    (h : |d.toRat| < 10 ^ (precision + e)) :
    ∃ r, d.round = .ok r ∧ r.toRat = d.toRat ∧ e ≤ r.exponent := by
  cases hzero : d.isZero with
  | true =>
    refine ⟨_, by rw [round, if_pos hzero], ?_, ?_⟩
    · rw [toRat_of_isZero hzero]
      exact toRat_of_isZero hzero
    · unfold maxAdjusted
      dsimp only
      omega
  | false =>
    have hd : d.coefficient ≠ 0 := by simpa [isZero] using hzero
    have hadjusted : d.adjusted < precision + e :=
      ten_zpow_lt_iff.mp ((zpow_adjusted_le hd).trans_lt h)
    have hplace : d.place = d.exponent := by
      unfold place
      omega
    have hdrop : Rounding.dropDigits d.coefficient (d.exponent - d.exponent).toNat =
        d.coefficient := by
      rw [Int.sub_self, Int.toNat_zero, Rounding.dropDigits, if_neg (Nat.not_lt_zero _)]
      exact Rounding.halfEven_one d.coefficient
    have hdigits : d.coefficient < Rounding.pow10 precision := by
      have hpower : (10 : ℚ) ^ (precision + e) ≤ 10 ^ (precision + d.exponent) :=
        ten_zpow_mono (by omega)
      have hlt := h.trans_le hpower
      rw [abs_toRat, ten_zpow_eq (e := d.exponent) rfl] at hlt
      rw [Rounding.pow10_eq]
      exact_mod_cast (mul_lt_mul_iff_of_pos_right (ten_zpow_pos d.exponent)).mp hlt
    have hrounded : d.rounded = d := by
      unfold rounded
      simp only [hplace, hdrop]
      rw [if_neg hdigits.ne]
    refine ⟨d, ?_, rfl, hexponent⟩
    rw [round_eq hzero, hrounded, if_neg]
    unfold maxAdjusted
    unfold precision at hadjusted
    omega

theorem exists_add_eq (hmin : minExponent ≤ e) (hmax : e ≤ 0) (ha : e ≤ a.exponent)
    (hb : e ≤ b.exponent) (h : |a.toRat + b.toRat| < 10 ^ (precision + e)) :
    ∃ r, a.add b = .ok r ∧ r.toRat = a.toRat + b.toRat ∧ e ≤ r.exponent := by
  rw [add_eq, ← toRat_exactSum]
  rw [← toRat_exactSum] at h
  exact exists_round_eq hmin hmax (le_min ha hb) h

/-- Decimals that end at a place or before it and add up to less than 28 digits above it. -/
structure FitAt (e : Int) (amounts : List Decimal) : Prop where
  least : minExponent ≤ e
  le_zero : e ≤ 0
  exponents : ∀ a ∈ amounts, e ≤ a.exponent
  size : (amounts.map fun a => |a.toRat|).sum < 10 ^ (precision + e)

theorem FitAt.of_subperm (h : FitAt e amounts) (hsub : others.Subperm amounts) :
    FitAt e others := by
  obtain ⟨part, hperm, hpart⟩ := hsub
  refine ⟨h.least, h.le_zero, fun a ha => h.exponents a (hpart.subset (hperm.mem_iff.mpr ha)), ?_⟩
  rw [← (hperm.map fun a : Decimal => |a.toRat|).sum_eq]
  refine lt_of_le_of_lt ?_ h.size
  apply (hpart.map _).sum_le_sum
  intro x hx
  obtain ⟨a, _, rfl⟩ := List.mem_map.mp hx
  exact abs_nonneg _

theorem FitAt.of_sublist (h : FitAt e amounts) (hsub : others.Sublist amounts) : FitAt e others :=
  h.of_subperm hsub.subperm

theorem FitAt.of_perm (h : FitAt e amounts) (hperm : others.Perm amounts) : FitAt e others :=
  h.of_subperm hperm.subperm

def value (amounts : List Decimal) : ℚ := (amounts.map toRat).sum

@[simp] theorem value_nil : value [] = 0 := rfl

@[simp] theorem value_append (amounts others : List Decimal) :
    value (amounts ++ others) = value amounts + value others := by
  rw [value, List.map_append, List.sum_append]
  rfl

theorem abs_value_le (amounts : List Decimal) :
    |value amounts| ≤ (amounts.map fun a => |a.toRat|).sum := by
  induction amounts with
  | nil => simp
  | cons a amounts ih =>
    have hsum : value (a :: amounts) = a.toRat + value amounts := rfl
    rw [hsum, List.map_cons, List.sum_cons]
    exact (abs_add_le _ _).trans (by linarith)

theorem FitAt.abs_value_lt (h : FitAt e amounts) : |value amounts| < 10 ^ (precision + e) :=
  (abs_value_le amounts).trans_lt h.size

end Decimal

open Decimal (FitAt value)

variable {e : Int} {amounts : List Decimal}

/-- A sum of decimals that fit is their exact sum. The running sums keep the place at which they
end. -/
theorem exists_sumAmounts_eq (h : FitAt e amounts) :
    ∃ s, sumAmounts amounts = .ok s ∧ s.toRat = value amounts ∧ e ≤ s.exponent := by
  induction amounts using List.reverseRecOn with
  | nil => exact ⟨Decimal.zero, rfl, Decimal.toRat_zero, h.le_zero⟩
  | append_singleton amounts a ih =>
    obtain ⟨s, hs, hvalue, hexponent⟩ := ih (h.of_sublist (List.sublist_append_left _ _))
    have hsum : value (amounts ++ [a]) = s.toRat + a.toRat := by
      rw [Decimal.value_append, hvalue]
      simp [value]
    obtain ⟨r, hr, hrvalue, hrexponent⟩ := Decimal.exists_add_eq h.least h.le_zero hexponent
      (h.exponents a (by simp)) (hsum ▸ h.abs_value_lt)
    refine ⟨r, ?_, hrvalue.trans hsum.symm, hrexponent⟩
    rw [sumAmounts_snoc, hs, Except.bind, addAmounts, hr]
    rfl

end GatewayLedger
