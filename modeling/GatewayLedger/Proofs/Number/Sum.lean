import GatewayLedger.Number.Decimal
import GatewayLedger.Proofs.Number.Digits

/-!
# The size of a sum

`adjusted_le_iff` says what it means for the leading digit of a decimal to stand at a given place or
to the right of it. An exact sum moves it to the left by one place at most, and so does rounding, which
only fails close to the largest exponent.
-/

namespace GatewayLedger.Decimal

open Rounding

variable {a b d : Decimal} {e k : Int}

theorem adjusted_le_iff :
    d.adjusted ≤ k ↔ d.exponent ≤ k ∧ d.coefficient < 10 ^ (k + 1 - d.exponent).toNat := by
  have hpos : 0 < d.numDigits := Rounding.numDigits_pos _
  unfold adjusted
  constructor
  · intro h
    have hplaces : 0 < (k + 1 - d.exponent).toNat := by omega
    exact ⟨by omega, (numDigits_le_iff hplaces).mp (by unfold numDigits at h; omega)⟩
  · rintro ⟨hle, hlt⟩
    have hdigits := (numDigits_le_iff (by omega)).mpr hlt
    unfold numDigits
    omega

/-! ## The exact sum -/

theorem natAbs_unitsAt (d : Decimal) (e : Int) :
    (d.unitsAt e).natAbs = d.coefficient * 10 ^ (d.exponent - e).toNat := by
  unfold unitsAt
  dsimp only
  split
  · rw [Int.natAbs_neg, Int.natAbs_natCast, pow10_eq]
  · rw [Int.natAbs_natCast, pow10_eq]

theorem natAbs_unitsAt_lt (h : d.adjusted ≤ k) (he : e ≤ d.exponent) :
    (d.unitsAt e).natAbs < 10 ^ (k + 1 - e).toNat := by
  obtain ⟨hle, hlt⟩ := adjusted_le_iff.mp h
  have hplaces : (k + 1 - e).toNat = (k + 1 - d.exponent).toNat + (d.exponent - e).toNat := by omega
  rw [natAbs_unitsAt, hplaces, Nat.pow_add]
  exact Nat.mul_lt_mul_of_pos_right hlt (Nat.pow_pos (by omega))

theorem adjusted_exactSum_le (ha : a.adjusted ≤ k) (hb : b.adjusted ≤ k) :
    (exactSum a b).adjusted ≤ k + 1 := by
  have hle : min a.exponent b.exponent ≤ k := by
    have := (adjusted_le_iff.mp ha).1
    omega
  have hua := natAbs_unitsAt_lt ha (Int.min_le_left a.exponent b.exponent)
  have hub := natAbs_unitsAt_lt hb (Int.min_le_right a.exponent b.exponent)
  rw [adjusted_le_iff]
  simp only [exactSum]
  generalize min a.exponent b.exponent = e at *
  have hplaces : (k + 1 + 1 - e).toNat = (k + 1 - e).toNat + 1 := by omega
  have hsum := Int.natAbs_add_le (a.unitsAt e) (b.unitsAt e)
  refine ⟨by omega, ?_⟩
  rw [hplaces, Nat.pow_succ]
  omega

/-! ## Rounding -/

theorem exists_round (h : d.adjusted ≤ k) (hmin : minExponent ≤ k)
    (hmax : k + precision ≤ maxAdjusted) : ∃ r, d.round = .ok r := by
  obtain ⟨hle, _⟩ := adjusted_le_iff.mp h
  unfold round
  split
  · exact ⟨_, rfl⟩
  · dsimp only
    generalize ht : max d.exponent (max (d.adjusted - (precision - 1)) minExponent) = target
    generalize hc : dropDigits d.coefficient (target - d.exponent).toNat = c
    have hcoefficient : d.coefficient < 10 ^ (precision + (target - d.exponent).toNat) := by
      have hdigits : d.adjusted = d.exponent + d.numDigits - 1 := rfl
      refine (lt_pow_numDigits _).trans_le (Nat.pow_le_pow_right (by omega) ?_)
      change d.numDigits ≤ _
      omega
    have hcle : c ≤ 10 ^ precision := hc ▸ dropDigits_le hcoefficient
    have hprecision : (1 : Int) ≤ precision := by decide
    have htarget : target ≤ k := by omega
    refine ⟨_, if_neg (Int.not_lt.mpr (Int.le_trans ?_ hmax))⟩
    split
    · rw [adjusted_le_iff]
      have hplaces : (k + precision + 1 - (target + 1)).toNat = precision + (k - target).toNat := by
        omega
      refine ⟨by dsimp only; omega, ?_⟩
      dsimp only
      rw [hplaces, pow10_eq]
      exact Nat.pow_lt_pow_right (by omega) (by unfold precision; omega)
    · next hne =>
      rw [pow10_eq] at hne
      rw [adjusted_le_iff]
      refine ⟨by dsimp only; omega, ?_⟩
      have hplaces : precision ≤ (k + precision + 1 - target).toNat := by omega
      exact (lt_of_le_of_ne hcle hne).trans_le (Nat.pow_le_pow_right (by omega) hplaces)

end GatewayLedger.Decimal
