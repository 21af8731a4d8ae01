import GatewayLedger.Proofs.Number.Nearest
import Mathlib.Tactic.Linarith

/-!
# Rounding a half up

A ratio is rounded to the whole number that is at most half a unit above it, or less than half a unit
below it. Rounding to parts of a unit first does no harm if their number is even and exceeds the
denominator: no ratio then lies so near to a half that it could be taken for one.
-/

namespace GatewayLedger.Rounding

variable {num den m unit : Nat}

theorem halfUp_eq_iff (hden : 0 < den) :
    halfUp num den = m ↔ 2 * (den * m) ≤ 2 * num + den ∧ 2 * num < 2 * (den * m) + den := by
  have hlow : m * (2 * den) = 2 * (den * m) := by ring
  have hhigh : (m + 1) * (2 * den) = 2 * (den * m) + 2 * den := by ring
  rw [halfUp, Nat.div_eq_iff (by omega)]
  omega

theorem halfUp_mul_left (hden : 0 < den) (m : Nat) : halfUp (den * m) den = m :=
  (halfUp_eq_iff hden).mpr ⟨by omega, by omega⟩

theorem halfEven_mul_left (hden : 0 < den) (m : Nat) : halfEven (den * m) den = m :=
  halfEven_eq_of_near (by omega) (by omega)

/-- A ratio that is rounded to the nearest part of a unit, and then to units, is rounded as if in one
step. -/
theorem halfUp_halfEven (hden : 0 < den) (hlt : den < unit) (heven : unit % 2 = 0) (num : Nat) :
    halfUp (halfEven (num * unit) den) unit = halfUp num den := by
  obtain ⟨hlow, hhigh⟩ := (halfUp_eq_iff hden).mp (rfl : halfUp num den = _)
  obtain ⟨hfineLow, hfineHigh, _, _⟩ := isNearest_halfEven hden (num * unit)
  generalize halfUp num den = m at hlow hhigh ⊢
  generalize halfEven (num * unit) den = c at hfineLow hfineHigh ⊢
  rw [halfUp_eq_iff (by omega)]
  constructor
  · by_contra h
    -- all three numbers are even, so the gap is at least two
    have hgap : 2 * c + unit + 2 ≤ 2 * (unit * m) := by omega
    have hscaled : den * (2 * c + unit + 2) ≤ den * (2 * (unit * m)) := Nat.mul_le_mul_left den hgap
    have hbound : unit * (2 * (den * m)) ≤ unit * (2 * num + den) := Nat.mul_le_mul_left unit hlow
    linarith
  · by_contra h
    have hscaled : den * (2 * (unit * m) + unit) ≤ den * (2 * c) :=
      Nat.mul_le_mul_left den (Nat.not_lt.mp h)
    have hbound : unit * (2 * num + 1) ≤ unit * (2 * (den * m) + den) :=
      Nat.mul_le_mul_left unit hhigh
    linarith

end GatewayLedger.Rounding
