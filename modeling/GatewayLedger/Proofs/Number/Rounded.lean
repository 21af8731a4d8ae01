import GatewayLedger.Proofs.Number.Format
import GatewayLedger.Proofs.Number.Rescale

/-!
# Rounding to 28 digits

`Decimal.IsRounding` says what a number is rounded to, whatever the decimal that holds it, and what
`Decimal.round` returns is that. A number that needs no more than 28 digits is its own rounding.
-/

namespace GatewayLedger

namespace Decimal

open Rounding

variable {a b d r : Decimal} {e : Int} {x p q : ℚ}

/-! ## The place of rounding -/

theorem toRat_movedTo (d : Decimal) (e : Int) : (d.movedTo e).toRat = (d.movedTo e).signed * 10 ^ e :=
  toRat_eq _

theorem toRat_congr (hnegative : a.negative = b.negative)
    (h : (a.coefficient * 10 ^ a.exponent : ℚ) = b.coefficient * 10 ^ b.exponent) :
    a.toRat = b.toRat := by
  rw [toRat_eq, toRat_eq, signed, signed, hnegative]
  split
  · push_cast
    rw [neg_mul, neg_mul, h]
  · exact_mod_cast h

theorem toRat_movedTo_of_le (h : e ≤ d.exponent) : (d.movedTo e).toRat = d.toRat := by
  refine toRat_congr rfl ?_
  unfold movedTo coefficientAt
  rw [if_pos h, ten_zpow_eq (show d.exponent = ((d.exponent - e).toNat : Int) + e by omega)]
  push_cast
  ring

/-- The place at which the size of a decimal asks for rounding, whether or not there are digits
behind it. -/
def grid (d : Decimal) : Int := max (d.adjusted - (precision - 1)) minExponent

theorem place_eq_max (d : Decimal) : d.place = max d.exponent d.grid := rfl

theorem toRat_rounded (d : Decimal) : d.rounded.toRat = (d.movedTo d.place).toRat := by
  have hcoefficient := coefficientAt_eq_dropDigits (d := d) (le_max_left d.exponent d.grid)
  rw [← place_eq_max] at hcoefficient
  unfold rounded
  dsimp only
  rw [← hcoefficient]
  split
  · next hcarry =>
    refine toRat_congr rfl ?_
    unfold movedTo
    dsimp only
    rw [hcarry, ten_zpow_succ]
    norm_num [precision]
    ring
  · rfl

theorem rounded_of_le (h : d.exponent ≤ d.grid) :
    d.rounded = if d.coefficientAt d.grid = pow10 precision
      then ⟨d.negative, pow10 (precision - 1), d.grid + 1⟩
      else ⟨d.negative, d.coefficientAt d.grid, d.grid⟩ := by
  have hplace : d.place = d.grid := max_eq_right h
  rw [coefficientAt_eq_dropDigits h, ← hplace]
  rfl

/-- What is rounded is the value at the place that the size asks for. -/
theorem toRat_of_round (h : d.round = .ok r) : r.toRat = (d.movedTo d.grid).toRat := by
  cases hzero : d.isZero with
  | true =>
    rw [round, if_pos hzero] at h
    have hr : r.isZero = true := by
      rw [← Except.ok.inj h]
      exact hzero
    have hmoved : (d.movedTo d.grid).isZero = true := by
      simpa [isZero, movedTo] using coefficientAt_of_isZero hzero d.grid
    rw [toRat_of_isZero hr, toRat_of_isZero hmoved]
  | false =>
    rw [round_eq hzero] at h
    split at h
    · cases h
    · rw [← Except.ok.inj h, toRat_rounded, place_eq_max]
      rcases le_total d.exponent d.grid with hle | hle
      · rw [max_eq_right hle]
      · rw [max_eq_left hle, toRat_movedTo_of_le le_rfl, toRat_movedTo_of_le hle]

/-! ## What a number is rounded to -/

/-- 28 decimal digits, none of them behind the least exponent of a result. -/
def format : Format := ⟨10, precision, minExponent, by decide, by decide⟩

def IsRounding (x q : ℚ) : Prop := format.Rounds x q

def Fits (x : ℚ) : Prop := format.Fits x

theorem cast_base_format : (format.base : ℚ) = 10 := rfl

theorem abs_toRat_pos (hd : d.coefficient ≠ 0) : 0 < |d.toRat| :=
  (ten_zpow_pos _).trans_le (zpow_adjusted_le hd)

theorem toRat_eq_zero_iff : d.toRat = 0 ↔ d.isZero = true := by
  refine ⟨fun h => ?_, toRat_of_isZero⟩
  by_contra hzero
  have hpos := abs_toRat_pos (d := d) (by simpa [isZero] using hzero)
  rw [h, abs_zero] at hpos
  exact lt_irrefl 0 hpos

theorem adjusted_eq_log (hd : d.coefficient ≠ 0) : d.adjusted = Int.log 10 |d.toRat| := by
  have hpos := abs_toRat_pos hd
  apply le_antisymm
  · exact (Int.zpow_le_iff_le_log (by decide) hpos).mp (zpow_adjusted_le hd)
  · apply Int.lt_add_one_iff.mp
    exact (Int.lt_zpow_iff_log_lt (by decide) hpos).mp (abs_toRat_lt_zpow d)

theorem grid_eq_place (hd : d.coefficient ≠ 0) : d.grid = format.place d.toRat := by
  rw [grid, adjusted_eq_log hd]
  rfl

theorem isRounding_of_round (h : d.round = .ok r) : IsRounding d.toRat r.toRat := by
  by_cases hzero : d.coefficient = 0
  · have hd : d.isZero = true := by simpa [isZero] using hzero
    have hr : r.isZero = true := by
      rw [round, if_pos hd] at h
      rw [← Except.ok.inj h]
      exact hd
    rw [toRat_of_isZero hd, toRat_of_isZero hr]
    exact format.fits_zero.rounds
  · refine ⟨(d.movedTo d.grid).signed, ?_, ?_⟩
    · rw [← grid_eq_place hzero]
      exact isHalfEven_movedTo d d.grid
    · rw [toRat_of_round h, toRat_movedTo, grid_eq_place hzero, cast_base_format]

end Decimal

end GatewayLedger
