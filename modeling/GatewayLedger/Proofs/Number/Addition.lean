import GatewayLedger.Fault
import GatewayLedger.Proofs.Number.Rounded
import Mathlib.Data.List.Induction

/-!
# Rounded sums

A sum is the exact sum, rounded once. What is squashed before the addition does not show in the result:
the squashed sum lies between the same multiples of five units of its last place as the exact one, and
every half at which rounding decides is such a multiple. A running sum never passes a power of ten next
to which its terms are rounded away, however many there are.
-/

namespace GatewayLedger

namespace Rounding

variable {u x y : ℚ} {n : ℤ}

/-- Two numbers with the same multiples of a unit below them and above them. -/
structure LieAlike (u x y : ℚ) : Prop where
  below : ∀ k : ℤ, k * u < x ↔ k * u < y
  above : ∀ k : ℤ, x < k * u ↔ y < k * u

namespace LieAlike

theorem refl (u x : ℚ) : LieAlike u x x := ⟨fun _ => Iff.rfl, fun _ => Iff.rfl⟩

theorem of_between {m : ℤ} (hu : 0 < u) (hx : m * u < x) (hx' : x < (m + 1) * u) (hy : m * u < y)
    (hy' : y < (m + 1) * u) : LieAlike u x y := by
  -- a multiple that is not above the lower end is below both, any other is above both
  have hlow : ∀ k : ℤ, k ≤ m → k * u ≤ m * u := fun k hk =>
    mul_le_mul_of_nonneg_right (by exact_mod_cast hk) hu.le
  have hhigh : ∀ k : ℤ, m < k → (m + 1) * u ≤ k * u := fun k hk =>
    mul_le_mul_of_nonneg_right (by exact_mod_cast hk) hu.le
  constructor
  · intro k
    rcases le_or_gt k m with hk | hk
    · exact iff_of_true ((hlow k hk).trans_lt hx) ((hlow k hk).trans_lt hy)
    · exact iff_of_false (by linarith [hhigh k hk]) (by linarith [hhigh k hk])
  · intro k
    rcases le_or_gt k m with hk | hk
    · exact iff_of_false (by linarith [hlow k hk]) (by linarith [hlow k hk])
    · exact iff_of_true (hx'.trans_le (hhigh k hk)) (hy'.trans_le (hhigh k hk))

theorem symm (h : LieAlike u x y) : LieAlike u y x :=
  ⟨fun k => (h.below k).symm, fun k => (h.above k).symm⟩

theorem neg (h : LieAlike u x y) : LieAlike u (-x) (-y) := by
  constructor
  · intro k
    have hk := h.above (-k)
    rw [Int.cast_neg, neg_mul] at hk
    exact lt_neg.trans (hk.trans lt_neg)
  · intro k
    have hk := h.below (-k)
    rw [Int.cast_neg, neg_mul] at hk
    exact neg_lt.trans (hk.trans neg_lt)

theorem mul_right (h : LieAlike u x y) {c : ℚ} (hc : 0 < c) : LieAlike (u * c) (x * c) (y * c) := by
  constructor
  · intro k
    rw [← mul_assoc, mul_lt_mul_iff_of_pos_right hc, mul_lt_mul_iff_of_pos_right hc]
    exact h.below k
  · intro k
    rw [← mul_assoc, mul_lt_mul_iff_of_pos_right hc, mul_lt_mul_iff_of_pos_right hc]
    exact h.above k

theorem add_mul (h : LieAlike u x y) (j : ℤ) : LieAlike u (x + j * u) (y + j * u) := by
  constructor
  · intro k
    have hk := h.below (k - j)
    rw [Int.cast_sub, sub_mul, sub_lt_iff_lt_add, sub_lt_iff_lt_add] at hk
    exact hk
  · intro k
    have hk := h.above (k - j)
    rw [Int.cast_sub, sub_mul, lt_sub_iff_add_lt, lt_sub_iff_add_lt] at hk
    exact hk

variable (h : LieAlike u x y)

include h

theorem eq_iff (k : ℤ) : x = k * u ↔ y = k * u := by
  rw [eq_iff_le_not_lt, eq_iff_le_not_lt, ← not_lt, ← not_lt, h.below k, h.above k]

theorem neg_iff : x < 0 ↔ y < 0 := by simpa using h.above 0

theorem eq_zero_iff : x = 0 ↔ y = 0 := by simpa using h.eq_iff 0

theorem le_abs_iff (k : ℤ) : k * u ≤ |x| ↔ k * u ≤ |y| := by
  have hneg := h.neg
  rw [le_abs, le_abs, ← not_lt, ← not_lt, ← not_lt, ← not_lt, h.above k, hneg.above k]

end LieAlike

/-- Rounding decides at the halves of the step. -/
theorem isHalfEven_div_iff (hu : 0 < u) :
    IsHalfEven (x / (2 * u)) n ↔
      (¬ x < ((2 * n - 1 : ℤ) : ℚ) * u ∧ ¬ ((2 * n + 1 : ℤ) : ℚ) * u < x) ∧
        (x = ((2 * n - 1 : ℤ) : ℚ) * u ∨ x = ((2 * n + 1 : ℤ) : ℚ) * u → Even n) := by
  have hstep : (0 : ℚ) < 2 * u := by linarith
  have hdistance : x / (2 * u) - n = (x - n * (2 * u)) / (2 * u) := by
    field_simp
  have hhalf : 1 / 2 * (2 * u) = u := by ring
  have hnear : |x / (2 * u) - n| ≤ 1 / 2 ↔ |x - n * (2 * u)| ≤ u := by
    rw [hdistance, abs_div, abs_of_pos hstep, div_le_iff₀ hstep, hhalf]
  have htie : |x / (2 * u) - n| = 1 / 2 ↔ |x - n * (2 * u)| = u := by
    rw [hdistance, abs_div, abs_of_pos hstep, div_eq_iff hstep.ne', hhalf]
  have hends : |x - n * (2 * u)| = u ↔
      x = ((2 * n - 1 : ℤ) : ℚ) * u ∨ x = ((2 * n + 1 : ℤ) : ℚ) * u := by
    rw [abs_eq hu.le, or_comm]
    push_cast
    exact or_congr ⟨fun h => by linarith, fun h => by linarith⟩
      ⟨fun h => by linarith, fun h => by linarith⟩
  rw [← hends, ← htie, not_lt, not_lt]
  constructor
  · intro h
    have hle := abs_le.mp (hnear.mp h.near)
    refine ⟨⟨?_, ?_⟩, h.even_of_tie⟩
    · push_cast
      linarith
    · push_cast
      linarith
  · rintro ⟨⟨hlow, hhigh⟩, heven⟩
    push_cast at hlow hhigh
    refine ⟨hnear.mpr (abs_le.mpr ⟨by linarith, by linarith⟩), heven⟩

/-- Numbers that lie alike between the multiples of a unit of which the step has an even number are
rounded to one integer. -/
theorem LieAlike.isHalfEven_iff {j : ℤ} (h : LieAlike u x y) (hu : 0 < u) (hj : 0 < j) :
    IsHalfEven (x / (2 * (j * u))) n ↔ IsHalfEven (y / (2 * (j * u))) n := by
  have hpos : (0 : ℚ) < j * u := mul_pos (by exact_mod_cast hj) hu
  have hmultiple : ∀ k : ℤ, (k : ℚ) * (j * u) = ((k * j : ℤ) : ℚ) * u := by
    intro k
    push_cast
    ring
  rw [isHalfEven_div_iff hpos, isHalfEven_div_iff hpos, hmultiple, hmultiple, h.above, h.below,
    h.eq_iff, h.eq_iff]

/-- A quotient without its rest lies like the quotient between the multiples of five, if one is added
where it is such a multiple itself. -/
theorem lieAlike_cut (num : Nat) {den : Nat} (hden : 0 < den) :
    LieAlike 5 (num / den)
      ((if num % den = 0 ∨ num / den % 5 ≠ 0 then num / den else num / den + 1 : Nat)) := by
  have hpos : (0 : ℚ) < den := by exact_mod_cast hden
  have hsplit : (num : ℚ) = den * (num / den : Nat) + (num % den : Nat) := by
    exact_mod_cast (Nat.div_add_mod num den).symm
  have hrest : ((num % den : Nat) : ℚ) < den := by exact_mod_cast Nat.mod_lt num hden
  generalize num / den = q at hsplit ⊢
  generalize num % den = rest at hsplit hrest ⊢
  by_cases hexact : rest = 0
  · rw [if_pos (.inl hexact), hsplit, hexact, Nat.cast_zero, add_zero, mul_div_cancel_left₀ _ hpos.ne']
    exact .refl _ _
  have hrestPos : (0 : ℚ) < rest := by exact_mod_cast Nat.pos_of_ne_zero hexact
  obtain ⟨m, hlow, hhigh⟩ : ∃ m : Nat, 5 * m ≤ q ∧ q + 1 ≤ 5 * m + 5 := ⟨q / 5, by omega, by omega⟩
  generalize hkept : (if rest = 0 ∨ q % 5 ≠ 0 then q else q + 1) = kept
  have hkeptLow : 5 * m < kept := by
    rw [← hkept]
    split <;> omega
  have hkeptHigh : kept < 5 * m + 5 := by
    rw [← hkept]
    split <;> omega
  have hlow' : (5 * m : ℚ) ≤ q := by exact_mod_cast hlow
  have hhigh' : (q + 1 : ℚ) ≤ 5 * m + 5 := by exact_mod_cast hhigh
  have hquotient : (q : ℚ) < num / den ∧ (num / den : ℚ) < q + 1 := by
    rw [hsplit, lt_div_iff₀ hpos, div_lt_iff₀ hpos]
    constructor <;> linarith
  have hkeptLow' : (5 * m : ℚ) < kept := by exact_mod_cast hkeptLow
  have hkeptHigh' : (kept : ℚ) < 5 * m + 5 := by exact_mod_cast hkeptHigh
  apply LieAlike.of_between (m := m) (by norm_num)
  all_goals push_cast
  all_goals linarith

end Rounding

namespace Decimal

open Rounding

variable {a b d r : Decimal} {e m : Int} {x y : ℚ}

/-! ## What is squashed -/

/-- Five units of a place. -/
def fiveUnits (e : Int) : ℚ := 5 * 10 ^ e

theorem fiveUnits_pos (e : Int) : 0 < fiveUnits e := mul_pos (by norm_num) (ten_zpow_pos e)

theorem exists_zpow_eq_mul {k : Int} (h : e < k) :
    ∃ j : ℤ, 0 < j ∧ (10 : ℚ) ^ k = 2 * (j * fiveUnits e) := by
  refine ⟨10 ^ (k - e - 1).toNat, by positivity, ?_⟩
  have hsplit : k = ((k - e - 1).toNat : Int) + (e + 1) := by omega
  rw [ten_zpow_eq hsplit, ten_zpow_succ, fiveUnits]
  push_cast
  ring

theorem exists_toRat_eq_mul (h : e < d.exponent) : ∃ j : ℤ, d.toRat = j * fiveUnits e := by
  obtain ⟨j, -, hpower⟩ := exists_zpow_eq_mul h
  refine ⟨d.signed * (2 * j), ?_⟩
  rw [toRat_eq, hpower]
  push_cast
  ring

theorem squash_of_lt (h : d.exponent < e) :
    d.squash e = ⟨d.negative,
      if d.coefficient % 10 ^ (e - d.exponent).toNat = 0 ∨
          d.coefficient / 10 ^ (e - d.exponent).toNat % 5 ≠ 0
      then d.coefficient / 10 ^ (e - d.exponent).toNat
      else d.coefficient / 10 ^ (e - d.exponent).toNat + 1, e⟩ := by
  have hgap : 0 < (e - d.exponent).toNat := by omega
  rw [squash, if_neg (by omega)]
  dsimp only
  rw [pow10_eq]
  split
  · next hdigits =>
    -- a decimal that starts lower has no digit above the place
    have hlt := (numDigits_le_iff hgap).mp hdigits
    rw [Nat.div_eq_of_lt hlt, Nat.mod_eq_of_lt hlt]
    simp [isZero]
  · simp

/-- What is squashed keeps its place between the multiples of five units. -/
theorem lieAlike_squash (d : Decimal) (e : Int) :
    LieAlike (fiveUnits e) d.toRat (d.squash e).toRat := by
  by_cases he : e ≤ d.exponent
  · rw [squash_of_le he]
    exact .refl _ _
  have hsquash := squash_of_lt (d := d) (e := e) (by omega)
  have hvalue : (d.coefficient / (10 ^ (e - d.exponent).toNat : Nat) * 10 ^ e : ℚ) =
      d.coefficient * 10 ^ d.exponent := by
    rw [ten_zpow_eq (show e = ((e - d.exponent).toNat : Int) + d.exponent by omega)]
    push_cast
    field_simp
  have hmagnitude := (lieAlike_cut d.coefficient
    (Nat.pow_pos (by decide) : 0 < 10 ^ (e - d.exponent).toNat)).mul_right (ten_zpow_pos e)
  rw [hvalue, ← fiveUnits] at hmagnitude
  rw [hsquash, toRat_eq, toRat_eq, signed, signed]
  dsimp only
  split
  · push_cast at hmagnitude ⊢
    rw [neg_mul, neg_mul]
    exact hmagnitude.neg
  · exact hmagnitude

/-! ## One rounding -/

theorem place_le_of_lieAlike (h : LieAlike (fiveUnits e) x y) (he : e < minExponent) (hx : x ≠ 0)
    (hy : y ≠ 0) : format.place x ≤ format.place y := by
  unfold Format.place
  change max (Int.log 10 |x| - (precision - 1)) minExponent ≤
    max (Int.log 10 |y| - (precision - 1)) minExponent
  by_cases hsmall : Int.log 10 |x| ≤ minExponent
  · refine max_le ?_ (le_max_right _ _)
    exact le_max_of_le_right (by unfold precision; omega)
  obtain ⟨j, -, hpower⟩ := exists_zpow_eq_mul (e := e) (k := Int.log 10 |x|) (by omega)
  have hlow : ((2 * j : ℤ) : ℚ) * fiveUnits e ≤ |x| := by
    have hle : (10 : ℚ) ^ Int.log 10 |x| ≤ |x| := by
      exact_mod_cast Int.zpow_log_le_self (b := 10) (by decide) (abs_pos.mpr hx)
    push_cast
    rwa [mul_assoc, ← hpower]
  have hother := (h.le_abs_iff (2 * j)).mp hlow
  push_cast at hother
  rw [mul_assoc, ← hpower] at hother
  have hlog : Int.log 10 |x| ≤ Int.log 10 |y| :=
    (Int.zpow_le_iff_le_log (by decide) (abs_pos.mpr hy)).mp (by exact_mod_cast hother)
  exact max_le_max_right _ (by omega)

/-- What lies alike between multiples of five units far below the least exponent of a result has one
rounding. -/
theorem round_congr (hnegative : a.negative = b.negative) (ha : a.exponent ≤ minExponent)
    (hb : b.exponent ≤ minExponent) (he : e < minExponent)
    (h : LieAlike (fiveUnits e) a.toRat b.toRat) : a.round = b.round := by
  have hzeros : a.isZero = b.isZero := by
    rw [Bool.eq_iff_iff, ← toRat_eq_zero_iff, ← toRat_eq_zero_iff]
    exact h.eq_zero_iff
  cases hzero : a.isZero with
  | true =>
    have hcoefficients : a.coefficient = 0 ∧ b.coefficient = 0 := by
      have hbzero : b.isZero = true := hzeros ▸ hzero
      simp only [isZero, beq_iff_eq] at hzero hbzero
      exact ⟨hzero, hbzero⟩
    rw [round, round, if_pos hzero, if_pos (hzeros ▸ hzero), hnegative, hcoefficients.1,
      hcoefficients.2, max_eq_left ha, max_eq_left hb]
  | false =>
    have hbzero : b.isZero = false := hzeros ▸ hzero
    have hane : a.toRat ≠ 0 := fun h0 => by simp [toRat_eq_zero_iff.mp h0] at hzero
    have hbne : b.toRat ≠ 0 := fun h0 => by simp [toRat_eq_zero_iff.mp h0] at hbzero
    have hplace : a.grid = b.grid := by
      rw [grid_eq_place (by simpa [isZero] using hzero),
        grid_eq_place (by simpa [isZero] using hbzero)]
      exact le_antisymm (place_le_of_lieAlike h he hane hbne)
        (place_le_of_lieAlike h.symm he hbne hane)
    have hmin : minExponent ≤ a.grid := le_max_right _ _
    obtain ⟨j, hj, hpower⟩ := exists_zpow_eq_mul (he.trans_le hmin)
    have hrounded := isHalfEven_movedTo b a.grid
    rw [hpower, ← h.isHalfEven_iff (fiveUnits_pos e) hj, ← hpower] at hrounded
    have hsigned := (isHalfEven_movedTo a a.grid).unique hrounded
    have hcoefficient : a.coefficientAt a.grid = b.coefficientAt b.grid := by
      rw [← hplace]
      have hnatAbs := congrArg Int.natAbs hsigned
      rwa [natAbs_signed, natAbs_signed] at hnatAbs
    have hfinal : a.rounded = b.rounded := by
      rw [rounded_of_le (ha.trans hmin), rounded_of_le (hb.trans (hplace ▸ hmin)), hnegative,
        hcoefficient, hplace]
    rw [round_eq hzero, round_eq hbzero, hfinal]

/-! ## The exact sum -/

theorem exactSum_comm (a b : Decimal) : exactSum a b = exactSum b a := by
  unfold exactSum
  dsimp only
  rw [min_comm, Int.add_comm, Bool.and_comm]

theorem negative_exactSum (a b : Decimal) :
    (exactSum a b).negative = if a.toRat + b.toRat = 0 then a.negative && b.negative
      else decide (a.toRat + b.toRat < 0) := by
  have hunit := ten_zpow_pos (min a.exponent b.exponent)
  have hvalue : a.toRat + b.toRat =
      ((a.unitsAt (min a.exponent b.exponent) + b.unitsAt (min a.exponent b.exponent) : ℤ) : ℚ) *
        10 ^ min a.exponent b.exponent := by
    rw [Int.cast_add, add_mul, unitsAt_mul_zpow (min_le_left _ _), unitsAt_mul_zpow (min_le_right _ _),
      ← toRat_eq, ← toRat_eq]
  rw [hvalue]
  unfold exactSum
  dsimp only
  generalize a.unitsAt (min a.exponent b.exponent) + b.unitsAt (min a.exponent b.exponent) = s
  simp only [mul_eq_zero, hunit.ne', or_false, Int.cast_eq_zero, mul_neg_iff, hunit, hunit.not_gt,
    and_true, and_false, false_or, Int.cast_lt_zero]

/-- A squashed term does not show in the rounded sum. -/
theorem round_exactSum_squash (a b : Decimal) :
    (exactSum (a.squash b.cutoff) b).round = (exactSum a b).round := by
  by_cases hle : b.cutoff ≤ a.exponent
  · rw [squash_of_le hle]
  have hcutoff : b.cutoff < minExponent ∧ b.cutoff < b.exponent := by
    unfold cutoff
    omega
  have hsquash := squash_of_lt (d := a) (e := b.cutoff) (by omega)
  have hexponent : (a.squash b.cutoff).exponent = b.cutoff := by rw [hsquash]
  have hnegative : (a.squash b.cutoff).negative = a.negative := by rw [hsquash]
  obtain ⟨j, hj⟩ := exists_toRat_eq_mul hcutoff.2
  have halike : LieAlike (fiveUnits b.cutoff) ((a.squash b.cutoff).toRat + b.toRat)
      (a.toRat + b.toRat) := by
    rw [hj]
    exact (lieAlike_squash a b.cutoff).symm.add_mul j
  apply round_congr (e := b.cutoff) _ _ _ hcutoff.1
  · rw [toRat_exactSum, toRat_exactSum]
    exact halike
  · rw [negative_exactSum, negative_exactSum, hnegative]
    simp only [halike.eq_zero_iff, halike.neg_iff]
  · change min (a.squash b.cutoff).exponent b.exponent ≤ minExponent
    omega
  · change min a.exponent b.exponent ≤ minExponent
    omega

/-- A sum is the exact sum, rounded. At most one of two terms reaches so far below the other one that
it is squashed. -/
theorem add_eq (a b : Decimal) : a.add b = (exactSum a b).round := by
  rw [add]
  by_cases hle : a.cutoff ≤ b.exponent
  · rw [squash_of_le hle]
    exact round_exactSum_squash a b
  · have hother : b.cutoff ≤ a.exponent := by
      unfold cutoff at hle ⊢
      omega
    rw [squash_of_le hother, exactSum_comm, exactSum_comm a b]
    exact round_exactSum_squash b a

theorem isRounding_of_add (h : a.add b = .ok r) : IsRounding (a.toRat + b.toRat) r.toRat := by
  rw [add_eq] at h
  rw [← toRat_exactSum]
  exact isRounding_of_round h

/-! ## Sums that exist -/

theorem exists_add {k : Int} (ha : a.adjusted ≤ k) (hb : b.adjusted ≤ k) (hmin : minExponent ≤ k + 1)
    (hmax : k + 1 + precision ≤ maxAdjusted) : ∃ r, a.add b = .ok r := by
  rw [add_eq]
  exact exists_round (adjusted_exactSum_le ha hb) hmin hmax

/-- A decimal beyond the largest exponent cannot even be added to zero. -/
theorem add_zero_eq_overflow (hd : d.coefficient ≠ 0) (h : maxAdjusted < d.adjusted) :
    zero.add d = .error .overflow := by
  have hvalue : (exactSum zero d).toRat = d.toRat := by
    rw [toRat_exactSum, toRat_zero, zero_add]
  have hlow : (10 : ℚ) ^ d.adjusted ≤ |(exactSum zero d).toRat| := by
    rw [hvalue]
    exact zpow_adjusted_le hd
  have hne : (exactSum zero d).coefficient ≠ 0 := by
    intro hcoefficient
    rw [abs_toRat, hcoefficient, Nat.cast_zero, zero_mul] at hlow
    exact absurd hlow (not_le.mpr (ten_zpow_pos _))
  have hadjusted : d.adjusted < (exactSum zero d).adjusted + 1 :=
    ten_zpow_lt_iff.mp (hlow.trans_lt (abs_toRat_lt_zpow _))
  rw [add_eq]
  exact round_eq_overflow hne (by omega)

/-- A sum absorbs a term that is 28 digits below the power of ten that bounds it. -/
theorem exists_add_le (hmin : minExponent ≤ m) (hmax : m + 2 * precision ≤ maxAdjusted)
    (ha : |a.toRat| ≤ 10 ^ (m + precision)) (hb : |b.toRat| ≤ 10 ^ m) :
    ∃ r, a.add b = .ok r ∧ |r.toRat| ≤ 10 ^ (m + precision) := by
  have hpos : (0 : ℚ) < 10 ^ m := ten_zpow_pos _
  have hsum : |(exactSum a b).toRat| ≤
      10 ^ (m + precision) + 5 * 10 ^ (m + precision - precision) := by
    have habs := abs_add_le a.toRat b.toRat
    rw [toRat_exactSum, add_sub_cancel_right]
    linarith
  rw [add_eq]
  exact exists_round_le (by unfold precision; omega) (by omega) hsum

end Decimal

theorem eq_amountOverflow_of_addAmounts {a b : Decimal} {fault : Fault}
    (h : addAmounts a b = .error fault) : fault = .amountOverflow := by
  unfold addAmounts at h
  cases hadd : a.add b with
  | ok d =>
    rw [hadd] at h
    cases h
  | error cause =>
    rw [hadd, Decimal.eq_overflow_of_round hadd] at h
    cases h
    rfl

theorem sumAmounts_snoc (amounts : List Decimal) (a : Decimal) :
    sumAmounts (amounts ++ [a]) = (sumAmounts amounts).bind (addAmounts · a) := by
  rw [sumAmounts, List.foldlM_append]
  simp only [List.foldlM_cons, List.foldlM_nil, bind_pure]
  rfl

/-- The bound of a running sum depends on that of its terms, but not on their number. -/
theorem exists_sumAmounts_le {amounts : List Decimal} {m : Int} (hmin : Decimal.minExponent ≤ m)
    (hmax : m + 2 * Decimal.precision ≤ Decimal.maxAdjusted)
    (h : ∀ a ∈ amounts, |a.toRat| ≤ 10 ^ m) :
    ∃ s, sumAmounts amounts = .ok s ∧ |s.toRat| ≤ 10 ^ (m + Decimal.precision) := by
  induction amounts using List.reverseRecOn with
  | nil =>
    refine ⟨Decimal.zero, rfl, ?_⟩
    rw [Decimal.toRat_zero, abs_zero]
    exact (Decimal.ten_zpow_pos _).le
  | append_singleton amounts a ih =>
    obtain ⟨s, hs, hle⟩ := ih fun x hx => h x (List.mem_append_left _ hx)
    obtain ⟨r, hr, hbound⟩ := Decimal.exists_add_le hmin hmax hle (h a (by simp))
    refine ⟨r, ?_, hbound⟩
    rw [sumAmounts_snoc, hs, Except.bind, addAmounts, hr]
    rfl

end GatewayLedger
