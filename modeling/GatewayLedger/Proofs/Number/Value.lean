import GatewayLedger.Proofs.Number.Nearest
import GatewayLedger.Proofs.Number.Sum
import Mathlib.Algebra.Order.Field.Power
import Mathlib.Algebra.Order.Field.Rat
import Mathlib.Tactic.Linarith
import Mathlib.Tactic.Ring

/-!
# The value of a decimal

The value of a decimal is its signed coefficient times a power of ten, it is an integer if
`Decimal.toInt?` says so, and the exact sum adds values. Rounding does not pass a power of ten: a
decimal that exceeds it by half a unit of its last digit at most is rounded down to it.
-/

namespace GatewayLedger

namespace Rounding

/-- Dropping digits keeps a power of ten that a number reaches, as far as its zeros go. -/
theorem le_dropDigits {n p k : Nat} (hle : 10 ^ k ≤ n) (hp : p ≤ k) :
    10 ^ (k - p) ≤ dropDigits n p := by
  have hpos : 0 < 10 ^ p := Nat.pow_pos (by decide)
  have hdigits : ¬ numDigits n < p := by
    intro hlt
    have hsmall := (numDigits_le_iff (k := p) (by omega)).mp hlt.le
    have hpower : 10 ^ p ≤ 10 ^ k := Nat.pow_le_pow_right (by decide) hp
    omega
  have hquotient : 10 ^ (k - p) ≤ n / 10 ^ p := by
    rw [Nat.le_div_iff_mul_le hpos, ← Nat.pow_add, Nat.sub_add_cancel hp]
    exact hle
  rw [dropDigits, if_neg hdigits, pow10_eq]
  exact hquotient.trans (le_halfEven n (10 ^ p))

theorem dropDigits_le_pow {n p k : Nat} (hle : 2 * n ≤ (2 * 10 ^ k + 1) * 10 ^ p)
    (hlt : k = 0 → 2 * n < (2 * 10 ^ k + 1) * 10 ^ p) : dropDigits n p ≤ 10 ^ k := by
  have hpos : 0 < 10 ^ p := Nat.pow_pos (by decide)
  rw [dropDigits, pow10_eq]
  split
  · exact Nat.zero_le _
  · apply halfEven_le_of_le hpos hle
    by_cases hk : k = 0
    · exact .inr (hlt hk)
    · left
      obtain ⟨j, rfl⟩ : ∃ j, k = j + 1 := ⟨k - 1, by omega⟩
      rw [Nat.pow_succ]
      omega

end Rounding

namespace Decimal

open Rounding

variable {a b d r : Decimal} {e : Int}

/-! ## Powers of ten -/

theorem ten_zpow_pos (e : Int) : (0 : ℚ) < 10 ^ e := zpow_pos (by norm_num) e

theorem ten_zpow_mono {m n : Int} (h : m ≤ n) : (10 : ℚ) ^ m ≤ 10 ^ n :=
  zpow_le_zpow_right₀ (by norm_num) h

theorem ten_zpow_lt_iff {m n : Int} : (10 : ℚ) ^ m < 10 ^ n ↔ m < n :=
  zpow_lt_zpow_iff_right₀ (by norm_num)

theorem ten_zpow_succ (e : Int) : (10 : ℚ) ^ (e + 1) = 10 ^ e * 10 := by
  rw [zpow_add₀ (by norm_num), zpow_one]

theorem ten_zpow_eq {n : Int} {k : Nat} (h : n = k + e) : (10 : ℚ) ^ n = 10 ^ k * 10 ^ e := by
  rw [h, zpow_add₀ (by norm_num), zpow_natCast]

/-! ## Values -/

def signed (d : Decimal) : Int := if d.negative then -d.coefficient else d.coefficient

theorem natAbs_signed (d : Decimal) : d.signed.natAbs = d.coefficient := by
  unfold signed
  split
  · rw [Int.natAbs_neg, Int.natAbs_natCast]
  · rw [Int.natAbs_natCast]

theorem unitsAt_eq (d : Decimal) (e : Int) :
    d.unitsAt e = d.signed * 10 ^ (d.exponent - e).toNat := by
  unfold unitsAt signed
  dsimp only
  rw [pow10_eq]
  split
  · push_cast
    ring
  · push_cast
    ring

theorem unitsAt_mul_zpow (h : e ≤ d.exponent) :
    (d.unitsAt e : ℚ) * 10 ^ e = d.signed * 10 ^ d.exponent := by
  have hexponent : d.exponent = (d.exponent - e).toNat + e := by omega
  rw [unitsAt_eq, ten_zpow_eq hexponent]
  push_cast
  ring

theorem toRat_eq (d : Decimal) : d.toRat = d.signed * 10 ^ d.exponent := by
  unfold toRat
  split
  · next h => rw [← unitsAt_mul_zpow h, zpow_zero, mul_one]
  · next h =>
    have hexponent : d.exponent = -((-d.exponent).toNat : Int) := by omega
    have hunits := unitsAt_mul_zpow (d := d) (le_refl d.exponent)
    rw [← hunits, pow10_eq, Rat.mkRat_eq_div]
    conv_rhs => rw [hexponent, zpow_neg, zpow_natCast, ← hexponent]
    push_cast
    rw [div_eq_mul_inv]

theorem abs_toRat (d : Decimal) : |d.toRat| = d.coefficient * 10 ^ d.exponent := by
  have hpos : (0 : ℚ) < 10 ^ d.exponent := ten_zpow_pos _
  rw [toRat_eq, abs_mul, abs_of_pos hpos, ← Int.cast_abs, Int.abs_eq_natAbs, natAbs_signed]
  rfl

theorem toRat_of_isZero (h : d.isZero = true) : d.toRat = 0 := by
  have hd : d.coefficient = 0 := by simpa [isZero] using h
  rw [← abs_eq_zero, abs_toRat, hd, Nat.cast_zero, zero_mul]

theorem toRat_zero : zero.toRat = 0 := toRat_of_isZero rfl

theorem toRat_mul_pow (d : Decimal) : d.toRat * 10 ^ (-d.exponent).toNat = d.unitsAt 0 := by
  rw [toRat_eq, unitsAt_eq, mul_assoc]
  push_cast
  congr 1
  rw [← zpow_natCast, ← zpow_natCast, ← zpow_add₀ (by norm_num)]
  congr 1
  omega

/-- A signed number is a multiple if its magnitude is. -/
theorem signed_eq_mul_iff {n : Int} {m : Nat} (hm : 0 < m) :
    d.signed = n * m ↔ d.coefficient % m = 0 ∧
      (if d.negative then -((d.coefficient / m : Nat) : Int) else (d.coefficient / m : Nat)) = n := by
  have hpos : (0 : Int) < m := by exact_mod_cast hm
  have hdivision : (d.coefficient : Int) =
      (d.coefficient / m : Nat) * m + (d.coefficient % m : Nat) := by
    exact_mod_cast (Nat.div_add_mod' d.coefficient m).symm
  constructor
  · intro h
    have hdvd : m ∣ d.coefficient := by
      rw [← natAbs_signed, h, Int.natAbs_mul, Int.natAbs_natCast]
      exact Nat.dvd_mul_left m n.natAbs
    have hrest := Nat.mod_eq_zero_of_dvd hdvd
    rw [hrest, Nat.cast_zero, add_zero] at hdivision
    refine ⟨hrest, Int.eq_of_mul_eq_mul_right hpos.ne' ?_⟩
    rw [← h, signed]
    split
    · rw [neg_mul, ← hdivision]
    · exact hdivision.symm
  · rintro ⟨hrest, rfl⟩
    rw [hrest, Nat.cast_zero, add_zero] at hdivision
    unfold signed
    split
    · rw [neg_mul, ← hdivision]
    · exact hdivision

/-- The integer that is returned is the value, and there is one whenever the value is an integer. -/
theorem toInt?_eq_some_iff {n : Int} : d.toInt? = some n ↔ d.toRat = n := by
  have hpos : (0 : ℚ) < 10 ^ (-d.exponent).toNat := pow_pos (by norm_num) _
  have hvalue : d.toRat = n ↔ d.unitsAt 0 = n * (10 ^ (-d.exponent).toNat : Nat) := by
    rw [← mul_left_inj' hpos.ne', toRat_mul_pow]
    norm_cast
  rw [hvalue]
  unfold toInt?
  split
  · next hzero =>
    have hcoefficient : d.coefficient = 0 := by simpa [isZero] using hzero
    have hunits : d.unitsAt 0 = 0 := by simp [unitsAt, hcoefficient]
    have hpower : ((10 ^ (-d.exponent).toNat : Nat) : Int) ≠ 0 := by positivity
    rw [hunits, Option.some_inj, eq_comm (a := 0) (b := n * _), Int.mul_eq_zero, or_iff_left hpower]
    exact eq_comm
  split
  · next he => simp [show (-d.exponent).toNat = 0 by omega]
  · next hzero he =>
    have hunits : d.unitsAt 0 = d.signed := by
      rw [unitsAt_eq, show (d.exponent - 0).toNat = 0 by omega, pow_zero, mul_one]
    dsimp only
    rw [hunits, signed_eq_mul_iff (Nat.pow_pos (by decide)), pow10_eq]
    split
    · next hdigits =>
      -- a number below the power of ten that it is a multiple of is zero
      have hlt := (numDigits_le_iff (by omega)).mp hdigits
      simp only [reduceCtorEq, false_iff, not_and, Nat.mod_eq_of_lt hlt]
      intro hcoefficient
      simp [isZero, hcoefficient] at hzero
    split
    · next hrest => simp [hrest]
    · next hrest => simp [hrest]

theorem isInteger_iff : d.isInteger = true ↔ ∃ n : Int, d.toRat = n := by
  rw [isInteger, Bool.or_eq_true, decide_eq_true_eq, Option.isSome_iff_exists]
  simp only [toInt?_eq_some_iff, or_iff_right_iff_imp]
  intro h
  exact ⟨d.unitsAt 0, by rw [toRat, if_pos h]⟩

theorem signed_of_int (s e : Int) (negativeZero : Bool) :
    signed ⟨if s = 0 then negativeZero else decide (s < 0), s.natAbs, e⟩ = s := by
  unfold signed
  dsimp only
  by_cases hs : s = 0
  · simp [hs]
  rw [if_neg hs]
  by_cases hneg : s < 0
  · rw [if_pos (decide_eq_true hneg)]
    omega
  · rw [if_neg (by simpa using hneg)]
    omega

theorem toRat_exactSum (a b : Decimal) : (exactSum a b).toRat = a.toRat + b.toRat := by
  have hsigned : (exactSum a b).signed = a.unitsAt (min a.exponent b.exponent) +
      b.unitsAt (min a.exponent b.exponent) := signed_of_int _ _ _
  have hexponent : (exactSum a b).exponent = min a.exponent b.exponent := rfl
  rw [toRat_eq, hsigned, hexponent, Int.cast_add, add_mul,
    unitsAt_mul_zpow (min_le_left _ _), unitsAt_mul_zpow (min_le_right _ _), ← toRat_eq, ← toRat_eq]

/-! ## Rounding -/

/-- The place at which a decimal other than zero is rounded. -/
def place (d : Decimal) : Int := max d.exponent (max (d.adjusted - (precision - 1)) minExponent)

/-- A decimal other than zero with at most 28 digits, whether or not its exponent is in range. -/
def rounded (d : Decimal) : Decimal :=
  let c := dropDigits d.coefficient (d.place - d.exponent).toNat
  if c = pow10 precision then ⟨d.negative, pow10 (precision - 1), d.place + 1⟩
  else ⟨d.negative, c, d.place⟩

theorem round_eq (h : d.isZero = false) :
    d.round = if maxAdjusted < d.rounded.adjusted then .error .overflow else .ok d.rounded := by
  rw [round, if_neg (by simp [h])]
  rfl

theorem eq_overflow_of_round {fault : Fault} (h : d.round = .error fault) : fault = .overflow := by
  cases hzero : d.isZero with
  | true =>
    rw [round, if_pos hzero] at h
    cases h
  | false =>
    rw [round_eq hzero] at h
    split at h
    · exact (Except.error.inj h).symm
    · cases h

theorem abs_toRat_rounded (d : Decimal) :
    |d.rounded.toRat| = dropDigits d.coefficient (d.place - d.exponent).toNat * 10 ^ d.place := by
  rw [abs_toRat]
  unfold rounded
  dsimp only
  split
  · next hc =>
    have hcarry : (pow10 precision : ℚ) = pow10 (precision - 1) * 10 := by
      unfold precision
      norm_num
    rw [hc, hcarry, ten_zpow_succ]
    ring
  · rfl

theorem zpow_adjusted_le (h : d.coefficient ≠ 0) : (10 : ℚ) ^ d.adjusted ≤ |d.toRat| := by
  have hdigits := pow_numDigits_le h
  have hsum : d.adjusted = ((Rounding.numDigits d.coefficient - 1 : Nat) : Int) + d.exponent := by
    have hpos := Rounding.numDigits_pos d.coefficient
    unfold adjusted Decimal.numDigits
    omega
  rw [abs_toRat, ten_zpow_eq hsum]
  apply mul_le_mul_of_nonneg_right _ (ten_zpow_pos _).le
  exact_mod_cast hdigits

theorem abs_toRat_lt_zpow (d : Decimal) : |d.toRat| < (10 : ℚ) ^ (d.adjusted + 1) := by
  have hdigits := lt_pow_numDigits d.coefficient
  have hsum : d.adjusted + 1 = (Rounding.numDigits d.coefficient : Int) + d.exponent := by
    unfold adjusted Decimal.numDigits
    omega
  rw [abs_toRat, ten_zpow_eq hsum]
  apply mul_lt_mul_of_pos_right _ (ten_zpow_pos _)
  exact_mod_cast hdigits

variable {m : Int}

theorem exceedsMemory_iff : d.exceedsMemory = true ↔ 10 ^ maxIntDigits ≤ |d.toRat| := by
  rw [exceedsMemory, Bool.and_eq_true, decide_eq_true_eq, Bool.not_eq_true', ← zpow_natCast]
  constructor
  · rintro ⟨hzero, h⟩
    exact (ten_zpow_mono h).trans (zpow_adjusted_le (by simpa [isZero] using hzero))
  · intro h
    have hlt := ten_zpow_lt_iff.mp (h.trans_lt (abs_toRat_lt_zpow d))
    refine ⟨?_, by omega⟩
    cases hzero : d.isZero with
    | false => rfl
    | true =>
      rw [toRat_of_isZero hzero, abs_zero] at h
      exact absurd h (ten_zpow_pos _).not_ge

theorem adjusted_le_of_abs_le (hd : d.coefficient ≠ 0)
    (h : |d.toRat| ≤ 10 ^ m + 5 * 10 ^ (m - precision)) : d.adjusted ≤ m := by
  have hsmall : (10 : ℚ) ^ (m - precision) ≤ 10 ^ m := ten_zpow_mono (by omega)
  have hpos : (0 : ℚ) < 10 ^ m := ten_zpow_pos _
  have hnext := ten_zpow_succ m
  have hlt : (10 : ℚ) ^ d.adjusted < 10 ^ (m + 1) :=
    calc (10 : ℚ) ^ d.adjusted ≤ |d.toRat| := zpow_adjusted_le hd
      _ ≤ 10 ^ m + 5 * 10 ^ (m - precision) := h
      _ < 10 ^ (m + 1) := by linarith
  have := ten_zpow_lt_iff.mp hlt
  omega

/-- Twice the value, against twice the power of ten and one unit at the place of rounding. -/
theorem two_mul_abs_le (hm : m ≤ d.adjusted ∨ |d.toRat| < 10 ^ m)
    (h : |d.toRat| ≤ 10 ^ m + 5 * 10 ^ (m - precision)) :
    2 * |d.toRat| ≤ 2 * 10 ^ m + 10 ^ d.place ∧
      (d.place = m → 2 * |d.toRat| < 2 * 10 ^ m + 10 ^ d.place) := by
  have hplace : (0 : ℚ) < 10 ^ d.place := ten_zpow_pos _
  rcases hm with hm | hm
  · have hunit : m - precision + 1 ≤ d.place := by
      unfold place precision
      omega
    have hten := ten_zpow_succ (m - precision)
    have hle : (10 : ℚ) ^ (m - precision + 1) ≤ 10 ^ d.place := ten_zpow_mono hunit
    refine ⟨by linarith, ?_⟩
    intro hsame
    have hlt : (10 : ℚ) ^ (m - precision + 1) < 10 ^ d.place := by
      apply ten_zpow_lt_iff.mpr
      unfold precision
      omega
    linarith
  · exact ⟨by linarith, fun _ => by linarith⟩

/-- Those bounds once more, in units of the exponent of the decimal. -/
theorem dropDigits_place_le (hexponent : d.exponent ≤ d.place) (hplace : d.place ≤ m)
    (hle : 2 * |d.toRat| ≤ 2 * 10 ^ m + 10 ^ d.place)
    (hlt : d.place = m → 2 * |d.toRat| < 2 * 10 ^ m + 10 ^ d.place) :
    dropDigits d.coefficient (d.place - d.exponent).toNat ≤ 10 ^ (m - d.place).toNat := by
  generalize hk : (m - d.place).toNat = k
  generalize hp : (d.place - d.exponent).toNat = p
  have hunit : (0 : ℚ) < 10 ^ d.exponent := ten_zpow_pos _
  have hplaceUnits : (10 : ℚ) ^ d.place = 10 ^ p * 10 ^ d.exponent := ten_zpow_eq (by omega)
  have hpower : (10 : ℚ) ^ m = 10 ^ k * 10 ^ d.place := ten_zpow_eq (by omega)
  have hunits : (2 * 10 ^ m + 10 ^ d.place : ℚ) = (2 * 10 ^ k + 1) * 10 ^ p * 10 ^ d.exponent := by
    rw [hpower, hplaceUnits]
    ring
  rw [hunits, abs_toRat, ← mul_assoc] at hle hlt
  apply dropDigits_le_pow
  · exact_mod_cast (mul_le_mul_iff_of_pos_right hunit).mp hle
  · intro hzero
    exact_mod_cast (mul_lt_mul_iff_of_pos_right hunit).mp (hlt (by omega))

/-- A decimal that exceeds a power of ten by half a unit of its last digit at most is rounded to a
decimal up to that power. -/
theorem abs_toRat_rounded_le (hd : d.coefficient ≠ 0) (hmin : minExponent ≤ m)
    (h : |d.toRat| ≤ 10 ^ m + 5 * 10 ^ (m - precision)) : |d.rounded.toRat| ≤ 10 ^ m := by
  have hadjusted := adjusted_le_of_abs_le hd h
  have hexponent : d.exponent ≤ d.adjusted := by
    have hpos : 0 < d.numDigits := Rounding.numDigits_pos _
    unfold adjusted
    omega
  have hplace : d.exponent ≤ d.place ∧ d.place ≤ m := by
    unfold place precision
    omega
  have hside : m ≤ d.adjusted ∨ |d.toRat| < 10 ^ m := by
    by_cases hlt : m ≤ d.adjusted
    · exact .inl hlt
    · right
      exact (abs_toRat_lt_zpow d).trans_le (ten_zpow_mono (by omega))
  obtain ⟨hle, hlt⟩ := two_mul_abs_le hside h
  have hdrop : ((dropDigits d.coefficient (d.place - d.exponent).toNat : Nat) : ℚ) ≤
      10 ^ (m - d.place).toNat := by
    exact_mod_cast dropDigits_place_le hplace.1 hplace.2 hle hlt
  have hpower : (10 : ℚ) ^ m = 10 ^ (m - d.place).toNat * 10 ^ d.place := ten_zpow_eq (by omega)
  rw [abs_toRat_rounded, hpower]
  exact mul_le_mul_of_nonneg_right hdrop (ten_zpow_pos _).le

theorem exists_round_le (hmin : minExponent ≤ m) (hmax : m + precision ≤ maxAdjusted)
    (h : |d.toRat| ≤ 10 ^ m + 5 * 10 ^ (m - precision)) :
    ∃ r, d.round = .ok r ∧ |r.toRat| ≤ 10 ^ m := by
  cases hzero : d.isZero with
  | true =>
    refine ⟨_, by rw [round, if_pos hzero], ?_⟩
    rw [toRat_of_isZero (by exact hzero), abs_zero]
    exact (ten_zpow_pos _).le
  | false =>
    have hd : d.coefficient ≠ 0 := by simpa [isZero] using hzero
    obtain ⟨r, hr⟩ := exists_round (adjusted_le_of_abs_le hd h) hmin hmax
    refine ⟨r, hr, ?_⟩
    rw [round_eq hzero] at hr
    split at hr
    · cases hr
    · obtain rfl := Except.ok.inj hr
      exact abs_toRat_rounded_le hd hmin h

/-- Rounding leaves the leading digit where it is, or moves it one place to the left. -/
theorem adjusted_le_adjusted_rounded (hd : d.coefficient ≠ 0) (h : minExponent ≤ d.adjusted) :
    d.adjusted ≤ d.rounded.adjusted := by
  have hpos := Rounding.numDigits_pos d.coefficient
  have hadjusted : d.adjusted = d.exponent + Rounding.numDigits d.coefficient - 1 := rfl
  have hplace : d.exponent ≤ d.place ∧ d.place ≤ d.adjusted := by
    unfold place precision
    omega
  generalize hp : (d.place - d.exponent).toNat = p
  have hdrop : 10 ^ (Rounding.numDigits d.coefficient - 1 - p) ≤ dropDigits d.coefficient p :=
    le_dropDigits (pow_numDigits_le hd) (by omega)
  have hvalue : (10 : ℚ) ^ d.adjusted ≤ |d.rounded.toRat| := by
    have hsum : d.adjusted =
        ((Rounding.numDigits d.coefficient - 1 - p : Nat) : Int) + d.place := by omega
    rw [abs_toRat_rounded, hp, ten_zpow_eq hsum]
    apply mul_le_mul_of_nonneg_right _ (ten_zpow_pos _).le
    exact_mod_cast hdrop
  have hlt := hvalue.trans_lt (abs_toRat_lt_zpow d.rounded)
  have := ten_zpow_lt_iff.mp hlt
  omega

theorem round_eq_overflow (hd : d.coefficient ≠ 0) (h : maxAdjusted < d.adjusted) :
    d.round = .error .overflow := by
  have hzero : d.isZero = false := by simpa [isZero] using hd
  have hmin : minExponent ≤ d.adjusted := by
    unfold minExponent
    unfold maxAdjusted at h
    omega
  rw [round_eq hzero, if_pos (h.trans_le (adjusted_le_adjusted_rounded hd hmin))]

end Decimal

end GatewayLedger
