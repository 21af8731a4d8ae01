import GatewayLedger.Proofs.Number.HalfEven
import Mathlib.Data.Int.Log
import Mathlib.Data.Rat.Floor

/-!
# Formats of numbers

A format has a base, a number of digits and a lowest place. `Format.Rounds` says what a number becomes
in it, however that is computed: the nearest multiple of the unit at the place that its size asks for,
a half to the even one. The result is unique and goes up with the number: numbers of one size are
rounded at one place, and between those of two sizes lies a power of the base, which rounding does not
pass.
-/

namespace GatewayLedger

structure Format where
  base : Nat
  digits : Nat
  lowest : Int
  one_lt_base : 1 < base
  digits_pos : 0 < digits

namespace Format

open Rounding

variable {f : Format} {x y p q : ℚ} {e k : Int}

/-- The place of the last digit of a number. -/
def place (f : Format) (x : ℚ) : Int := max (Int.log f.base |x| - (f.digits - 1)) f.lowest

def Rounds (f : Format) (x q : ℚ) : Prop :=
  ∃ n : ℤ, IsHalfEven (x / f.base ^ f.place x) n ∧ q = n * f.base ^ f.place x

/-- A number that the digits of the format are enough for. -/
def Fits (f : Format) (x : ℚ) : Prop :=
  ∃ n e : ℤ, x = n * f.base ^ e ∧ f.lowest ≤ e ∧ |n| < f.base ^ f.digits

/-! ## Units and places -/

theorem one_lt_cast_base (f : Format) : (1 : ℚ) < f.base := by exact_mod_cast f.one_lt_base

theorem unit_pos (f : Format) (e : Int) : (0 : ℚ) < f.base ^ e :=
  zpow_pos (zero_lt_one.trans f.one_lt_cast_base) e

theorem unit_eq (he : e ≤ k) :
    (f.base : ℚ) ^ k = ((f.base ^ (k - e).toNat : ℤ) : ℚ) * f.base ^ e := by
  have hsplit : k = ((k - e).toNat : Int) + e := by omega
  conv_lhs => rw [hsplit, zpow_add₀ (zero_lt_one.trans f.one_lt_cast_base).ne', zpow_natCast]
  norm_cast

theorem lowest_le_place (f : Format) (x : ℚ) : f.lowest ≤ f.place x := le_max_right _ _

theorem abs_lt_unit (f : Format) (x : ℚ) : |x| < f.base ^ (f.place x + f.digits) := by
  have hlog : Int.log f.base |x| + 1 ≤ f.place x + f.digits := by
    unfold place
    omega
  exact (Int.lt_zpow_succ_log_self f.one_lt_base |x|).trans_le
    (zpow_le_zpow_right₀ f.one_lt_cast_base.le hlog)

theorem place_mono (hx : 0 < x) (h : x ≤ y) : f.place x ≤ f.place y := by
  have hlog := Int.log_mono_right (b := f.base) hx h
  unfold place
  rw [abs_of_pos hx, abs_of_pos (hx.trans_le h)]
  omega

/-- A power of the base between two numbers that are rounded at different places. -/
theorem exists_unit_between (hx : 0 < x) (h : x ≤ y) (hplace : f.place x < f.place y) :
    ∃ k, f.place y ≤ k ∧ x ≤ f.base ^ k ∧ f.base ^ k ≤ y := by
  have hdigits := f.digits_pos
  have hsizes : Int.log f.base x + 1 ≤ Int.log f.base y ∧ f.place y ≤ Int.log f.base y := by
    unfold place at hplace ⊢
    rw [abs_of_pos hx, abs_of_pos (hx.trans_le h)] at hplace
    rw [abs_of_pos (hx.trans_le h)]
    omega
  refine ⟨Int.log f.base y, hsizes.2, ?_, Int.zpow_log_le_self f.one_lt_base (hx.trans_le h)⟩
  exact (Int.lt_zpow_succ_log_self f.one_lt_base x).le.trans
    (zpow_le_zpow_right₀ f.one_lt_cast_base.le hsizes.1)

/-! ## Rounding -/

theorem Rounds.unique (hp : f.Rounds x p) (hq : f.Rounds x q) : p = q := by
  obtain ⟨m, hm, rfl⟩ := hp
  obtain ⟨n, hn, rfl⟩ := hq
  rw [hm.unique hn]

theorem Rounds.neg (h : f.Rounds x q) : f.Rounds (-x) (-q) := by
  obtain ⟨n, hn, rfl⟩ := h
  have hplace : f.place (-x) = f.place x := by rw [place, abs_neg, place]
  refine ⟨-n, ?_, ?_⟩
  · rw [hplace, neg_div]
    exact hn.neg
  · rw [hplace, Int.cast_neg, neg_mul]

/-- Rounding does not pass a power of the base from the place on. -/
theorem Rounds.le_unit (h : f.Rounds x q) (hk : f.place x ≤ k) (hx : x ≤ f.base ^ k) :
    q ≤ f.base ^ k := by
  obtain ⟨n, hn, rfl⟩ := h
  have hunit := f.unit_pos (f.place x)
  rw [unit_eq hk] at hx ⊢
  apply mul_le_mul_of_nonneg_right _ hunit.le
  exact_mod_cast hn.ge_of_le ((div_le_iff₀ hunit).mpr hx)

theorem Rounds.unit_le (h : f.Rounds x q) (hk : f.place x ≤ k) (hx : f.base ^ k ≤ x) :
    f.base ^ k ≤ q := by
  obtain ⟨n, hn, rfl⟩ := h
  have hunit := f.unit_pos (f.place x)
  rw [unit_eq hk] at hx ⊢
  apply mul_le_mul_of_nonneg_right _ hunit.le
  exact_mod_cast hn.le_of_le ((le_div_iff₀ hunit).mpr hx)

theorem Rounds.nonneg (h : f.Rounds x q) (hx : 0 ≤ x) : 0 ≤ q := by
  obtain ⟨n, hn, rfl⟩ := h
  have hunit := f.unit_pos (f.place x)
  have hle : 0 ≤ n := hn.le_of_le (by rw [Int.cast_zero]; exact div_nonneg hx hunit.le)
  exact mul_nonneg (by exact_mod_cast hle) hunit.le

theorem Rounds.mono_of_pos (hp : f.Rounds x p) (hq : f.Rounds y q) (hx : 0 < x) (h : x ≤ y) :
    p ≤ q := by
  rcases (place_mono (f := f) hx h).eq_or_lt with hplace | hplace
  · obtain ⟨m, hm, rfl⟩ := hp
    obtain ⟨n, hn, rfl⟩ := hq
    have hunit := f.unit_pos (f.place y)
    rw [hplace] at hm ⊢
    apply mul_le_mul_of_nonneg_right _ hunit.le
    exact_mod_cast hm.mono hn (div_le_div_of_nonneg_right h hunit.le)
  · obtain ⟨k, hk, hbelow, habove⟩ := exists_unit_between hx h hplace
    exact (hp.le_unit (hplace.le.trans hk) hbelow).trans (hq.unit_le hk habove)

/-- What is rounded keeps its order. -/
theorem Rounds.mono (hp : f.Rounds x p) (hq : f.Rounds y q) (h : x ≤ y) : p ≤ q := by
  rcases lt_trichotomy x 0 with hx | rfl | hx
  · rcases lt_or_ge y 0 with hy | hy
    · exact neg_le_neg_iff.mp
        (hq.neg.mono_of_pos hp.neg (neg_pos.mpr hy) (neg_le_neg h))
    · have hnonpos := hp.neg.nonneg (neg_nonneg.mpr hx.le)
      exact (neg_nonneg.mp hnonpos).trans (hq.nonneg hy)
  · have hnonpos := hp.neg.nonneg neg_zero.ge
    exact (neg_nonneg.mp hnonpos).trans (hq.nonneg h)
  · exact hp.mono_of_pos hq hx h

/-! ## Numbers of the format -/

theorem fits_zero (f : Format) : f.Fits 0 :=
  ⟨0, f.lowest, by rw [Int.cast_zero, zero_mul], le_rfl, by
    rw [abs_zero]
    exact pow_pos (by exact_mod_cast zero_lt_one.trans f.one_lt_base) _⟩

/-- The place of a number of the format is no higher than that of its last digit. -/
theorem place_le_of_fits {n : ℤ} (hn : n ≠ 0) (he : f.lowest ≤ e) (h : |n| < f.base ^ f.digits) :
    f.place (n * f.base ^ e) ≤ e := by
  have hunit := f.unit_pos e
  have habs : |(n * f.base ^ e : ℚ)| = |(n : ℚ)| * f.base ^ e := by rw [abs_mul, abs_of_pos hunit]
  have hpos : 0 < |(n * f.base ^ e : ℚ)| := by
    rw [habs]
    exact mul_pos (by exact_mod_cast abs_pos.mpr hn) hunit
  have hlt : |(n * f.base ^ e : ℚ)| < f.base ^ (f.digits + e) := by
    rw [habs, zpow_add₀ (zero_lt_one.trans f.one_lt_cast_base).ne', zpow_natCast]
    exact mul_lt_mul_of_pos_right (by exact_mod_cast h) hunit
  have hlog := (Int.lt_zpow_iff_log_lt f.one_lt_base hpos).mp hlt
  unfold place
  omega

theorem Fits.rounds (h : f.Fits x) : f.Rounds x x := by
  obtain ⟨n, e, rfl, he, hn⟩ := h
  rcases eq_or_ne n 0 with rfl | hzero
  · rw [Int.cast_zero, zero_mul]
    refine ⟨0, ?_, by rw [Int.cast_zero, zero_mul]⟩
    rw [zero_div]
    exact_mod_cast isHalfEven_intCast 0
  · have hscale := unit_eq (f := f) (place_le_of_fits hzero he hn)
    generalize hplace : f.place (n * f.base ^ e) = place at hscale
    refine ⟨n * f.base ^ (e - place).toNat, ?_, ?_⟩
    · rw [hplace, hscale, ← mul_assoc, mul_div_assoc, div_self (f.unit_pos place).ne', mul_one]
      exact_mod_cast isHalfEven_intCast (n * f.base ^ (e - place).toNat)
    · rw [hplace, hscale]
      push_cast
      ring

theorem Rounds.eq_of_fits (h : f.Rounds x q) (hx : f.Fits x) : q = x := h.unique hx.rounds

/-- What is rounded fits. If it comes to a power of the base that has a digit too many, that power is
one unit of a higher place. -/
theorem Rounds.fits (h : f.Rounds x q) : f.Fits q := by
  obtain ⟨n, hn, rfl⟩ := h
  have hunit := f.unit_pos (f.place x)
  have hbase : (0 : ℤ) < f.base := by exact_mod_cast zero_lt_one.trans f.one_lt_base
  have hpower : (0 : ℤ) < f.base ^ f.digits := pow_pos hbase _
  have hbound : |x / f.base ^ f.place x| ≤ ((f.base ^ f.digits : ℤ) : ℚ) := by
    have hlt := f.abs_lt_unit x
    rw [add_comm, zpow_add₀ (zero_lt_one.trans f.one_lt_cast_base).ne', zpow_natCast] at hlt
    rw [abs_div, abs_of_pos hunit, div_le_iff₀ hunit]
    exact_mod_cast hlt.le
  have hle : |n| ≤ f.base ^ f.digits := by
    rw [abs_le] at hbound ⊢
    exact ⟨hn.le_of_le (by exact_mod_cast hbound.1), hn.ge_of_le hbound.2⟩
  rcases hle.eq_or_lt with hcarry | hlt
  · have hsign : |n.sign| = 1 := by
      apply Int.abs_sign_of_ne_zero
      rintro rfl
      rw [abs_zero] at hcarry
      exact hpower.ne hcarry
    have hmany : (1 : ℤ) < f.base ^ f.digits :=
      one_lt_pow₀ (by exact_mod_cast f.one_lt_base) f.digits_pos.ne'
    refine ⟨n.sign, f.place x + f.digits, ?_, ?_, hsign.trans_lt hmany⟩
    · have hvalue : (n : ℚ) = n.sign * f.base ^ f.digits := by
        exact_mod_cast (hcarry ▸ (Int.sign_mul_abs n).symm)
      rw [hvalue, add_comm, zpow_add₀ (zero_lt_one.trans f.one_lt_cast_base).ne', zpow_natCast,
        mul_assoc]
    · have hlowest := f.lowest_le_place x
      omega
  · exact ⟨n, f.place x, rfl, f.lowest_le_place x, hlt⟩

end Format

end GatewayLedger
