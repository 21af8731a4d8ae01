import GatewayLedger.Proofs.Number.Binary64
import GatewayLedger.Proofs.Number.Nearest

/-!
# Binary numbers in whole units

A ratio has one place at which it counts at least `2 ^ 52` and less than `2 ^ 53` units, and the binary
number next to it is the nearest number of those units. It depends on the value of the ratio alone, so
what follows an exact step can be taken on the exact ratio.
-/

namespace GatewayLedger.Binary64

open Rounding

variable {negative : Bool} {num den other otherDen m s k : Nat}

/-! ## The place of a ratio -/

theorem pow2_eq (k : Nat) : pow2 k = 2 ^ k := rfl

theorem div_lt_zpow_log2 (num : Nat) (hden : 0 < den) :
    (num / den : ℚ) < 2 ^ ((num.log2 : Int) - den.log2 + 1) := by
  have hhigh : (num : ℚ) < 2 ^ (num.log2 + 1) := by exact_mod_cast Nat.lt_log2_self
  have hlow : (2 : ℚ) ^ den.log2 ≤ den := by exact_mod_cast Nat.log2_self_le hden.ne'
  have hpos : (0 : ℚ) < 2 ^ den.log2 := by positivity
  have hsplit : (2 : ℚ) ^ ((num.log2 : Int) - den.log2 + 1) = 2 ^ (num.log2 + 1) / 2 ^ den.log2 := by
    rw [sub_add_eq_add_sub, zpow_sub₀ (by norm_num), zpow_natCast]
    norm_cast
  rw [hsplit]
  exact div_lt_div₀ hhigh hlow (by positivity) hpos

/-- The comparison of a ratio with a power of two, as it is made in whole numbers. -/
theorem zpow_le_div_iff (num : Nat) (hden : 0 < den) (k : Int) :
    (if 0 ≤ k then den * pow2 k.toNat ≤ num else den ≤ num * pow2 (-k).toNat) ↔
      (2 : ℚ) ^ k ≤ num / den := by
  have hpos : (0 : ℚ) < den := by exact_mod_cast hden
  rw [le_div_iff₀ hpos, pow2_eq, pow2_eq]
  by_cases h : 0 ≤ k
  · rw [if_pos h, ← two_zpow_toNat h, mul_comm]
    norm_cast
  · have hpower : (2 : ℚ) ^ k = (2 ^ (-k).toNat)⁻¹ := by
      rw [two_zpow_toNat (by omega), zpow_neg, inv_inv]
    rw [if_neg h, hpower, inv_mul_le_iff₀ (by positivity), mul_comm]
    norm_cast

theorem leadingExponent_bounds (hnum : num ≠ 0) (hden : 0 < den) :
    (2 : ℚ) ^ leadingExponent num den ≤ num / den ∧
      (num / den : ℚ) < 2 ^ (leadingExponent num den + 1) := by
  have hiff := zpow_le_div_iff num hden ((num.log2 : Int) - den.log2)
  unfold leadingExponent
  dsimp only
  by_cases h : (2 : ℚ) ^ ((num.log2 : Int) - den.log2) ≤ num / den
  · rw [if_pos (hiff.mpr h)]
    exact ⟨h, div_lt_zpow_log2 num hden⟩
  · rw [if_neg (mt hiff.mp h), sub_add_cancel]
    exact ⟨zpow_log2_le hnum hden, not_le.mp h⟩

theorem leadingExponent_eq (hnum : num ≠ 0) (hden : 0 < den) {k : Int}
    (hlow : (2 : ℚ) ^ k ≤ num / den) (hhigh : (num / den : ℚ) < 2 ^ (k + 1)) :
    leadingExponent num den = k := by
  obtain ⟨hle, hlt⟩ := leadingExponent_bounds hnum hden
  have hup : leadingExponent num den < k + 1 :=
    (zpow_lt_zpow_iff_right₀ (by norm_num)).mp (hle.trans_lt hhigh)
  have hdown : k < leadingExponent num den + 1 :=
    (zpow_lt_zpow_iff_right₀ (by norm_num)).mp (hlow.trans_lt hlt)
  omega

/-- Ratios of one value are rounded to one number. -/
theorem ofRatio_congr (hden : 0 < den) (hother : 0 < otherDen)
    (h : num * otherDen = other * den) :
    ofRatio negative num den = ofRatio negative other otherDen := by
  by_cases hnum : num = 0
  · have hzero : other = 0 := by
      rw [hnum, Nat.zero_mul] at h
      exact (Nat.mul_eq_zero.mp h.symm).resolve_right hden.ne'
    rw [hnum, hzero, ofRatio, ofRatio, if_pos rfl, if_pos rfl]
  have hne : other ≠ 0 := by
    rintro rfl
    rw [Nat.zero_mul] at h
    exact hnum ((Nat.mul_eq_zero.mp h).resolve_right hother.ne')
  have hvalue : (num / den : ℚ) = other / otherDen := by
    rw [div_eq_div_iff (by exact_mod_cast hden.ne') (by exact_mod_cast hother.ne')]
    exact_mod_cast h
  obtain ⟨hlow, hhigh⟩ := leadingExponent_bounds hne hother
  rw [← hvalue] at hlow hhigh
  have hunits : ∀ e, unitsAt num den e = unitsAt other otherDen e := by
    intro e
    unfold unitsAt
    rw [pow2_eq, pow2_eq]
    by_cases he : 0 ≤ e
    · rw [if_pos he, if_pos he]
      apply halfEven_congr (by positivity) (by positivity)
      rw [← mul_assoc, h, mul_assoc]
    · rw [if_neg he, if_neg he]
      apply halfEven_congr hden hother
      rw [mul_right_comm, h, mul_right_comm]
  rw [ofRatio, ofRatio, if_neg hnum, if_neg hne, leadingExponent_eq hnum hden hlow hhigh]
  simp only [hunits]

/-! ## Units -/

/-- The place at which a ratio counts 53 binary digits before the point. -/
structure InPlace (num den s : Nat) : Prop where
  low : 2 ^ 52 * den ≤ num * 2 ^ s
  high : num * 2 ^ s < 2 ^ 53 * den

theorem InPlace.den_pos (h : InPlace num den s) : 0 < den :=
  Nat.pos_of_mul_pos_left (Nat.zero_lt_of_lt h.high)

theorem InPlace.num_ne_zero (h : InPlace num den s) : num ≠ 0 := by
  rintro rfl
  have hlow := h.low
  have hden := h.den_pos
  omega

theorem exists_inPlace (hnum : 0 < num) (h : num < 2 ^ 53 * den) : ∃ s, InPlace num den s := by
  have hexists : ∃ s, 2 ^ 52 * den ≤ num * 2 ^ s :=
    ⟨2 ^ 52 * den, Nat.lt_two_pow_self.le.trans (Nat.le_mul_of_pos_left _ hnum)⟩
  refine ⟨Nat.find hexists, Nat.find_spec hexists, ?_⟩
  cases hs : Nat.find hexists with
  | zero =>
    rw [pow_zero, mul_one]
    exact h
  | succ k =>
    have hmin := Nat.find_min hexists (m := k) (by omega)
    rw [pow_succ, ← mul_assoc]
    omega

theorem InPlace.lt_add_of_lt (h : InPlace num den s) (hnum : num < 2 ^ k * den) : 52 < k + s := by
  have hlt : 2 ^ 52 * den < 2 ^ (k + s) * den :=
    calc 2 ^ 52 * den ≤ num * 2 ^ s := h.low
      _ < 2 ^ k * den * 2 ^ s := Nat.mul_lt_mul_of_pos_right hnum (Nat.two_pow_pos s)
      _ = 2 ^ (k + s) * den := by ring
  exact (Nat.pow_lt_pow_iff_right (by decide)).mp (Nat.lt_of_mul_lt_mul_right hlt)

theorem InPlace.lt_of_den_le (h : InPlace num den s) (hnum : 0 < num) (hden : den ≤ 2 ^ k) :
    s < 53 + k := by
  have hlt : 2 ^ s < 2 ^ (53 + k) :=
    calc 2 ^ s ≤ num * 2 ^ s := Nat.le_mul_of_pos_left _ hnum
      _ < 2 ^ 53 * den := h.high
      _ ≤ 2 ^ 53 * 2 ^ k := Nat.mul_le_mul_left _ hden
      _ = 2 ^ (53 + k) := (pow_add ..).symm
  exact (Nat.pow_lt_pow_iff_right (by decide)).mp hlt

theorem InPlace.unique {t : Nat} (h : InPlace num den s) (ht : InPlace num den t) : s = t := by
  have hle : ∀ {s t}, InPlace num den s → InPlace num den t → s ≤ t := by
    intro s t hs ht
    by_contra hlt
    have hpower : num * 2 ^ (t + 1) ≤ num * 2 ^ s :=
      Nat.mul_le_mul_left _ (Nat.pow_le_pow_right (by decide) (by omega))
    have hlow := ht.low
    have hhigh := hs.high
    rw [pow_succ, ← mul_assoc] at hpower
    omega
  exact Nat.le_antisymm (hle h ht) (hle ht h)

/-- Units of `2 ^ -s`, the number of which may have been rounded up to the next place. -/
def ofUnits (negative : Bool) (m s : Nat) : Binary64 :=
  if m = 2 ^ 53 then .finite negative (2 ^ 52) (1 - s) else .finite negative m (-s)

theorem unitsAt_neg (num den s : Nat) : unitsAt num den (-s) = halfEven (num * 2 ^ s) den := by
  unfold unitsAt
  rw [pow2_eq, pow2_eq]
  rcases Nat.eq_zero_or_pos s with rfl | hs
  · simp
  · rw [if_neg (by omega)]
    simp

theorem ratio_neg (m s : Nat) : ratio m (-s) = (m, 2 ^ s) := by
  unfold ratio
  rw [pow2_eq, pow2_eq]
  rcases Nat.eq_zero_or_pos s with rfl | hs
  · simp
  · rw [if_neg (by omega)]
    simp

theorem InPlace.leadingExponent_eq (h : InPlace num den s) : leadingExponent num den = 52 - s := by
  have hpos : (0 : ℚ) < den := by exact_mod_cast h.den_pos
  have hlow : (2 : ℚ) ^ 52 * den ≤ num * 2 ^ s := by exact_mod_cast h.low
  have hhigh : (num : ℚ) * 2 ^ s < 2 ^ 53 * den := by exact_mod_cast h.high
  have hsplit : ∀ j : Nat, (2 : ℚ) ^ ((j : Int) - s) = 2 ^ j / 2 ^ s := by
    intro j
    rw [zpow_sub₀ (by norm_num), zpow_natCast, zpow_natCast]
  have hnext : (52 : Int) - s + 1 = (53 : Nat) - s := by
    push_cast
    ring
  apply Binary64.leadingExponent_eq h.num_ne_zero h.den_pos
  · rw [← Nat.cast_ofNat (R := Int), hsplit, div_le_div_iff₀ (by positivity) hpos]
    exact hlow
  · rw [hnext, hsplit, div_lt_div_iff₀ hpos (by positivity)]
    exact hhigh

theorem InPlace.ofRatio_eq (h : InPlace num den s) (hs : s ≤ 1074) (negative : Bool) :
    ofRatio negative num den = ofUnits negative (halfEven (num * 2 ^ s) den) s := by
  have hplace : max (leadingExponent num den - 52) minExponent = -s := by
    rw [h.leadingExponent_eq]
    unfold minExponent
    omega
  rw [ofRatio, if_neg h.num_ne_zero]
  dsimp only
  rw [hplace, unitsAt_neg, pow2_eq, pow2_eq, ofUnits]
  split
  · rw [if_neg (by unfold maxExponent; omega), neg_add_eq_sub]
  · rw [if_neg (by unfold maxExponent; omega)]

/-! ## Values -/

/-- A finite number that has the value of a ratio. -/
def Represents (x : Binary64) (negative : Bool) (num den : Nat) : Prop :=
  ∃ m e, x = .finite negative m e ∧ (ratio m e).1 * den = num * (ratio m e).2

def withSign (negative : Bool) (n : Nat) : Int := if negative then -(n : Int) else n

theorem ratio_den_pos (m : Nat) (e : Int) : 0 < (ratio m e).2 := (ratio_eq m e).2

theorem represents_ofUnits (negative : Bool) (m s : Nat) :
    Represents (ofUnits negative m s) negative m (2 ^ s) := by
  unfold ofUnits
  split
  · next hm =>
    refine ⟨_, _, rfl, ?_⟩
    rcases Nat.eq_zero_or_pos s with rfl | hs
    · subst hm
      decide
    · obtain ⟨k, rfl⟩ : ∃ k, s = k + 1 := ⟨s - 1, by omega⟩
      have hexponent : (1 : Int) - (k + 1 : Nat) = -k := by
        push_cast
        ring
      rw [hexponent, ratio_neg, hm]
      ring
  · exact ⟨_, _, rfl, by rw [ratio_neg]⟩

theorem Represents.congr {x : Binary64} (h : Represents x negative num den) (hden : 0 < den)
    (hvalue : num * otherDen = other * den) : Represents x negative other otherDen := by
  obtain ⟨m, e, rfl, hratio⟩ := h
  refine ⟨m, e, rfl, Nat.eq_of_mul_eq_mul_right hden ?_⟩
  calc (ratio m e).1 * otherDen * den = (ratio m e).1 * den * otherDen := by ring
    _ = num * otherDen * (ratio m e).2 := by rw [hratio]; ring
    _ = other * (ratio m e).2 * den := by rw [hvalue]; ring

theorem Represents.mulNat {x : Binary64} (h : Represents x negative num den) (hden : 0 < den)
    (k : Nat) : x.mulNat k = ofRatio negative (num * k) den := by
  obtain ⟨m, e, rfl, hratio⟩ := h
  have hproduct : (ratio m e).1 * k * den = num * k * (ratio m e).2 := by
    rw [mul_right_comm, hratio, mul_right_comm]
  exact ofRatio_congr (ratio_den_pos m e) hden hproduct

theorem Represents.divNat {x : Binary64} (h : Represents x negative num den) (hden : 0 < den)
    (hk : 0 < k) : x.divNat k = ofRatio negative num (den * k) := by
  obtain ⟨m, e, rfl, hratio⟩ := h
  have hquotient : (ratio m e).1 * (den * k) = num * ((ratio m e).2 * k) := by
    rw [← mul_assoc, hratio, mul_assoc]
  exact ofRatio_congr (Nat.mul_pos (ratio_den_pos m e) hk) (Nat.mul_pos hden hk) hquotient

theorem Represents.nearest? {x : Binary64} (h : Represents x negative num den) (hden : 0 < den) :
    x.nearest? = some (withSign negative (halfEven num den)) := by
  obtain ⟨m, e, rfl, hratio⟩ := h
  rw [Binary64.nearest?, ← halfEven_congr (ratio_den_pos m e) hden hratio]
  rfl

theorem div_eq_div_of_ratio (hden : 0 < den) (hother : 0 < otherDen)
    (h : num * otherDen = other * den) : num / den = other / otherDen := by
  rw [← Nat.mul_div_mul_right num den hother, h, Nat.mul_comm den, Nat.mul_div_mul_right _ _ hden]

theorem Represents.truncate? {x : Binary64} (h : Represents x negative num den) (hden : 0 < den) :
    x.truncate? = some (withSign negative (num / den)) := by
  obtain ⟨m, e, rfl, hratio⟩ := h
  rw [Binary64.truncate?, ← div_eq_div_of_ratio (ratio_den_pos m e) hden hratio]
  rfl

theorem Represents.fraction {x : Binary64} (h : Represents x negative num den) (hden : 0 < den) :
    x.fraction = ofRatio negative (num % den) den := by
  obtain ⟨m, e, rfl, hratio⟩ := h
  have hrest : (ratio m e).1 % (ratio m e).2 * den = num % den * (ratio m e).2 := by
    rw [← Nat.mul_mod_mul_right, hratio, Nat.mul_comm (ratio m e).2, Nat.mul_mod_mul_right]
  exact ofRatio_congr (ratio_den_pos m e) hden hrest

/-- A ratio of 53 binary digits is a number of the format itself. -/
theorem represents_ofRatio (negative : Bool) {t : Nat} (hm : m < 2 ^ 53) (ht : t ≤ 1000) :
    Represents (ofRatio negative m (2 ^ t)) negative m (2 ^ t) := by
  rcases Nat.eq_zero_or_pos m with rfl | hpos
  · refine ⟨0, minExponent, by rw [ofRatio, if_pos rfl]; rfl, ?_⟩
    have hzero : (ratio 0 minExponent).1 = 0 := by decide
    rw [hzero, Nat.zero_mul, Nat.zero_mul]
  have hbound : m < 2 ^ 53 * 2 ^ t := hm.trans_le (Nat.le_mul_of_pos_right _ (by positivity))
  obtain ⟨s, hs⟩ := exists_inPlace hpos hbound
  have hts : t ≤ s := by
    have hlt : 2 ^ 52 * 2 ^ t < 2 ^ 53 * 2 ^ s :=
      hs.low.trans_lt (Nat.mul_lt_mul_of_pos_right hm (by positivity))
    rw [← pow_add, ← pow_add] at hlt
    have := (Nat.pow_lt_pow_iff_right (by decide)).mp hlt
    omega
  have hlimit := hs.lt_of_den_le hpos le_rfl
  obtain ⟨j, rfl⟩ := Nat.exists_eq_add_of_le hts
  have hunits : halfEven (m * 2 ^ (t + j)) (2 ^ t) = m * 2 ^ j := by
    have hone : m * 2 ^ (t + j) * 1 = m * 2 ^ j * 2 ^ t := by ring
    rw [halfEven_congr (by positivity) Nat.one_pos hone, halfEven_one]
  rw [hs.ofRatio_eq (by omega), hunits]
  apply (represents_ofUnits negative (m * 2 ^ j) (t + j)).congr (by positivity)
  ring

/-! ## Near whole numbers -/

/-- A whole number at most half a unit and `2 ^ -34` of one away from a ratio. -/
structure IsNearly (num den m : Nat) : Prop where
  low : 2 ^ 33 * (2 * (den * m)) ≤ 2 ^ 33 * (2 * num + den) + den
  high : 2 ^ 33 * (2 * num) ≤ 2 ^ 33 * (2 * (den * m) + den) + den

/-- Rounding to 53 binary digits and then to a whole number is not much worse than rounding once. -/
theorem InPlace.isNearly (h : InPlace num den s) (hnum : num < 2 ^ 20 * den) :
    IsNearly num den (halfEven (halfEven (num * 2 ^ s) den) (2 ^ s)) := by
  have hunits := isNearest_halfEven h.den_pos (num * 2 ^ s)
  generalize halfEven (num * 2 ^ s) den = c at hunits ⊢
  have hwhole := isNearest_halfEven (Nat.two_pow_pos s) c
  generalize halfEven c (2 ^ s) = k at hwhole ⊢
  have hplace := h.lt_add_of_lt hnum
  obtain ⟨v, rfl⟩ : ∃ v, s = 33 + v := ⟨s - 33, by omega⟩
  have hpos : 0 < 2 ^ v := Nat.two_pow_pos v
  have hden : den ≤ 2 ^ v * den := Nat.le_mul_of_pos_left _ hpos
  have hlow := hunits.low
  have hhigh := hunits.high
  have hwholeLow := Nat.mul_le_mul_left den hwhole.low
  have hwholeHigh := Nat.mul_le_mul_left den hwhole.high
  rw [pow_add] at hlow hhigh hwholeLow hwholeHigh
  constructor
  · apply Nat.le_of_mul_le_mul_left _ hpos
    nlinarith
  · apply Nat.le_of_mul_le_mul_left _ hpos
    nlinarith

theorem IsNearly.add_mul (h : IsNearly num den m) (w : Nat) :
    IsNearly (w * den + num) den (w + m) := by
  obtain ⟨hlow, hhigh⟩ := h
  have hsum : den * (w + m) = w * den + den * m := by ring
  constructor
  · rw [hsum]
    omega
  · rw [hsum]
    omega

theorem IsNearly.eq_of_mul (h : IsNearly (den * k) den m) (hden : 0 < den) : m = k := by
  have hlow : m < k + 1 := by
    apply Nat.lt_of_mul_lt_mul_left (a := den)
    have := h.low
    rw [mul_add, mul_one]
    omega
  have hhigh : k < m + 1 := by
    apply Nat.lt_of_mul_lt_mul_left (a := den)
    have := h.high
    rw [mul_add, mul_one]
    omega
  omega

theorem exists_nearest?_ofRatio (negative : Bool) {t : Nat} (hnum : num < 2 ^ 20 * 2 ^ t)
    (ht : t ≤ 1000) : ∃ k, (ofRatio negative num (2 ^ t)).nearest? = some (withSign negative k) ∧
      IsNearly num (2 ^ t) k := by
  have hpos : 0 < 2 ^ t := Nat.two_pow_pos t
  rcases Nat.eq_zero_or_pos num with rfl | hnumPos
  · have hrepresents := represents_ofRatio negative (m := 0) (t := t) (by decide) ht
    refine ⟨0, ?_, by omega, by omega⟩
    rw [hrepresents.nearest? hpos]
    simp [halfEven, hpos]
  · obtain ⟨s, hs⟩ := exists_inPlace hnumPos (hnum.trans_le (Nat.mul_le_mul_right _ (by decide)))
    have hlimit := hs.lt_of_den_le hnumPos le_rfl
    refine ⟨_, ?_, hs.isNearly hnum⟩
    rw [hs.ofRatio_eq (by omega), (represents_ofUnits _ _ _).nearest? (Nat.two_pow_pos s)]

end GatewayLedger.Binary64
