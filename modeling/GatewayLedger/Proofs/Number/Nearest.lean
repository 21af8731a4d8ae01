import GatewayLedger.Proofs.Number.Digits
import Mathlib.Tactic.Ring

/-!
# Rounding to the nearest

A rounded ratio is at most half a unit away from the exact one, and even if it is half a unit away.
So it is any whole number that is less than half a unit away, and an even number absorbs both halves
beside it. What a ratio is rounded to depends on its value alone.
-/

namespace GatewayLedger.Rounding

variable {num den m : Nat}

/-- A whole number next to a ratio, and the even one of two that are equally near. -/
structure IsNearest (num den m : Nat) : Prop where
  low : 2 * (den * m) ≤ 2 * num + den
  high : 2 * num ≤ 2 * (den * m) + den
  even_of_low : 2 * (den * m) = 2 * num + den → m % 2 = 0
  even_of_high : 2 * num = 2 * (den * m) + den → m % 2 = 0

theorem isNearest_halfEven (hden : 0 < den) (num : Nat) : IsNearest num den (halfEven num den) := by
  have hsplit : den * (num / den) + num % den = num := Nat.div_add_mod num den
  have hmod : num % den < den := Nat.mod_lt _ hden
  have hsucc : den * (num / den + 1) = den * (num / den) + den := by ring
  unfold halfEven
  dsimp only
  by_cases hbelow : 2 * (num % den) < den
  · rw [if_pos hbelow]
    constructor <;> omega
  rw [if_neg hbelow]
  by_cases habove : den < 2 * (num % den)
  · rw [if_pos habove]
    constructor <;> omega
  rw [if_neg habove]
  rcases Nat.mod_two_eq_zero_or_one (num / den) with h | h
  · rw [h, Nat.add_zero]
    constructor <;> omega
  · rw [h]
    constructor <;> omega

theorem halfEven_lt_of_lt (h : 2 * num + den < 2 * (den * m)) : halfEven num den < m := by
  have hden : 0 < den := by
    rcases Nat.eq_zero_or_pos den with rfl | hpos
    · omega
    · exact hpos
  have hlow := (isNearest_halfEven hden num).low
  exact Nat.lt_of_mul_lt_mul_left (a := den) (by omega)

theorem le_halfEven_of_lt (hden : 0 < den) (h : 2 * (den * m) < 2 * num + den) :
    m ≤ halfEven num den := by
  have hhigh := (isNearest_halfEven hden num).high
  have hsucc : den * (halfEven num den + 1) = den * halfEven num den + den := by ring
  have hlt : m < halfEven num den + 1 := Nat.lt_of_mul_lt_mul_left (a := den) (by omega)
  omega

theorem le_halfEven_of_even (hden : 0 < den) (heven : m % 2 = 0)
    (h : 2 * (den * m) ≤ 2 * num + den) : m ≤ halfEven num den := by
  obtain ⟨_, hhigh, _, htie⟩ := isNearest_halfEven hden num
  have hsucc : den * (halfEven num den + 1) = den * halfEven num den + den := by ring
  have hle : m ≤ halfEven num den + 1 := Nat.le_of_mul_le_mul_left (c := den) (by omega) hden
  by_contra hlt
  obtain rfl : m = halfEven num den + 1 := by omega
  have := htie (by omega)
  omega

/-- A ratio of at most a half more than a number is not rounded above it, if the number is even or
the ratio is smaller. -/
theorem halfEven_le_of_le {bound : Nat} (hden : 0 < den) (hle : 2 * num ≤ (2 * bound + 1) * den)
    (htie : bound % 2 = 0 ∨ 2 * num < (2 * bound + 1) * den) : halfEven num den ≤ bound := by
  obtain ⟨hlow, _, heven, _⟩ := isNearest_halfEven hden num
  have hexpand : (2 * bound + 1) * den = 2 * (den * bound) + den := by ring
  have hsucc : den * (bound + 1) = den * bound + den := by ring
  have hnext : halfEven num den ≤ bound + 1 := Nat.le_of_mul_le_mul_left (c := den) (by omega) hden
  by_contra hlt
  have heq : halfEven num den = bound + 1 := by omega
  rw [heq] at hlow heven
  have := heven (by omega)
  omega

theorem le_halfEven (num den : Nat) : num / den ≤ halfEven num den := by
  rcases Nat.eq_zero_or_pos den with rfl | hden
  · rw [Nat.div_zero]
    exact Nat.zero_le _
  · have hle := Nat.mul_div_le num den
    exact le_halfEven_of_lt hden (by omega)

/-- Exactly the ratios below the half below an even number are rounded below it. -/
theorem halfEven_lt_iff (hden : 0 < den) (heven : m % 2 = 0) :
    halfEven num den < m ↔ 2 * num + den < 2 * (den * m) := by
  constructor
  · intro h
    by_contra hle
    have hge : m ≤ halfEven num den := le_halfEven_of_even hden heven (by omega)
    omega
  · exact halfEven_lt_of_lt

theorem halfEven_eq_of_near (hlow : 2 * (den * m) < 2 * num + den)
    (hhigh : 2 * num < 2 * (den * m) + den) : halfEven num den = m := by
  have hsucc : den * (m + 1) = den * m + den := by ring
  have hle : halfEven num den < m + 1 := halfEven_lt_of_lt (by omega)
  have hden : 0 < den := by omega
  have hge : m ≤ halfEven num den := le_halfEven_of_lt hden hlow
  omega

theorem halfEven_mul_right {k : Nat} (hk : 0 < k) (num den : Nat) :
    halfEven (num * k) (den * k) = halfEven num den := by
  have hdouble : 2 * (num % den * k) = 2 * (num % den) * k := by ring
  unfold halfEven
  simp only [Nat.mul_div_mul_right _ _ hk, Nat.mul_mod_mul_right, hdouble, Nat.mul_lt_mul_right hk]

/-- Ratios of one value are rounded to one number. -/
theorem halfEven_congr {other otherDen : Nat} (hden : 0 < den) (hother : 0 < otherDen)
    (h : num * otherDen = other * den) : halfEven num den = halfEven other otherDen := by
  rw [← halfEven_mul_right hother, h, Nat.mul_comm den otherDen, halfEven_mul_right hden]

end GatewayLedger.Rounding
