import GatewayLedger.Proofs.Number.Scaled

/-!
# Seconds in whole units

The seconds of a number of milliseconds, in 53 binary digits, are a number of units of some power of
two. Their microseconds, rounded once more, are near to the milliseconds and have the same seconds.
Their thousandfold is rounded to the number of milliseconds, or to a little less than it, where the
roundings of the seconds and of the thousandfold both go down.
-/

namespace GatewayLedger.Binary64

open Rounding

variable {a k s : Nat} {n : Int} {negative : Bool}

/-! ## Seconds -/

/-- The seconds of a number of milliseconds in units of `2 ^ -s`. -/
def secondUnits (a s : Nat) : Nat := halfEven (a * 2 ^ s) 1000

/-- A place of seconds at which they have milliseconds behind the point, up to the year 10000. -/
structure InSecondPlace (a s : Nat) : Prop extends InPlace a 1000 s where
  fifteen_le : 15 ≤ s
  le_sixtyTwo : s ≤ 62

theorem exists_inSecondPlace (ha : 0 < a) (h : a < 2 ^ 38 * 1000) : ∃ s, InSecondPlace a s := by
  obtain ⟨s, hs⟩ : ∃ s, InPlace a 1000 s := exists_inPlace ha (by omega)
  have hlow := hs.lt_add_of_lt h
  have hhigh := hs.lt_of_den_le (k := 10) ha (by decide)
  exact ⟨s, hs, by omega, by omega⟩

theorem InSecondPlace.exists_eq_mul (h : InSecondPlace a s) : ∃ c, a * 2 ^ s = 2 ^ 15 * c := by
  obtain ⟨j, rfl⟩ := Nat.exists_eq_add_of_le h.fifteen_le
  exact ⟨a * 2 ^ j, by ring⟩

/-- Seconds do not fill their place, so they are never rounded up to the next one. -/
theorem InSecondPlace.secondUnits_bounds (h : InSecondPlace a s) :
    2 ^ 52 ≤ secondUnits a s ∧ secondUnits a s < 2 ^ 53 := by
  have hlow := h.low
  have hhigh := h.high
  obtain ⟨c, hc⟩ := h.exists_eq_mul
  unfold secondUnits
  constructor
  · exact le_halfEven_of_lt (by decide) (by omega)
  · exact halfEven_lt_of_lt (by omega)

/-- A number of microseconds next to the seconds of a number of milliseconds. -/
def ReadsTo (a s k : Nat) : Prop := IsNearly (secondUnits a s * 10 ^ 6) (2 ^ s) k

/-- A number of microseconds with the very seconds of a number of milliseconds. -/
structure HasSecondsOf (k a s : Nat) : Prop extends InPlace k (10 ^ 6) s where
  units_eq : halfEven (k * 2 ^ s) (10 ^ 6) = secondUnits a s

/-- The microseconds that are read are near to the milliseconds, as far as the units of a second
allow. -/
theorem ReadsTo.near (hk : ReadsTo a s k) {d : Nat}
    (hd : 2 ^ 34 * 500000 + (2 ^ 33 + 1) * 2 ^ s < 2 ^ 34 * (2 ^ s * (d + 1))) :
    k ≤ 1000 * a + d ∧ 1000 * a ≤ k + d := by
  have hunits : IsNearest (a * 2 ^ s) 1000 (secondUnits a s) :=
    isNearest_halfEven (by decide) _
  obtain ⟨hlow, hhigh⟩ := hk
  have hunitsLow := hunits.low
  have hunitsHigh := hunits.high
  generalize secondUnits a s = m at hlow hhigh hunitsLow hunitsHigh
  constructor
  · by_contra hlt
    have hfar : 2 ^ s * (1000 * a + (d + 1)) ≤ 2 ^ s * k := Nat.mul_le_mul_left _ (by omega)
    have hexpand : 2 ^ s * (1000 * a + (d + 1)) = 1000 * (a * 2 ^ s) + 2 ^ s * (d + 1) := by ring
    omega
  · by_contra hlt
    have hfar : 2 ^ s * (k + (d + 1)) ≤ 2 ^ s * (1000 * a) := Nat.mul_le_mul_left _ (by omega)
    have hexpand : 2 ^ s * (k + (d + 1)) = 2 ^ s * k + 2 ^ s * (d + 1) := by ring
    have hmillis : 2 ^ s * (1000 * a) = 1000 * (a * 2 ^ s) := by ring
    omega

theorem ReadsTo.near_fifteen (hk : ReadsTo a s k) (h : InSecondPlace a s) :
    k ≤ 1000 * a + 15 ∧ 1000 * a ≤ k + 15 := by
  have hpower : 2 ^ 15 ≤ 2 ^ s := Nat.pow_le_pow_right (by decide) h.fifteen_le
  exact hk.near (by omega)

theorem ReadsTo.eq_of_twenty_le (hk : ReadsTo a s k) (hs : 20 ≤ s) : k = 1000 * a := by
  have hpower : 2 ^ 20 ≤ 2 ^ s := Nat.pow_le_pow_right (by decide) hs
  have hnear := hk.near (d := 0) (by omega)
  omega

/-- Whole seconds are read exactly. -/
theorem ReadsTo.eq_of_whole {w : Nat} (hk : ReadsTo (1000 * w) s k) : k = w * 10 ^ 6 := by
  have hunits : secondUnits (1000 * w) s = w * 2 ^ s := by
    have hone : 1000 * w * 2 ^ s * 1 = w * 2 ^ s * 1000 := by ring
    rw [secondUnits, halfEven_congr (by decide) Nat.one_pos hone, halfEven_one]
  have hscale : w * 2 ^ s * 10 ^ 6 = 2 ^ s * (w * 10 ^ 6) := by ring
  rw [ReadsTo, hunits, hscale] at hk
  exact hk.eq_of_mul (Nat.two_pow_pos s)

theorem InSecondPlace.hasSecondsOf (h : InSecondPlace a s) : HasSecondsOf (1000 * a) a s := by
  have hlow := h.low
  have hhigh := h.high
  have hscale : 1000 * a * 2 ^ s = 1000 * (a * 2 ^ s) := by ring
  refine ⟨⟨by omega, by omega⟩, ?_⟩
  apply halfEven_congr (by decide) (by decide)
  rw [hscale]
  ring

/-- Seconds can be read back from their microseconds: where these are not exact, they are still too
close to the seconds for another unit. -/
theorem ReadsTo.hasSecondsOf (hk : ReadsTo a s k) (h : InSecondPlace a s) : HasSecondsOf k a s := by
  by_cases hs : 20 ≤ s
  · obtain rfl := hk.eq_of_twenty_le hs
    exact h.hasSecondsOf
  obtain ⟨hunitsLow, hunitsHigh⟩ := h.secondUnits_bounds
  have hpower : 2 ^ s ≤ 2 ^ 19 := Nat.pow_le_pow_right (by decide) (by omega)
  have hcomm : 2 ^ s * k = k * 2 ^ s := Nat.mul_comm _ _
  have hsmall : 2 ^ 52 * 10 ^ 6 ≤ k * 2 ^ s := by
    -- At the start of a place the unit below is half as large, but there the seconds are whole.
    rcases hunitsLow.eq_or_lt with hleast | hlt
    · have hsplit : (2 : Nat) ^ 52 = 2 ^ s * 2 ^ (52 - s) := by
        rw [← pow_add]
        congr 1
        omega
      rw [ReadsTo, ← hleast, hsplit, mul_assoc] at hk
      have hvalue := hk.eq_of_mul (Nat.two_pow_pos s)
      rw [hvalue, hsplit]
      exact (by ring : 2 ^ s * 2 ^ (52 - s) * 10 ^ 6 = 2 ^ (52 - s) * 10 ^ 6 * 2 ^ s).le
    · have := hk.high
      omega
  obtain ⟨hlow, hhigh⟩ := hk
  refine ⟨⟨hsmall, by omega⟩, ?_⟩
  exact halfEven_eq_of_near (by omega) (by omega)

theorem ofInt_divNat (ha : n.natAbs < 2 ^ 53) :
    (ofInt n).divNat 1000 = ofRatio (decide (n < 0)) n.natAbs 1000 := by
  have hexact := represents_ofRatio (decide (n < 0)) (t := 0) ha (by decide)
  have hquotient := hexact.divNat (k := 1000) (by decide) (by decide)
  rw [pow_zero, one_mul] at hquotient
  exact hquotient

theorem InSecondPlace.ofInt_divNat (h : InSecondPlace n.natAbs s) (ha : n.natAbs < 2 ^ 53) :
    (ofInt n).divNat 1000 = ofUnits (decide (n < 0)) (secondUnits n.natAbs s) s := by
  have hs := h.le_sixtyTwo
  rw [Binary64.ofInt_divNat ha, h.ofRatio_eq (by omega)]
  rfl

/-! ## A thousandfold of seconds -/

theorem truncate?_ofRatio {b j p : Nat} (hlow : 2 ^ 52 * 2 ^ b ≤ p) (hhigh : p < 2 ^ 53 * 2 ^ b)
    (hj : j ≤ 1074) : (ofRatio negative p (2 ^ (b + j))).truncate? =
      some (withSign negative (halfEven p (2 ^ b) / 2 ^ j)) := by
  have hpos : 0 < 2 ^ j := Nat.two_pow_pos j
  have hplace : InPlace p (2 ^ (b + j)) j := by
    rw [pow_add]
    refine ⟨?_, ?_⟩
    · rw [← mul_assoc]
      exact Nat.mul_le_mul_right _ hlow
    · rw [← mul_assoc]
      exact Nat.mul_lt_mul_of_pos_right hhigh hpos
  rw [hplace.ofRatio_eq hj, (represents_ofUnits _ _ _).truncate? hpos, pow_add,
    halfEven_mul_right hpos]

/-- A unit is lost if the seconds are rounded down and their thousandfold is then short by more than
half a unit of its own. That takes the smaller one of the two units that it can have. -/
def LosesUnit (a s : Nat) : Prop :=
  a * 2 ^ s < 2 ^ 62 ∧ 256 < a * 2 ^ s % 1000 ∧ a * 2 ^ s % 1000 < 500

instance (a s : Nat) : Decidable (LosesUnit a s) := inferInstanceAs (Decidable (_ ∧ _ ∧ _))

theorem secondUnits_of_lt (h : a * 2 ^ s % 1000 < 500) :
    secondUnits a s * 1000 + a * 2 ^ s % 1000 = a * 2 ^ s := by
  unfold secondUnits
  generalize a * 2 ^ s = n at h ⊢
  have hunits : halfEven n 1000 = n / 1000 := halfEven_eq_of_near (by omega) (by omega)
  omega

theorem secondUnits_of_gt (h : 500 < a * 2 ^ s % 1000) :
    secondUnits a s * 1000 + a * 2 ^ s % 1000 = a * 2 ^ s + 1000 := by
  unfold secondUnits
  generalize a * 2 ^ s = n at h ⊢
  have hsplit : 1000 * (n / 1000) + n % 1000 = n := Nat.div_add_mod n 1000
  have hunits : halfEven n 1000 = n / 1000 + 1 :=
    halfEven_eq_of_near (by linarith) (by omega)
  rw [hunits]
  linarith

/-- The thousandfold in the smaller unit, in which the number of milliseconds has an even number of
units. A thousandfold half a unit below it is rounded up to it. -/
theorem halfEven_thousandfold {u : Nat} (hu : a * 2 ^ s = 2 ^ 9 * u) (heven : u % 2 = 0) :
    (256 < a * 2 ^ s % 1000 ∧ a * 2 ^ s % 1000 < 500 →
      halfEven (secondUnits a s * 1000) (2 ^ 9) = u - 1) ∧
    (¬ (256 < a * 2 ^ s % 1000 ∧ a * 2 ^ s % 1000 < 500) →
      u ≤ halfEven (secondUnits a s * 1000) (2 ^ 9) ∧
        halfEven (secondUnits a s * 1000) (2 ^ 9) ≤ u + 1) := by
  refine ⟨fun ⟨hdown, hhalf⟩ => ?_, fun hkeeps => ?_⟩
  · have hsum := secondUnits_of_lt hhalf
    exact halfEven_eq_of_near (by omega) (by omega)
  · rcases Nat.lt_or_ge (a * 2 ^ s % 1000) 500 with hhalf | hhalf
    · have hsum := secondUnits_of_lt hhalf
      have hle : halfEven (secondUnits a s * 1000) (2 ^ 9) < u + 2 := halfEven_lt_of_lt (by omega)
      exact ⟨le_halfEven_of_even (by decide) heven (by omega), by omega⟩
    · have hsum := secondUnits_of_gt (a := a) (s := s) (by omega)
      have hle : halfEven (secondUnits a s * 1000) (2 ^ 9) < u + 2 := halfEven_lt_of_lt (by omega)
      exact ⟨le_halfEven_of_lt (by decide) (by omega), by omega⟩

/-- So many of the smaller units are the number of milliseconds, or the one before it. -/
theorem div_thousandfold {j : Nat} (ha : 0 < a) (hunits : secondUnits a (9 + (j + 1)) * 1000 < 2 ^ 62) :
    halfEven (secondUnits a (9 + (j + 1)) * 1000) (2 ^ 9) / 2 ^ (j + 1) =
      if LosesUnit a (9 + (j + 1)) then a - 1 else a := by
  have hu : a * 2 ^ (9 + (j + 1)) = 2 ^ 9 * (a * 2 ^ (j + 1)) := by ring
  have heven : a * 2 ^ (j + 1) % 2 = 0 := by
    rw [pow_succ, ← mul_assoc]
    omega
  have hunit : 2 ≤ 2 ^ (j + 1) := by
    have := Nat.two_pow_pos j
    omega
  have hpred : (a - 1) * 2 ^ (j + 1) + 2 ^ (j + 1) = a * 2 ^ (j + 1) := by
    rw [← Nat.succ_mul]
    congr 1
    omega
  have hsucc : (a + 1) * 2 ^ (j + 1) = a * 2 ^ (j + 1) + 2 ^ (j + 1) := Nat.succ_mul _ _
  obtain ⟨hlost, hkept⟩ := halfEven_thousandfold hu heven
  by_cases hloses : 256 < a * 2 ^ (9 + (j + 1)) % 1000 ∧ a * 2 ^ (9 + (j + 1)) % 1000 < 500
  · have hsmall : a * 2 ^ (9 + (j + 1)) < 2 ^ 62 := by
      have hsum := secondUnits_of_lt hloses.2
      omega
    rw [if_pos ⟨hsmall, hloses⟩, hlost hloses]
    have hsplit : a - 1 + 1 = a := by omega
    exact Nat.div_eq_of_lt_le (by omega) (by rw [hsplit]; omega)
  · obtain ⟨hlow, hhigh⟩ := hkept hloses
    rw [if_neg fun h => hloses h.2]
    exact Nat.div_eq_of_lt_le hlow (by omega)

theorem InSecondPlace.truncate?_thousandfold (h : InSecondPlace a s) (negative : Bool) :
    (ofRatio negative (secondUnits a s * 1000) (2 ^ s)).truncate? =
      some (withSign negative (if LosesUnit a s then a - 1 else a)) := by
  obtain ⟨hunitsLow, hunitsHigh⟩ := h.secondUnits_bounds
  have hlimit := h.le_sixtyTwo
  have hfifteen := h.fifteen_le
  have ha : 0 < a := by
    have := h.low
    exact Nat.pos_of_mul_pos_right (by omega : 0 < a * 2 ^ s)
  by_cases hsmall : secondUnits a s * 1000 < 2 ^ 62
  · obtain ⟨j, rfl⟩ : ∃ j, s = 9 + (j + 1) := ⟨s - 10, by omega⟩
    rw [truncate?_ofRatio (by omega) (by omega) (by omega), div_thousandfold ha hsmall]
  · obtain ⟨j, rfl⟩ : ∃ j, s = 10 + j := ⟨s - 10, by omega⟩
    have hunits : IsNearest (a * 2 ^ (10 + j)) 1000 (secondUnits a (10 + j)) :=
      isNearest_halfEven (by decide) _
    have hlow := hunits.low
    have hhigh := hunits.high
    have hu : a * 2 ^ (10 + j) = 2 ^ 10 * (a * 2 ^ j) := by ring
    have hkept : ¬ LosesUnit a (10 + j) := by
      rintro ⟨hbelow, -, hhalf⟩
      have hsum := secondUnits_of_lt hhalf
      omega
    have hexact : halfEven (secondUnits a (10 + j) * 1000) (2 ^ 10) = a * 2 ^ j :=
      halfEven_eq_of_near (by omega) (by omega)
    rw [truncate?_ofRatio (by omega) (by omega) (by omega), if_neg hkept, hexact,
      Nat.mul_div_cancel _ (Nat.two_pow_pos j)]

end GatewayLedger.Binary64
