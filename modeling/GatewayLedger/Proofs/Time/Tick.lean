import GatewayLedger.Proofs.Number.Scaled
import GatewayLedger.Time.Tick

/-!
# Rounding to the ticks of the format

A number of ticks is rounded to 53 binary digits, and to infinity from the end of the format on. What
has no more digits stays as it is.
-/

namespace GatewayLedger.Tick

open Rounding Binary64

variable {n k m d : Nat}

/-! ## The closed form of rounding -/

/-- The distance of the numbers of the format that are as large as a number of ticks. -/
def unit (n : Nat) : Nat := 2 ^ (n.log2 - 52)

theorem unit_pos (n : Nat) : 0 < unit n := Nat.two_pow_pos _

theorem pow2_pos (d : Nat) : 0 < pow2 d := Nat.two_pow_pos d

theorem pow2_add (d j : Nat) : pow2 (d + j) = pow2 d * pow2 j := Nat.pow_add 2 d j

theorem pow2_le_pow2 {d j : Nat} (h : d ≤ j) : pow2 d ≤ pow2 j :=
  Nat.pow_le_pow_right (by decide) h

theorem leadingExponent_pow2 (hn : n ≠ 0) (d : Nat) :
    leadingExponent n (pow2 d) = (n.log2 : Int) - d := by
  have hlow : (2 : ℚ) ^ n.log2 ≤ n := by exact_mod_cast Nat.log2_self_le hn
  have hhigh : (n : ℚ) < 2 ^ (n.log2 + 1) := by exact_mod_cast Nat.lt_log2_self
  have hsplit (j : Nat) : (2 : ℚ) ^ ((j : Int) - d) = 2 ^ j / 2 ^ d := by
    rw [zpow_sub₀ (by norm_num), zpow_natCast, zpow_natCast]
  have hnext : (n.log2 : Int) - d + 1 = (n.log2 + 1 : Nat) - d := by
    push_cast
    ring
  rw [pow2_eq]
  apply leadingExponent_eq hn (Nat.two_pow_pos d)
  · rw [hsplit]
    push_cast
    exact div_le_div_of_nonneg_right hlow (by positivity)
  · rw [hnext, hsplit]
    push_cast
    exact div_lt_div_of_pos_right hhigh (by positivity)

/-- A number of parts of `2 ^ -d` in units of `2 ^ u` of them. -/
theorem unitsAt_pow2 (n d u : Nat) : unitsAt n (pow2 d) ((u : Int) - d) = halfEven n (pow2 u) := by
  unfold unitsAt
  by_cases h : 0 ≤ (u : Int) - d
  · obtain ⟨j, rfl⟩ : ∃ j, u = d + j := ⟨u - d, by omega⟩
    have hj : ((d + j : Nat) - d : Int).toNat = j := by omega
    rw [if_pos h, hj, pow2_add]
  · obtain ⟨j, rfl⟩ : ∃ j, d = u + j := ⟨d - u, by omega⟩
    have hj : (-((u : Int) - (u + j : Nat))).toNat = j := by omega
    rw [if_neg h, hj, pow2_add, halfEven_mul_right (pow2_pos j)]

/-- The place of the last digit of a number that is kept. -/
def shift (n : Nat) : Nat := n.log2 - 52

theorem place_perSecond (hn : n ≠ 0) : place n perSecond = (shift n : Int) - (1074 : Nat) := by
  have hleading : leadingExponent n perSecond = (n.log2 : Int) - (1074 : Nat) :=
    leadingExponent_pow2 hn 1074
  rw [place, hleading, shift]
  unfold minExponent
  omega

/-- The number of units that a number is rounded to. -/
def units (n : Nat) : Nat := halfEven n (pow2 (shift n))

theorem unitsAt_perSecond (hn : n ≠ 0) : unitsAt n perSecond (place n perSecond) = units n := by
  rw [place_perSecond hn]
  exact unitsAt_pow2 n 1074 _

theorem lt_pow2_shift (n : Nat) : n < pow2 (53 + shift n) :=
  Nat.lt_log2_self.trans_le (pow2_le_pow2 (by unfold shift; omega))

theorem units_le (n : Nat) : units n ≤ pow2 53 := by
  have hlt := lt_pow2_shift n
  rw [pow2_add] at hlt
  have hlow : 2 * n < (2 * pow2 53 + 1) * pow2 (shift n) := by
    rw [Nat.add_mul, Nat.mul_assoc]
    omega
  exact halfEven_le_of_le (pow2_pos _) hlow.le (.inr hlow)

/-- All 53 digits are needed as soon as a digit is dropped. -/
theorem le_units (h : 0 < shift n) : pow2 52 ≤ units n := by
  have hn : n ≠ 0 := by
    rintro rfl
    cases h
  have hlow : pow2 (52 + shift n) ≤ n := by
    have hlog : 52 + shift n = n.log2 := by
      unfold shift at h ⊢
      omega
    rw [hlog]
    exact Nat.log2_self_le hn
  rw [pow2_add] at hlow
  exact ((Nat.le_div_iff_mul_le (pow2_pos _)).mpr hlow).trans (le_halfEven _ _)

theorem ofSeconds_finite (m u : Nat) :
    ofSeconds (.finite false m ((u : Int) - (1074 : Nat))) = m * pow2 u := by
  have hu : ((u : Int) - (1074 : Nat) + 1074).toNat = u := by omega
  rw [ofSeconds, hu]

theorem never_le_pow2 {j : Nat} (h : 2098 ≤ j) : never ≤ pow2 j := pow2_le_pow2 h

theorem pow2_le_never {j : Nat} (h : j ≤ 2098) : pow2 j ≤ never := pow2_le_pow2 h

theorem units_mul_le (n : Nat) : units n * pow2 (shift n) ≤ pow2 (53 + shift n) := by
  rw [pow2_add]
  exact Nat.mul_le_mul_right _ (units_le n)

theorem le_units_mul (h : 0 < shift n) : pow2 (52 + shift n) ≤ units n * pow2 (shift n) := by
  rw [pow2_add]
  exact Nat.mul_le_mul_right _ (le_units h)

@[simp] theorem round_zero : round 0 = 0 := by
  rw [round, ofRatio, if_pos rfl, zero, ofSeconds, Nat.zero_mul]

theorem units_zero : units 0 = 0 := by decide

/-- Rounding to a multiple of the unit, up to infinity. -/
theorem round_eq (n : Nat) : round n = min never (units n * pow2 (shift n)) := by
  by_cases hn : n = 0
  · subst hn
    rw [round_zero, units_zero, Nat.zero_mul, Nat.min_zero]
  have hinfinite : ofSeconds (.infinite false) = never := by rw [ofSeconds]
  rw [round, ofRatio_of_ne_zero _ hn, unitsAt_perSecond hn, place_perSecond hn]
  by_cases hfull : units n = pow2 53
  · rw [if_pos hfull, hfull, ← pow2_add]
    by_cases hlarge : 2045 ≤ shift n
    · rw [if_pos (by unfold maxExponent; omega), hinfinite, min_eq_left (never_le_pow2 (by omega))]
    · have hnext : (shift n : Int) - (1074 : Nat) + 1 = (shift n + 1 : Nat) - (1074 : Nat) := by
        push_cast
        ring
      have hcarry : pow2 52 * pow2 (shift n + 1) = pow2 (53 + shift n) := by
        rw [← pow2_add]
        exact congrArg pow2 (by omega)
      rw [if_neg (by unfold maxExponent; omega), hnext, ofSeconds_finite, hcarry,
        min_eq_right (pow2_le_never (by omega))]
  · rw [if_neg hfull]
    by_cases hlarge : 2046 ≤ shift n
    · have hmany := (never_le_pow2 (by omega)).trans (le_units_mul (n := n) (by omega))
      rw [if_pos (by unfold maxExponent; omega), hinfinite, min_eq_left hmany]
    · have hfew := (units_mul_le n).trans (pow2_le_never (by omega))
      rw [if_neg (by unfold maxExponent; omega), ofSeconds_finite, min_eq_right hfew]

theorem round_le_never (n : Nat) : round n ≤ never := by
  rw [round_eq]
  exact min_le_left _ _

/-! ## What rounding does not change -/

/-- A number of ticks that the format has. -/
def IsExact (n : Nat) : Prop := round n = n

theorem units_mul_of_dvd (h : pow2 (shift n) ∣ n) : units n * pow2 (shift n) = n := by
  obtain ⟨m, hm⟩ := h
  have hunits : units n = m := by
    have hwhole : n * 1 = m * pow2 (shift n) := by rw [Nat.mul_one, Nat.mul_comm, ← hm]
    rw [units, halfEven_congr (pow2_pos _) Nat.one_pos hwhole, halfEven_one]
  rw [hunits, Nat.mul_comm, ← hm]

/-- Numbers of no more than 53 binary digits stay as they are. -/
theorem isExact_mul_pow2 (hm : m < pow2 53) (h : m * pow2 k ≤ never) : IsExact (m * pow2 k) := by
  have hshift : shift (m * pow2 k) ≤ k := by
    rcases Nat.eq_zero_or_pos (m * pow2 k) with hzero | hpos
    · rw [hzero]
      exact Nat.zero_le k
    · have hlt : m * pow2 k < 2 ^ (53 + k) := by
        rw [← pow2_eq, pow2_add]
        exact Nat.mul_lt_mul_of_pos_right hm (pow2_pos k)
      have hlog := (Nat.log2_lt hpos.ne').mpr hlt
      unfold shift
      omega
  have hdvd : pow2 (shift (m * pow2 k)) ∣ m * pow2 k :=
    (Nat.pow_dvd_pow 2 hshift).trans (Nat.dvd_mul_left _ _)
  rw [IsExact, round_eq, units_mul_of_dvd hdvd, min_eq_right h]

/-- So do whole numbers of seconds. -/
theorem isExact_seconds (h : n < pow2 53) : IsExact (n * perSecond) := by
  apply isExact_mul_pow2 h
  calc n * pow2 1074 ≤ pow2 53 * pow2 1074 := Nat.mul_le_mul_right _ h.le
    _ = pow2 (53 + 1074) := (pow2_add 53 1074).symm
    _ ≤ never := pow2_le_never (by decide)

theorem round_of_never_le (h : never ≤ n) : round n = never := by
  have hlog : 2098 ≤ n.log2 := by
    by_contra hlt
    have hsmall : n < pow2 2098 := Nat.lt_log2_self.trans_le (pow2_le_pow2 (by omega))
    exact absurd h (Nat.not_le.mpr hsmall)
  have hshift : 52 + shift n = n.log2 := by
    unfold shift
    omega
  rw [round_eq, min_eq_left]
  exact (never_le_pow2 (by omega)).trans (le_units_mul (by omega))

/-! ## Waiting -/

/-- A wait ends on time if that is a number of the format. -/
theorem after_of_isExact (h : IsExact (n + d)) : after n d = n + d := by
  rw [after, h, max_eq_right (Nat.le_add_right n d)]

theorem after_seconds (h : n + d < pow2 53) :
    after (n * perSecond) (d * perSecond) = (n + d) * perSecond := by
  have hexact := isExact_seconds h
  rw [Nat.add_mul] at hexact ⊢
  exact after_of_isExact hexact

theorem after_zero_seconds (h : d < pow2 53) : after 0 (d * perSecond) = d * perSecond := by
  have hexact := isExact_seconds h
  rw [← Nat.zero_add (d * perSecond)] at hexact
  rw [after_of_isExact hexact, Nat.zero_add]

theorem perSecond_pos : 0 < perSecond := pow2_pos 1074

theorem micros_seconds (n : Nat) : micros (n * perSecond) = n * 1000000 := by
  have hone : n * perSecond * 1000000 * 1 = n * 1000000 * perSecond := by ring
  rw [micros, halfEven_congr perSecond_pos Nat.one_pos hone, halfEven_one]

/-- A clock that sleeps to a number of the format gets there, if the difference is one as well. -/
theorem after_remaining (hn : n ≤ never) (hd : IsExact d) (h : IsExact (n + d)) :
    after n (remaining n (n + d)) = n + d := by
  rw [remaining]
  split
  · next hle =>
    obtain rfl : d = 0 := by omega
    exact after_of_isExact h
  · split
    · next hnever =>
      rw [after, round_of_never_le (Nat.le_add_left _ _), max_eq_right hn, hnever]
    · rw [Nat.add_sub_cancel_left, hd, after_of_isExact h]

end GatewayLedger.Tick
