import GatewayLedger.Ledger.Distribution
import GatewayLedger.Proofs.Number.HalfUp
import GatewayLedger.Proofs.Number.Addition
import GatewayLedger.Proofs.Outcome

/-!
# Percentages

A part of a whole is at most 100 percent, and so it is after each of the two roundings: the quotient
is rounded to 28 digits, of which five at most are left at two places. So every share has a percentage.
-/

namespace GatewayLedger

namespace Rounding

theorem halfEven_le_of_le_mul {num den bound : Nat} (hden : 0 < den) (h : num ≤ bound * den) :
    halfEven num den ≤ bound := by
  have hexpand : (2 * bound + 1) * den = 2 * (bound * den) + den := by ring
  exact halfEven_le_of_le hden (by omega) (.inr (by omega))

theorem halfUp_le_of_le_mul {n k bound : Nat} (hk : 0 < k) (h : n ≤ bound * k) :
    halfUp n k ≤ bound := by
  have hlt : 2 * n + k < (bound + 1) * (2 * k) := by
    have hexpand : (bound + 1) * (2 * k) = 2 * (bound * k) + 2 * k := by ring
    omega
  have hquotient := (Nat.div_lt_iff_lt_mul (by omega)).mpr hlt
  unfold halfUp
  omega

/-- Scaled by a power of ten, a quotient of at most 100 has at most three digits more. -/
theorem numDigits_scaled_le {num den : Nat} (shift : Nat) (hden : 0 < den) (h : num ≤ 100 * den) :
    numDigits (num * 10 ^ shift / den) ≤ shift + 3 := by
  have hpos : 0 < den * 10 ^ shift := Nat.mul_pos hden (Nat.pow_pos (by decide))
  have hpow : 10 ^ (shift + 3) * den = 1000 * (den * 10 ^ shift) := by ring
  have hle : num * 10 ^ shift ≤ 100 * den * 10 ^ shift := Nat.mul_le_mul_right _ h
  have hassoc : 100 * den * 10 ^ shift = 100 * (den * 10 ^ shift) := by ring
  rw [numDigits_le_iff (by omega), Nat.div_lt_iff_lt_mul hden]
  omega

end Rounding

namespace Decimal

open Rounding

/-- A quotient of at most 100 is rounded at some place behind the second one, and below 100 at the
26th place or behind it. -/
theorem exists_ofRatio_eq {num den : Nat} (hden : 0 < den) (hnum : num ≠ 0) (h : num ≤ 100 * den) :
    ∃ places : Nat, 0 < places ∧ (num < 100 * den → 24 ≤ places) ∧
      ofRatio num den = ⟨false, halfEven (100 * num * 10 ^ places) den, -2 - (places : Int)⟩ := by
  have hprecision : precision = 28 := rfl
  have hpos : ∀ k, 0 < 10 ^ k := fun k => Nat.pow_pos (by decide)
  generalize hshift : precision + 1 + Rounding.numDigits den = shift
  generalize hdrop : Rounding.numDigits (num * pow10 shift / den) - precision = drop
  have hle : drop + 25 ≤ shift := by
    have hdigits := numDigits_scaled_le shift hden h
    rw [pow10_eq] at hdrop
    omega
  have hlt : num < 100 * den → drop + 26 ≤ shift := by
    intro hless
    have hscaled : num * 10 ^ shift < 10 ^ (shift + 2) * den :=
      calc num * 10 ^ shift < 100 * den * 10 ^ shift := Nat.mul_lt_mul_of_pos_right hless (hpos _)
        _ = 10 ^ (shift + 2) * den := by ring
    have hdigits : Rounding.numDigits (num * 10 ^ shift / den) ≤ shift + 2 := by
      rw [numDigits_le_iff (by omega), Nat.div_lt_iff_lt_mul hden]
      exact hscaled
    rw [pow10_eq] at hdrop
    omega
  refine ⟨shift - drop - 2, by omega, fun hless => by have := hlt hless; omega, ?_⟩
  have hsplit : num * 10 ^ shift = 100 * num * 10 ^ (shift - drop - 2) * 10 ^ drop := by
    have hplaces : shift = shift - drop - 2 + drop + 2 := by omega
    conv_lhs => rw [hplaces, Nat.pow_add, Nat.pow_add]
    ring
  have hexponent : (drop : Int) - shift = -2 - ((shift - drop - 2 : Nat) : Int) := by omega
  rw [ofRatio, if_neg hnum]
  simp only [hshift, hdrop, hexponent]
  rw [pow10_eq, pow10_eq, hsplit, halfEven_mul_right (hpos drop)]

/-- A decimal of at most 100 is brought to two places by rounding a half up, also where all its digits
lie behind them. -/
theorem rescale_up_eq {c places : Nat} (hplaces : 0 < places) (h : c ≤ 10 ^ (places + 4)) :
    (⟨false, c, -2 - (places : Int)⟩ : Decimal).rescale (-2) .up =
      .ok ⟨false, halfUp c (10 ^ places), -2⟩ := by
  have hunit : 0 < 10 ^ places := Nat.pow_pos (by decide)
  by_cases hzero : c = 0
  · have hup : halfUp 0 (10 ^ places) = 0 := by simpa using halfUp_mul_left hunit 0
    rw [hzero, hup]
    rfl
  have hshift : (-2 - (-2 - (places : Int))).toNat = places := by omega
  have hselect : (if Rounding.numDigits c < places then 0 else halfUp c (10 ^ places)) =
      halfUp c (10 ^ places) := by
    split
    · next hlt =>
      have hdigits := lt_pow_numDigits c
      have hpower : 10 ^ (Rounding.numDigits c + 1) ≤ 10 ^ places :=
        Nat.pow_le_pow_right (by decide) hlt
      rw [Nat.pow_succ] at hpower
      exact ((halfUp_eq_iff hunit).mpr ⟨by omega, by omega⟩).symm
    · rfl
  have hup : halfUp c (10 ^ places) ≤ 10 ^ 4 := by
    apply halfUp_le_of_le_mul hunit
    rw [← Nat.pow_add, Nat.add_comm]
    exact h
  have hdigits : ¬ precision < Rounding.numDigits (halfUp c (10 ^ places)) := by
    have hfive : Rounding.numDigits (halfUp c (10 ^ places)) ≤ 5 := by
      rw [numDigits_le_iff (by decide)]
      omega
    unfold precision
    omega
  have hbelow : ¬ (-2 : Int) ≤ -2 - (places : Int) := by omega
  have hnumDigits : (⟨false, c, -2 - (places : Int)⟩ : Decimal).numDigits =
      Rounding.numDigits c := rfl
  unfold rescale
  rw [if_neg (by simpa [isZero] using hzero), if_neg hbelow]
  dsimp only
  rw [hshift, pow10_eq, hnumDigits, hselect, if_neg hdigits]

end Decimal

namespace Distribution

open Rounding

/-- A percentage is rounded to some number of places behind the two that are kept. -/
theorem exists_percentage_eq {count total : Nat} (htotal : 0 < total) (h : count ≤ total) :
    ∃ places, (count < total → 24 ≤ places) ∧ percentage count total =
      .ok ⟨false, halfUp (halfEven (10000 * count * 10 ^ places) total) (10 ^ places), -2⟩ := by
  have hunit : ∀ k, 0 < 10 ^ k := fun k => Nat.pow_pos (by decide)
  unfold percentage
  rw [if_neg htotal.ne']
  by_cases hcount : count = 0
  · have heven : halfEven 0 total = 0 := by simpa using halfEven_mul_left htotal 0
    have hup : halfUp 0 (10 ^ 24) = 0 := by simpa using halfUp_mul_left (hunit 24) 0
    refine ⟨24, fun _ => Nat.le_refl 24, ?_⟩
    rw [hcount, Nat.mul_zero, Nat.zero_mul, heven, hup]
    rfl
  · have hnum : 100 * count ≤ 100 * total := Nat.mul_le_mul_left 100 h
    obtain ⟨places, hplaces, hsmall, hratio⟩ :=
      Decimal.exists_ofRatio_eq htotal (show 100 * count ≠ 0 by omega) hnum
    have hscale : 100 * (100 * count) = 10000 * count := by ring
    have hbound : halfEven (10000 * count * 10 ^ places) total ≤ 10 ^ (places + 4) := by
      apply halfEven_le_of_le_mul htotal
      calc 10000 * count * 10 ^ places ≤ 10000 * total * 10 ^ places :=
            Nat.mul_le_mul_right _ (Nat.mul_le_mul_left _ h)
        _ = 10 ^ (places + 4) * total := by ring
    refine ⟨places, fun hlt => hsmall (by omega), ?_⟩
    rw [hratio, hscale, Decimal.rescale_up_eq hplaces hbound]
    rfl

theorem exists_percentage {count total : Nat} (h : count ≤ total) :
    ∃ d, percentage count total = .ok d := by
  rcases Nat.eq_zero_or_pos total with rfl | htotal
  · exact ⟨_, rfl⟩
  · obtain ⟨places, _, hpercentage⟩ := exists_percentage_eq htotal h
    exact ⟨_, hpercentage⟩

/-- Every list of records has a distribution. -/
theorem exists_ofRecords (records : List Record) : ∃ d, ofRecords records = .ok d := by
  have hshare : ∀ s ∈ Status.all, ∃ share : Share, (do
      let part ← percentage (countWith s records) records.length
      .ok (⟨s, countWith s records, part⟩ : Share)) = Except.ok share ∧ share.status = s := by
    intro s _
    have hcount : countWith s records ≤ records.length := List.countP_le_length
    obtain ⟨part, hpart⟩ := exists_percentage hcount
    exact ⟨_, by rw [hpart]; rfl, rfl⟩
  obtain ⟨shares, hshares, -⟩ := exists_mapM hshare
  exact ⟨⟨records.length, shares⟩, by simp only [ofRecords, hshares]; rfl⟩

end Distribution

end GatewayLedger
