import GatewayLedger.Proofs.Ledger.Distribution
import GatewayLedger.Proofs.Ledger.Index
import Mathlib.Algebra.BigOperators.Group.List.Basic

/-!
# Exact percentages

The percentage of a status is the exact quotient rounded once, a half up, although it is rounded to 28
digits on the way: below 100 percent at least 24 of these stand behind the two places that are kept,
so no part of a whole below `10 ^ 24` comes near enough to a half. The percentages of all statuses add
up to 100 but for what seven roundings can amount to.
-/

namespace GatewayLedger

/-- A decimal of two places next to a number, and the upper one of two that are equally near. -/
structure Decimal.IsHalfUp (d : Decimal) (x : ℚ) : Prop where
  exponent : d.exponent = -2
  low : d.toRat - 1 / 200 ≤ x
  high : x < d.toRat + 1 / 200

namespace Distribution

open Rounding

variable {count total : Nat} {records : List Record}

/-! ## One status -/

theorem percentage_eq (h : count ≤ total) (htotal : 0 < total) (hlt : total < 10 ^ 24) :
    percentage count total = .ok ⟨false, halfUp (10000 * count) total, -2⟩ := by
  obtain ⟨places, hplaces, hpercentage⟩ := exists_percentage_eq htotal h
  rw [hpercentage]
  congr 2
  have hunit : 0 < 10 ^ places := Nat.pow_pos (by decide)
  by_cases hpart : count < total
  · have hmany := hplaces hpart
    have hlarge : total < 10 ^ places := hlt.trans_le (Nat.pow_le_pow_right (by decide) hmany)
    have heven : 10 ^ places % 2 = 0 := by
      obtain ⟨k, rfl⟩ : ∃ k, places = k + 1 := ⟨places - 1, by omega⟩
      rw [Nat.pow_succ]
      omega
    exact halfUp_halfEven htotal hlarge heven _
  · -- the whole is a whole number of percent and is not rounded at all
    obtain rfl : count = total := by omega
    have hwhole : 10000 * count * 10 ^ places = count * (10 ^ places * 10000) := by ring
    rw [hwhole, halfEven_mul_left htotal, halfUp_mul_left hunit, Nat.mul_comm 10000 count,
      halfUp_mul_left htotal]

theorem toRat_hundredths (n : Nat) : (⟨false, n, -2⟩ : Decimal).toRat = n / 100 := by
  rw [Decimal.toRat_eq]
  norm_num [Decimal.signed]
  ring

theorem isHalfUp_halfUp (count : Nat) (htotal : 0 < total) :
    (⟨false, halfUp (10000 * count) total, -2⟩ : Decimal).IsHalfUp (100 * count / total) := by
  obtain ⟨hlow, hhigh⟩ := (halfUp_eq_iff htotal).mp (rfl : halfUp (10000 * count) total = _)
  have hpos : (0 : ℚ) < total := by exact_mod_cast htotal
  generalize halfUp (10000 * count) total = m at hlow hhigh ⊢
  have hlow' : (2 * (total * m) : ℚ) ≤ 2 * (10000 * count) + total := by exact_mod_cast hlow
  have hhigh' : (2 * (10000 * count) : ℚ) < 2 * (total * m) + total := by exact_mod_cast hhigh
  refine ⟨rfl, ?_, ?_⟩
  · rw [toRat_hundredths, le_div_iff₀ hpos]
    linarith
  · rw [toRat_hundredths, div_lt_iff₀ hpos]
    linarith

theorem toRat_halfUp_le (h : count ≤ total) (htotal : 0 < total) :
    (⟨false, halfUp (10000 * count) total, -2⟩ : Decimal).toRat ≤ 100 := by
  have hle : halfUp (10000 * count) total ≤ 10000 :=
    halfUp_le_of_le_mul htotal (Nat.mul_le_mul_left _ h)
  have hle' : (halfUp (10000 * count) total : ℚ) ≤ 10000 := by exact_mod_cast hle
  rw [toRat_hundredths]
  linarith

/-! ## All statuses -/

theorem count_all (s : Status) : Status.all.count s = 1 := by
  cases s <;> decide

/-- Every record is counted at one status. -/
theorem sum_countWith (records : List Record) :
    (Status.all.map fun s => countWith s records).sum = records.length := by
  induction records with
  | nil => decide
  | cons r records ih =>
    have hstep : ∀ s, countWith s (r :: records) =
        countWith s records + if r.status == s then 1 else 0 := fun s => List.countP_cons
    have hone : (Status.all.map fun s => if r.status == s then 1 else 0).sum = 1 := by
      cases r.status <;> decide
    simp only [hstep, List.sum_map_add, ih, hone, List.length_cons]

/-- Numbers that are each near to another one have a sum near to that of the others. -/
theorem abs_sum_sub_sum_le {α : Type} {f g : α → ℚ} {bound : ℚ} {items : List α}
    (h : ∀ a ∈ items, |f a - g a| ≤ bound) :
    |(items.map f).sum - (items.map g).sum| ≤ items.length * bound := by
  induction items with
  | nil => simp
  | cons a items ih =>
    have ha := h a List.mem_cons_self
    have hitems := ih fun x hx => h x (List.mem_cons_of_mem a hx)
    have hsplit : ((a :: items).map f).sum - ((a :: items).map g).sum =
        (f a - g a) + ((items.map f).sum - (items.map g).sum) := by
      rw [List.map_cons, List.map_cons, List.sum_cons, List.sum_cons]
      ring
    have habs := abs_add_le (f a - g a) ((items.map f).sum - (items.map g).sum)
    rw [hsplit, List.length_cons]
    push_cast
    linarith

/-- The share of a status, with the exact quotient rounded in one step. -/
def exactShare (records : List Record) (s : Status) : Share where
  status := s
  count := countWith s records
  percentage :=
    if records = [] then Decimal.zero
    else ⟨false, halfUp (10000 * countWith s records) records.length, -2⟩

theorem countWith_le (s : Status) (records : List Record) : countWith s records ≤ records.length :=
  List.countP_le_length

theorem ofRecords_eq (h : records.length < 10 ^ 24) :
    ofRecords records = .ok ⟨records.length, Status.all.map (exactShare records)⟩ := by
  have hshare : ∀ s, (do
      let part ← percentage (countWith s records) records.length
      .ok (⟨s, countWith s records, part⟩ : Share)) =
        (pure (exactShare records s) : Except Fault Share) := by
    intro s
    by_cases hnil : records = []
    · subst hnil
      rfl
    · rw [percentage_eq (countWith_le s records) (List.length_pos_iff.mpr hnil) h, exactShare,
        if_neg hnil]
      rfl
  simp only [ofRecords, hshare, List.mapM_pure]
  rfl

/-- A share that says exactly how many records have its status. -/
structure IsExact (records : List Record) (share : Share) : Prop where
  count_eq : share.count = (records.filter fun r => r.status = share.status).length
  percentage_of_nil : records = [] → share.percentage = Decimal.zero
  isHalfUp : records ≠ [] → share.percentage.IsHalfUp (100 * share.count / records.length)
  nonneg : 0 ≤ share.percentage.toRat
  le_hundred : share.percentage.toRat ≤ 100

theorem isExact_exactShare (records : List Record) (s : Status) :
    IsExact records (exactShare records s) := by
  have hcount : countWith s records = (records.filter fun r => r.status = s).length := by
    rw [countWith, List.countP_eq_length_filter]
    congr
  unfold exactShare
  split
  · next hnil =>
    exact ⟨hcount, fun _ => rfl, fun hne => absurd hnil hne, by rw [Decimal.toRat_zero],
      by rw [Decimal.toRat_zero]; norm_num⟩
  · next hne =>
    have htotal := List.length_pos_iff.mpr hne
    refine ⟨hcount, fun hnil => absurd hnil hne, fun _ => isHalfUp_halfUp _ htotal, ?_,
      toRat_halfUp_le (countWith_le s records) htotal⟩
    rw [toRat_hundredths]
    exact div_nonneg (Nat.cast_nonneg _) (by norm_num)

theorem abs_sum_percentages_sub_le (hne : records ≠ []) :
    |(Status.all.map fun s => (exactShare records s).percentage.toRat).sum - 100| ≤ 35 / 1000 := by
  have htotal : (0 : ℚ) < records.length := by exact_mod_cast List.length_pos_iff.mpr hne
  have hnear : ∀ s ∈ Status.all, |(exactShare records s).percentage.toRat -
      100 * countWith s records / records.length| ≤ 1 / 200 := by
    intro s _
    have hcount : (exactShare records s).count = countWith s records := rfl
    obtain ⟨_, hlow, hhigh⟩ := (isExact_exactShare records s).isHalfUp hne
    rw [hcount] at hlow hhigh
    rw [abs_le]
    constructor <;> linarith
  have hwhole : (Status.all.map fun s => (100 * countWith s records / records.length : ℚ)).sum =
      100 := by
    have hcast : ((Status.all.map fun s => countWith s records).sum : ℚ) = records.length := by
      exact_mod_cast sum_countWith records
    have hterms : (Status.all.map fun s => (100 * countWith s records / records.length : ℚ)).sum =
        100 / records.length * ((Status.all.map fun s => countWith s records).sum : ℚ) := by
      simp only [Status.all, List.map_cons, List.map_nil, List.sum_cons, List.sum_nil]
      push_cast
      ring
    rw [hterms, hcast, div_mul_cancel₀ _ htotal.ne']
  have hsum := abs_sum_sub_sum_le hnear
  rw [hwhole] at hsum
  refine hsum.trans_eq ?_
  norm_num [Status.all]

/-- Every status has one share, with the number of its records and the percentage that comes of
rounding the exact quotient once. -/
theorem shares_are_exact (h : records.length < 10 ^ 24) :
    ∃ d, ofRecords records = .ok d ∧ d.total = records.length ∧
      (∀ s, (d.shares.map (·.status)).count s = 1) ∧ (d.shares.map (·.count)).sum = d.total ∧
      (∀ share ∈ d.shares, IsExact records share) ∧
      (records ≠ [] → |(d.shares.map (·.percentage.toRat)).sum - 100| ≤ 35 / 1000) := by
  have hmap : ∀ {α : Type} (f : Share → α), (Status.all.map (exactShare records)).map f =
      Status.all.map fun s => f (exactShare records s) := fun f => List.map_map
  refine ⟨_, ofRecords_eq h, rfl, ?_, ?_, ?_, ?_⟩
  · intro s
    rw [hmap]
    exact (congrArg (List.count s) (List.map_id Status.all)).trans (count_all s)
  · rw [hmap]
    exact sum_countWith records
  · intro share hshare
    obtain ⟨s, _, rfl⟩ := List.mem_map.mp hshare
    exact isExact_exactShare records s
  · intro hne
    rw [hmap]
    exact abs_sum_percentages_sub_le hne

/-- One pending and two completed records are 33.33 and 66.67 percent of all. -/
theorem shares_of_three_are_exact :
    let time : Moment := ⟨0, some 0, by decide⟩
    let completed := Ledger.sampleRecord "a" .deposit "BTC" time
    let records := [completed, { completed with status := .pending }, completed]
    ∃ d, ofRecords records = .ok d ∧ d.total = 3 ∧ d.percentageOf .pending = ⟨false, 3333, -2⟩ ∧
      d.percentageOf .completed = ⟨false, 6667, -2⟩ ∧
      |(d.shares.map (·.percentage.toRat)).sum - 100| ≤ 35 / 1000 := by
  intro time completed records
  have hfew : records.length < 10 ^ 24 := by decide
  obtain ⟨d, hd, htotal, _, _, _, hsum⟩ := shares_are_exact hfew
  have heq : d = ⟨3, Status.all.map (exactShare records)⟩ :=
    Except.ok.inj (hd.symm.trans (ofRecords_eq hfew))
  refine ⟨d, hd, htotal, ?_, ?_, hsum (by simp [records])⟩
  · rw [heq]
    decide
  · rw [heq]
    decide

end Distribution

end GatewayLedger
