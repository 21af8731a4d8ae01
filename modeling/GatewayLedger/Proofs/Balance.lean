import GatewayLedger.Balance
import GatewayLedger.Proofs.Json
import GatewayLedger.Proofs.Number.Addition
import GatewayLedger.Proofs.Value.Rows

/-!
# Balances of a payload

An amount that was read from a value is far below the largest exponent, so the free and the locked
part of a balance always have a sum. Hence there are balances for any payload whatever, one for each
entry that names an asset. A total that the entry leaves out is the sum rounded once, which is the sum
itself as long as 28 digits are enough for it.
-/

namespace GatewayLedger

theorem exists_addAmounts {a b : Decimal} (ha : Amount.isAdmitted a = true)
    (hb : Amount.isAdmitted b = true) : ∃ r, addAmounts a b = .ok r := by
  simp only [Amount.isAdmitted, decide_eq_true_eq] at ha hb
  obtain ⟨r, hr⟩ := Decimal.exists_add ha hb (by decide) (by decide)
  exact ⟨r, by rw [addAmounts, hr]; rfl⟩

theorem isRounding_of_addAmounts {a b r : Decimal} (h : addAmounts a b = .ok r) :
    Decimal.IsRounding (a.toRat + b.toRat) r.toRat := by
  unfold addAmounts at h
  cases hadd : a.add b with
  | ok d =>
    rw [hadd] at h
    obtain rfl : d = r := Except.ok.inj h
    exact Decimal.isRounding_of_add hadd
  | error fault =>
    rw [hadd] at h
    cases h

namespace Balance

open Value

/-- The balance that an entry of a payload comes to. -/
structure IsOf (row : Fields) (b : Balance) : Prop where
  asset : b.asset = (field row "asset").display
  free : b.free = Amount.ofValue (field row "free")
  locked : b.locked = Amount.ofValue (field row "locked")
  total_given : ¬ row.Lacks "total" → b.total = Amount.ofValue (field row "total")
  total_rounded : row.Lacks "total" →
    Decimal.IsRounding (b.free.toRat + b.locked.toRat) b.total.toRat
  total_exact : row.Lacks "total" → Decimal.Fits (b.free.toRat + b.locked.toRat) →
    b.total.toRat = b.free.toRat + b.locked.toRat

/-- The balances of a list of items: one for each object whose asset is not void. -/
inductive AreOf : List Value → List Balance → Prop
  | nil : AreOf [] []
  | entry {row : Fields} {items : List Value} {b : Balance} {balances : List Balance}
      (hasset : ¬ (field row "asset").IsVoid) (hb : IsOf row b) (hrest : AreOf items balances) :
      AreOf (.object row :: items) (b :: balances)
  | unnamed {row : Fields} {items : List Value} {balances : List Balance}
      (hasset : (field row "asset").IsVoid) (hrest : AreOf items balances) :
      AreOf (.object row :: items) balances
  | other {v : Value} {items : List Value} {balances : List Balance}
      (hv : ∀ row, v ≠ .object row) (hrest : AreOf items balances) : AreOf (v :: items) balances

theorem totalOf_of_given {row : Fields} {free locked : Decimal} (h : ¬ row.Lacks "total") :
    totalOf row free locked = .ok (Amount.ofValue (field row "total")) := by
  unfold Fields.Lacks at h
  push Not at h
  obtain ⟨v, hv, hne⟩ := h
  rw [totalOf, field_of_get? hv]
  cases v with
  | null => exact absurd rfl hne
  | _ => rfl

theorem totalOf_of_lacks {row : Fields} {free locked : Decimal} (h : row.Lacks "total") :
    totalOf row free locked = addAmounts free locked := by
  rw [totalOf, field_of_lacks h]

theorem exists_totalOf (row : Fields) {free locked : Decimal}
    (hf : Amount.isAdmitted free = true) (hl : Amount.isAdmitted locked = true) :
    ∃ total, totalOf row free locked = .ok total := by
  unfold totalOf
  split
  · exact exists_addAmounts hf hl
  · exact ⟨_, rfl⟩

theorem isOf_of_ofRow {row : Fields} {b : Balance} (h : ofRow row = .ok b) : IsOf row b := by
  obtain ⟨total, ht, h⟩ := exists_of_bind_eq_ok h
  obtain rfl := Except.ok.inj h
  have hrounded (hlacks : row.Lacks "total") := isRounding_of_addAmounts (totalOf_of_lacks hlacks ▸ ht)
  refine ⟨rfl, rfl, rfl, ?_, hrounded, ?_⟩
  · intro hgiven
    rw [totalOf_of_given hgiven] at ht
    exact (Except.ok.inj ht).symm
  · intro hlacks hfits
    exact (hrounded hlacks).eq_of_fits hfits

theorem exists_ofRow (row : Fields) : ∃ b, ofRow row = .ok b := by
  obtain ⟨total, ht⟩ := exists_totalOf row (Amount.isAdmitted_ofValue (field row "free"))
    (Amount.isAdmitted_ofValue (field row "locked"))
  exact ⟨_, by rw [ofRow, ht]; rfl⟩

/-- Induction over the items, with one case for each of the items that the balances pass over. -/
theorem exists_balances_of_items (items : List Value) :
    ∃ balances, ((items.filterMap fields?).filter fun row => (field row "asset").isGiven).mapM ofRow =
      .ok balances ∧ AreOf items balances := by
  induction items with
  | nil => exact ⟨[], rfl, .nil⟩
  | cons v items ih =>
    obtain ⟨balances, hrest, hof⟩ := ih
    cases v with
    | object row =>
      have hfields : fields? (.object row) = some row := rfl
      rw [List.filterMap_cons_some hfields]
      cases hgiven : (field row "asset").isGiven with
      | true =>
        obtain ⟨b, hb⟩ := exists_ofRow row
        refine ⟨b :: balances, ?_, .entry ?_ (isOf_of_ofRow hb) hof⟩
        · rw [List.filter_cons_of_pos (by exact hgiven), List.mapM_cons, hb, hrest]
          rfl
        · rw [← isGiven_eq_false_iff, hgiven]
          decide
      | false =>
        refine ⟨balances, ?_, .unnamed (isGiven_eq_false_iff.mp hgiven) hof⟩
        rw [List.filter_cons_of_neg (by simp [hgiven]), hrest]
    | _ => exact ⟨balances, hrest, .other (fun _ h => by cases h) hof⟩

/-- The balances that are not zero, in their order. -/
theorem nonZero_eq (balances : List Balance) :
    nonZero balances = balances.filter fun b => b.free.toRat ≠ 0 ∨ b.locked.toRat ≠ 0 := by
  refine List.filter_congr fun b _ => ?_
  rw [Bool.eq_iff_iff, decide_eq_true_eq, Ne, Ne, Decimal.toRat_eq_zero_iff, Decimal.toRat_eq_zero_iff,
    isZero]
  cases b.free.isZero <;> cases b.locked.isZero <;> decide

/-- Any payload has balances, which are those of the items that it holds. -/
theorem exists_ofPayload (payload : Value) :
    ∃ balances, ofPayload payload = .ok balances ∧
      (∀ items, payload.Holds "balances" items → AreOf items balances) ∧
      ((∀ items, ¬ payload.Holds "balances" items) → balances = []) := by
  by_cases hitems : ∃ items, payload.Holds "balances" items
  · obtain ⟨items, hitems⟩ := hitems
    obtain ⟨balances, hbalances, hof⟩ := exists_balances_of_items items
    refine ⟨balances, ?_, ?_, fun hnone => absurd hitems (hnone items)⟩
    · rw [ofPayload, hitems.rowsUnder_eq, hbalances]
    · intro other hother
      rwa [hother.unique hitems]
  · push Not at hitems
    refine ⟨[], ?_, fun items h => absurd h (hitems items), fun _ => rfl⟩
    rw [ofPayload, rowsUnder_of_no_items hitems]
    rfl

/-- What an account holds, and which of it is not zero. -/
theorem balances_of_payload (payload : Value) :
    (∃ balances, ofPayload payload = .ok balances ∧
      (∀ items, payload.Holds "balances" items → AreOf items balances) ∧
      ((∀ items, ¬ payload.Holds "balances" items) → balances = [])) ∧
    ∀ balances, nonZero balances =
      balances.filter fun b => b.free.toRat ≠ 0 ∨ b.locked.toRat ≠ 0 :=
  ⟨exists_ofPayload payload, nonZero_eq⟩

/-- Next to `10 ^ 28` a unit is the 29th digit of the sum, and rounded away. -/
theorem total_rounded_of_ten_to_28 :
    let row : Fields := [("asset", .text "X"), ("free", .text "1e28"), ("locked", .text "1")]
    row.Lacks "total" ∧ ∃ b, ofPayload (.list [.object row]) = .ok [b] ∧
      b.total.toRat = 10 ^ 28 ∧ b.free.toRat + b.locked.toRat = 10 ^ 28 + 1 := by
  intro row
  have hlacks : Fields.get? row "total" = none := by decide
  have hbalances : ofPayload (.list [.object row]) =
      .ok [⟨"X", ⟨false, 1, 28⟩, ⟨false, 1, 0⟩, ⟨false, 10 ^ 27, 1⟩⟩] := by decide +kernel
  refine ⟨fun v hv => ?_, _, hbalances, ?_, ?_⟩
  · rw [hlacks] at hv
    cases hv
  · norm_num [Decimal.toRat_eq, Decimal.signed]
  · norm_num [Decimal.toRat_eq, Decimal.signed]

end Balance

end GatewayLedger
