import GatewayLedger.Value

/-!
# Values that hold rows

What `Value.rowsUnder` and `Value.isGiven` decide, said without them: a payload holds items as a list
of its own or under a name, and a value is void if it is null, false, zero or empty.
-/

namespace GatewayLedger

/-- The name has no value, or null. -/
def Fields.Lacks (row : Fields) (name : String) : Prop :=
  ∀ v, Fields.get? row name = some v → v = .null

namespace Value

variable {name : String}

theorem field_of_get? {row : Fields} {v : Value} (h : Fields.get? row name = some v) :
    field row name = v := by
  rw [field, h, Option.getD_some]

theorem field_of_lacks {row : Fields} (h : row.Lacks name) : field row name = .null := by
  unfold field
  cases hv : Fields.get? row name with
  | none => rfl
  | some v => exact h v hv

/-- The items of a list, or of the list that an object holds under a name. -/
inductive Holds (name : String) : Value → List Value → Prop
  | list (items : List Value) : Holds name (.list items) items
  | object {fields : Fields} {items : List Value}
      (h : Fields.get? fields name = some (.list items)) : Holds name (.object fields) items

variable {payload : Value} {items : List Value}

theorem Holds.unique {others : List Value} (h : payload.Holds name items)
    (hothers : payload.Holds name others) : items = others := by
  cases h with
  | list items =>
    cases hothers
    rfl
  | object h =>
    cases hothers with
    | object hothers =>
      rw [h] at hothers
      cases hothers
      rfl

theorem Holds.rowsUnder_eq (h : payload.Holds name items) :
    payload.rowsUnder name = items.filterMap fields? := by
  cases h with
  | list items => rfl
  | object h => simp only [rowsUnder, field_of_get? h]

theorem rowsUnder_of_no_items (h : ∀ items, ¬ payload.Holds name items) :
    payload.rowsUnder name = [] := by
  cases payload with
  | list items => exact absurd (.list items) (h items)
  | object fields =>
    unfold rowsUnder field
    dsimp only
    cases hf : Fields.get? fields name with
    | none => rfl
    | some v =>
      cases v with
      | list items => exact absurd (.object hf) (h items)
      | _ => rfl
  | _ => rfl

/-- Null, false, zero, and whatever is empty. -/
inductive IsVoid : Value → Prop
  | null : IsVoid .null
  | bool : IsVoid (.bool false)
  | int : IsVoid (.int 0)
  | float {x : Binary64} (h : x.isZero = true) : IsVoid (.float x)
  | decimal {d : Decimal} (h : d.isZero = true) : IsVoid (.decimal (.finite d))
  | text : IsVoid (.text "")
  | list : IsVoid (.list [])
  | object : IsVoid (.object [])

theorem isGiven_eq_false_iff {v : Value} : v.isGiven = false ↔ v.IsVoid := by
  constructor
  · intro h
    cases v with
    | null => exact .null
    | bool b =>
      obtain rfl : b = false := h
      exact .bool
    | int n =>
      obtain rfl : n = 0 := by simpa [isGiven] using h
      exact .int
    | float x => exact .float (by simpa [isGiven] using h)
    | decimal n =>
      cases n with
      | finite d => exact .decimal (by simpa [isGiven] using h)
      | _ => simp [isGiven] at h
    | text s =>
      obtain rfl : s = "" := by simpa [isGiven] using h
      exact .text
    | moment m => simp [isGiven] at h
    | list items =>
      obtain rfl : items = [] := by simpa [isGiven] using h
      exact .list
    | object fields =>
      obtain rfl : fields = [] := by simpa [isGiven] using h
      exact .object
  · intro h
    cases h with
    | float h => simp [isGiven, h]
    | decimal h => simp [isGiven, h]
    | _ => rfl

end Value

end GatewayLedger
