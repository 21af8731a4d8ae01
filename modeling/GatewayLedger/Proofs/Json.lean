import GatewayLedger.Exchange.Client
import GatewayLedger.Proofs.Outcome

/-!
# The values of JSON

`Value.IsJson` singles out the values that a JSON text can stand for: neither decimals nor moments
occur in them, at any depth. All that `Json.readNested` returns is of this form, and so is every answer
that a call to the exchange brings back.
-/

namespace GatewayLedger

inductive Value.IsJson : Value → Prop
  | null : IsJson .null
  | bool (b : Bool) : IsJson (.bool b)
  | int (n : Int) : IsJson (.int n)
  | float (x : Binary64) : IsJson (.float x)
  | text (s : String) : IsJson (.text s)
  | list {items : List Value} (h : ∀ v ∈ items, IsJson v) : IsJson (.list items)
  | object {fields : Fields} (h : ∀ f ∈ fields, IsJson f.2) : IsJson (.object fields)

def Fields.AreJson (fields : Fields) : Prop := ∀ f ∈ fields, f.2.IsJson

namespace Value

theorem isJson_field {fields : Fields} (h : fields.AreJson) (name : String) :
    (field fields name).IsJson := by
  unfold field Fields.get?
  cases hf : fields.find? fun f => f.1 = name with
  | none => exact .null
  | some f => exact h f (List.mem_of_find?_eq_some hf)

theorem areJson_of_mem_filterMap {items : List Value} (h : ∀ v ∈ items, v.IsJson) {row : Fields}
    (hr : row ∈ items.filterMap fields?) : row.AreJson := by
  obtain ⟨v, hv, hrow⟩ := List.mem_filterMap.mp hr
  have hj := h v hv
  cases hj with
  | object hf =>
    cases hrow
    exact hf
  | _ => cases hrow

theorem areJson_of_mem_rowsUnder {payload : Value} (h : payload.IsJson) (name : String)
    {row : Fields} (hr : row ∈ payload.rowsUnder name) : row.AreJson := by
  cases h with
  | list hi => exact areJson_of_mem_filterMap hi hr
  | object hf =>
    have hj := isJson_field hf name
    unfold rowsUnder at hr
    dsimp only at hr
    cases hv : field _ name with
    | list items =>
      rw [hv] at hr hj
      cases hj with
      | list hi => exact areJson_of_mem_filterMap hi hr
    | _ => simp [hv] at hr
  | _ => simp [rowsUnder] at hr

end Value

namespace Fields

theorem areJson_insert {fields : Fields} {name : String} {value : Value} (h : fields.AreJson)
    (hv : value.IsJson) : AreJson (insert fields name value) := by
  induction fields with
  | nil => simpa [AreJson, insert] using hv
  | cons f rest ih =>
    have hrest : AreJson rest := fun g hg => h g (List.mem_cons_of_mem _ hg)
    unfold insert
    split
    · intro g hg
      rcases List.mem_cons.mp hg with rfl | hg
      · exact hv
      · exact hrest g hg
    · intro g hg
      rcases List.mem_cons.mp hg with rfl | hg
      · exact h _ List.mem_cons_self
      · exact ih hrest g hg

theorem areJson_ofList {pairs : Fields} (h : pairs.AreJson) : AreJson (ofList pairs) := by
  have hfold : ∀ fields : Fields, fields.AreJson →
      AreJson (pairs.foldl (fun fields p => insert fields p.1 p.2) fields) := by
    induction pairs with
    | nil => exact fun _ hf => hf
    | cons p rest ih =>
      intro fields hf
      exact ih (fun q hq => h q (List.mem_cons_of_mem _ hq)) _
        (areJson_insert hf (h p List.mem_cons_self))
  exact hfold [] (by simp [AreJson])

end Fields

namespace Json

theorem isJson_readUnsigned {negative : Bool} {cs r : List Char} {v : Value}
    (h : readUnsigned negative cs = .ok (v, r)) : v.IsJson := by
  unfold readUnsigned at h
  split at h
  · cases h
  · dsimp only at h
    split at h
    · split at h
      · cases h
      · cases h
        exact .int _
    · cases h
      exact .float _

theorem isJson_readWord? {cs r : List Char} {v : Value} (h : readWord? cs = some (v, r)) :
    v.IsJson := by
  unfold readWord? at h
  split at h
  · cases h; exact .null
  · cases h; exact .bool _
  · cases h; exact .bool _
  · cases h; exact .float _
  · cases h; exact .float _
  · cases h; exact .float _
  · cases h

theorem isJson_readScalar {cs r : List Char} {v : Value} (h : readScalar cs = .ok (v, r)) :
    v.IsJson := by
  unfold readScalar at h
  split at h
  · next found hw =>
    cases h
    exact isJson_readWord? hw
  · split at h
    · split at h
      · cases h
        exact .text _
      · cases h
    · exact isJson_readUnsigned h
    · exact isJson_readUnsigned h

/-- What the three readers return with some fuel. -/
structure ReadersSound (fuel : Nat) : Prop where
  value : ∀ {depth : Nat} {cs r : List Char} {v : Value}, readValue fuel depth cs = .ok (v, r) →
    v.IsJson
  items : ∀ {depth : Nat} {cs r : List Char} {vs : List Value},
    readItems fuel depth cs = .ok (vs, r) → ∀ v ∈ vs, v.IsJson
  members : ∀ {depth : Nat} {cs r : List Char} {ms : Fields},
    readMembers fuel depth cs = .ok (ms, r) → ms.AreJson

theorem ReadersSound.isJson_value {fuel depth : Nat} (ih : ReadersSound fuel) {cs r : List Char}
    {v : Value} (h : readValue (fuel + 1) depth cs = .ok (v, r)) : v.IsJson := by
  rw [readValue.eq_def] at h
  dsimp only at h
  split at h
  · split at h
    · cases h
    · split at h
      · cases h
        exact .list (by simp)
      · obtain ⟨⟨vs, r'⟩, hi, h⟩ := exists_of_bind_eq_ok h
        cases h
        exact .list (ih.items hi)
  · split at h
    · cases h
    · split at h
      · cases h
        exact .object (by simp)
      · obtain ⟨⟨ms, r'⟩, hm, h⟩ := exists_of_bind_eq_ok h
        cases h
        exact .object (Fields.areJson_ofList (ih.members hm))
  · exact isJson_readScalar h

theorem ReadersSound.isJson_items {fuel depth : Nat} (ih : ReadersSound fuel) {cs r : List Char}
    {vs : List Value} (h : readItems (fuel + 1) depth cs = .ok (vs, r)) : ∀ v ∈ vs, v.IsJson := by
  rw [readItems] at h
  obtain ⟨⟨v, r₁⟩, hv, h⟩ := exists_of_bind_eq_ok h
  have hj := ih.value hv
  dsimp only at h
  split at h
  · cases h
    simpa using hj
  · obtain ⟨⟨vs', r₂⟩, hi, h⟩ := exists_of_bind_eq_ok h
    cases h
    intro w hw
    rcases List.mem_cons.mp hw with rfl | hw
    · exact hj
    · exact ih.items hi w hw
  · cases h

theorem ReadersSound.areJson_members {fuel depth : Nat} (ih : ReadersSound fuel) {cs r : List Char}
    {ms : Fields} (h : readMembers (fuel + 1) depth cs = .ok (ms, r)) : ms.AreJson := by
  rw [readMembers.eq_def] at h
  dsimp only at h
  split at h
  · split at h
    · cases h
    · obtain ⟨⟨v, r₁⟩, hv, h⟩ := exists_of_bind_eq_ok h
      have hj := ih.value hv
      dsimp only at h
      split at h
      · cases h
        simpa [Fields.AreJson] using hj
      · obtain ⟨⟨ms', r₂⟩, hm, h⟩ := exists_of_bind_eq_ok h
        cases h
        intro f hf
        rcases List.mem_cons.mp hf with rfl | hf
        · exact hj
        · exact ih.members hm f hf
      · cases h
  · cases h

theorem readersSound (fuel : Nat) : ReadersSound fuel := by
  induction fuel with
  | zero =>
    constructor
    · intro depth cs r v h
      cases h
    · intro depth cs r vs h
      cases h
    · intro depth cs r ms h
      cases h
  | succ fuel ih => exact ⟨ih.isJson_value, ih.isJson_items, ih.areJson_members⟩

theorem isJson_readNested {depth : Nat} {text : String} {v : Value}
    (h : readNested depth text = .ok v) : v.IsJson := by
  obtain ⟨⟨w, r⟩, hw, h⟩ := exists_of_bind_eq_ok h
  dsimp only at h
  split at h
  · cases h
    exact (readersSound _).value hw
  · cases h

end Json

/-! ## Answers of the exchange -/

theorem isJson_readBody {nesting : Nat} {status : Int} {text : String} {v : Value}
    (h : Reply.readBody nesting status text = .ok v) : v.IsJson := by
  unfold Reply.readBody at h
  split at h
  · cases h
    exact .object (by simp)
  · split at h
    · next hr =>
      cases h
      exact Json.isJson_readNested hr
    · cases h
    · cases h
    · cases h

theorem isJson_settleText {r : Reply} {nesting : Nat} {e : Endpoint} {text : String} {v : Value}
    (h : (r.settleText nesting e text).outcome = .ok v) : v.IsJson := by
  unfold Reply.settleText at h
  split at h
  · cases h
  · split at h
    · cases h
    · split at h
      · cases h
      · dsimp only at h
        exact isJson_readBody h

theorem isJson_settle {d : Delivery} {p : Platform} {e : Endpoint} {timeout : Binary64} {v : Value}
    (h : (d.settle p e timeout).outcome = .ok v) : v.IsJson := by
  cases d with
  | reply r =>
    simp only [Delivery.settle, Reply.settle] at h
    split at h
    · exact isJson_settleText h
    · cases h
  | _ => cases h

theorem isJson_issue {c : Client} {call : Call} {v : Value}
    (h : (c.issue call).1.settlement.outcome = .ok v) : v.IsJson := by
  unfold Client.issue at h
  split at h
  · cases h
  · dsimp only at h
    split at h
    · cases h
    · exact isJson_settle h

end GatewayLedger
