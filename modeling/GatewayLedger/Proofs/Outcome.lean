import Mathlib.Data.List.Forall2

/-!
# Outcomes

A computation that may fail returns a value or an error. The lemmas here take apart an outcome of
several steps, and put together the values of a step that succeeds for each item of a list.
-/

namespace GatewayLedger

variable {ε α β : Type} {x : Except ε α} {e : ε} {b : β}

theorem exists_of_bind_eq_ok {f : α → Except ε β} (h : (x >>= f) = .ok b) :
    ∃ a, x = .ok a ∧ f a = .ok b := by
  cases x with
  | error e => cases h
  | ok a => exact ⟨a, rfl, h⟩

theorem bind_eq_error_iff {f : α → Except ε β} :
    (x >>= f) = .error e ↔ x = .error e ∨ ∃ a, x = .ok a ∧ f a = .error e := by
  cases x with
  | error e' => simp [bind, Except.bind]
  | ok a => simp [bind, Except.bind]

theorem exists_of_map_eq_ok {f : α → β} (h : x.map f = .ok b) : ∃ a, x = .ok a ∧ f a = b := by
  cases x with
  | error e => cases h
  | ok a => exact ⟨a, rfl, Except.ok.inj h⟩

theorem eq_error_of_map {f : α → β} (h : x.map f = .error e) : x = .error e := by
  cases x with
  | error e' => exact congrArg Except.error (Except.error.inj h)
  | ok a => cases h

theorem exists_mapM {f : α → Except ε β} {R : α → β → Prop} {items : List α}
    (h : ∀ a ∈ items, ∃ b, f a = .ok b ∧ R a b) :
    ∃ bs, items.mapM f = .ok bs ∧ List.Forall₂ R items bs := by
  induction items with
  | nil => exact ⟨[], rfl, .nil⟩
  | cons a items ih =>
    obtain ⟨b, hb, hab⟩ := h a List.mem_cons_self
    obtain ⟨bs, hbs, hitems⟩ := ih fun other hother => h other (List.mem_cons_of_mem a hother)
    exact ⟨b :: bs, by rw [List.mapM_cons, hb, hbs]; rfl, .cons hab hitems⟩

/-- What one list is related to has a partner in it. -/
theorem mem_of_forall₂ {R : α → β → Prop} {as : List α} {bs : List β} (h : List.Forall₂ R as bs)
    (hb : b ∈ bs) : ∃ a ∈ as, R a b := by
  induction h with
  | nil => simp at hb
  | cons hab _ ih =>
    rcases List.mem_cons.mp hb with rfl | hb
    · exact ⟨_, List.mem_cons_self, hab⟩
    · obtain ⟨a, ha, hr⟩ := ih hb
      exact ⟨a, List.mem_cons_of_mem _ ha, hr⟩

/-! ## Guards -/

section Guards

variable {guard : α → Except ε Unit} {items : List α}

theorem forM_eq_ok_iff : forM items guard = .ok () ↔ ∀ a ∈ items, guard a = .ok () := by
  induction items with
  | nil => simp [pure, Except.pure]
  | cons a items ih =>
    rw [List.forM_cons, List.forall_mem_cons]
    cases h : guard a with
    | error e => simp [bind, Except.bind]
    | ok u => simpa [bind, Except.bind] using ih

/-- The first guard that fails is the failure of all of them. -/
theorem forM_eq_error_iff : forM items guard = .error e ↔
    ∃ before a after, items = before ++ a :: after ∧ (∀ b ∈ before, guard b = .ok ()) ∧
      guard a = .error e := by
  induction items with
  | nil => simp [pure, Except.pure]
  | cons first rest ih =>
    rw [List.forM_cons]
    constructor
    · intro h
      rcases bind_eq_error_iff.mp h with h | ⟨_, hfirst, h⟩
      · exact ⟨[], first, rest, rfl, by simp, h⟩
      · obtain ⟨before, a, after, rfl, hbefore, ha⟩ := ih.mp h
        refine ⟨first :: before, a, after, rfl, ?_, ha⟩
        exact List.forall_mem_cons.mpr ⟨hfirst, hbefore⟩
    · rintro ⟨before, a, after, hitems, hbefore, ha⟩
      cases before with
      | nil =>
        obtain ⟨rfl, rfl⟩ := List.cons.inj hitems
        exact bind_eq_error_iff.mpr (.inl ha)
      | cons b before =>
        obtain ⟨rfl, rfl⟩ := List.cons.inj hitems
        obtain ⟨hb, hbefore⟩ := List.forall_mem_cons.mp hbefore
        exact bind_eq_error_iff.mpr (.inr ⟨(), hb, ih.mpr ⟨before, a, after, rfl, hbefore, ha⟩⟩)

end Guards

end GatewayLedger
