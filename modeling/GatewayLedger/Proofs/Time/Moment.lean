import GatewayLedger.Time.Moment

/-!
# Moments of a clock

What a reading says about its moment: the offset that it was made with, the day that goes up with it,
and, on the UTC clock, the instant itself.
-/

namespace GatewayLedger.Moment

variable {a b m u : Moment} {n : Int} {offset : Option Int}

theorem offset_of_ofReading? (h : ofReading? n offset = some m) : m.offset = offset := by
  unfold ofReading? at h
  split at h
  · cases h
    rfl
  · cases h

theorem isUtc_of_toUtc? (h : a.toUtc? = some b) : b.IsUtc := offset_of_ofReading? h

theorem isAware_of_isUtc (h : m.IsUtc) : m.isAware = true := by
  have ho : m.offset = some 0 := h
  simp [isAware, ho]

theorem instant_of_isUtc (h : m.IsUtc) : m.instant = m.reading := by
  have ho : m.offset = some 0 := h
  simp [instant, ho]

theorem toUtc?_eq_some_iff : m.toUtc? = some u ↔ u.IsUtc ∧ u.instant = m.instant := by
  constructor
  · intro h
    have hutc := isUtc_of_toUtc? h
    refine ⟨hutc, ?_⟩
    rw [instant_of_isUtc hutc]
    unfold toUtc? ofReading? at h
    split at h
    · next hspan =>
      cases h
      exact Int.toNat_of_nonneg hspan.1
    · cases h
  · rintro ⟨hutc, hinstant⟩
    have hu := ofReading?_reading u
    rwa [show u.offset = some 0 from hutc, ← instant_of_isUtc hutc, hinstant] at hu

theorem toUtc?_eq_none_iff : m.toUtc? = none ↔ m.instant < 0 ∨ span ≤ m.instant := by
  unfold toUtc? ofReading?
  split
  · simp only [reduceCtorEq, false_iff]
    omega
  · simp only [true_iff]
    omega

theorem toUtc?_congr (h : a.instant = b.instant) : a.toUtc? = b.toUtc? := by
  rw [toUtc?, toUtc?, h]

theorem one_le_dayNumber (m : Moment) : 1 ≤ m.dayNumber := Nat.le_add_left 1 _

theorem dayNumber_mono (h : a.reading ≤ b.reading) : a.dayNumber ≤ b.dayNumber :=
  Nat.add_le_add_right (Nat.div_le_div_right h) 1

end GatewayLedger.Moment
