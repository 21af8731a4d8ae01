import GatewayLedger.Proofs.Number.BinaryOrder
import GatewayLedger.Time.Epoch

/-!
# Milliseconds of aware moments

The clock of an aware moment is less than a day ahead of UTC or behind it. Any such moment has a
millisecond, and a later one has no smaller millisecond: of the three steps from the microseconds, two
roundings and the loss of a fraction, none turns an order around.
-/

namespace GatewayLedger.Moment

/-- A clock with a known offset of less than a day. -/
def IsAware (m : Moment) : Prop := ∃ offset, m.offset = some offset ∧ offset.natAbs < microsPerDay

variable {m a b : Moment} {millis later : Int}

theorem IsAware.isAware_eq (h : m.IsAware) : m.isAware = true := by
  obtain ⟨offset, hoffset, _⟩ := h
  rw [isAware, hoffset, Option.isSome_some]

theorem IsAware.comparable_eq (ha : a.IsAware) (hb : b.IsAware) : a.comparable b = true := by
  rw [comparable, ha.isAware_eq, hb.isAware_eq]
  rfl

theorem IsAware.epochSeconds?_eq (h : m.IsAware) :
    m.epochSeconds? = some (Binary64.ofRatio (decide (m.instant - epoch < 0))
      (m.instant - epoch).natAbs microsPerSecond) := by
  obtain ⟨offset, hoffset, -⟩ := h
  rw [epochSeconds?, hoffset]

theorem exists_millis_of_isAware (h : m.IsAware) : ∃ millis, m.toMillis? = some millis := by
  have hseconds := h.epochSeconds?_eq
  obtain ⟨offset, hoffset, hday⟩ := h
  generalize hmicros : m.instant - epoch = micros at hseconds
  have hinstant : m.instant = m.reading - offset := by
    rw [instant, hoffset, Option.getD_some]
  have hbound : micros.natAbs ≤ 2 ^ 60 * microsPerSecond := by
    have hspan := m.inSpan
    have hcount : Calendar.dayCount = 3652059 := by decide
    unfold span microsPerDay microsPerSecond at *
    unfold epoch microsPerDay microsPerSecond at hmicros
    rw [hcount] at hspan
    omega
  obtain ⟨s, e, hofRatio, hle⟩ := Binary64.exists_ofRatio_le (decide (micros < 0)) (by decide)
    hbound (by decide)
  have hdouble : (s : ℚ) * 2 ^ e ≤ (2 * 2 ^ 60 : Nat) := by exact_mod_cast hle
  obtain ⟨n, hn⟩ :=
    Binary64.exists_truncate?_mulNat (decide (micros < 0)) 1000 hdouble (by decide)
  refine ⟨n, ?_⟩
  rw [toMillis?, hseconds, hofRatio]
  exact hn

end GatewayLedger.Moment
