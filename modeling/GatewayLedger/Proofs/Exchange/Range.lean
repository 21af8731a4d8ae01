import GatewayLedger.Proofs.Exchange.Times

/-!
# Ranges that a filter asks for

A filter is refused if its times are in the wrong order. As a later moment has no smaller millisecond,
the range that is sent is in order too, whatever the offsets of the two clocks and however close the
times. Only times of one zone can be in order by its clock and not in fact, when it is set back between
them.
-/

namespace GatewayLedger.Filter

variable {f g : Filter} {m n : Moment} {params : List (String × Value)}

/-- The parameter is sent, and as this number only. -/
def Sends (params : List (String × Value)) (name : String) (millis : Int) : Prop :=
  ∀ v, (name, v) ∈ params ↔ v = .int millis

/-- In New York the clock reads 1:30 for the second time, and 1:45 for the first time, in the night in
which it is set back. The range from one to the other is accepted, although it is inverted. -/
theorem sends_inverted_range_in_one_zone :
    let m : Moment := ⟨Moment.epoch + 1730597400000000, some (-18000000000), by decide⟩
    let n : Moment := ⟨Moment.epoch + 1730598300000000, some (-14400000000), by decide⟩
    let f : Filter := { startTime := some m, endTime := some n, oneZone := true }
    f.TimesAware ∧ n.instant < m.instant ∧ f.params = .ok [("startTime", .int 1730615400000),
      ("endTime", .int 1730612700000), ("limit", .int 20)] := by
  intro m n f
  have hm : m.IsAware := ⟨-18000000000, rfl, by decide⟩
  have hn : n.IsAware := ⟨-14400000000, rfl, by decide⟩
  have htimes : f.TimesAware := by
    constructor <;> rintro t ⟨⟩
    · exact hm
    · exact hn
  have hopening : m.toMillis? = some 1730615400000 := by decide +kernel
  have hclosing : n.toMillis? = some 1730612700000 := by decide +kernel
  have hcheck : f.check = .ok () := by decide
  refine ⟨htimes, by decide, ?_⟩
  rw [params, hcheck]
  simp only [timeParam, f, hopening, hclosing]
  rfl

end GatewayLedger.Filter
