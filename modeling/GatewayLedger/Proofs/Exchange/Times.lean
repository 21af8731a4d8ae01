import GatewayLedger.Proofs.Exchange.Sequence
import GatewayLedger.Proofs.Time.Milliseconds
import GatewayLedger.Record.Timestamp

/-!
# Times that were read and are asked for again

A filter that passes its check is sent with the milliseconds of its times. If such a time was itself
read from a number of milliseconds, that number is sent, or the one next to it on the side of 1970.
-/

namespace GatewayLedger.Filter

open Moment (InCalendar LosesMillisecond millisBack)

variable {f : Filter} {params : List (String × Value)} {m : Moment} {millis : Int}

theorem eq_of_map_toMillis? {time : Option Moment} {sent : Option Int} (htime : time = some m)
    (hmillis : m.toMillis? = some millis) (h : time.map Moment.toMillis? = sent.map some) :
    sent = some millis := by
  rw [htime, Option.map_some, hmillis] at h
  cases sent with
  | none => cases h
  | some n =>
    cases h
    rfl

theorem mem_params_iff_of_startTime (h : f.params = .ok params) (hm : f.startTime = some m)
    (hmillis : m.toMillis? = some millis) (v : Value) :
    ("startTime", v) ∈ params ↔ v = .int millis := by
  obtain ⟨opening, closing, hopening, -, rfl⟩ := exists_of_params h
  obtain rfl := eq_of_map_toMillis? hm hmillis hopening
  simp [coinParam_eq]

theorem mem_params_iff_of_endTime (h : f.params = .ok params) (hm : f.endTime = some m)
    (hmillis : m.toMillis? = some millis) (v : Value) :
    ("endTime", v) ∈ params ↔ v = .int millis := by
  obtain ⟨opening, closing, -, hclosing, rfl⟩ := exists_of_params h
  obtain rfl := eq_of_map_toMillis? hm hmillis hclosing
  simp [coinParam_eq]

/-- A number of milliseconds is read to a moment of UTC at most 15 microseconds away from it, and to
its very instant near 1970. As a time of a filter this moment, like that instant, is sent as the number
that it was, or as its neighbour on the side of 1970 where a unit is lost. -/
theorem params_of_read_millis {n : Int} (hn : InCalendar n) :
    ∃ m, Timestamp.ofValue (.int n) = .ok (some m) ∧ m.IsUtc ∧
      |m.instant - (Moment.epoch + 1000 * n)| ≤ 15 ∧
      (n.natAbs < 2 ^ 33 * 1000 → m.instant = Moment.epoch + 1000 * n) ∧
      ∀ f : Filter, f.TimesAware → f.check = .ok () → ∃ params, f.params = .ok params ∧
        ∀ t : Moment, t.IsUtc → t = m ∨ t.instant = Moment.epoch + 1000 * n →
          (f.startTime = some t → ∀ v, ("startTime", v) ∈ params ↔ v = .int (millisBack n)) ∧
          (f.endTime = some t → ∀ v, ("endTime", v) ∈ params ↔ v = .int (millisBack n)) := by
  obtain ⟨m, hm, hutc, hnear, hexact, hmillis⟩ := Moment.exists_ofMillis? hn
  refine ⟨m, congrArg Except.ok hm, hutc, hnear, hexact, fun f htimes hcheck => ?_⟩
  obtain ⟨params, hparams⟩ := exists_params htimes hcheck
  refine ⟨params, hparams, fun t ht hstands => ?_⟩
  have hsent : t.toMillis? = some (millisBack n) := by
    rcases hstands with rfl | hinstant
    · exact hmillis
    · exact Moment.toMillis?_of_instant_eq hn ht hinstant
  exact ⟨fun h => mem_params_iff_of_startTime hparams h hsent,
    fun h => mem_params_iff_of_endTime hparams h hsent⟩

theorem params_of_read_millis_of_2023 :
    InCalendar 1700000000123 ∧ ∃ m params, Timestamp.ofValue (.int 1700000000123) = .ok (some m) ∧
      ({ startTime := some m } : Filter).params = .ok params ∧
      ("startTime", .int 1700000000123) ∈ params := by
  have hn : InCalendar 1700000000123 := Moment.inCalendar_iff.mpr (by decide)
  have hback : millisBack 1700000000123 = 1700000000123 := by decide +kernel
  obtain ⟨m, hm, hutc, -, -, hfilter⟩ := params_of_read_millis hn
  have htimes : ({ startTime := some m } : Filter).TimesAware := by
    refine ⟨fun other hother => ?_, fun other hother => by cases hother⟩
    cases hother
    exact ⟨0, hutc, by decide⟩
  obtain ⟨params, hparams, hsent⟩ := hfilter { startTime := some m } htimes rfl
  have hstart := (hsent m hutc (.inl rfl)).1 rfl
  exact ⟨hn, m, params, hm, hparams, (hstart _).mpr (by rw [hback])⟩

/-- A second and a millisecond are read exactly and sent as one second, and the last millisecond of the
calendar is read seven microseconds early. -/
theorem millisecond_lost_of_1001 :
    let m : Moment := ⟨Moment.epoch + 1001000, some 0, by decide⟩
    let last : Moment := ⟨Moment.epoch + 253402300799998993, some 0, by decide⟩
    InCalendar 1001 ∧ Timestamp.ofValue (.int 1001) = .ok (some m) ∧
      ({ startTime := some m } : Filter).params =
        .ok [("startTime", .int 1000), ("limit", .int 20)] ∧
      InCalendar 253402300799999 ∧ Timestamp.ofValue (.int 253402300799999) = .ok (some last) := by
  intro m last
  have hread : Moment.ofMillis? (Binary64.ofInt 1001) = some m := by decide +kernel
  have hsent : m.toMillis? = some 1000 := by decide +kernel
  have hlast : Moment.ofMillis? (Binary64.ofInt 253402300799999) = some last := by decide +kernel
  refine ⟨Moment.inCalendar_iff.mpr (by decide), congrArg Except.ok hread, ?_,
    Moment.inCalendar_iff.mpr (by decide), congrArg Except.ok hlast⟩
  simp only [params, timeParam, hsent]
  rfl

end GatewayLedger.Filter
