import GatewayLedger.Exchange.Filter
import GatewayLedger.Proofs.Exchange.Check
import GatewayLedger.Proofs.Time.Epoch

/-!
# Filters with aware times

A filter whose times are aware is refused for its limit or for times in the wrong order, and for
nothing else: an aware moment has a millisecond, whatever its offset.
-/

namespace GatewayLedger.Filter

variable {f : Filter} {params : List (String × Value)}

/-- Each time that is given is an aware moment. -/
def TimesAware (f : Filter) : Prop :=
  (∀ m, f.startTime = some m → m.IsAware) ∧ ∀ m, f.endTime = some m → m.IsAware

/-- Both times are given, and the first one counts as after the second one. -/
def IsInverted (f : Filter) : Prop :=
  ∃ m n, f.startTime = some m ∧ f.endTime = some n ∧ f.isAfter m n = true

theorem exists_timeParam {time : Option Moment} (h : ∀ m, time = some m → m.IsAware)
    (name : String) : ∃ params, timeParam name time = .ok params := by
  cases time with
  | none => exact ⟨[], rfl⟩
  | some m =>
    obtain ⟨millis, hmillis⟩ := Moment.exists_millis_of_isAware (h m rfl)
    exact ⟨[(name, .int millis)], by rw [timeParam, hmillis]⟩

theorem exists_params (htimes : f.TimesAware) (hcheck : f.check = .ok ()) :
    ∃ params, f.params = .ok params := by
  obtain ⟨opening, hopening⟩ := exists_timeParam htimes.1 "startTime"
  obtain ⟨closing, hclosing⟩ := exists_timeParam htimes.2 "endTime"
  rw [Filter.params, hcheck, hopening, hclosing]
  exact ⟨_, rfl⟩

theorem params_eq_of_check {failure : Failure} (h : f.check = .error failure) :
    f.params = .error failure := by
  rw [Filter.params, h]
  rfl

theorem check_of_isInverted (htimes : f.TimesAware) (hlimit : 1 ≤ f.limit) (h : f.IsInverted) :
    f.check = Failure.invalid "start_time" "must not be after end_time" := by
  obtain ⟨m, n, hm, hn, hafter⟩ := h
  rw [check, if_neg (not_lt.mpr hlimit), hm, hn]
  dsimp only
  rw [(htimes.1 m hm).comparable_eq (htimes.2 n hn), Bool.not_true, if_neg Bool.false_ne_true,
    if_pos hafter]

theorem check_of_not_isInverted (htimes : f.TimesAware) (hlimit : 1 ≤ f.limit)
    (h : ¬ f.IsInverted) : f.check = .ok () := by
  rw [check, if_neg (not_lt.mpr hlimit)]
  split
  · next m n hm hn =>
    rw [(htimes.1 m hm).comparable_eq (htimes.2 n hn), Bool.not_true, if_neg Bool.false_ne_true,
      if_neg fun hafter => h ⟨m, n, hm, hn, hafter⟩]
  · rfl

/-- A filter is refused for its limit, refused for its times, or accepted. -/
theorem params_cases (htimes : f.TimesAware) :
    (f.limit < 1 ∧ f.params = Failure.invalid "limit" "must be at least 1") ∨
      (1 ≤ f.limit ∧ f.IsInverted ∧
        f.params = Failure.invalid "start_time" "must not be after end_time") ∨
      (1 ≤ f.limit ∧ ¬ f.IsInverted ∧ ∃ params, f.params = .ok params) := by
  rcases lt_or_ge f.limit 1 with hlimit | hlimit
  · exact .inl ⟨hlimit, params_eq_of_check (if_pos hlimit)⟩
  by_cases hinverted : f.IsInverted
  · exact .inr (.inl ⟨hlimit, hinverted,
      params_eq_of_check (check_of_isInverted htimes hlimit hinverted)⟩)
  · exact .inr (.inr ⟨hlimit, hinverted,
      exists_params htimes (check_of_not_isInverted htimes hlimit hinverted)⟩)

end GatewayLedger.Filter
