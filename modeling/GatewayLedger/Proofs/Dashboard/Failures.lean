import GatewayLedger.Proofs.Dashboard.Periodic

/-!
# Failures in periodic runs

A periodic run waits only for the refreshes that are still out at its last start. Of the failures among
these it raises the first one at once, so that what is in flight then goes on in the background. A
failure that strikes before the last start leaves no trace. Where both fall on one instant, the event
loop decides which is which.
-/

namespace GatewayLedger

open Timeline

namespace Flight

/-- The refresh leaves the failure to its caller, at the given instant. -/
def Raises (now : Moment) (f : Flight) (raised : Timed Failure) : Prop :=
  f.failure? now = some raised.value ∧ f.task.instant = raised.instant

variable {f : Flight} {now : Moment} {instant : Nat} {failure : Failure}

theorem Raises.failure?_eq (h : f.Raises now ⟨instant, failure⟩) :
    f.failure? now = some failure := h.1

theorem Raises.instant_eq (h : f.Raises now ⟨instant, failure⟩) : f.task.instant = instant := h.2

theorem failure?_of_gateway {e : GatewayError} (h : f.task = ⟨instant, .error (.gateway e)⟩) :
    f.failure? now = none := by
  rw [failure?, h]
  rfl

theorem raises_of_defect (h : f.task = ⟨instant, .error .transportDefect⟩) :
    f.Raises now ⟨instant, .transportDefect⟩ := by
  rw [Raises, failure?, h]
  exact ⟨rfl, rfl⟩

end Flight

namespace Monitor

variable {m : Monitor} {interval ticks : Nat} {filter : Filter} {f last : Flight}
  {before after front later : Timeline} {found : Timed Failure}

/-! ## What is still out -/

/-- A failure among the completions on a timeline, with none before it. -/
structure IsFirst (rowTime : Moment) (flights : List Flight) (front : Timeline) (f : Flight)
    (found : Timed Failure) : Prop where
  mem : f ∈ flights
  raises : f.Raises rowTime found
  fine : ∀ g ∈ flights, g.completionOf ∈ front → g.failure? rowTime = none

/-- The first failure is also the earliest. -/
theorem IsFirst.instant_le {rowTime : Moment} {other : Timed Failure}
    (h : IsFirst rowTime (m.flights interval ticks filter) front f found)
    (horder : InOrder (front ++ f.completionOf :: later)) {g : Flight}
    (hg : g ∈ m.flights interval ticks filter)
    (hmem : g.completionOf ∈ front ++ f.completionOf :: later) (hraises : g.Raises rowTime other) :
    found.instant ≤ other.instant := by
  rw [← h.raises.2, ← hraises.2]
  rcases List.mem_append.mp hmem with hfront | hback
  · cases (h.fine g hg hfront).symm.trans hraises.1
  · rcases List.mem_cons.mp hback with heq | hlater
    · exact (congrArg (·.instant) heq).ge
    · rw [← List.singleton_append, ← List.append_assoc] at horder
      exact horder.instant_le (List.mem_append_right front List.mem_cons_self) hlater

/-- A refresh that is out at the last start does not end earlier. -/
theorem start_le_of_mem_after (ho : InOrder (before ++ last.startOf :: after))
    (h : f.completionOf ∈ after) : last.start ≤ f.task.instant := by
  rw [← List.singleton_append, ← List.append_assoc] at ho
  exact ho.instant_le (List.mem_append_right before List.mem_cons_self) h

/-- A refresh that ends later than the last start is out at that. -/
theorem mem_after_of_start_lt (ho : InOrder (before ++ last.startOf :: after))
    (h : f.completionOf ∈ before ++ last.startOf :: after) (hlt : last.start < f.task.instant) :
    f.completionOf ∈ after := by
  rcases List.mem_append.mp h with hbefore | hback
  · have hle : f.task.instant ≤ last.start := ho.instant_le hbefore List.mem_cons_self
    omega
  · rcases List.mem_cons.mp hback with heq | hafter
    · cases congrArg (·.value.event.rank) heq
    · exact hafter

/-! ## The end of a run -/

/-- A periodic run raises a failure exactly if one of the refreshes fails that are still out at its
last start, and then it raises the first of these failures at its instant, while what is in flight
goes on in the background. If it returns, all its refreshes have ended. -/
theorem runPeriodic_raises_earliest_since_last_tick (m : Monitor) (interval : Nat) (filter : Filter)
    (hticks : 1 ≤ ticks) :
    let flights := m.flights interval ticks filter
    let ran := m.runPeriodic interval ticks filter
    flights.length = ticks ∧ ∃ before last after, flights.getLast? = some last ∧
      m.course interval ticks filter = before ++ last.startOf :: after ∧
      (∀ f ∈ flights, (last.start < f.task.instant → f.completionOf ∈ after) ∧
        (f.completionOf ∈ after → last.start ≤ f.task.instant)) ∧
      (ran.2.raised = none ↔
        ∀ f ∈ flights, f.completionOf ∈ after → f.failure? m.rowTime = none) ∧
      (∀ failure, ran.2.raised = some failure → ∃ front f,
        after = front ++ f.completionOf :: ran.1.agenda ∧
        IsFirst m.rowTime flights front f ⟨ran.1.time, failure⟩ ∧
        ∀ g ∈ flights, g.completionOf ∈ after → ∀ other, g.Raises m.rowTime other →
          ran.1.time ≤ other.instant) ∧
      (ran.2.raised = none → ∀ f ∈ flights, f.task.instant ≤ ran.1.time ∧
        f.completionOf ∉ ran.1.agenda) ∧
      ∀ f ∈ flights, ran.1.time < f.task.instant → f.completionOf ∈ ran.1.agenda := by
  intro flights ran
  obtain ⟨before, last, front, decisive, later, hlast, hdecisive, hcourse, hfront, hlater, htime,
    hagenda, _, _, hraised⟩ := m.exists_decisive interval filter hticks
  change ran.1.time = decisive.task.instant at htime
  change ran.1.agenda = later at hagenda
  change ran.2.raised = decisive.failure? m.rowTime at hraised
  let after := front ++ decisive.completionOf :: later
  have horder : InOrder (before ++ last.startOf :: after) :=
    hcourse ▸ m.inOrder_course interval ticks filter
  have hafter : InOrder after := (List.pairwise_cons.mp horder.of_append_right).2
  have hmem (f : Flight) (hf : f ∈ flights) : f.completionOf ∈ before ++ last.startOf :: after :=
    hcourse ▸ completionOf_mem_course hf
  have hsplit : m.course interval ticks filter =
      (before ++ last.startOf :: front) ++ decisive.completionOf :: later := by
    rw [hcourse, List.append_assoc, List.cons_append]
  refine ⟨m.length_flights interval ticks filter, before, last, after, hlast, hcourse, ?_, ?_, ?_,
    ?_, ?_⟩
  · exact fun f hf => ⟨mem_after_of_start_lt horder (hmem f hf), start_le_of_mem_after horder⟩
  · rw [hraised]
    constructor
    · intro hfine f hf hin
      rcases List.mem_append.mp hin with hin | hback
      · exact hfront f hf hin
      · rcases List.mem_cons.mp hback with heq | hin
        · rwa [eq_of_number_eq hf hdecisive (congrArg (·.value.refresh) heq)]
        · exact absurd hin (hlater hfine f hf)
    · intro hfine
      exact hfine decisive hdecisive (List.mem_append_right front List.mem_cons_self)
  · intro failure hfailure
    have hfirst : IsFirst m.rowTime flights front decisive ⟨ran.1.time, failure⟩ :=
      ⟨hdecisive, ⟨hraised ▸ hfailure, htime.symm⟩, hfront⟩
    refine ⟨front, decisive, by rw [hagenda], hfirst, fun g hg hin other hraises => ?_⟩
    exact hfirst.instant_le hafter hg hin hraises
  · intro hnone f hf
    have hnot := hlater (hraised ▸ hnone) f hf
    rw [hagenda, htime]
    exact ⟨instant_le_of_not_mem hsplit hf hnot, hnot⟩
  · intro f hf hlt
    rw [hagenda]
    by_contra hnot
    exact absurd (instant_le_of_not_mem hsplit hf hnot) (htime ▸ hlt).not_ge

/-! ## Runs in which the transport fails -/

/-- The transport fails in a way that is no failure of the network. -/
def defective (delay : Nat) : Answer := ⟨delay, .defect⟩

/-- A refresh all of whose requests meet a defect after the same delay. -/
theorem exists_launch_defective (sessions : Sessions) (answers : List Answer) (number start : Nat)
    {delay : Nat} (h₁ : answers.head? = some (defective delay))
    (h₂ : (Client.following answers).head? = some (defective delay))
    (h₃ : (Client.following (Client.following answers)).head? = some (defective delay))
    (h₄ : (Client.following (Client.following (Client.following answers))).head? =
      some (defective delay)) :
    ∃ f later, (Client.ofAnswers sessions answers).launch {} number start =
        (f, Client.ofAnswers later (Client.following (Client.following (Client.following
          (Client.following answers))))) ∧
      Client.EndsWith (fun failure => failure = .transportDefect) start delay f :=
  Client.exists_launch_failing (p := fun failure => failure = .transportDefect) sessions answers number
    start (fun _ => ⟨_, rfl, rfl⟩) h₁ h₂ h₃ h₄

attribute [local irreducible] Tick.perSecond

/-- The second refresh fails while the first one is still out, and the run does not wait for it. -/
theorem runPeriodic_raises_before_slow_first_refresh :
    let start : Moment := ⟨0, some 0, by decide⟩
    let slow := Client.late (9 * Tick.perSecond)
    let broken := defective (1 * Tick.perSecond)
    let answers := [slow, slow, slow, slow, broken]
    let m := Monitor.initial (Client.ofAnswers Sessions.initial answers) Timers.scheduler start start
    let interval := 1 * Tick.perSecond
    let ran := m.runPeriodic interval 2 {}
    1 ≤ 2 ∧ ran.2.raised = some .transportDefect ∧ ran.1.time = 2 * Tick.perSecond ∧
      ∃ first ∈ m.flights interval 2 {}, first.task.instant = 9 * Tick.perSecond ∧
        first.completionOf ∈ ran.1.agenda := by
  intro start slow broken answers m interval
  have hpace : (Pace.slept m.time interval 1).time = 1 * Tick.perSecond :=
    Pace.slept_seconds (by decide)
  have hnine : Tick.after m.time (9 * Tick.perSecond) = 9 * Tick.perSecond :=
    Tick.after_zero_seconds (by decide)
  have htwo : Tick.after (1 * Tick.perSecond) (1 * Tick.perSecond) = 2 * Tick.perSecond :=
    Tick.after_seconds (by decide)
  obtain ⟨first, s₁, h₁, hfirst⟩ :=
    Client.exists_launch_late Sessions.initial answers 0 0 rfl rfl rfl rfl
  obtain ⟨second, s₂, h₂, hsecond⟩ :=
    exists_launch_defective s₁ [broken] 1 (Pace.slept m.time interval 1).time rfl rfl rfl rfl
  obtain ⟨first, second, _, _, hflights, ⟨⟨e, rfl⟩, ht₁⟩, rfl, ht₂⟩ :=
    exists_flights_of_two_launches m interval h₁ h₂ hfirst hsecond
  rw [hnine] at ht₁
  rw [hpace, htwo] at ht₂
  have hstart : second.start = 1 * Tick.perSecond := by
    rw [start_eq_slept (show (m.flights interval 2 {})[1]? = some second by rw [hflights]; rfl), hpace]
  have hmain := runPeriodic_raises_earliest_since_last_tick m interval {} (by decide : 1 ≤ 2)
  generalize m.runPeriodic interval 2 {} = ran at hmain ⊢
  rw [hflights] at hmain ⊢
  obtain ⟨_, _, last, after, hlast, _, hout, hraised_iff, hraises, _, hagenda⟩ := hmain
  have hfails : second.Raises m.rowTime ⟨2 * Tick.perSecond, .transportDefect⟩ :=
    Flight.raises_of_defect ht₂
  obtain rfl : last = second := (Option.some.inj hlast).symm
  have hsecond_out : last.completionOf ∈ after := by
    apply (hout last (by simp)).1
    rw [hstart, ht₂]
    exact Nat.mul_lt_mul_of_pos_right (by decide) Tick.perSecond_pos
  have hne : ran.2.raised ≠ none := by
    intro hraised
    cases (hraised_iff.mp hraised last (by simp) hsecond_out).symm.trans hfails.failure?_eq
  obtain ⟨failure, hraised⟩ := Option.ne_none_iff_exists'.mp hne
  obtain ⟨front, f, _, hfound, _⟩ := hraises failure hraised
  rcases List.mem_pair.mp hfound.mem with rfl | rfl
  · cases (Flight.failure?_of_gateway ht₁).symm.trans hfound.raises.failure?_eq
  · obtain rfl : failure = .transportDefect :=
      Option.some.inj (hfound.raises.failure?_eq.symm.trans hfails.failure?_eq)
    have htime : ran.1.time = 2 * Tick.perSecond :=
      hfound.raises.instant_eq.symm.trans hfails.instant_eq
    have hlate : ran.1.time < first.task.instant := by
      rw [htime, ht₁]
      exact Nat.mul_lt_mul_of_pos_right (by decide) Tick.perSecond_pos
    exact ⟨by decide, hraised, htime, first, by simp, by rw [ht₁], hagenda first (by simp) hlate⟩

/-- A refresh that fails before the last start is not waited for, and the run returns as if nothing
had failed. -/
theorem runPeriodic_loses_failure_before_last_tick :
    let start : Moment := ⟨0, some 0, by decide⟩
    let broken := defective (1 * Tick.perSecond)
    let slow := Client.late (1 * Tick.perSecond)
    let answers := [broken, broken, broken, broken, slow]
    let m := Monitor.initial (Client.ofAnswers Sessions.initial answers) Timers.scheduler start start
    let interval := 2 * Tick.perSecond
    (∃ f ∈ m.flights interval 2 {}, f.Raises m.rowTime ⟨1 * Tick.perSecond, .transportDefect⟩) ∧
      (m.runPeriodic interval 2 {}).2.raised = none := by
  intro start broken slow answers m interval
  have hpace : (Pace.slept m.time interval 1).time = 2 * Tick.perSecond :=
    Pace.slept_seconds (by decide)
  have hone : Tick.after m.time (1 * Tick.perSecond) = 1 * Tick.perSecond :=
    Tick.after_zero_seconds (by decide)
  obtain ⟨first, s₁, h₁, hfirst⟩ :=
    exists_launch_defective Sessions.initial answers 0 0 rfl rfl rfl rfl
  obtain ⟨second, s₂, h₂, hsecond⟩ :=
    Client.exists_launch_late s₁ [slow] 1 (Pace.slept m.time interval 1).time rfl rfl rfl rfl
  obtain ⟨first, second, _, _, hflights, ⟨rfl, ht₁⟩, ⟨e, rfl⟩, ht₂⟩ :=
    exists_flights_of_two_launches m interval h₁ h₂ hfirst hsecond
  rw [hone] at ht₁
  have hend := m.exists_decisive interval {} (by decide : 1 ≤ 2)
  generalize m.runPeriodic interval 2 {} = ran at hend ⊢
  obtain ⟨before, last, front, decisive, later, hlast, hmem, hcourse, _, _, _, _, _, _, hraised⟩ :=
    hend
  have hstart : second.start = 2 * Tick.perSecond := by
    rw [start_eq_slept (show (m.flights interval 2 {})[1]? = some second by rw [hflights]; rfl), hpace]
  have horder := m.inOrder_course interval 2 {}
  rw [hcourse] at horder
  have hout := start_le_of_mem_after horder (List.mem_append_right front List.mem_cons_self)
  rw [hraised]
  rw [hflights] at hlast hmem ⊢
  obtain rfl : last = second := (Option.some.inj hlast).symm
  rw [hstart] at hout
  refine ⟨⟨first, by simp, Flight.raises_of_defect ht₁⟩, ?_⟩
  rcases List.mem_pair.mp hmem with rfl | rfl
  · -- the first refresh is over before the last start
    rw [ht₁] at hout
    exact absurd hout
      (Nat.mul_lt_mul_of_pos_right (by decide) Tick.perSecond_pos : _ < _).not_ge
  · exact Flight.failure?_of_gateway ht₂

end Monitor

end GatewayLedger
