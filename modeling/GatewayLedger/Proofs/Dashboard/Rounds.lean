import GatewayLedger.Proofs.Dashboard.Timeline
import GatewayLedger.Proofs.Time.Tick

/-!
# The rounds of a periodic run

A periodic run sleeps from tick to tick and does not look at what it has started, so its starts depend
on its interval alone. At its last start it begins to wait, and one completion decides how the wait
ends: the first one that leaves a failure, or else the last one of the run.
-/

namespace GatewayLedger

open Timeline

namespace Pace

variable {start interval seconds k : Nat}

/-- Where the sums are numbers of the format, the clock keeps to the multiples of the interval. -/
theorem slept_of_isExact (hi : Tick.IsExact interval)
    (h : ∀ j ≤ k, Tick.IsExact (start + j * interval)) :
    slept start interval k = ⟨start + k * interval, start + k * interval⟩ := by
  induction k with
  | zero => rw [slept, Nat.zero_mul, Nat.add_zero]
  | succ k ih =>
    have hnow := h k (Nat.le_succ k)
    have hnext := h (k + 1) le_rfl
    rw [Nat.succ_mul, ← Nat.add_assoc] at hnext ⊢
    have hlate : start + k * interval ≤ Tick.never := by
      rw [← hnow]
      exact Tick.round_le_never _
    rw [slept, ih fun j hj => h j (hj.trans (Nat.le_succ k)), sleep, hnext,
      Tick.after_remaining hlate hi hnext]

theorem slept_seconds (h : k * seconds < Rounding.pow2 53) :
    (slept 0 (seconds * Tick.perSecond) k).time = k * seconds * Tick.perSecond := by
  have hexact (j : Nat) (hj : j ≤ k) : Tick.IsExact (0 + j * (seconds * Tick.perSecond)) := by
    rw [Nat.zero_add, ← Nat.mul_assoc]
    exact Tick.isExact_seconds ((Nat.mul_le_mul_right seconds hj).trans_lt h)
  cases k with
  | zero => rw [slept, Nat.zero_mul, Nat.zero_mul]
  | succ k =>
    have hi := hexact 1 (Nat.succ_le_succ (Nat.zero_le k))
    rw [Nat.zero_add, Nat.one_mul] at hi
    rw [slept_of_isExact hi hexact, Nat.zero_add, Nat.mul_assoc]

end Pace

namespace Monitor

/-! ## The ticks -/

namespace Rounds

variable {first start interval tick count : Nat} {r : Rounds}

/-- The numbers and the starts of refreshes. -/
def heads (flights : List Flight) : List (Nat × Nat) := flights.map fun f => (f.number, f.start)

/-- What they are in a run that starts the given number of refreshes. -/
def schedule (first start interval count : Nat) : List (Nat × Nat) :=
  (List.range count).map fun k => (first + k, (Pace.slept start interval k).time)

/-- A run that stands at a tick and has started a number of refreshes on time. -/
structure OnTime (first start interval tick count : Nat) (r : Rounds) : Prop where
  pace : r.pace = Pace.slept start interval tick
  number : r.number = first + count
  heads : heads r.started = schedule first start interval count

theorem schedule_succ (first start interval count : Nat) :
    schedule first start interval (count + 1) = schedule first start interval count ++
      [(first + count, (Pace.slept start interval count).time)] := by
  rw [schedule, List.range_succ, List.map_append]
  rfl

theorem OnTime.launch (h : OnTime first start interval tick tick r) (filter : Filter) :
    OnTime first start interval tick (tick + 1) (r.launch filter) where
  pace := h.pace
  number := by
    have hnumber := h.number
    simp only [Rounds.launch]
    omega
  heads := by
    have hlaunch : Rounds.heads (r.launch filter).started =
        Rounds.heads r.started ++ [(r.number, r.pace.time)] := List.map_append
    rw [hlaunch, h.heads, h.number, h.pace, schedule_succ]

theorem OnTime.sleep (h : OnTime first start interval tick count r) :
    OnTime first start interval (tick + 1) count (r.sleep interval) where
  pace := by rw [Rounds.sleep, h.pace, Pace.slept]
  number := h.number
  heads := h.heads

/-- Whatever the refreshes take, the run gets to its last tick with all starts on time. -/
theorem OnTime.run (h : OnTime first start interval tick tick r) (filter : Filter) (ticks : Nat) :
    OnTime first start interval (tick + ticks) (tick + ticks + 1)
      (Rounds.run interval filter (ticks + 1) r) := by
  induction ticks generalizing tick r with
  | zero =>
    rw [Rounds.run, if_pos rfl]
    exact h.launch filter
  | succ ticks ih =>
    have hlater := ih (h.launch filter).sleep
    rw [Rounds.run, if_neg (Nat.succ_ne_zero ticks)]
    have hshift : tick + 1 + ticks = tick + (ticks + 1) := by omega
    rwa [hshift] at hlater

theorem onTime_rounds (m : Monitor) (interval ticks : Nat) (filter : Filter) :
    OnTime m.nextNumber m.time interval ticks (ticks + 1)
      (m.rounds interval (ticks + 1) filter) := by
  have hinitial : OnTime m.nextNumber m.time interval 0 0 m.roundsFrom := ⟨rfl, rfl, rfl⟩
  have h := hinitial.run filter ticks
  rwa [Nat.zero_add] at h

end Rounds

open Rounds (heads schedule onTime_rounds)

variable {m : Monitor} {interval ticks k : Nat} {filter : Filter} {f g : Flight}

/-- The refreshes of a periodic run in the order of their starts. -/
def flights (m : Monitor) (interval ticks : Nat) (filter : Filter) : List Flight :=
  m.takeUp (m.rounds interval ticks filter).started

/-- All that happens during a periodic run and after it, in the order of the event loop. -/
def course (m : Monitor) (interval ticks : Nat) (filter : Filter) : Timeline :=
  m.layOut (m.rounds interval ticks filter).started

theorem heads_flights (m : Monitor) (interval ticks : Nat) (filter : Filter) :
    heads (m.flights interval ticks filter) = schedule m.nextNumber m.time interval ticks := by
  have htakeUp (fs : List Flight) : heads (m.takeUp fs) = heads fs := by
    rw [heads, takeUp, List.map_map]
    rfl
  rw [flights, htakeUp]
  cases ticks with
  | zero => rfl
  | succ further => exact (onTime_rounds m interval further filter).heads

theorem length_flights (m : Monitor) (interval ticks : Nat) (filter : Filter) :
    (m.flights interval ticks filter).length = ticks := by
  have hlength := congrArg List.length (m.heads_flights interval ticks filter)
  simpa [heads, schedule] using hlength

theorem head_flight (hk : k < (m.flights interval ticks filter).length) :
    (m.flights interval ticks filter)[k].number = m.nextNumber + k ∧
      (m.flights interval ticks filter)[k].start = (Pace.slept m.time interval k).time := by
  have hheads := congrArg (·[k]?) (m.heads_flights interval ticks filter)
  have hlt : k < ticks := by rwa [length_flights] at hk
  simpa [heads, schedule, hk, hlt] using hheads

theorem start_eq_slept (h : (m.flights interval ticks filter)[k]? = some f) :
    f.start = (Pace.slept m.time interval k).time := by
  obtain ⟨hk, rfl⟩ := List.getElem?_eq_some_iff.mp h
  exact (head_flight hk).2

theorem nextNumber_le (hf : f ∈ m.flights interval ticks filter) : m.nextNumber ≤ f.number := by
  obtain ⟨k, hk, rfl⟩ := List.getElem_of_mem hf
  rw [(head_flight hk).1]
  exact Nat.le_add_right _ _

/-- A refresh is known by its number. -/
theorem eq_of_number_eq (hf : f ∈ m.flights interval ticks filter)
    (hg : g ∈ m.flights interval ticks filter) (h : f.number = g.number) : f = g := by
  obtain ⟨j, hj, rfl⟩ := List.getElem_of_mem hf
  obtain ⟨k, hk, rfl⟩ := List.getElem_of_mem hg
  rw [(head_flight hj).1, (head_flight hk).1] at h
  obtain rfl : j = k := by omega
  rfl

theorem isCompletionFrom_completionOf (hf : f ∈ m.flights interval ticks filter) :
    isCompletionFrom m.nextNumber f.completionOf = true :=
  isCompletionFrom_iff.mpr ⟨nextNumber_le hf, rfl⟩

theorem completionOf_mem_course (hf : f ∈ m.flights interval ticks filter) :
    f.completionOf ∈ m.course interval ticks filter :=
  mem_layOut_of_mem_timeline hf f.completionOf_mem_timeline

theorem inOrder_course (m : Monitor) (interval ticks : Nat) (filter : Filter) :
    InOrder (m.course interval ticks filter) := m.inOrder_layOut _

/-! ## The last start -/

variable {last : Flight} {before after front later : Timeline} {h : Timed Happening}

theorem exists_last (m : Monitor) (interval : Nat) (filter : Filter) (hticks : 1 ≤ ticks) :
    ∃ last, (m.flights interval ticks filter).getLast? = some last ∧
      (m.rounds interval ticks filter).number = last.number + 1 := by
  obtain ⟨further, rfl⟩ : ∃ further, ticks = further + 1 := ⟨ticks - 1, by omega⟩
  have hlt : further < (m.flights interval (further + 1) filter).length := by
    rw [length_flights]
    exact Nat.lt_succ_self further
  refine ⟨(m.flights interval (further + 1) filter)[further], ?_, ?_⟩
  · rw [List.getLast?_eq_getElem?, length_flights, Nat.add_sub_cancel, List.getElem?_eq_getElem hlt]
  · rw [(onTime_rounds m interval further filter).number, (head_flight hlt).1, Nat.add_assoc]

theorem eq_startOf_of_isLastStart (hlast : last ∈ m.flights interval ticks filter)
    (hnumber : (m.rounds interval ticks filter).number = last.number + 1)
    (hh : h ∈ m.course interval ticks filter)
    (hstart : isLastStart (m.rounds interval ticks filter) h = true) : h = last.startOf := by
  simp only [isLastStart, hnumber, Bool.and_eq_true, beq_iff_eq, Nat.add_right_cancel_iff] at hstart
  obtain ⟨hsame, hrank⟩ := hstart
  obtain ⟨f, hf, hfh⟩ := exists_mem_timeline hh (hsame ▸ nextNumber_le hlast)
  obtain rfl : f = last :=
    eq_of_number_eq hf hlast ((Flight.refresh_of_mem_timeline hfh).symm.trans hsame)
  exact Flight.eq_startOf hfh hrank

/-- A refresh completes behind its start. -/
theorem completionOf_mem_after (ho : InOrder (before ++ f.startOf :: after))
    (hmem : f.completionOf ∈ before ++ f.startOf :: after) : f.completionOf ∈ after := by
  have hne : f.completionOf ≠ f.startOf := fun h => by cases congrArg (·.value.event.rank) h
  have hfirst : Precedes f.startOf f.completionOf :=
    (Flight.precedes_completionOf f.startOf_mem_timeline).resolve_left hne.symm
  rcases List.mem_append.mp hmem with hbefore | hback
  · exact absurd hfirst (ho.not_precedes hbefore List.mem_cons_self)
  · exact (List.mem_cons.mp hback).resolve_left hne

/-- The refresh that starts last divides the course of a run, and it completes behind its start. -/
theorem exists_through_course (m : Monitor) (interval : Nat) (filter : Filter)
    (hticks : 1 ≤ ticks) :
    ∃ before last after, (m.flights interval ticks filter).getLast? = some last ∧
      m.course interval ticks filter = before ++ last.startOf :: after ∧
      last.completionOf ∈ after ∧
      through (isLastStart (m.rounds interval ticks filter)) (m.course interval ticks filter) =
        (before ++ [last.startOf], after) := by
  obtain ⟨last, hlast, hnumber⟩ := m.exists_last interval filter hticks
  have hmem : last ∈ m.flights interval ticks filter := List.mem_of_getLast? hlast
  have hstart : last.startOf ∈ m.course interval ticks filter :=
    mem_layOut_of_mem_timeline hmem last.startOf_mem_timeline
  have hislast : isLastStart (m.rounds interval ticks filter) last.startOf = true := by
    rw [isLastStart, hnumber]
    simp [Flight.startOf, Event.rank]
  obtain ⟨before, a, after, hsplit, ha, hthrough⟩ := exists_through ⟨_, hstart, hislast⟩
  have hcourse : a ∈ m.course interval ticks filter := by
    rw [hsplit]
    exact List.mem_append_right _ List.mem_cons_self
  obtain rfl := eq_startOf_of_isLastStart hmem hnumber hcourse ha
  refine ⟨before, last, after, hlast, hsplit, ?_, hthrough⟩
  exact completionOf_mem_after (hsplit ▸ m.inOrder_course interval ticks filter)
    (hsplit ▸ completionOf_mem_course hmem)

/-! ## The end of a run -/

/-- What is not still to come when a refresh completes has completed no later. -/
theorem instant_le_of_not_mem
    (hcourse : m.course interval ticks filter = front ++ g.completionOf :: later)
    (hf : f ∈ m.flights interval ticks filter) (hnot : f.completionOf ∉ later) :
    f.task.instant ≤ g.task.instant := by
  have hmem := completionOf_mem_course hf
  have horder := m.inOrder_course interval ticks filter
  rw [hcourse, ← List.singleton_append, ← List.append_assoc] at hmem horder
  exact horder.of_append_left.le_last ((List.mem_append.mp hmem).resolve_right hnot)

theorem completionOf_mem_front
    (hcourse : m.course interval ticks filter = front ++ g.completionOf :: later)
    (hf : f ∈ m.flights interval ticks filter) (hg : g ∈ m.flights interval ticks filter)
    (hne : f ≠ g) (hnot : f.completionOf ∉ later) : f.completionOf ∈ front := by
  have hmem := completionOf_mem_course hf
  rw [hcourse, List.mem_append, List.mem_cons] at hmem
  rcases hmem with hfront | heq | hlater
  · exact hfront
  · exact absurd (eq_of_number_eq hf hg (congrArg (·.value.refresh) heq)) hne
  · exact absurd hlater hnot

/-- Once all refreshes of a run are over, what is still to come was on the agenda before. -/
theorem mem_agenda_of_over (hcourse : m.course interval ticks filter = front ++ later)
    (hover : ∀ f ∈ m.flights interval ticks filter, f.completionOf ∉ later) (hh : h ∈ later) :
    h ∈ m.agenda := by
  have hmem : h ∈ m.course interval ticks filter := by
    rw [hcourse]
    exact List.mem_append_right _ hh
  rcases mem_layOut.mp hmem with hagenda | ⟨f, hf, hfh⟩
  · exact hagenda
  · have hdone := completionOf_mem_course hf
    have horder := m.inOrder_course interval ticks filter
    rw [hcourse] at hdone horder
    have hpassed := (List.mem_append.mp hdone).resolve_right (hover f hf)
    rcases Flight.precedes_completionOf hfh with rfl | hprecedes
    · exact absurd hh (hover f hf)
    · exact absurd hprecedes (horder.not_precedes hpassed hh)

/-- The end of a periodic run. One completion decides it: whatever has completed between the last
start and this completion has left no failure, and if this one leaves none either, no other one is
still to come. -/
theorem exists_decisive (m : Monitor) (interval : Nat) (filter : Filter) (hticks : 1 ≤ ticks) :
    let flights := m.flights interval ticks filter
    let ran := m.runPeriodic interval ticks filter
    ∃ before last front decisive later, flights.getLast? = some last ∧ decisive ∈ flights ∧
      m.course interval ticks filter =
        before ++ last.startOf :: (front ++ decisive.completionOf :: later) ∧
      (∀ f ∈ flights, f.completionOf ∈ front → f.failure? m.rowTime = none) ∧
      (decisive.failure? m.rowTime = none → ∀ f ∈ flights, f.completionOf ∉ later) ∧
      ran.1.time = decisive.task.instant ∧ ran.1.agenda = later ∧
      ran.1.dashboard = (m.performAll m.dashboard
        (before ++ last.startOf :: (front ++ [decisive.completionOf]))).1 ∧
      ran.2.requests = flights.flatMap Flight.requests ∧
      ran.2.raised = decisive.failure? m.rowTime := by
  intro flights ran
  obtain ⟨before, last, after, hlast, hsplit, hafter, hthrough⟩ :=
    m.exists_through_course interval filter hticks
  obtain ⟨front, h, later, rfl, hh, hawait, hfront, hlater⟩ := exists_await m.rowTime
    ⟨_, hafter, isCompletionFrom_completionOf (List.mem_of_getLast? hlast)⟩
  have hcourse : h ∈ m.course interval ticks filter := by
    rw [hsplit]
    simp
  obtain ⟨decisive, hmem, rfl⟩ := exists_eq_completionOf hcourse hh
  have hran : ran = m.finish (m.rounds interval ticks filter) := if_neg (by omega)
  simp only [finish, show m.layOut _ = m.course interval ticks filter from rfl, hthrough, hawait]
    at hran
  refine ⟨before, last, front, decisive, later, hlast, hmem, hsplit, ?_, ?_, ?_, ?_, ?_, ?_, ?_⟩
  · exact fun f hf hin => hfront _ hin (isCompletionFrom_completionOf hf)
  · intro hfine f hf hin
    cases (isCompletionFrom_completionOf hf).symm.trans (hlater hfine _ hin)
  · rw [hran]
    simp [Flight.completionOf]
  · rw [hran]
  · rw [hran]
    simp
  · rw [hran]
    rfl
  · rw [hran]
    rfl

end Monitor

end GatewayLedger
