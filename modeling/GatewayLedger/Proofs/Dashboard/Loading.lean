import GatewayLedger.Proofs.Dashboard.Refresh
import Mathlib.Data.List.DropRight

/-!
# Leaving the loading state

A refresh that starts puts the dashboard into the loading state. One that ends with data or with an
error of the exchange takes it out again, while one that leaves another failure to its caller does
not. So what counts are the refreshes that end after the last start: the last of them that shows
anything decides, and if none of them does, the dashboard keeps loading with nothing in flight.
-/

namespace GatewayLedger

namespace Dashboard

/-- What happens to a dashboard: a refresh starts, or one of those in flight ends. They are numbered in
the order of their starts. -/
inductive Step where
  | start
  | finish (number : Nat) (outcome : Except Failure Fetched) (clock : RowClock)
      (time : Option Moment)

namespace Step

def isStart : Step → Bool
  | start => true
  | finish _ _ _ _ => false

def ended? : Step → Option Nat
  | start => none
  | finish number _ _ _ => some number

/-- The state in which a refresh leaves the dashboard that ends without a failure for its caller. -/
def shown? : Step → Option DashboardState
  | start => none
  | finish _ outcome clock _ =>
    match Dashboard.failureOf outcome clock, outcome with
    | some _, _ => none
    | none, .ok _ => some .ready
    | none, .error _ => some .error

theorem shown?_cases {t : Step} {state : DashboardState} (h : t.shown? = some state) :
    state = .ready ∨ state = .error := by
  cases t with
  | start => cases h
  | finish number outcome clock time =>
    simp only [shown?] at h
    split at h
    · cases h
    · exact .inl (Option.some.inj h).symm
    · exact .inr (Option.some.inj h).symm

end Step

def perform (d : Dashboard) : Step → Dashboard
  | .start => d.start
  | .finish _ outcome clock time => (d.complete outcome clock time).dashboard

def performAll (d : Dashboard) (steps : List Step) : Dashboard := steps.foldl perform d

theorem performAll_snoc (d : Dashboard) (steps : List Step) (t : Step) :
    d.performAll (steps ++ [t]) = (d.performAll steps).perform t := by
  rw [performAll, performAll, List.foldl_append, List.foldl_cons, List.foldl_nil]

/-- A refresh that ends shows its state, or leaves the one that it finds. -/
theorem state_perform_finish (d : Dashboard) (number : Nat) (outcome : Except Failure Fetched)
    (clock : RowClock) (time : Option Moment) :
    (d.perform (.finish number outcome clock time)).context.state =
      (Step.finish number outcome clock time).shown?.getD d.context.state := by
  match outcome with
  | .ok f =>
    simp only [perform, complete, showData, Step.shown?, failureOf]
    cases f.sources.ledger clock with
    | error fault => rfl
    | ok ledger => cases Balance.ofPayload f.account <;> rfl
  | .error failure => cases failure <;> rfl

namespace Step

variable {steps : List Step} {t : Step}

/-! ## Runs of refreshes -/

def started (steps : List Step) : Nat := steps.countP isStart

def ended (steps : List Step) : List Nat := steps.filterMap ended?

def InFlight (steps : List Step) (number : Nat) : Prop :=
  number < started steps ∧ number ∉ ended steps

instance (steps : List Step) (number : Nat) : Decidable (InFlight steps number) :=
  inferInstanceAs (Decidable (_ ∧ _))

/-- The steps of a run: only a refresh ends that is in flight. -/
inductive Run : List Step → Prop
  | nil : Run []
  | start {steps : List Step} (h : Run steps) : Run (steps ++ [.start])
  | finish {steps : List Step} {number : Nat} {outcome : Except Failure Fetched} {clock : RowClock}
      {time : Option Moment} (h : Run steps) (hf : InFlight steps number) :
      Run (steps ++ [.finish number outcome clock time])

/-- The steps after the last start. -/
def sinceStart (steps : List Step) : List Step := steps.rtakeWhile (!·.isStart)

theorem sinceStart_start (steps : List Step) : sinceStart (steps ++ [.start]) = [] := by
  rw [sinceStart, List.rtakeWhile_concat]
  rfl

theorem sinceStart_finish (steps : List Step) (number : Nat) (outcome : Except Failure Fetched)
    (clock : RowClock) (time : Option Moment) :
    sinceStart (steps ++ [.finish number outcome clock time]) =
      sinceStart steps ++ [.finish number outcome clock time] := by
  rw [sinceStart, List.rtakeWhile_concat]
  rfl

theorem started_start (steps : List Step) : started (steps ++ [.start]) = started steps + 1 := by
  rw [started, List.countP_append]
  rfl

theorem started_finish (steps : List Step) (number : Nat) (outcome : Except Failure Fetched)
    (clock : RowClock) (time : Option Moment) :
    started (steps ++ [.finish number outcome clock time]) = started steps := by
  rw [started, List.countP_append]
  rfl

theorem Run.lt_started (h : Run steps) : ∀ number ∈ ended steps, number < started steps := by
  induction h with
  | nil => simp [ended]
  | @start steps h ih =>
    intro number hmem
    rw [started_start]
    have hold : number ∈ ended steps := by simpa [ended, ended?] using hmem
    exact Nat.lt_succ_of_lt (ih number hold)
  | @finish steps last outcome clock time h hf ih =>
    intro number hmem
    rw [started_finish]
    rcases (by simpa [ended, ended?] using hmem : number ∈ ended steps ∨ number = last) with
      hold | rfl
    · exact ih number hold
    · exact hf.1

/-- The refresh that started last ends after all starts. -/
theorem Run.sinceStart_ne_nil (h : Run steps) (hstarted : 0 < started steps)
    (hquiet : ∀ number, ¬ InFlight steps number) : sinceStart steps ≠ [] := by
  cases h with
  | nil => simp [started] at hstarted
  | @start steps h =>
    have hnew : InFlight (steps ++ [.start]) (started steps) := by
      refine ⟨by rw [started_start]; exact Nat.lt_succ_self _, ?_⟩
      intro hmem
      have hold : started steps ∈ ended steps := by simpa [ended, ended?] using hmem
      exact (h.lt_started _ hold).false
    exact absurd hnew (hquiet _)
  | finish h hf =>
    rw [sinceStart_finish]
    simp

end Step

open Step

variable {steps : List Step}

/-- The state is the one that was shown last since the last start. -/
theorem state_performAll (d : Dashboard) (hstarted : 0 < started steps) :
    (d.performAll steps).context.state =
      ((sinceStart steps).filterMap shown?).getLast?.getD .loading := by
  induction steps using List.reverseRecOn with
  | nil => simp [started] at hstarted
  | append_singleton steps t ih =>
    rw [performAll_snoc]
    cases t with
    | start =>
      rw [sinceStart_start]
      rfl
    | finish number outcome clock time =>
      rw [started_finish] at hstarted
      rw [state_perform_finish, sinceStart_finish, ih hstarted, List.filterMap_append]
      cases hshown : (Step.finish number outcome clock time).shown? with
      | none => simp [hshown]
      | some state => simp [hshown]

/-- When all refreshes of a run have ended, the dashboard is ready or shows an error exactly if one of
those that ended after the last start has shown anything. It is still loading if each of them, and
there is at least one, has left a failure to its caller. -/
theorem leaves_loading_iff_shown_since_last_start (hrun : Run steps) (hstarted : 0 < started steps)
    (hquiet : ∀ number, ¬ InFlight steps number) (r : Reconciler) :
    let state := ((⟨Context.initial, r⟩ : Dashboard).performAll steps).context.state
    sinceStart steps ≠ [] ∧
      ((state = .ready ∨ state = .error) ↔ ∃ t ∈ sinceStart steps, t.shown? ≠ none) ∧
      (state = .loading ↔ ∀ t ∈ sinceStart steps, t.shown? = none) := by
  intro state
  have hstate : state = ((sinceStart steps).filterMap shown?).getLast?.getD .loading :=
    state_performAll _ hstarted
  refine ⟨hrun.sinceStart_ne_nil hstarted hquiet, ?_⟩
  cases hlast : ((sinceStart steps).filterMap shown?).getLast? with
  | none =>
    have hnone : ∀ t ∈ sinceStart steps, t.shown? = none :=
      List.filterMap_eq_nil_iff.mp (List.getLast?_eq_none_iff.mp hlast)
    have hloading : state = .loading := by rw [hstate, hlast, Option.getD_none]
    refine ⟨?_, fun _ => hnone, fun _ => hloading⟩
    simp only [hloading, reduceCtorEq, or_self, false_iff, not_exists, not_and, not_not]
    exact hnone
  | some last =>
    obtain ⟨t, ht, hshown⟩ := List.mem_filterMap.mp (List.mem_of_getLast? hlast)
    have hsettled : state = .ready ∨ state = .error := by
      rw [hstate, hlast, Option.getD_some]
      exact shown?_cases hshown
    refine ⟨⟨fun _ => ⟨t, ht, by simp [hshown]⟩, fun _ => hsettled⟩, ?_, ?_⟩
    · intro hloading
      rw [hloading] at hsettled
      rcases hsettled with h | h <;> cases h
    · intro hnone
      cases (hnone t ht).symm.trans hshown

/-- Of two refreshes one fails with an error of the exchange, and then the other one otherwise. -/
theorem leaves_loading_of_two_failures :
    let clock := RowClock.still ⟨0, some 0, by decide⟩
    let denied : Except Failure Fetched := .error (.gateway (.auth 401 ""))
    let broken : Except Failure Fetched := .error .transportDefect
    let steps := [.start, .start, .finish 1 denied clock none, .finish 0 broken clock none]
    (Run steps ∧ 0 < started steps ∧ ∀ number, ¬ InFlight steps number) ∧
      (initial.performAll steps).context.state ≠ .loading := by
  intro clock denied broken steps
  have hrun : Run steps := .finish (.finish (.start (.start .nil)) (by decide)) (by decide)
  have hquiet : ∀ number, ¬ InFlight steps number := by
    intro number ⟨hlt, hnot⟩
    have hstarted : number < 2 := hlt
    have hended : number ∉ [1, 0] := hnot
    simp only [List.mem_cons, List.not_mem_nil, or_false, not_or] at hended
    omega
  obtain ⟨_, _, hloading⟩ :=
    leaves_loading_iff_shown_since_last_start hrun (by decide) hquiet Reconciler.initial
  refine ⟨⟨hrun, by decide, hquiet⟩, ?_⟩
  intro h
  have hsince : sinceStart steps = [.finish 1 denied clock none, .finish 0 broken clock none] := rfl
  have hshown := hloading.mp h (.finish 1 denied clock none) (by rw [hsince]; simp)
  cases hshown

/-- The only refresh leaves a failure to its caller, and the dashboard goes on loading. -/
theorem loading_after_defect :
    let clock := RowClock.still ⟨0, some 0, by decide⟩
    let steps := [.start, .finish 0 (.error .transportDefect) clock none]
    (Run steps ∧ 0 < started steps ∧ ∀ number, ¬ InFlight steps number) ∧
      ¬ ((initial.performAll steps).context.state = .ready ∨
        (initial.performAll steps).context.state = .error) := by
  intro clock steps
  have hquiet : ∀ number, ¬ InFlight steps number := by
    intro number ⟨hlt, hnot⟩
    have hstarted : number < 1 := hlt
    have hended : number ∉ [0] := hnot
    simp only [List.mem_singleton] at hended
    omega
  have hloading : (initial.performAll steps).context.state = .loading := rfl
  refine ⟨⟨.finish (.start .nil) (by decide), by decide, hquiet⟩, ?_⟩
  rw [hloading]
  decide

end Dashboard

end GatewayLedger
