import GatewayLedger.Concurrent
import Mathlib.Data.List.Basic
import Mathlib.Data.List.Sort

/-!
# How a job ends

A job ends at the earliest instant at which one of its tasks fails, and with an error of that
instant: a preferred one if there is one, at whatever depth of the groups it stands. Tasks that are
due later have no part in this. A job none of whose tasks fails does not fail either.
-/

namespace GatewayLedger.Job

variable {ε α β : Type} {preferred : ε → Bool}

@[simp] theorem tasks_running (x : Task ε α) : (running x).tasks = [x] := by simp [tasks]

@[simp] theorem tasks_group (members : List (Job ε α)) :
    (group members).tasks = members.flatMap tasks := by simp [tasks]

@[simp] theorem tasks_done (v : α) : (done v : Job ε α).tasks = [] := by simp [tasks]

@[simp] theorem tasks_failed (e : ε) : (failed e : Job ε α).tasks = [] := by simp [tasks]

@[simp] theorem tasks_cancelled : (cancelled : Job ε α).tasks = [] := by simp [tasks]

theorem tasks_ofOutcome (r : Except ε α) : (ofOutcome r).tasks = [] := by
  cases r <;> simp [ofOutcome]

/-! ## Choosing among errors -/

theorem pick_eq_none_iff {errors : List ε} : pick preferred errors = none ↔ errors = [] := by
  unfold pick
  cases errors <;> simp

theorem mem_of_pick {errors : List ε} {e : ε} (h : pick preferred errors = some e) :
    e ∈ errors := by
  rcases Option.or_eq_some_iff.mp h with hf | ⟨_, hh⟩
  · exact List.mem_of_find?_eq_some hf
  · exact List.mem_of_head? hh

/-- A preferred error is never passed over for another one. -/
theorem preferred_of_pick {errors : List ε} {e f : ε} (h : pick preferred errors = some e)
    (hf : f ∈ errors) (hp : preferred f = true) : preferred e = true := by
  rcases Option.or_eq_some_iff.mp h with hs | ⟨hn, _⟩
  · exact List.find?_some hs
  · exact absurd hp (List.find?_eq_none.mp hn f hf)

/-! ## The error of a job -/

@[simp] theorem error?_running (x : Task ε α) : (running x).error? preferred = none := by
  simp [error?]

@[simp] theorem error?_done (v : α) : (done v : Job ε α).error? preferred = none := by
  simp [error?]

@[simp] theorem error?_cancelled : (cancelled : Job ε α).error? preferred = none := by
  simp [error?]

theorem error?_group (members : List (Job ε α)) :
    (group members).error? preferred = pick preferred (members.filterMap (error? preferred)) := by
  simp [error?]

theorem error?_group_eq_none_iff {members : List (Job ε α)} :
    (group members).error? preferred = none ↔ ∀ j ∈ members, j.error? preferred = none := by
  rw [error?_group, pick_eq_none_iff, List.filterMap_eq_nil_iff]

theorem error?_group_map (members : List (Job ε α)) (f : Job ε α → Job ε α)
    (h : ∀ j ∈ members, (f j).error? preferred = j.error? preferred) :
    (group (members.map f)).error? preferred = (group members).error? preferred := by
  rw [error?_group, error?_group, List.filterMap_map]
  congr 1
  exact List.filterMap_congr h

theorem error?_cancel (j : Job ε α) : j.cancel.error? preferred = j.error? preferred := by
  induction j with
  | group members ih =>
    rw [cancel]
    exact error?_group_map members cancel ih
  | _ => simp [cancel]

theorem error?_abort (j : Job ε α) : (j.abort preferred).error? preferred = j.error? preferred := by
  induction j with
  | group members ih =>
    rw [abort]
    split
    · rw [error?_group_map _ cancel fun j _ => error?_cancel j]
      exact error?_group_map members _ ih
    · exact error?_group_map members _ ih
  | _ => simp [abort]

theorem tasks_cancel (j : Job ε α) : j.cancel.tasks = [] := by
  induction j with
  | group members ih => simpa [cancel, List.flatMap_map] using ih
  | _ => simp [cancel]

/-- Once failures have taken effect, nothing runs in a job that has met an error. -/
theorem tasks_abort_of_error {j : Job ε α} {e : ε} (h : j.error? preferred = some e) :
    (j.abort preferred).tasks = [] := by
  cases j with
  | group members =>
    have hany : (members.map (abort preferred)).any (fun j => (j.error? preferred).isSome) := by
      by_contra hnone
      have hall : ∀ j ∈ members, j.error? preferred = none := by
        simpa [error?_abort] using hnone
      rw [error?_group_eq_none_iff.mpr hall] at h
      cases h
    rw [abort, if_pos hany]
    simpa [List.flatMap_map] using fun j _ => tasks_cancel _
  | running x => simp at h
  | _ => simp [abort]

theorem abort_of_no_error {j : Job ε α} (h : j.error? preferred = none) :
    j.abort preferred = j := by
  induction j with
  | group members ih =>
    have hall := error?_group_eq_none_iff.mp h
    have hmap : members.map (abort preferred) = members :=
      (List.map_congr_left fun j hj => ih j hj (hall j hj)).trans (List.map_id' members)
    rw [abort, hmap]
    apply if_neg
    simpa using hall
  | _ => simp [abort]

/-! ## One instant -/

def FailsAt (x : Task ε α) (instant : Nat) (e : ε) : Prop :=
  x.instant = instant ∧ x.value = .error e

theorem deliver_running (instant : Nat) (x : Task ε α) :
    (running x).deliver instant = if x.instant = instant then ofOutcome x.value else running x := by
  simp [deliver]

theorem tasks_deliver (instant : Nat) (j : Job ε α) :
    (j.deliver instant).tasks = j.tasks.filter fun x => x.instant ≠ instant := by
  induction j with
  | running x =>
    rw [deliver_running]
    split
    · next h => simp [tasks_ofOutcome, h]
    · next h => simp [h]
  | group members ih =>
    simp only [deliver, tasks_group, List.flatMap_map, List.filter_flatMap]
    exact List.flatMap_congr ih
  | _ => simp [deliver]

theorem error?_ofOutcome (r : Except ε α) (e : ε) :
    (ofOutcome r).error? preferred = some e ↔ r = .error e := by
  cases r <;> simp [ofOutcome, error?]

theorem error?_deliver_of_no_failure {instant : Nat} {j : Job ε α}
    (h : ∀ x ∈ j.tasks, ∀ e, ¬ FailsAt x instant e) :
    (j.deliver instant).error? preferred = j.error? preferred := by
  induction j with
  | running x =>
    rw [deliver_running]
    split
    · next hx =>
      rw [error?_running, Option.eq_none_iff_forall_ne_some]
      intro e he
      exact h x (by simp) e ⟨hx, (error?_ofOutcome _ _).mp he⟩
    · rfl
  | group members ih =>
    rw [deliver]
    apply error?_group_map
    intro j hj
    exact ih j hj fun x hx => h x (by simpa using ⟨j, hj, hx⟩)
  | _ => simp [deliver]

/-- What has delivered a value before makes no difference to the error of a later instant. -/
theorem error?_deliver_deliver {early late : Nat} {j : Job ε α}
    (h : ∀ x ∈ j.tasks, ∀ e, ¬ FailsAt x early e) :
    ((j.deliver early).deliver late).error? preferred = (j.deliver late).error? preferred := by
  induction j with
  | running x =>
    rw [deliver_running]
    split
    · next hx =>
      cases hv : x.value with
      | ok v =>
        rw [deliver_running]
        split <;> simp [ofOutcome, deliver, hv]
      | error e => exact absurd ⟨hx, hv⟩ (h x (by simp) e)
    · rfl
  | group members ih =>
    simp only [deliver, List.map_map, error?_group, List.filterMap_map]
    congr 1
    apply List.filterMap_congr
    intro j hj
    exact ih j hj fun x hx => h x (by simpa using ⟨j, hj, hx⟩)
  | _ => simp [deliver]

theorem exists_error_of_failsAt (preferred : ε → Bool) {instant : Nat} {j : Job ε α}
    {x : Task ε α} {e : ε} (hx : x ∈ j.tasks) (hf : FailsAt x instant e) :
    ∃ f, (j.deliver instant).error? preferred = some f := by
  induction j with
  | running y =>
    obtain rfl : x = y := by simpa using hx
    exact ⟨e, by rw [deliver_running, if_pos hf.1, error?_ofOutcome, hf.2]⟩
  | group members ih =>
    obtain ⟨j, hj, hxj⟩ : ∃ j ∈ members, x ∈ j.tasks := by simpa using hx
    obtain ⟨f, hff⟩ := ih j hj hxj
    rw [← Option.ne_none_iff_exists', deliver, Ne, error?_group_eq_none_iff]
    intro hnone
    have := hnone (j.deliver instant) (List.mem_map_of_mem hj)
    simp [hff] at this
  | _ => simp at hx

theorem exists_failsAt_of_error {instant : Nat} {j : Job ε α} {e : ε}
    (hj : j.error? preferred = none) (h : (j.deliver instant).error? preferred = some e) :
    ∃ x ∈ j.tasks, FailsAt x instant e := by
  induction j with
  | running x =>
    rw [deliver_running] at h
    split at h
    · next hx => exact ⟨x, by simp, hx, (error?_ofOutcome _ _).mp h⟩
    · simp at h
  | group members ih =>
    rw [deliver, error?_group] at h
    obtain ⟨j, hm, hje⟩ : ∃ j ∈ members, (j.deliver instant).error? preferred = some e := by
      simpa using mem_of_pick h
    obtain ⟨x, hx, hf⟩ := ih j hm (error?_group_eq_none_iff.mp hj j hm) hje
    exact ⟨x, by simpa using ⟨j, hm, hx⟩, hf⟩
  | failed e => simp [error?] at hj
  | _ => simp [deliver] at h

/-- However deep a preferred error of an instant stands, the job fails with a preferred one. -/
theorem preferred_of_failsAt {instant : Nat} {j : Job ε α} {x : Task ε α} {e f : ε}
    (hx : x ∈ j.tasks) (hf : FailsAt x instant f) (hp : preferred f = true)
    (h : (j.deliver instant).error? preferred = some e) : preferred e = true := by
  induction j generalizing e with
  | running y =>
    obtain rfl : x = y := by simpa using hx
    rw [deliver_running, if_pos hf.1, error?_ofOutcome, hf.2] at h
    cases h
    exact hp
  | group members ih =>
    obtain ⟨j, hj, hxj⟩ : ∃ j ∈ members, x ∈ j.tasks := by simpa using hx
    obtain ⟨g, hg⟩ := exists_error_of_failsAt preferred hxj hf
    have hpg := ih j hj hxj hg
    rw [deliver, error?_group] at h
    exact preferred_of_pick h (by simpa using ⟨j, hj, hg⟩) hpg
  | _ => simp at hx

/-! ## From one instant to the next -/

/-- No task fails before an instant, and one of them fails at it. -/
def FirstFailsAt (j : Job ε α) (instant : Nat) : Prop :=
  (∃ x ∈ j.tasks, ∃ e, FailsAt x instant e) ∧
    ∀ x ∈ j.tasks, ∀ t e, FailsAt x t e → instant ≤ t

theorem tick_of_no_failure {instant : Nat} {j : Job ε α} (hj : j.error? preferred = none)
    (h : ∀ x ∈ j.tasks, ∀ e, ¬ FailsAt x instant e) :
    j.tick preferred instant = j.deliver instant :=
  abort_of_no_error ((error?_deliver_of_no_failure h).trans hj)

theorem error?_tick (instant : Nat) (j : Job ε α) :
    (j.tick preferred instant).error? preferred = (j.deliver instant).error? preferred :=
  error?_abort _

theorem firstFailsAt_deliver {early late : Nat} {j : Job ε α} (h : FirstFailsAt j late)
    (hne : early ≠ late) : FirstFailsAt (j.deliver early) late := by
  simp only [FirstFailsAt, tasks_deliver, List.mem_filter, decide_eq_true_eq]
  obtain ⟨⟨x, hx, e, hf⟩, hfirst⟩ := h
  refine ⟨⟨x, ⟨hx, ?_⟩, e, hf⟩, fun y hy => hfirst y hy.1⟩
  rw [hf.1]
  exact hne.symm

/-- A job with a task that fails is over at the earliest failure, whatever is due later. -/
theorem follow_of_firstFailsAt (start : Nat) {instant : Nat} {j : Job ε α}
    {instants : List Nat} (hsorted : instants.Pairwise (· ≤ ·)) (hmem : instant ∈ instants)
    (hj : j.error? preferred = none) (hf : FirstFailsAt j instant) :
    (j.follow preferred start instants).instant = instant ∧
      (j.follow preferred start instants).value.error? preferred =
        (j.deliver instant).error? preferred := by
  induction instants generalizing j with
  | nil => simp at hmem
  | cons t later ih =>
    rw [follow]
    by_cases ht : t = instant
    · subst t
      obtain ⟨⟨x, hx, e, hxe⟩, _⟩ := hf
      obtain ⟨f, herr⟩ := exists_error_of_failsAt preferred hx hxe
      have hover : (j.tick preferred instant).isRunning = false := by
        rw [isRunning, tick, tasks_abort_of_error herr]
        rfl
      simp [hover, error?_tick]
    · have hlater : instant ∈ later := by simpa [Ne.symm ht] using hmem
      have hlt : t < instant := by
        have := List.rel_of_pairwise_cons hsorted hlater
        omega
      have hnone : ∀ x ∈ j.tasks, ∀ e, ¬ FailsAt x t e := by
        intro x hx e hxe
        have := hf.2 x hx t e hxe
        omega
      have hf' := firstFailsAt_deliver hf ht
      have hrun : (j.deliver t).isRunning = true := by
        obtain ⟨⟨x, hx, _⟩, _⟩ := hf'
        rw [isRunning]
        cases htasks : (j.deliver t).tasks with
        | nil => simp [htasks] at hx
        | cons _ _ => rfl
      have hj' : (j.deliver t).error? preferred = none :=
        (error?_deliver_of_no_failure hnone).trans hj
      rw [tick_of_no_failure hj hnone, if_pos hrun, ← error?_deliver_deliver hnone]
      exact ih hsorted.of_cons hlater hj' hf'

/-- A job none of whose tasks fails is over when the last of them has delivered. -/
theorem instant_follow_of_no_failure (start : Nat) {j : Job ε α} {instants : List Nat}
    (hsorted : instants.Pairwise (· ≤ ·)) (hmem : ∀ x ∈ j.tasks, x.instant ∈ instants)
    (hrun : j.tasks ≠ []) (hj : j.error? preferred = none)
    (h : ∀ x ∈ j.tasks, ∀ t e, ¬ FailsAt x t e) :
    ∃ x ∈ j.tasks, (∀ y ∈ j.tasks, y.instant ≤ x.instant) ∧
      (j.follow preferred start instants).instant = x.instant := by
  induction instants generalizing j with
  | nil =>
    obtain ⟨x, hx⟩ := List.exists_mem_of_ne_nil _ hrun
    simpa using hmem x hx
  | cons t later ih =>
    have hnone : ∀ x ∈ j.tasks, ∀ e, ¬ FailsAt x t e := fun x hx => h x hx t
    rw [follow, tick_of_no_failure hj hnone]
    by_cases hover : (j.deliver t).tasks = []
    · have hall : ∀ y ∈ j.tasks, y.instant = t := by
        rw [tasks_deliver, List.filter_eq_nil_iff] at hover
        simpa using hover
      obtain ⟨x, hx⟩ := List.exists_mem_of_ne_nil _ hrun
      refine ⟨x, hx, fun y hy => ((hall y hy).trans (hall x hx).symm).le, ?_⟩
      rw [if_neg (by simp [isRunning, hover]), hall x hx]
    · have hsub : ∀ x, x ∈ (j.deliver t).tasks ↔ x ∈ j.tasks ∧ x.instant ≠ t := by
        simp [tasks_deliver]
      have hlater : ∀ x ∈ (j.deliver t).tasks, x.instant ∈ later := by
        intro x hx
        obtain ⟨hxj, hne⟩ := (hsub x).mp hx
        simpa [hne] using hmem x hxj
      obtain ⟨x, hx, hlast, hfollow⟩ := ih hsorted.of_cons hlater hover
        ((error?_deliver_of_no_failure hnone).trans hj) fun x hx => h x ((hsub x).mp hx).1
      refine ⟨x, ((hsub x).mp hx).1, ?_, ?_⟩
      · intro y hy
        by_cases hyt : y.instant = t
        · rw [hyt]
          exact List.rel_of_pairwise_cons hsorted (hlater x hx)
        · exact hlast y ((hsub y).mpr ⟨hy, hyt⟩)
      · rw [if_pos (by simpa [isRunning] using hover), hfollow]

theorem error?_follow_of_no_failure {start : Nat} {j : Job ε α} {instants : List Nat}
    (hj : j.error? preferred = none) (h : ∀ x ∈ j.tasks, ∀ t e, ¬ FailsAt x t e) :
    (j.follow preferred start instants).value.error? preferred = none := by
  induction instants generalizing j with
  | nil => exact hj
  | cons t later ih =>
    have hnone : ∀ x ∈ j.tasks, ∀ e, ¬ FailsAt x t e := fun x hx => h x hx t
    have hj' : (j.deliver t).error? preferred = none :=
      (error?_deliver_of_no_failure hnone).trans hj
    rw [follow, tick_of_no_failure hj hnone]
    split
    · apply ih hj'
      intro x hx
      rw [tasks_deliver, List.mem_filter] at hx
      exact h x hx.1
    · exact hj'

/-! ## The end of a job -/

theorem pairwise_instants (j : Job ε α) : j.instants.Pairwise (· ≤ ·) :=
  List.pairwise_mergeSort' (· ≤ ·) _

theorem mem_instants {j : Job ε α} {x : Task ε α} (hx : x ∈ j.tasks) : x.instant ∈ j.instants := by
  rw [instants, List.mem_mergeSort]
  exact List.mem_map_of_mem hx

theorem exists_firstFailsAt {j : Job ε α} {x : Task ε α} {e : ε} (hx : x ∈ j.tasks)
    (he : x.value = .error e) : ∃ instant, FirstFailsAt j instant := by
  classical
  have hex : ∃ t, ∃ y ∈ j.tasks, ∃ f, FailsAt y t f := ⟨x.instant, x, hx, e, rfl, he⟩
  refine ⟨Nat.find hex, Nat.find_spec hex, ?_⟩
  intro y hy t f hf
  exact Nat.find_min' hex ⟨y, hy, f, hf⟩

theorem settle_of_firstFailsAt {start instant : Nat} {j : Job ε α} (result : Except ε β)
    (hj : j.error? preferred = none) (hf : FirstFailsAt j instant) :
    ∃ e, (j.deliver instant).error? preferred = some e ∧
      j.settle preferred start result = ⟨instant, .error e⟩ := by
  obtain ⟨x, hx, e, hxe⟩ := hf.1
  have hmem : instant ∈ j.instants := hxe.1 ▸ mem_instants hx
  obtain ⟨hi, he⟩ := follow_of_firstFailsAt start j.pairwise_instants hmem hj hf
  obtain ⟨f, herr⟩ := exists_error_of_failsAt preferred hx hxe
  refine ⟨f, herr, ?_⟩
  simp only [settle, he, herr, hi]

theorem value_settle_of_no_failure {start : Nat} {j : Job ε α} (result : Except ε β)
    (hj : j.error? preferred = none) (h : ∀ x ∈ j.tasks, ∀ t e, ¬ FailsAt x t e) :
    (j.settle preferred start result).value = result := by
  simp only [settle, error?_follow_of_no_failure hj h]

theorem settle_of_no_failure (preferred : ε → Bool) (start : Nat) {j : Job ε α} (result : Except ε β)
    (hrun : j.tasks ≠ []) (hj : j.error? preferred = none)
    (h : ∀ x ∈ j.tasks, ∀ t e, ¬ FailsAt x t e) :
    ∃ x ∈ j.tasks, (∀ y ∈ j.tasks, y.instant ≤ x.instant) ∧
      j.settle preferred start result = ⟨x.instant, result⟩ := by
  obtain ⟨x, hx, hlast, hinstant⟩ := instant_follow_of_no_failure start j.pairwise_instants
    (fun _ => mem_instants) hrun hj h
  refine ⟨x, hx, hlast, ?_⟩
  simp only [settle, error?_follow_of_no_failure hj h, hinstant]

end GatewayLedger.Job
