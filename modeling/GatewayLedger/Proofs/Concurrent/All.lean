import GatewayLedger.Exchange.Error
import GatewayLedger.Proofs.Concurrent

/-!
# Tasks that are awaited together

Tasks that are awaited together deliver all their values, in the order of the list, when the last
of them is there. If some of them fail, nothing is delivered: the error is one of the earliest
instant at which a task fails, a preferred one if that instant has one, and what is due after it has
no part in the choice. All this holds in whatever order the tasks of one instant take effect.
-/

namespace GatewayLedger.Concurrent

open Job

variable {ε α : Type} {preferred : ε → Bool} {tasks order others : List (Task ε α)}
  {start instant : Nat} {values : List α}

@[simp] theorem tasks_job (tasks : List (Task ε α)) : (job tasks).tasks = tasks := by
  simp [job, List.flatMap_map]

@[simp] theorem error?_job (tasks : List (Task ε α)) : (job tasks).error? preferred = none := by
  simp [job, error?_group_eq_none_iff]

/-! ## The values -/

theorem mapM_value_eq (h : tasks.map (·.value) = values.map .ok) :
    tasks.mapM (·.value) = .ok values := by
  induction tasks generalizing values with
  | nil =>
    obtain rfl : values = [] := by simpa using h.symm
    rfl
  | cons x tasks ih =>
    cases values with
    | nil => simp at h
    | cons v values =>
      obtain ⟨hvalue, hrest⟩ := List.cons_eq_cons.mp h
      have hx : x.value = .ok v := hvalue
      rw [List.mapM_cons, hx, ih hrest]
      rfl

theorem not_failsAt_of_values (h : tasks.map (·.value) = values.map .ok) :
    ∀ x ∈ tasks, ∀ t e, ¬ FailsAt x t e := by
  intro x hx t e hf
  have hmem : x.value ∈ values.map .ok := h ▸ List.mem_map_of_mem hx
  rw [hf.2] at hmem
  simp at hmem

theorem allIn_nil (preferred : ε → Bool) (start : Nat) :
    allIn preferred start ([] : List (Task ε α)) [] = ⟨start, .ok []⟩ := by
  simp [allIn, settle, job, instants, follow, error?_group, pick]
  rfl

/-- All values are there, in the order of the tasks, and at the instant of the last of them. -/
structure Returns (preferred : ε → Bool) (start : Nat) (order tasks : List (Task ε α))
    (values : List α) : Prop where
  value : (allIn preferred start order tasks).value = .ok values
  last : ∀ x ∈ tasks, x.instant ≤ (allIn preferred start order tasks).instant
  ends : (allIn preferred start order tasks).instant ∈ start :: tasks.map (·.instant)

theorem returns_of_values (horder : order.Perm tasks) (h : tasks.map (·.value) = values.map .ok) :
    Returns preferred start order tasks values := by
  by_cases hnil : tasks = []
  · subst hnil
    obtain rfl : order = [] := horder.eq_nil
    obtain rfl : values = [] := by simpa using h
    exact ⟨by rw [allIn_nil], by simp, by simp [allIn_nil]⟩
  · have hrun : (job order).tasks ≠ [] := by
      rw [tasks_job]
      intro horderNil
      exact hnil (horderNil ▸ horder).symm.eq_nil
    have hnone : ∀ x ∈ (job order).tasks, ∀ t e, ¬ FailsAt x t e := by
      rw [tasks_job]
      exact fun x hx => not_failsAt_of_values h x (horder.mem_iff.mp hx)
    obtain ⟨x, hx, hlast, hsettle⟩ := settle_of_no_failure preferred start (tasks.mapM (·.value))
      hrun (error?_job order) hnone
    have hall : allIn preferred start order tasks = ⟨x.instant, .ok values⟩ := by
      rw [allIn, hsettle, mapM_value_eq h]
    simp only [tasks_job, horder.mem_iff] at hx hlast
    refine ⟨by rw [hall], by rwa [hall], ?_⟩
    rw [hall]
    exact List.mem_cons_of_mem _ (List.mem_map_of_mem hx)

/-! ## The errors -/

theorem error?_deliver_job (instant : Nat) (tasks : List (Task ε α)) :
    ((job tasks).deliver instant).error? preferred =
      pick preferred (tasks.filterMap fun x => ((running x).deliver instant).error? preferred) := by
  rw [job, deliver, error?_group, List.map_map, List.filterMap_map]
  rfl

/-- What is due after an instant has no part in the error of that instant. -/
theorem error?_deliver_filter (instant : Nat) (tasks : List (Task ε α)) :
    ((job (tasks.filter (·.instant ≤ instant))).deliver instant).error? preferred =
      ((job tasks).deliver instant).error? preferred := by
  rw [error?_deliver_job, error?_deliver_job, List.filterMap_filter]
  congr 1
  apply List.filterMap_congr
  intro x _
  by_cases hx : x.instant ≤ instant
  · rw [if_pos (by simpa using hx)]
  · have hne : x.instant ≠ instant := by omega
    rw [if_neg (by simpa using hx), deliver_running, if_neg hne, error?_running]

theorem firstFailsAt_filter_iff :
    FirstFailsAt (job (tasks.filter (·.instant ≤ instant))) instant ↔
      FirstFailsAt (job tasks) instant := by
  simp only [FirstFailsAt, tasks_job, List.mem_filter, decide_eq_true_eq]
  constructor
  · rintro ⟨⟨x, ⟨hx, _⟩, hxf⟩, hfirst⟩
    refine ⟨⟨x, hx, hxf⟩, fun y hy t e hyf => ?_⟩
    by_contra hlt
    have hyi : y.instant ≤ instant := by
      have := hyf.1
      omega
    exact hlt (hfirst y ⟨hy, hyi⟩ t e hyf)
  · rintro ⟨⟨x, hx, e, hxf⟩, hfirst⟩
    exact ⟨⟨x, ⟨hx, hxf.1.le⟩, e, hxf⟩, fun y hy => hfirst y hy.1⟩

theorem exists_allIn_eq_of_firstFailsAt (preferred : ε → Bool) (start : Nat)
    (tasks : List (Task ε α)) (hf : FirstFailsAt (job order) instant) :
    ∃ e, ((job order).deliver instant).error? preferred = some e ∧
      allIn preferred start order tasks = ⟨instant, .error e⟩ :=
  settle_of_firstFailsAt _ (error?_job order) hf

theorem allIn_eq_of_filter_eq {order' : List (Task ε α)} (hf : FirstFailsAt (job order) instant)
    (h : order'.filter (·.instant ≤ instant) = order.filter (·.instant ≤ instant)) :
    allIn preferred start order' others = allIn preferred start order tasks := by
  have hf' : FirstFailsAt (job order') instant := by
    rw [← firstFailsAt_filter_iff, h, firstFailsAt_filter_iff]
    exact hf
  have hsame : ((job order').deliver instant).error? preferred =
      ((job order).deliver instant).error? preferred := by
    rw [← error?_deliver_filter, h, error?_deliver_filter]
  obtain ⟨e, he, hall⟩ := exists_allIn_eq_of_firstFailsAt preferred start tasks hf
  obtain ⟨e', he', hall'⟩ := exists_allIn_eq_of_firstFailsAt preferred start others hf'
  obtain rfl : e = e' := Option.some.inj (he.symm.trans (hsame.symm.trans he'))
  rw [hall', hall]

/-- The tasks fail at the earliest instant at which one of them fails, with an error of that
instant, and tasks that are due after it may be changed, added or left out. -/
structure Raises (preferred : ε → Bool) (start : Nat) (order tasks : List (Task ε α))
    (instant : Nat) (e : ε) : Prop where
  outcome : allIn preferred start order tasks = ⟨instant, .error e⟩
  earliest : ∀ x ∈ tasks, ∀ f, x.value = .error f → instant ≤ x.instant
  occurs : ∃ x ∈ tasks, FailsAt x instant e
  prefers : ∀ x ∈ tasks, ∀ f, FailsAt x instant f → preferred f = true → preferred e = true
  unaffected : ∀ order' others : List (Task ε α), order'.Perm others →
    order'.filter (·.instant ≤ instant) = order.filter (·.instant ≤ instant) →
    allIn preferred start order' others = ⟨instant, .error e⟩

theorem raises_of_failure (horder : order.Perm tasks) {x : Task ε α} {f : ε} (hx : x ∈ tasks)
    (hf : x.value = .error f) : ∃ instant e, Raises preferred start order tasks instant e := by
  have hmem : ∀ {y}, y ∈ tasks → y ∈ (job order).tasks := by
    intro y hy
    rw [tasks_job]
    exact horder.mem_iff.mpr hy
  obtain ⟨instant, hfirst⟩ := exists_firstFailsAt (hmem hx) hf
  obtain ⟨e, he, hall⟩ := exists_allIn_eq_of_firstFailsAt preferred start tasks hfirst
  refine ⟨instant, e, hall, ?_, ?_, ?_, ?_⟩
  · intro y hy g hg
    exact hfirst.2 y (hmem hy) y.instant g ⟨rfl, hg⟩
  · obtain ⟨y, hy, hye⟩ := exists_failsAt_of_error (error?_job order) he
    rw [tasks_job] at hy
    exact ⟨y, horder.mem_iff.mp hy, hye⟩
  · intro y hy g hyg hp
    exact preferred_of_failsAt (hmem hy) hyg hp he
  · intro order' others _ hsame
    rw [allIn_eq_of_filter_eq hfirst hsame]
    exact hall

/-- Tasks that are awaited together either all deliver or fail as one, in whatever order those of one
instant take effect. -/
theorem allIn_returns_or_raises (preferred : ε → Bool) (start : Nat) (horder : order.Perm tasks) :
    (∀ values, tasks.map (·.value) = values.map .ok →
      Returns preferred start order tasks values) ∧
      ((∃ x ∈ tasks, ∃ f, x.value = .error f) →
        ∃ instant e, Raises preferred start order tasks instant e) := by
  constructor
  · intro values h
    exact returns_of_values horder h
  · rintro ⟨x, hx, f, hf⟩
    exact raises_of_failure horder hx hf

/-- Two tasks that deliver against the order of the list, and the same two with failures of two
kinds that tie after the first of them: the failure of the exchange is raised, although the other one
takes effect before it. -/
theorem allIn_of_tied_failures :
    let first : Task Failure Nat := ⟨3, .ok 30⟩
    let second : Task Failure Nat := ⟨1, .ok 10⟩
    let rejected : Task Failure Nat := ⟨2, .error (.gateway (.auth 401 ""))⟩
    let defect : Task Failure Nat := ⟨2, .error .transportDefect⟩
    Returns Failure.isGateway 0 [second, first] [first, second] [30, 10] ∧
      ∃ instant e, Raises Failure.isGateway 0 [defect, second, rejected, first]
        [first, rejected, second, defect] instant e ∧ instant = 2 ∧ e = .gateway (.auth 401 "") := by
  intro first second rejected defect
  have hpair : [second, first].Perm [first, second] := List.reverse_perm [first, second]
  have hall : [defect, second, rejected, first].Perm [first, rejected, second, defect] :=
    List.reverse_perm [first, rejected, second, defect]
  refine ⟨(allIn_returns_or_raises Failure.isGateway 0 hpair).1 [30, 10] rfl, ?_⟩
  obtain ⟨instant, e, h⟩ :=
    (allIn_returns_or_raises Failure.isGateway 0 hall).2 ⟨defect, by simp, .transportDefect, rfl⟩
  have hle : instant ≤ 2 := h.earliest defect (by simp) .transportDefect rfl
  obtain ⟨x, hx, hxi, hxe⟩ := h.occurs
  have hmem : x = rejected ∨ x = defect := by
    simp only [List.mem_cons, List.not_mem_nil, or_false] at hx
    rcases hx with rfl | rfl | rfl | rfl
    · simp [first] at hxe
    · exact .inl rfl
    · simp [second] at hxe
    · exact .inr rfl
  have htwo : instant = 2 := by
    rcases hmem with rfl | rfl
    · exact hxi.symm
    · exact hxi.symm
  have hgateway : e.isGateway = true :=
    h.prefers rejected (by simp) (.gateway (.auth 401 "")) ⟨htwo.symm, rfl⟩ rfl
  refine ⟨instant, e, h, htwo, ?_⟩
  rcases hmem with rfl | rfl
  · exact (Except.error.inj hxe).symm
  · obtain rfl : Failure.transportDefect = e := Except.error.inj hxe
    cases hgateway

end GatewayLedger.Concurrent
