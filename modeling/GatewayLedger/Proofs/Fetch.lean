import GatewayLedger.Dashboard.Timeline
import GatewayLedger.Proofs.Concurrent
import GatewayLedger.Proofs.Ledger.Order

/-!
# How requests that are made together end

The three requests for the history are one job, and the four of a refresh are another one, in which
those for the history form a group of their own. If one of the requests fails, the job ends at the
earliest failure with a failure of that instant, and with one of the exchange if there is any;
otherwise it ends with what the answers make up. That holds for any turns of what is due together.
-/

namespace GatewayLedger

open Job

namespace Issued

variable {i j : Issued} {start instant early late : Nat} {failure : Failure}

def FailsAt (i : Issued) (start instant : Nat) (failure : Failure) : Prop :=
  i.instant start = instant ∧ i.settlement.outcome = .error failure

theorem not_failsAt_of_ok {v : Value} (h : i.settlement.outcome = .ok v) :
    ¬ i.FailsAt start instant failure := by
  intro hf
  cases h.symm.trans hf.2

/-- Two requests that agree and have the same turn, or that both end only after an instant. -/
def AgreeUntil (start instant : Nat) (i j : Issued) (turn turn' : Nat) : Prop :=
  (i.delay = j.delay ∧ i.settlement.outcome = j.settlement.outcome ∧ turn = turn') ∨
    (instant < i.instant start ∧ instant < j.instant start)

variable {turn turn' : Nat}

theorem AgreeUntil.symm (h : AgreeUntil start instant i j turn turn') :
    AgreeUntil start instant j i turn' turn :=
  h.imp (fun ⟨hd, ho, ht⟩ => ⟨hd.symm, ho.symm, ht.symm⟩) fun ⟨hi, hj⟩ => ⟨hj, hi⟩

theorem AgreeUntil.mono (h : AgreeUntil start late i j turn turn') (hle : early ≤ late) :
    AgreeUntil start early i j turn turn' :=
  h.imp id fun ⟨hi, hj⟩ => ⟨by omega, by omega⟩

/-- The error of a request, if that is due at an instant. -/
def errorAt? (start instant : Nat) (i : Issued) : Option Failure :=
  ((running (i.task start)).deliver instant).error? Failure.isGateway

end Issued

namespace HistoryRequests

variable {h : HistoryRequests} {start : Nat}

theorem perm_inTurn (h : HistoryRequests) : h.inTurn.Perm h.toList :=
  (List.mergeSort_perm h.parts fun a b => h.turn a.1 ≤ h.turn b.1).map Prod.snd

@[simp] theorem mem_tasks_job {t : Task Failure Value} :
    t ∈ (h.job start).tasks ↔ ∃ i ∈ h.toList, i.task start = t := by
  simp [job, h.perm_inTurn.mem_iff, eq_comm]

@[simp] theorem error?_job (h : HistoryRequests) (start : Nat) :
    (h.job start).error? Failure.isGateway = none := by
  simp [job, error?_group_eq_none_iff]

/-- The three requests succeed with these answers. -/
structure Delivers (h : HistoryRequests) (s : Sources) : Prop where
  deposits : h.deposits.settlement.outcome = .ok s.deposits
  withdrawals : h.withdrawals.settlement.outcome = .ok s.withdrawals
  payments : h.payments.settlement.outcome = .ok s.payments

theorem Delivers.sources_eq {s : Sources} (hs : h.Delivers s) : h.sources = .ok s := by
  simp only [sources, hs.deposits, hs.withdrawals, hs.payments, bind, Except.bind]

theorem Delivers.not_failsAt {s : Sources} (hs : h.Delivers s) {i : Issued} (hi : i ∈ h.toList)
    (start instant : Nat) (e : Failure) : ¬ i.FailsAt start instant e := by
  simp only [toList, List.mem_cons, List.not_mem_nil, or_false] at hi
  rcases hi with rfl | rfl | rfl
  · exact Issued.not_failsAt_of_ok hs.deposits
  · exact Issued.not_failsAt_of_ok hs.withdrawals
  · exact Issued.not_failsAt_of_ok hs.payments

/-- Three answers make up the sources, whatever the order in which they arrive. -/
theorem Delivers.value_task {s : Sources} (hs : h.Delivers s) (start : Nat) :
    (h.task start).value = .ok s := by
  have hnone : ∀ x ∈ (h.job start).tasks, ∀ t e, ¬ Job.FailsAt x t e := by
    intro x hx t e
    obtain ⟨i, hi, rfl⟩ := mem_tasks_job.mp hx
    exact hs.not_failsAt hi start t e
  rw [task, value_settle_of_no_failure _ (h.error?_job start) hnone, hs.sources_eq]

/-- If a request fails, they fail together, with the failure of one of them. -/
theorem exists_error_task {i : Issued} {failure : Failure} (hi : i ∈ h.toList)
    (hf : i.settlement.outcome = .error failure) (start : Nat) :
    ∃ j ∈ h.toList, ∃ e, j.settlement.outcome = .error e ∧ (h.task start).value = .error e := by
  have hmem : i.task start ∈ (h.job start).tasks := mem_tasks_job.mpr ⟨i, hi, rfl⟩
  obtain ⟨instant, hfirst⟩ := exists_firstFailsAt hmem hf
  obtain ⟨e, he, hsettle⟩ := settle_of_firstFailsAt h.sources (h.error?_job start) hfirst
  obtain ⟨x, hx, hxe⟩ := exists_failsAt_of_error (h.error?_job start) he
  obtain ⟨j, hj, rfl⟩ := mem_tasks_job.mp hx
  exact ⟨j, hj, e, hxe.2, by rw [task, hsettle]⟩

/-- The errors of an instant in the order in which they take effect. -/
def errorsAt (start instant : Nat) (h : HistoryRequests) : List Failure :=
  h.inTurn.filterMap (Issued.errorAt? start instant)

theorem error?_deliver_job (h : HistoryRequests) (start instant : Nat) :
    ((h.job start).deliver instant).error? Failure.isGateway =
      pick Failure.isGateway (h.errorsAt start instant) := by
  simp only [job, deliver, error?_group, errorsAt, List.map_map, List.filterMap_map]
  rfl

/-! ### Histories that agree up to an instant -/

/-- Which of two parts comes first. -/
def before {α : Type} (turn : Turns) (p q : Part × α) : Bool := turn p.1 ≤ turn q.1

/-- The requests of two histories, part by part. -/
def pairs (h g : HistoryRequests) : List (Part × Issued × Issued) :=
  [(.deposits, h.deposits, g.deposits), (.withdrawals, h.withdrawals, g.withdrawals),
    (.payments, h.payments, g.payments)]

def AgreeUntil (start instant : Nat) (h g : HistoryRequests) : Prop :=
  ∀ p ∈ pairs h g, Issued.AgreeUntil start instant p.2.1 p.2.2 (h.turn p.1) (g.turn p.1)

theorem AgreeUntil.symm {g : HistoryRequests} {instant : Nat} (hagree : AgreeUntil start instant h g) :
    AgreeUntil start instant g h := by
  simp only [AgreeUntil, pairs, List.forall_mem_cons] at hagree ⊢
  obtain ⟨hd, hw, hp, _⟩ := hagree
  exact ⟨hd.symm, hw.symm, hp.symm, List.forall_mem_nil _⟩

end HistoryRequests

namespace Flight

variable {f g : Flight} {i : Issued} {answers : Fetched} {instant : Nat} {e failure : Failure}

theorem forall_issued {P : Issued → Prop} :
    (∀ i ∈ f.issued, P i) ↔
      P f.account ∧ P f.history.deposits ∧ P f.history.withdrawals ∧ P f.history.payments := by
  simp [issued, HistoryRequests.toList]

/-- The history comes before the account in a refresh. -/
def HistoryFirst (f : Flight) : Prop := f.history.turn .history < f.history.turn .account

instance (f : Flight) : Decidable f.HistoryFirst := inferInstanceAs (Decidable (_ < _))

theorem job_of_historyFirst (h : f.HistoryFirst) :
    f.job = .group [f.history.job f.start, .running (f.account.task f.start)] := by
  simp only [job, if_pos (show f.history.turn .history < f.history.turn .account from h)]

theorem job_of_not_historyFirst (h : ¬ f.HistoryFirst) :
    f.job = .group [.running (f.account.task f.start), f.history.job f.start] := by
  simp only [job, if_neg (show ¬ f.history.turn .history < f.history.turn .account from h)]

@[simp] theorem mem_tasks_job {t : Task Failure Value} :
    t ∈ f.job.tasks ↔ ∃ i ∈ f.issued, i.task f.start = t := by
  by_cases h : f.HistoryFirst
  · simp [job_of_historyFirst h, issued, or_comm, eq_comm]
  · simp [job_of_not_historyFirst h, issued, eq_comm]

@[simp] theorem error?_job (f : Flight) : f.job.error? Failure.isGateway = none := by
  by_cases h : f.HistoryFirst
  · simp [job_of_historyFirst h, error?_group_eq_none_iff]
  · simp [job_of_not_historyFirst h, error?_group_eq_none_iff]

theorem task_mem_tasks_job (hi : i ∈ f.issued) : i.task f.start ∈ f.job.tasks :=
  mem_tasks_job.mpr ⟨i, hi, rfl⟩

/-- Some request of the refresh fails at an instant, and none fails before it. -/
def FirstFailsAt (f : Flight) (instant : Nat) : Prop :=
  (∃ i ∈ f.issued, ∃ e, i.FailsAt f.start instant e) ∧
    ∀ i ∈ f.issued, ∀ t e, i.FailsAt f.start t e → instant ≤ t

theorem firstFailsAt_job_iff : Job.FirstFailsAt f.job instant ↔ f.FirstFailsAt instant := by
  simp only [Job.FirstFailsAt, mem_tasks_job, exists_exists_and_eq_and,
    forall_exists_index, and_imp, forall_apply_eq_imp_iff₂]
  rfl

theorem exists_firstFailsAt (hi : i ∈ f.issued) (he : i.settlement.outcome = .error e) :
    ∃ instant, f.FirstFailsAt instant := by
  obtain ⟨instant, hfirst⟩ := Job.exists_firstFailsAt (task_mem_tasks_job hi) he
  exact ⟨instant, firstFailsAt_job_iff.mp hfirst⟩

theorem exists_failsAt_of_error
    (h : (f.job.deliver instant).error? Failure.isGateway = some e) :
    ∃ i ∈ f.issued, i.FailsAt f.start instant e := by
  obtain ⟨x, hx, hxe⟩ := Job.exists_failsAt_of_error f.error?_job h
  obtain ⟨i, hi, rfl⟩ := mem_tasks_job.mp hx
  exact ⟨i, hi, hxe⟩

theorem exists_task_eq_of_firstFailsAt (h : f.FirstFailsAt instant) :
    ∃ e, (f.job.deliver instant).error? Failure.isGateway = some e ∧
      f.task = ⟨instant, .error e⟩ :=
  settle_of_firstFailsAt f.fetched f.error?_job (firstFailsAt_job_iff.mpr h)

structure Delivers (f : Flight) (answers : Fetched) : Prop where
  account : f.account.settlement.outcome = .ok answers.account
  history : f.history.Delivers answers.sources

theorem Delivers.fetched_eq (h : f.Delivers answers) : f.fetched = .ok answers := by
  simp only [fetched, h.account, h.history.sources_eq, bind, Except.bind]

theorem Delivers.value_task (h : f.Delivers answers) : f.task.value = .ok answers := by
  have hnone : ∀ x ∈ f.job.tasks, ∀ t e, ¬ Job.FailsAt x t e := by
    intro x hx t e
    obtain ⟨i, hi, rfl⟩ := mem_tasks_job.mp hx
    rcases List.mem_cons.mp hi with rfl | hi
    · exact Issued.not_failsAt_of_ok h.account
    · exact h.history.not_failsAt hi f.start t e
  rw [task, value_settle_of_no_failure _ f.error?_job hnone, h.fetched_eq]

/-- Two refreshes of one start whose requests agree and have the same turns, except for some that end
only after an instant. -/
structure AgreeUntil (instant : Nat) (f g : Flight) : Prop where
  start : f.start = g.start
  turn : f.history.turn .history = g.history.turn .history
  account : Issued.AgreeUntil f.start instant f.account g.account (f.history.turn .account)
    (g.history.turn .account)
  history : HistoryRequests.AgreeUntil f.start instant f.history g.history

theorem AgreeUntil.symm (h : AgreeUntil instant f g) : AgreeUntil instant g f where
  start := h.start.symm
  turn := h.turn.symm
  account := h.start ▸ h.account.symm
  history := h.start ▸ h.history.symm

/-- The errors of an instant in the order in which they take effect, one for the history. -/
def errorsAt (f : Flight) (instant : Nat) : List Failure :=
  let account := (f.account.errorAt? f.start instant).toList
  let history := (pick Failure.isGateway (f.history.errorsAt f.start instant)).toList
  if f.HistoryFirst then history ++ account else account ++ history

theorem error?_deliver_job (f : Flight) (instant : Nat) :
    (f.job.deliver instant).error? Failure.isGateway =
      pick Failure.isGateway (f.errorsAt instant) := by
  have hpair (a b : Job Failure Value) : ((Job.group [a, b]).deliver instant).error?
      Failure.isGateway = pick Failure.isGateway
        (((a.deliver instant).error? Failure.isGateway).toList ++
          ((b.deliver instant).error? Failure.isGateway).toList) := by
    simp only [deliver, error?_group, List.map_cons, List.map_nil, List.filterMap_cons,
      List.filterMap_nil]
    cases (a.deliver instant).error? Failure.isGateway <;>
      cases (b.deliver instant).error? Failure.isGateway <;> rfl
  by_cases h : f.HistoryFirst
  · rw [job_of_historyFirst h, hpair, HistoryRequests.error?_deliver_job]
    simp only [errorsAt, if_pos h, Issued.errorAt?]
  · rw [job_of_not_historyFirst h, hpair, HistoryRequests.error?_deliver_job]
    simp only [errorsAt, if_neg h, Issued.errorAt?]

end Flight

end GatewayLedger
