import GatewayLedger.Dashboard.Monitor
import GatewayLedger.Proofs.Dashboard.Overlap

/-!
# Following a timeline

Whatever order the event loop chooses, a refresh starts before its answers arrive, and completes after
those. So once a completion has passed, nothing of its refresh is left, and what a dashboard shows
then is what the last completion that has passed leaves there.
-/

namespace GatewayLedger

namespace Timeline

variable {t front back : Timeline} {a b h : Timed Happening} {p : Timed Happening → Bool}

/-- Nothing stands behind what it has to come before. -/
def InOrder (t : Timeline) : Prop := t.Pairwise fun a b => ¬ Precedes b a

theorem InOrder.of_append_left (ho : InOrder (front ++ back)) : InOrder front :=
  (List.pairwise_append.mp ho).1

theorem InOrder.of_append_right (ho : InOrder (front ++ back)) : InOrder back :=
  (List.pairwise_append.mp ho).2.1

theorem InOrder.not_precedes (ho : InOrder (front ++ back)) (ha : a ∈ front) (hb : b ∈ back) :
    ¬ Precedes b a := (List.pairwise_append.mp ho).2.2 a ha b hb

theorem InOrder.instant_le (ho : InOrder (front ++ back)) (ha : a ∈ front) (hb : b ∈ back) :
    a.instant ≤ b.instant := by
  by_contra hlt
  exact ho.not_precedes ha hb (.inl (Nat.lt_of_not_le hlt))

theorem InOrder.le_last (ho : InOrder (front ++ [a])) (hb : b ∈ front ++ [a]) :
    b.instant ≤ a.instant := by
  rcases List.mem_append.mp hb with hfront | hlast
  · exact ho.instant_le hfront List.mem_cons_self
  · rw [List.mem_singleton.mp hlast]

/-- The first happening of a kind divides a timeline. -/
theorem exists_through (hex : ∃ a ∈ t, p a = true) :
    ∃ before a after, t = before ++ a :: after ∧ p a = true ∧
      through p t = (before ++ [a], after) := by
  induction t with
  | nil => simp at hex
  | cons h rest ih =>
    by_cases hp : p h = true
    · exact ⟨[], h, rest, rfl, hp, by rw [through, if_pos hp, List.nil_append]⟩
    · obtain ⟨a, ha, hpa⟩ := hex
      have hrest : a ∈ rest := by
        rcases List.mem_cons.mp ha with rfl | hrest
        · exact absurd hpa hp
        · exact hrest
      obtain ⟨before, b, after, hsplit, hpb, hthrough⟩ := ih ⟨a, hrest, hpa⟩
      refine ⟨h :: before, b, after, by rw [hsplit, List.cons_append], hpb, ?_⟩
      rw [through, if_neg hp, hthrough, List.cons_append]

end Timeline

open Timeline
open Dashboard (Ending Ended)

/-! ## The timeline of a refresh -/

namespace Flight

variable {f : Flight} {h : Timed Happening} {instant : Nat}

/-- A refresh that fails ends with a failure of one of its requests. -/
theorem exists_issued_of_failure (hfails : ∃ i ∈ f.issued, ∃ e, i.settlement.outcome = .error e) :
    ∃ i ∈ f.issued, ∃ e, i.settlement.outcome = .error e ∧
      f.task = ⟨i.instant f.start, .error e⟩ := by
  obtain ⟨i, hi, e, he⟩ := hfails
  obtain ⟨instant, hf⟩ := exists_firstFailsAt hi he
  obtain ⟨failure, hfailure, htask⟩ := exists_task_eq_of_firstFailsAt hf
  obtain ⟨j, hj, hinstant, hje⟩ := exists_failsAt_of_error hfailure
  exact ⟨j, hj, failure, hje, by rw [htask, hinstant]⟩

/-- A refresh ends with one of its requests. -/
theorem exists_issued_of_instant (f : Flight) :
    ∃ i ∈ f.issued, f.task.instant = i.instant f.start := by
  by_cases hfails : ∃ i ∈ f.issued, ∃ e, i.settlement.outcome = .error e
  · obtain ⟨i, hi, _, _, htask⟩ := exists_issued_of_failure hfails
    exact ⟨i, hi, by rw [htask]⟩
  · have hnone : ∀ x ∈ f.job.tasks, ∀ t e, ¬ Job.FailsAt x t e := by
      intro x hx t e hxe
      obtain ⟨i, hi, rfl⟩ := mem_tasks_job.mp hx
      exact hfails ⟨i, hi, e, hxe.2⟩
    have hrun : f.job.tasks ≠ [] :=
      List.ne_nil_of_mem (task_mem_tasks_job (i := f.account) List.mem_cons_self)
    obtain ⟨x, hx, _, hsettle⟩ :=
      Job.settle_of_no_failure Failure.isGateway f.start f.fetched hrun f.error?_job hnone
    obtain ⟨i, hi, rfl⟩ := mem_tasks_job.mp hx
    exact ⟨i, hi, by rw [task, hsettle]; rfl⟩

theorem start_le_instant (f : Flight) : f.start ≤ f.task.instant := by
  obtain ⟨i, _, hinstant⟩ := f.exists_issued_of_instant
  rw [hinstant]
  exact le_max_left _ _

theorem mem_timeline : h ∈ f.timeline ↔ h = f.startOf ∨ h ∈ f.arrivals ∨ h = f.completionOf := by
  simp [timeline]

theorem startOf_mem_timeline (f : Flight) : f.startOf ∈ f.timeline := mem_timeline.mpr (.inl rfl)

theorem completionOf_mem_timeline (f : Flight) : f.completionOf ∈ f.timeline :=
  mem_timeline.mpr (.inr (.inr rfl))

/-- An arrival belongs to its refresh and comes no later than the end of that. -/
theorem of_mem_arrivals (hh : h ∈ f.arrivals) :
    h.value.refresh = f.number ∧ h.value.event.rank = 1 ∧ h.instant ≤ f.task.instant := by
  obtain ⟨hmem, hle⟩ := List.mem_filter.mp hh
  obtain ⟨p, _, rfl⟩ := List.mem_map.mp hmem
  exact ⟨rfl, rfl, of_decide_eq_true hle⟩

theorem refresh_of_mem_timeline (hh : h ∈ f.timeline) : h.value.refresh = f.number := by
  rcases mem_timeline.mp hh with rfl | harrival | rfl
  · rfl
  · exact (of_mem_arrivals harrival).1
  · rfl

theorem eq_startOf (hh : h ∈ f.timeline) (hrank : h.value.event.rank = 0) : h = f.startOf := by
  rcases mem_timeline.mp hh with rfl | harrival | rfl
  · rfl
  · have := (of_mem_arrivals harrival).2.1
    omega
  · cases hrank

theorem eq_completionOf (hh : h ∈ f.timeline) (hrank : h.value.event.rank = 2) :
    h = f.completionOf := by
  rcases mem_timeline.mp hh with rfl | harrival | rfl
  · cases hrank
  · have := (of_mem_arrivals harrival).2.1
    omega
  · rfl

/-- All that happens to a refresh comes before its completion. -/
theorem precedes_completionOf (hh : h ∈ f.timeline) :
    h = f.completionOf ∨ Precedes h f.completionOf := by
  rcases mem_timeline.mp hh with rfl | harrival | rfl
  · right
    rcases f.start_le_instant.lt_or_eq with hlt | heq
    · exact .inl hlt
    · exact .inr ⟨heq, .inl ⟨rfl, Nat.zero_lt_two⟩⟩
  · right
    obtain ⟨hnumber, hrank, hle⟩ := of_mem_arrivals harrival
    rcases hle.lt_or_eq with hlt | heq
    · exact .inl hlt
    · exact .inr ⟨heq, .inl ⟨hnumber, by rw [hrank]; exact Nat.one_lt_two⟩⟩
  · exact .inl rfl

end Flight

/-! ## The timeline of a monitor -/

namespace Monitor

variable {m : Monitor} {d : Dashboard} {flights : List Flight} {f : Flight} {h : Timed Happening}
  {number : Nat}

theorem lt_nextNumber (hh : h ∈ m.agenda) : h.value.refresh < m.nextNumber := by
  have hgrows (t : Timeline) (n : Nat) :
      n ≤ t.foldl (fun n h => max n (h.value.refresh + 1)) n ∧
        ∀ h ∈ t, h.value.refresh < t.foldl (fun n h => max n (h.value.refresh + 1)) n := by
    induction t generalizing n with
    | nil => simp
    | cons a t ih =>
      obtain ⟨hle, hlt⟩ := ih (max n (a.value.refresh + 1))
      refine ⟨(le_max_left _ _).trans hle, ?_⟩
      intro b hb
      rcases List.mem_cons.mp hb with rfl | hb
      · exact (le_max_right n (b.value.refresh + 1)).trans hle
      · exact hlt b hb
  exact (hgrows m.agenda 0).2 h hh

theorem mem_layOut : h ∈ m.layOut flights ↔
    h ∈ m.agenda ∨ ∃ f ∈ m.takeUp flights, h ∈ f.timeline := by
  rw [layOut, ((m.scheduler flights).perm _).mem_iff, List.mem_append, List.mem_flatMap]

theorem inOrder_layOut (m : Monitor) (flights : List Flight) : InOrder (m.layOut flights) :=
  (m.scheduler flights).inOrder _

theorem mem_layOut_of_mem_timeline (hf : f ∈ m.takeUp flights) (hh : h ∈ f.timeline) :
    h ∈ m.layOut flights := mem_layOut.mpr (.inr ⟨f, hf, hh⟩)

theorem isCompletionFrom_iff : isCompletionFrom number h = true ↔
    number ≤ h.value.refresh ∧ h.value.event.rank = 2 := by
  simp [isCompletionFrom]

/-- The numbers of new refreshes tell their happenings from those on the agenda. -/
theorem exists_mem_timeline (hh : h ∈ m.layOut flights) (hnumber : m.nextNumber ≤ h.value.refresh) :
    ∃ f ∈ m.takeUp flights, h ∈ f.timeline := by
  rcases mem_layOut.mp hh with hagenda | hflight
  · have := lt_nextNumber hagenda
    omega
  · exact hflight

theorem exists_eq_completionOf (hh : h ∈ m.layOut flights)
    (hc : isCompletionFrom m.nextNumber h = true) :
    ∃ f ∈ m.takeUp flights, h = f.completionOf := by
  obtain ⟨hnumber, hrank⟩ := isCompletionFrom_iff.mp hc
  obtain ⟨f, hf, hmem⟩ := exists_mem_timeline hh hnumber
  exact ⟨f, hf, Flight.eq_completionOf hmem hrank⟩

/-! ## Waiting -/

/-- How a wait divides a timeline: after the first completion that fails, or else after the last one
of all. It is over at once if nothing is to complete. -/
inductive Awaits (rowTime : Moment) (number : Nat) : Timeline → Timeline × Timeline × Option Failure → Prop
  | failing {front later : Timeline} {h : Timed Happening} {failure : Failure}
      (hfront : ∀ a ∈ front, isCompletionFrom number a = true → failureOf rowTime a = none)
      (hh : isCompletionFrom number h = true) (hfails : failureOf rowTime h = some failure) :
      Awaits rowTime number (front ++ h :: later) (front ++ [h], later, some failure)
  | last {front later : Timeline} {h : Timed Happening}
      (hfront : ∀ a ∈ front, isCompletionFrom number a = true → failureOf rowTime a = none)
      (hh : isCompletionFrom number h = true) (hfine : failureOf rowTime h = none)
      (hlater : ∀ a ∈ later, isCompletionFrom number a = false) :
      Awaits rowTime number (front ++ h :: later) (front ++ [h], later, none)
  | nothing {later : Timeline} (hlater : ∀ a ∈ later, isCompletionFrom number a = false) :
      Awaits rowTime number later ([], later, none)

/-- Nothing that comes before the first happening fails. -/
theorem forall_mem_nil_failureOf (rowTime : Moment) (number : Nat) : ∀ a ∈ ([] : Timeline),
    isCompletionFrom number a = true → failureOf rowTime a = none := List.forall_mem_nil _

theorem Awaits.cons {rowTime : Moment} {t awaited later : Timeline} {raised : Option Failure}
    (hfine : isCompletionFrom number h = true → failureOf rowTime h = none)
    (hany : ∃ a ∈ h :: t, isCompletionFrom number a = true)
    (ht : Awaits rowTime number t (awaited, later, raised)) :
    Awaits rowTime number (h :: t) (h :: awaited, later, raised) := by
  cases ht with
  | failing hfront hh hfails =>
    exact .failing (List.forall_mem_cons.mpr ⟨hfine, hfront⟩) hh hfails
  | last hfront hh hfine' hlater =>
    exact .last (List.forall_mem_cons.mpr ⟨hfine, hfront⟩) hh hfine' hlater
  | nothing hlater =>
    obtain ⟨a, ha, hc⟩ := hany
    rcases List.mem_cons.mp ha with rfl | ha
    · exact .last (forall_mem_nil_failureOf rowTime number) hc (hfine hc) hlater
    · cases hc.symm.trans (hlater a ha)

theorem awaits_await (rowTime : Moment) (number : Nat) (t : Timeline) :
    Awaits rowTime number t (await rowTime number t) := by
  induction t with
  | nil => exact .nothing (List.forall_mem_nil _)
  | cons h rest ih =>
    rw [await]
    split
    · next hany =>
      obtain hany := List.any_eq_true.mp hany
      by_cases hc : isCompletionFrom number h = true
      · rw [if_pos hc]
        cases hfails : failureOf rowTime h with
        | some failure => exact .failing (forall_mem_nil_failureOf rowTime number) hc hfails
        | none => exact ih.cons (fun _ => hfails) hany
      · rw [if_neg hc]
        exact ih.cons (fun h => absurd h hc) hany
    · next hnone =>
      refine .nothing ?_
      simpa only [List.any_eq_true, not_exists, not_and, Bool.not_eq_true] using hnone

/-- A wait for something ends with one completion, which decides how. -/
theorem exists_await (rowTime : Moment) {t : Timeline}
    (hex : ∃ a ∈ t, isCompletionFrom number a = true) :
    ∃ front h later, t = front ++ h :: later ∧ isCompletionFrom number h = true ∧
      await rowTime number t = (front ++ [h], later, failureOf rowTime h) ∧
      (∀ a ∈ front, isCompletionFrom number a = true → failureOf rowTime a = none) ∧
      (failureOf rowTime h = none → ∀ a ∈ later, isCompletionFrom number a = false) := by
  have hawaits := awaits_await rowTime number t
  generalize await rowTime number t = ended at hawaits
  cases hawaits with
  | failing hfront hh hfails =>
    exact ⟨_, _, _, rfl, hh, by rw [hfails], hfront, fun hfine => by cases hfine.symm.trans hfails⟩
  | last hfront hh hfine hlater =>
    exact ⟨_, _, _, rfl, hh, by rw [hfine], hfront, fun _ => hlater⟩
  | nothing hlater =>
    obtain ⟨a, ha, hc⟩ := hex
    cases hc.symm.trans (hlater a ha)

/-! ## What the dashboard shows -/

theorem performAll_append (d : Dashboard) (xs ys : Timeline) :
    (m.performAll d (xs ++ ys)).1 = (m.performAll (m.performAll d xs).1 ys).1 := by
  induction xs generalizing d with
  | nil => rfl
  | cons h xs ih => exact ih (m.perform d h).1

theorem context_of_completion {f : Flight} {ending : Ending}
    (he : Ending.Of m.rowTime f.task.value ending) (d : Dashboard) :
    (m.perform d f.completionOf).1.context =
      (⟨f.number, ending, m.origin.later? (Tick.micros f.task.instant)⟩ : Ended).shown := by
  simp only [perform, Flight.completionOf]
  generalize f.task.value = outcome at he ⊢
  cases he with
  | data hl hb => simp only [d.complete_of_data hl hb, Ended.shown]
  | error e => simp only [Dashboard.complete, Dashboard.showError, Ended.shown]

/-- A timeline that ends with the completion of a refresh shows what that refresh leaves. -/
theorem context_performAll {f : Flight} {ending : Ending}
    (he : Ending.Of m.rowTime f.task.value ending) (d : Dashboard) (t : Timeline) :
    (m.performAll d (t ++ [f.completionOf])).1.context =
      (⟨f.number, ending, m.origin.later? (Tick.micros f.task.instant)⟩ : Ended).shown := by
  rw [performAll_append]
  exact context_of_completion he _

end Monitor

end GatewayLedger
