import GatewayLedger.Ledger.Summary
import GatewayLedger.Proofs.Json
import GatewayLedger.Proofs.Number.Addition
import GatewayLedger.Proofs.Time.Moment

/-!
# The volumes of a summary

The two volumes of a summary are sums over the completed records of two windows, of which the shorter
lies in the longer one. A window exists unless it opens before the calendar does.
-/

namespace GatewayLedger

namespace Summary

variable {now : Moment} {days : Nat} {short long : Window} {records : List Record}

/-- The completed records of the last days before a moment, in their order. -/
def completedSince (days : Nat) (now : Moment) (records : List Record) : List Record :=
  (records.filter isCompleted).filter fun r =>
    now.instant - (days * Moment.microsPerDay : Nat) < r.occurredAt.instant ∧
      r.occurredAt.instant ≤ now.instant

theorem exists_ofMicros {micros : Nat} (h : micros ≤ now.reading) :
    ∃ w, Window.ofMicros micros now = .ok w ∧ w.closing = now ∧
      w.opening.instant = now.instant - micros := by
  have hspan := now.inSpan
  have hreading : (0 : Int) ≤ (now.reading : Int) - micros ∧
      ((now.reading : Int) - micros).toNat < Moment.span := by omega
  have hearlier : now.earlier? micros = some ⟨_, now.offset, hreading.2⟩ := by
    rw [Moment.earlier?, Moment.ofReading?, dif_pos hreading]
  refine ⟨⟨⟨_, now.offset, hreading.2⟩, now⟩, ?_, rfl, ?_⟩
  · rw [Window.ofMicros, hearlier]
  · simp only [Moment.instant]
    omega

theorem exists_ofDays (h : days * Moment.microsPerDay ≤ now.reading) :
    ∃ w, Window.ofDays days now = .ok w ∧ w.closing = now ∧
      w.opening.instant = now.instant - (days * Moment.microsPerDay : Nat) :=
  exists_ofMicros h

/-- The amounts of the records in a window. -/
def Window.amounts (w : Window) (records : List Record) : List Decimal :=
  (records.filter fun r => w.contains r.occurredAt).map (·.amount)

theorem Window.amounts_cons (w : Window) (r : Record) (records : List Record) :
    w.amounts (r :: records) = w.amounts [r] ++ w.amounts records := by
  unfold Window.amounts
  rw [← List.map_append, ← List.filter_append, List.singleton_append]

theorem Window.foldlM_amounts_singleton (w : Window) (r : Record) (sum : Decimal) :
    (w.amounts [r]).foldlM addAmounts sum =
      if w.contains r.occurredAt then addAmounts sum r.amount else .ok sum := by
  unfold Window.amounts
  rw [List.filter_cons]
  split
  · exact bind_pure _
  · rfl

theorem Window.eq_amountOverflow_of_singleton {w : Window} {r : Record} {sum : Decimal}
    {fault : Fault} (h : (w.amounts [r]).foldlM addAmounts sum = .error fault) :
    fault = .amountOverflow := by
  rw [Window.foldlM_amounts_singleton] at h
  split at h
  · exact eq_amountOverflow_of_addAmounts h
  · cases h

/-- A record adds to each volume what it has in the window of that volume. -/
theorem addCompleted_eq {r : Record} (hclock : r.occurredAt.comparable long.closing = true)
    (hnested : ∀ m, short.contains m = true → long.contains m = true) (v : Volumes) :
    addCompleted short long v r =
      ((long.amounts [r]).foldlM addAmounts v.long).bind fun longSum =>
        ((short.amounts [r]).foldlM addAmounts v.short).bind fun shortSum =>
          .ok ⟨shortSum, longSum⟩ := by
  simp only [Window.foldlM_amounts_singleton]
  cases hin : long.contains r.occurredAt with
  | false =>
    have hout : short.contains r.occurredAt = false := by
      apply Bool.eq_false_iff.mpr
      intro hshort
      exact Bool.false_ne_true (hin.symm.trans (hnested _ hshort))
    simp [addCompleted, hclock, hin, hout, Except.bind]
  | true =>
    cases hin' : short.contains r.occurredAt with
    | false => simp [addCompleted, hclock, hin, hin', bind, Except.bind]
    | true => simp [addCompleted, hclock, hin, hin', bind, Except.bind]

/-- Two sums and the volumes made of them, or no volumes because one of the sums overflows. -/
def AreSums (outcome : Except Fault Volumes) (shortSum longSum : Except Fault Decimal) : Prop :=
  (∃ v, outcome = .ok v ∧ shortSum = .ok v.short ∧ longSum = .ok v.long) ∨
    (outcome = .error .amountOverflow ∧
      (shortSum = .error .amountOverflow ∨ longSum = .error .amountOverflow))

theorem areSums_addCompleted {r : Record} (hclock : r.occurredAt.comparable long.closing = true)
    (hnested : ∀ m, short.contains m = true → long.contains m = true) (v : Volumes) :
    AreSums (addCompleted short long v r) ((short.amounts [r]).foldlM addAmounts v.short)
      ((long.amounts [r]).foldlM addAmounts v.long) := by
  rw [addCompleted_eq hclock hnested]
  cases hlong : (long.amounts [r]).foldlM addAmounts v.long with
  | error fault =>
    obtain rfl := Window.eq_amountOverflow_of_singleton hlong
    exact .inr ⟨rfl, .inr rfl⟩
  | ok longSum =>
    cases hshort : (short.amounts [r]).foldlM addAmounts v.short with
    | error fault =>
      obtain rfl := Window.eq_amountOverflow_of_singleton hshort
      exact .inr ⟨rfl, .inl rfl⟩
    | ok shortSum => exact .inl ⟨_, rfl, rfl, rfl⟩

/-- Both volumes are sums, each over the records of its window. -/
theorem areSums_foldlM
    (hclock : ∀ r ∈ records, r.occurredAt.comparable long.closing = true)
    (hnested : ∀ m, short.contains m = true → long.contains m = true) (v : Volumes) :
    AreSums (records.foldlM (addCompleted short long) v)
      ((short.amounts records).foldlM addAmounts v.short)
      ((long.amounts records).foldlM addAmounts v.long) := by
  induction records generalizing v with
  | nil => exact .inl ⟨v, rfl, rfl, rfl⟩
  | cons r records ih =>
    have hrest : ∀ s ∈ records, s.occurredAt.comparable long.closing = true :=
      fun s hs => hclock s (List.mem_cons_of_mem r hs)
    rw [short.amounts_cons r records, long.amounts_cons r records, List.foldlM_append,
      List.foldlM_append, List.foldlM_cons]
    rcases areSums_addCompleted (hclock r List.mem_cons_self) hnested v with
      ⟨w, hstep, hshort, hlong⟩ | ⟨hstep, hsum⟩
    · rw [hstep, hshort, hlong]
      exact ih hrest w
    · rw [hstep]
      refine .inr ⟨rfl, ?_⟩
      rcases hsum with hsum | hsum
      · exact .inl (by rw [hsum]; rfl)
      · exact .inr (by rw [hsum]; rfl)

theorem amounts_filter_isCompleted {w : Window} (hclosing : w.closing = now)
    (hopening : w.opening.instant = now.instant - (days * Moment.microsPerDay : Nat))
    (records : List Record) : w.amounts (records.filter isCompleted) =
      (completedSince days now records).map (·.amount) := by
  rw [Window.amounts, completedSince]
  simp only [Window.contains, hclosing, hopening, Bool.decide_and]

/-- There is a summary, and its volumes are the sums over its windows, or one of these sums
overflows. -/
theorem ofRecords_cases
    (hclock : ∀ r ∈ records.filter isCompleted, r.occurredAt.comparable now = true)
    (hnow : 7 * Moment.microsPerDay ≤ now.reading) :
    (∃ s, ofRecords records now = .ok s ∧
        sumAmounts ((completedSince 1 now records).map (·.amount)) = .ok s.volumeOfDay ∧
        sumAmounts ((completedSince 7 now records).map (·.amount)) = .ok s.volumeOfWeek) ∨
      (ofRecords records now = .error .amountOverflow ∧
        (sumAmounts ((completedSince 1 now records).map (·.amount)) = .error .amountOverflow ∨
          sumAmounts ((completedSince 7 now records).map (·.amount)) = .error .amountOverflow)) := by
  have hday : 1 * Moment.microsPerDay ≤ now.reading := by omega
  obtain ⟨short, hshort, hshortClosing, hshortOpening⟩ := exists_ofDays hday
  obtain ⟨long, hlong, hlongClosing, hlongOpening⟩ := exists_ofDays hnow
  have hnested : ∀ m, short.contains m = true → long.contains m = true := by
    intro m hm
    simp only [Window.contains, hshortClosing, hshortOpening, hlongClosing, hlongOpening,
      Bool.and_eq_true, decide_eq_true_eq] at hm ⊢
    omega
  have hcompleted : ∀ r ∈ records.filter isCompleted,
      r.occurredAt.comparable long.closing = true := by
    intro r hr
    rw [hlongClosing]
    exact hclock r hr
  have hsums := areSums_foldlM hcompleted hnested ⟨Decimal.zero, Decimal.zero⟩
  rw [amounts_filter_isCompleted hshortClosing hshortOpening,
    amounts_filter_isCompleted hlongClosing hlongOpening] at hsums
  simp only [ofRecords, hshort, hlong, bind, Except.bind]
  rcases hsums with ⟨v, hfold, hshortSum, hlongSum⟩ | ⟨hfold, hsum⟩
  · rw [hfold]
    exact .inl ⟨_, rfl, hshortSum, hlongSum⟩
  · rw [hfold]
    exact .inr ⟨rfl, hsum⟩

/-- A summary exists if the sums over its windows do, and these are its volumes. -/
theorem exists_ofRecords
    (hclock : ∀ r ∈ records.filter isCompleted, r.occurredAt.comparable now = true)
    (hnow : 7 * Moment.microsPerDay ≤ now.reading) {ofDay ofWeek : Decimal}
    (hday : sumAmounts ((completedSince 1 now records).map (·.amount)) = .ok ofDay)
    (hweek : sumAmounts ((completedSince 7 now records).map (·.amount)) = .ok ofWeek) :
    ∃ s, ofRecords records now = .ok s ∧ s.volumeOfDay = ofDay ∧ s.volumeOfWeek = ofWeek := by
  have hcases := ofRecords_cases hclock hnow
  rw [hday, hweek] at hcases
  rcases hcases with ⟨s, hs, hdaySum, hweekSum⟩ | ⟨_, hsum | hsum⟩
  · exact ⟨s, hs, (Except.ok.inj hdaySum).symm, (Except.ok.inj hweekSum).symm⟩
  · cases hsum
  · cases hsum

/-- What a summary says apart from its volumes. -/
theorem counts_of_ofRecords {s : Summary} (h : ofRecords records now = .ok s) :
    s.asOf = now ∧ s.total = records.length ∧
      s.byKind = (Kind.all.map fun k => (k, records.countP fun r => r.kind == k)) ∧
      s.completed = (records.filter isCompleted).length := by
  obtain ⟨short, _, h⟩ := exists_of_bind_eq_ok h
  obtain ⟨long, _, h⟩ := exists_of_bind_eq_ok h
  obtain ⟨volumes, _, h⟩ := exists_of_bind_eq_ok h
  cases h
  exact ⟨rfl, rfl, rfl, rfl⟩

/-! ## Where there is no summary -/

/-- Why records on UTC clocks have no summary at a moment: its windows open before the calendar does,
or its own clock has no known offset. -/
def obstacle? (records : List Record) (now : Moment) : Option Fault :=
  if now.reading < 7 * Moment.microsPerDay then some .outsideCalendar
  else if !now.isAware && records.any isCompleted then some .mixedClocks
  else none

theorem obstacle?_eq_none_iff : obstacle? records now = none ↔
    7 * Moment.microsPerDay ≤ now.reading ∧
      ((∃ r ∈ records, isCompleted r = true) → now.isAware = true) := by
  unfold obstacle?
  by_cases hnow : now.reading < 7 * Moment.microsPerDay
  · rw [if_pos hnow]
    simp [Nat.not_le.mpr hnow]
  · rw [if_neg hnow, ite_eq_right_iff]
    cases now.isAware with
    | true => simp [Nat.not_lt.mp hnow]
    | false => simp [Nat.not_lt.mp hnow]

theorem ofDays_of_lt (h : now.reading < days * Moment.microsPerDay) :
    Window.ofDays days now = .error .outsideCalendar := by
  have hearlier : now.earlier? (days * Moment.microsPerDay) = none := by
    rw [Moment.earlier?, Moment.ofReading?, dif_neg (by omega)]
  rw [Window.ofDays, Window.ofMicros, hearlier]

theorem ofRecords_of_lt (records : List Record) (h : now.reading < 7 * Moment.microsPerDay) :
    ofRecords records now = .error .outsideCalendar := by
  by_cases hday : now.reading < 1 * Moment.microsPerDay
  · rw [ofRecords, ofDays_of_lt hday]
    rfl
  · obtain ⟨short, hshort, _⟩ := exists_ofDays (Nat.not_lt.mp hday)
    rw [ofRecords, hshort, ofDays_of_lt h]
    rfl

theorem ofRecords_of_obstacle {fault : Fault} (hutc : ∀ r ∈ records, r.occurredAt.IsUtc)
    (h : obstacle? records now = some fault) : ofRecords records now = .error fault := by
  unfold obstacle? at h
  split at h
  · next hnow =>
    cases h
    exact ofRecords_of_lt records hnow
  · next hnow =>
    split at h
    · next hnaive =>
      cases h
      simp only [Bool.and_eq_true, Bool.not_eq_true', List.any_eq_true] at hnaive
      obtain ⟨hnaive, r, hr, hcompleted⟩ := hnaive
      have hday : 1 * Moment.microsPerDay ≤ now.reading := by omega
      obtain ⟨short, hshort, _⟩ := exists_ofDays hday
      obtain ⟨long, hlong, hclosing, _⟩ := exists_ofDays (Nat.not_lt.mp hnow)
      have hmem : r ∈ records.filter isCompleted := List.mem_filter.mpr ⟨hr, hcompleted⟩
      have hfold : (records.filter isCompleted).foldlM (addCompleted short long)
          ⟨Decimal.zero, Decimal.zero⟩ = .error .mixedClocks := by
        cases hlist : records.filter isCompleted with
        | nil => simp [hlist] at hmem
        | cons first rest =>
          have hfirst : first ∈ records.filter isCompleted := hlist ▸ List.mem_cons_self
          have haware := Moment.isAware_of_isUtc (hutc first (List.mem_filter.mp hfirst).1)
          have hstep : addCompleted short long ⟨Decimal.zero, Decimal.zero⟩ first =
              .error .mixedClocks := by
            rw [addCompleted, hclosing, Moment.comparable, haware, hnaive]
            rfl
          rw [List.foldlM_cons, hstep]
          rfl
      simp only [ofRecords, hshort, hlong, hfold, bind, Except.bind]
    · cases h

end Summary

end GatewayLedger
