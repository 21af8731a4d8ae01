import GatewayLedger.Proofs.Fetch
import GatewayLedger.Proofs.Ledger.Order

/-!
# A reconciler over many passes

A `Turn` asks a reconciler for one pass, over payloads at hand or over those of three requests.
Whatever the turns are, readers see the ledger of the last pass that returned one. What a pass
returns is a matter of its own payloads and requests alone.
-/

namespace GatewayLedger

namespace Client

variable {c : Client} {filter : Filter} {failure : Failure}

theorem issue_of_invalid {call : Call} (h : call.payload = .error failure) :
    c.issue call = (.refused failure, c) := by
  simp only [issue, h]

/-- With an invalid filter none of the three requests is sent. -/
theorem requestHistory_of_invalid (h : filter.params = .error failure) :
    c.requestHistory filter =
      (⟨.refused failure, .refused failure, .refused failure, fun _ => 0⟩, c) := by
  have hd : (Call.deposits filter).payload = .error failure := by rw [Call.payload, h]; rfl
  have hw : (Call.withdrawals filter).payload = .error failure := by rw [Call.payload, h]; rfl
  have hp : (Call.paymentRequests filter).payload = .error failure := by rw [Call.payload, h]; rfl
  simp only [requestHistory, issue_of_invalid hd, issue_of_invalid hw, issue_of_invalid hp]

end Client

inductive Turn where
  | reconcile (s : Sources) (clock : RowClock)
  | refresh (requests : HistoryRequests) (clock : RowClock)

namespace Turn

def result : Turn → Except Failure Ledger
  | reconcile s clock => (s.ledger clock).mapError .ledger
  | refresh requests clock =>
    (requests.task 0).value.bind fun s => (s.ledger clock).mapError .ledger

variable {clock : RowClock} {requests : HistoryRequests}

theorem result_refresh_of_error {e : Failure} (h : (requests.task 0).value = .error e) :
    (refresh requests clock).result = .error e := by
  rw [result, h]
  rfl

theorem result_refresh_of_invalid {filter : Filter} {failure : Failure}
    (h : filter.params = .error failure) (c : Client) (turn : Turns) :
    (refresh { (c.requestHistory filter).1 with turn := turn } clock).result = .error failure := by
  rw [c.requestHistory_of_invalid h]
  let refused : HistoryRequests := ⟨.refused failure, .refused failure, .refused failure, turn⟩
  have hmem : Issued.refused failure ∈ refused.toList := List.mem_cons_self
  obtain ⟨j, hj, e, he, htask⟩ := HistoryRequests.exists_error_task hmem rfl 0
  obtain rfl : j = .refused failure := by simpa [refused, HistoryRequests.toList] using hj
  cases he
  exact result_refresh_of_error htask

theorem result_refresh_of_delivers {s : Sources} (h : requests.Delivers s) :
    (refresh requests clock).result = (reconcile s clock).result := by
  simp only [result, h.value_task]
  rfl

theorem result_reconcile_of_mixed {s : Sources} {records : List Record} {a b : Record}
    (hr : s.records clock = .ok records) (ha : a ∈ records) (hb : b ∈ records)
    (haware : a.occurredAt.isAware = true) (hnaive : b.occurredAt.isAware = false) :
    (reconcile s clock).result = .error (.ledger .mixedClocks) := by
  have hmixed : Record.haveOneClock records = false := by
    simp only [Record.haveOneClock, Bool.or_eq_false_iff, List.all_eq_false]
    exact ⟨⟨b, hb, by simp [hnaive]⟩, ⟨a, ha, by simp [haware]⟩⟩
  have hl : s.ledger clock = .error .mixedClocks := by
    simp [Sources.ledger, hr, Ledger.build, Record.newestFirst, hmixed, bind, Except.bind]
  rw [result, hl]
  rfl

end Turn

namespace Reconciler

def take (r : Reconciler) : Turn → Reconciler × Except Failure Ledger
  | .reconcile s clock =>
    let (after, result) := r.reconcile s clock
    (after, result.mapError .ledger)
  | .refresh requests clock =>
    let pass := r.refresh requests clock
    (pass.reconciler, pass.result)

/-- One pass after the other, with what each of them returned. -/
def takeAll (r : Reconciler) : List Turn → Reconciler × List (Except Failure Ledger)
  | [] => (r, [])
  | turn :: rest =>
    let (r, result) := r.take turn
    let (r, results) := r.takeAll rest
    (r, result :: results)

/-- The ledger of the last pass that returned one, or else the empty ledger. -/
def lastReturned (results : List (Except Failure Ledger)) : Ledger :=
  (results.filterMap Except.toOption).getLastD Ledger.empty

variable {r : Reconciler}

theorem take_eq (r : Reconciler) (turn : Turn) :
    r.take turn = (r.settle turn.result, turn.result) := by
  cases turn with
  | reconcile s clock =>
    simp only [take, reconcile, Turn.result]
    cases s.ledger clock <;> rfl
  | refresh requests clock => rfl

theorem take_of_error {turn : Turn} {e : Failure} (h : turn.result = .error e) :
    r.take turn = (r, .error e) := by
  rw [take_eq, h, settle_error]

theorem take_of_ok {turn : Turn} {l : Ledger} (h : turn.result = .ok l) :
    r.take turn = (⟨l⟩, .ok l) := by
  rw [take_eq, h]
  rfl

theorem published_takeAll (r : Reconciler) (turns : List Turn) :
    (r.takeAll turns).1.published =
      ((r.takeAll turns).2.filterMap Except.toOption).getLastD r.published := by
  induction turns generalizing r with
  | nil => rfl
  | cons turn rest ih =>
    rw [takeAll]
    cases hturn : turn.result with
    | ok l =>
      rw [take_of_ok hturn]
      exact (ih ⟨l⟩).trans (List.getLastD_cons ..).symm
    | error e =>
      rw [take_of_error hturn]
      exact ih r

/-- Whatever passes a new reconciler has made, readers see the ledger of the last one that returned
a ledger. A pass that fails changes nothing, and a refresh whose requests all succeed does what any
reconciler does with the answers. -/
theorem published_eq_lastReturned (turns : List Turn) :
    let r := (initial.takeAll turns).1
    let last := lastReturned (initial.takeAll turns).2
    (r.published = last ∧ ∀ id, r.published.get? id = last.get? id) ∧
      (∀ turn e, (r.take turn).2 = .error e → (r.take turn).1 = r) ∧
      (∀ (c : Client) filter turn clock e, filter.params = .error e →
        r.take (.refresh { (c.requestHistory filter).1 with turn := turn } clock) = (r, .error e)) ∧
      (∀ requests clock, ∀ i ∈ requests.toList, ∀ e, i.settlement.outcome = .error e →
        ∃ j ∈ requests.toList, ∃ f, j.settlement.outcome = .error f ∧
          r.take (.refresh requests clock) = (r, .error f)) ∧
      (∀ s clock records, s.records clock = .ok records →
        ∀ a ∈ records, ∀ b ∈ records,
          a.occurredAt.isAware = true → b.occurredAt.isAware = false →
          r.take (.reconcile s clock) = (r, .error (.ledger .mixedClocks))) ∧
      (∀ requests s clock, requests.Delivers s → ∀ other : Reconciler,
        (r.take (.refresh requests clock)).2 = (other.take (.reconcile s clock)).2 ∧
          ∀ l, (other.take (.reconcile s clock)).2 = .ok l →
            (r.take (.refresh requests clock)).1.published = l ∧
              (other.take (.reconcile s clock)).1.published = l) := by
  intro r last
  have hpublished : r.published = last := published_takeAll initial turns
  refine ⟨⟨hpublished, fun id => by rw [hpublished]⟩, ?_, ?_, ?_, ?_, ?_⟩
  · intro turn e h
    rw [take_eq] at h ⊢
    exact congrArg r.settle h
  · intro c filter turn clock e h
    exact take_of_error (Turn.result_refresh_of_invalid h c turn)
  · intro requests clock i hi e he
    obtain ⟨j, hj, f, hf, htask⟩ := HistoryRequests.exists_error_task hi he 0
    exact ⟨j, hj, f, hf, take_of_error (Turn.result_refresh_of_error htask)⟩
  · intro s clock records hr a ha b hb haware hnaive
    exact take_of_error (Turn.result_reconcile_of_mixed hr ha hb haware hnaive)
  · intro requests s clock h other
    have hresult : (Turn.refresh requests clock).result = (Turn.reconcile s clock).result :=
      Turn.result_refresh_of_delivers h
    refine ⟨by rw [take_eq, take_eq, hresult], ?_⟩
    intro l hl
    rw [take_eq] at hl
    rw [take_of_ok (hresult.trans hl), take_of_ok hl]
    exact ⟨rfl, rfl⟩

/-- After one good pass, neither a transport that is down nor a row of another clock does harm. -/
theorem published_after_failed_passes :
    let clock := RowClock.still ⟨0, none, by decide⟩
    let good : Sources := ⟨.list [.object [("id", .text "a")]], .null, .null⟩
    let mixed : Sources := ⟨.list [.object [("id", .text "b")],
      .object [("insertTime", .moment ⟨0, some 0, by decide⟩)]], .null, .null⟩
    let down := Issued.refused .transportDefect
    let r := (initial.takeAll [.reconcile good clock]).1
    r.published.ids = ["a"] ∧
      r.take (.refresh ⟨down, down, down, fun _ => 0⟩ clock) = (r, .error .transportDefect) ∧
      r.take (.reconcile mixed clock) = (r, .error (.ledger .mixedClocks)) := by
  intro clock good mixed down r
  obtain ⟨⟨hpublished, _⟩, _, _, hfailed, hmixed, _⟩ :=
    published_eq_lastReturned [.reconcile good clock]
  refine ⟨?_, ?_, ?_⟩
  · let record := Record.ofTimedRow .deposit [("id", .text "a")] .unknown clock.now
    have hrecords : good.records clock = .ok [record] := rfl
    have hledger : good.ledger clock = .ok (Ledger.ofOrdered [record]) := by
      have hbuild : Ledger.build [record] = .ok (Ledger.ofOrdered [record]) := by
        rw [Ledger.build_of_haveOneClock rfl, List.mergeSort_singleton]
      rw [Sources.ledger, hrecords]
      exact hbuild
    have hturn : (Turn.reconcile good clock).result = .ok (Ledger.ofOrdered [record]) := by
      rw [Turn.result, hledger]
      rfl
    rw [hpublished, takeAll, take_of_ok hturn]
    rfl
  · obtain ⟨j, hj, e, he, htake⟩ := hfailed ⟨down, down, down, fun _ => 0⟩ clock down List.mem_cons_self _ rfl
    obtain rfl : j = down := by simpa [HistoryRequests.toList] using hj
    cases he
    exact htake
  · exact hmixed mixed clock _ rfl _ (List.mem_cons_of_mem _ List.mem_cons_self) _
      List.mem_cons_self rfl rfl

end Reconciler

end GatewayLedger
