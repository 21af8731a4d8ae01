import GatewayLedger.Proofs.Balance
import GatewayLedger.Proofs.Fetch
import GatewayLedger.Proofs.Ledger.Reconciliation
import GatewayLedger.Proofs.Time.Tick

/-!
# One refresh

A refresh has data if none of its requests fails and every deposit and withdrawal has a status. If a
request fails, the earliest failing instant decides alone: an error of the exchange at that instant is
shown and told to the user once, and any other failure is left to the caller, as a status that memory
cannot hold is. The published ledger stays in all these cases.
-/

namespace GatewayLedger

namespace Effect

def notified (effects : List Effect) : List Notification :=
  effects.filterMap fun
    | .notify n => some n
    | .log _ => none

@[simp] theorem notified_append (xs ys : List Effect) :
    notified (xs ++ ys) = notified xs ++ notified ys :=
  List.filterMap_append

@[simp] theorem notified_map_log (events : List LogEvent) : notified (events.map .log) = [] := by
  simp [notified]

end Effect

namespace Dashboard

variable {d : Dashboard} {clock : RowClock} {time : Option Moment} {f : Fetched} {ledger : Ledger}
  {balances : List Balance} {failure : Failure}

/-! ## The completion -/

theorem complete_of_data (d : Dashboard) (hl : f.sources.ledger clock = .ok ledger)
    (hb : Balance.ofPayload f.account = .ok balances) (time : Option Moment) :
    d.complete (.ok f) clock time =
      ⟨⟨⟨.ready, Balance.nonZero balances, ledger, none, time⟩, ⟨ledger⟩⟩, ledger.log.map .log,
        none⟩ := by
  simp only [complete, showData, hl, hb]

end Dashboard

namespace Flight

variable {f : Flight} {instant : Nat} {clock : RowClock}

def AnswersJson (f : Flight) : Prop :=
  ∀ i ∈ f.issued, ∀ v, i.settlement.outcome = .ok v → v.IsJson

theorem answersJson_launch (c : Client) (filter : Filter) (number start : Nat) :
    (c.launch filter number start).1.AnswersJson := by
  rw [AnswersJson, forall_issued]
  simp only [Client.launch, Client.requestHistory]
  exact ⟨fun _ => isJson_issue, fun _ => isJson_issue, fun _ => isJson_issue, fun _ => isJson_issue⟩

end Flight

end GatewayLedger
