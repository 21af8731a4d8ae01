import GatewayLedger.Ledger

/-!
# Reconciliation

One pass makes a ledger of the three lists that the exchange sends: deposits, withdrawals and
payments, in this order. A pass that fails leaves the ledger that was published before.
-/

namespace GatewayLedger

structure Sources where
  deposits : Value
  withdrawals : Value
  payments : Value

namespace Sources

def rows (s : Sources) : List (Kind × Fields) :=
  (s.deposits.rowsUnder "data").map (fun row => (.deposit, row)) ++
    (s.withdrawals.rowsUnder "data").map (fun row => (.withdrawal, row)) ++
    (s.payments.rowsUnder "data").map (fun row => (.payment, row))

def records (s : Sources) (clock : RowClock) : Except Fault (List Record) :=
  Record.ofKindRows clock s.rows

def ledger (s : Sources) (clock : RowClock) : Except Fault Ledger := do
  let records ← s.records clock
  Ledger.build records

end Sources

/-- Holds the ledger that readers see. -/
structure Reconciler where
  published : Ledger

namespace Reconciler

def initial : Reconciler := ⟨Ledger.empty⟩

/-- Publishes the ledger of a pass, if the pass has one. -/
def settle {ε : Type} (r : Reconciler) : Except ε Ledger → Reconciler
  | .ok ledger => ⟨ledger⟩
  | .error _ => r

def reconcile (r : Reconciler) (s : Sources) (clock : RowClock) :
    Reconciler × Except Fault Ledger :=
  let result := s.ledger clock
  (r.settle result, result)

theorem settle_error {ε : Type} (r : Reconciler) (e : ε) : r.settle (.error e) = r := rfl

end Reconciler

end GatewayLedger
