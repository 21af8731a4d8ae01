import GatewayLedger.Record.Amount

/-!
# Balances

What an account holds of each asset. A total that the exchange sends is taken as it is, even if it
differs from the sum of the free and the locked part; otherwise that sum is the total.
-/

namespace GatewayLedger

structure Balance where
  asset : String
  free : Decimal
  locked : Decimal
  total : Decimal
deriving DecidableEq

namespace Balance

def isZero (b : Balance) : Bool := b.free.isZero && b.locked.isZero

def totalOf (row : Fields) (free locked : Decimal) : Except Fault Decimal :=
  match Value.field row "total" with
  | .null => addAmounts free locked
  | v => .ok (Amount.ofValue v)

def ofRow (row : Fields) : Except Fault Balance := do
  let free := Amount.ofValue (Value.field row "free")
  let locked := Amount.ofValue (Value.field row "locked")
  let total ← totalOf row free locked
  .ok ⟨(Value.field row "asset").display, free, locked, total⟩

/-- The balances of an account, one for each row that names an asset. -/
def ofPayload (payload : Value) : Except Fault (List Balance) :=
  ((payload.rowsUnder "balances").filter fun row => (Value.field row "asset").isGiven).mapM ofRow

def nonZero (balances : List Balance) : List Balance := balances.filter fun b => !b.isZero

end Balance

end GatewayLedger
