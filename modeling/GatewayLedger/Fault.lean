import GatewayLedger.Number.Decimal

/-!
# Faults

The causes for which a figure of the ledger does not exist: two moments that cannot be compared, a
moment outside the calendar, an amount that its digits or its exponent cannot hold, and a number that
no memory can hold once it is written out.
-/

namespace GatewayLedger

inductive Fault where
  | mixedClocks
  | outsideCalendar
  | tooManyDigits
  | amountOverflow
  | outOfMemory
deriving DecidableEq

namespace Fault

def ofDecimal : Decimal.Fault → Fault
  | .invalid => tooManyDigits
  | .overflow => amountOverflow

end Fault

def addAmounts (a b : Decimal) : Except Fault Decimal := (a.add b).mapError Fault.ofDecimal

/-- The sum of amounts, added from the left to zero. -/
def sumAmounts (amounts : List Decimal) : Except Fault Decimal :=
  amounts.foldlM addAmounts Decimal.zero

end GatewayLedger
