import GatewayLedger.Record.Amount
import GatewayLedger.Text.Column

/-!
# Report parts

What the reports have in common: a title that may name an asset, and columns of texts and numbers.
-/

namespace GatewayLedger.Report

open Text

def title (words : String) (asset : Option String) : String :=
  match asset with
  | none => words
  | some "" => words
  | some asset => words ++ " (" ++ asset ++ ")"

def countText (n : Nat) : String := String.ofList (Decimal.digitChars n)

/-- A column of numbers that is as wide as the widest amount of a usual size. -/
def amountColumn (width : Nat) (amount : Decimal) : Except Fault String := do
  let text ← Amount.text amount
  .ok (padLeft width text)

def lines (ls : List String) : String := String.join (ls.map (· ++ "\n"))

end GatewayLedger.Report
