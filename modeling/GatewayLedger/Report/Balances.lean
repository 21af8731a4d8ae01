import GatewayLedger.Balance
import GatewayLedger.Report.Table

/-!
# Report of balances

A table with a line for each balance.
-/

namespace GatewayLedger.Report

open Text

def balanceLine (b : Balance) : Except Fault String := do
  let free ← amountColumn 18 b.free
  let locked ← amountColumn 18 b.locked
  let total ← amountColumn 18 b.total
  .ok (" ".intercalate [padRight 10 b.asset, free, locked, total])

def balancesHeading : String :=
  " ".intercalate [padRight 10 "Asset", padLeft 18 "Free", padLeft 18 "Locked", padLeft 18 "Total"]

def balances (bs : List Balance) : Except Fault String := do
  let rows ← bs.mapM balanceLine
  let body :=
    if rows.isEmpty then ["No balances found in your wallet."]
    else balancesHeading :: ruler '-' 70 :: rows
  .ok (lines ("ACCOUNT BALANCES" :: ruler '=' 70 :: body ++ [""]))

end GatewayLedger.Report
