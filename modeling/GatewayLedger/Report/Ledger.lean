import GatewayLedger.Ledger
import GatewayLedger.Report.Table

/-!
# Report of a ledger

A table with a line for each record, newest first, and a footer that says how many of the records
are shown.
-/

namespace GatewayLedger.Report

open Text

/-- The records that a limit leaves. A negative limit counts from the end. -/
def limited {α : Type} (limit : Option Int) (rs : List α) : List α :=
  match limit with
  | none => rs
  | some n => if 0 ≤ n then rs.take n.toNat else rs.take (rs.length - (-n).toNat)

def networkText (r : Record) : String :=
  match r.network with
  | none => "N/A"
  | some "" => "N/A"
  | some network => network

def recordLine (r : Record) : Except Fault String := do
  let amount ← amountColumn 18 r.amount
  .ok (" ".intercalate [padRight 20 r.occurredAt.stampText, padRight 10 r.kind.name,
    padRight 8 r.asset, amount, padRight 8 (networkText r), padRight 10 r.status.name, r.id])

def ledgerHeading : String :=
  " ".intercalate [padRight 20 "Date (UTC)", padRight 10 "Kind", padRight 8 "Asset",
    padLeft 18 "Amount", padRight 8 "Network", padRight 10 "Status", "ID"]

def footer (shown total : Nat) : String :=
  countText shown ++ " of " ++ countText total ++ " record(s)"

def ledger (l : Ledger) (limit : Option Int) (asset : Option String) : Except Fault String := do
  let rows ← (limited limit l.records).mapM recordLine
  let body :=
    if rows.isEmpty then ["No transactions found."]
    else ledgerHeading :: ruler '-' 96 :: rows ++ [ruler '-' 96, footer rows.length l.size]
  .ok (lines (title "TRANSACTION LEDGER" asset :: ruler '=' 96 :: body ++ [""]))

end GatewayLedger.Report
