import GatewayLedger.Ledger.Distribution
import GatewayLedger.Ledger.Summary
import GatewayLedger.Ledger.Volume
import GatewayLedger.Report.Table

/-!
# Report of statistics

Headline figures, volume by period and distribution of statuses, one section after another.
-/

namespace GatewayLedger.Report

open Text

def kindLine (entry : Kind × Nat) : String :=
  "  " ++ padRight 20 (entry.1.name ++ "s:") ++ " " ++ countText entry.2

def summaryLines (s : Summary) : Except Fault (List String) := do
  let ofDay ← Amount.text s.volumeOfDay
  let ofWeek ← Amount.text s.volumeOfWeek
  .ok (["As of:                 " ++ s.asOf.stampText ++ " UTC",
      "Total transactions:    " ++ countText s.total] ++
    s.byKind.map kindLine ++
    ["Completed:             " ++ countText s.completed,
      "Completed volume 24h:  " ++ ofDay,
      "Completed volume 7d:   " ++ ofWeek])

def volumeLine (label : String) (total : Decimal) (count : Nat) : Except Fault String := do
  let amount ← amountColumn 20 total
  .ok (padRight 12 label ++ " " ++ amount ++ " " ++ padLeft 6 (countText count) ++ " tx")

def volumeLines (v : Volume) : Except Fault (List String) :=
  if v.buckets.isEmpty then .ok ["No activity."]
  else do
    let rows ← v.buckets.mapM fun b => volumeLine b.period.key b.total b.count
    let total ← v.total
    let last ← volumeLine "Total" total v.count
    .ok (rows ++ [last])

def shareLine (s : Share) : String :=
  padRight 12 s.status.name ++ " " ++ padLeft 6 (countText s.count) ++ " " ++
    padLeft 8 s.percentage.text ++ "%"

def statistics (s : Summary) (v : Volume) (d : Distribution) (asset : Option String) :
    Except Fault String := do
  let headline ← summaryLines s
  let volume ← volumeLines v
  .ok (lines (title "LEDGER STATISTICS" asset :: ruler '=' 60 :: headline ++
    ["", "VOLUME BY " ++ toUpper v.granularity.name, ruler '-' 60] ++ volume ++
    ["", "STATUS DISTRIBUTION", ruler '-' 60] ++ d.shares.map shareLine ++ [""]))

def statisticsOf (l : Ledger) (now : Moment) (granularity : Granularity) (asset : Option String) :
    Except Fault String := do
  let summary ← Summary.ofRecords l.records now
  let volume ← Volume.ofRecords granularity l.records
  let distribution ← Distribution.ofRecords l.records
  statistics summary volume distribution asset

end GatewayLedger.Report
