import GatewayLedger.Ledger
import GatewayLedger.Ledger.Period

/-!
# Volume

The amounts of records added up by period, from the oldest period to the newest. Amounts are added
whatever their asset, so a sum means something for the records of one asset only.
-/

namespace GatewayLedger

structure Bucket where
  period : Period
  total : Decimal
  count : Nat
deriving DecidableEq

structure Volume where
  granularity : Granularity
  buckets : List Bucket

namespace Bucket

/-- Adds an amount to the bucket of its period, which comes last if it is new. -/
def add (period : Period) (amount : Decimal) : List Bucket → Except Fault (List Bucket)
  | [] => do
    let total ← addAmounts Decimal.zero amount
    .ok [⟨period, total, 1⟩]
  | b :: rest =>
    if b.period = period then do
      let total ← addAmounts b.total amount
      .ok (⟨period, total, b.count + 1⟩ :: rest)
    else do
      let rest ← add period amount rest
      .ok (b :: rest)

end Bucket

namespace Volume

def addRecord (granularity : Granularity) (buckets : List Bucket) (r : Record) :
    Except Fault (List Bucket) :=
  Bucket.add (Period.of granularity r.occurredAt) r.amount buckets

def ofRecords (granularity : Granularity) (records : List Record) : Except Fault Volume := do
  let ordered ← Record.oldestFirst records
  let buckets ← ordered.foldlM (addRecord granularity) []
  .ok ⟨granularity, buckets⟩

def total (v : Volume) : Except Fault Decimal := sumAmounts (v.buckets.map (·.total))

def count (v : Volume) : Nat := v.buckets.foldl (fun n b => n + b.count) 0

end Volume

end GatewayLedger
