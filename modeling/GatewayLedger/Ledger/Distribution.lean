import GatewayLedger.Record

/-!
# Distribution of statuses

How many records have each status, and what part of all of them in percent. The quotient is taken to
28 digits and then to two places, where a half goes up. A count has at most 26 digits, so a hundred
times a count needs no rounding.
-/

namespace GatewayLedger

structure Share where
  status : Status
  count : Nat
  percentage : Decimal
deriving DecidableEq

structure Distribution where
  total : Nat
  shares : List Share

namespace Distribution

def percentage (count total : Nat) : Except Fault Decimal :=
  if total = 0 then .ok Decimal.zero
  else ((Decimal.ofRatio (100 * count) total).rescale (-2) .up).mapError Fault.ofDecimal

def countWith (status : Status) (records : List Record) : Nat :=
  records.countP fun r => r.status == status

def ofRecords (records : List Record) : Except Fault Distribution := do
  let total := records.length
  let shares ← Status.all.mapM fun s => do
    let part ← percentage (countWith s records) total
    .ok (⟨s, countWith s records, part⟩ : Share)
  .ok ⟨total, shares⟩

def share? (d : Distribution) (status : Status) : Option Share :=
  d.shares.find? fun s => s.status == status

def countOf (d : Distribution) (status : Status) : Nat := ((d.share? status).map (·.count)).getD 0

def percentageOf (d : Distribution) (status : Status) : Decimal :=
  ((d.share? status).map (·.percentage)).getD Decimal.zero

end Distribution

end GatewayLedger
