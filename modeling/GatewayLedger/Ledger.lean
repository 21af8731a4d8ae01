import GatewayLedger.Record
import GatewayLedger.Text.Uppercase
import Std.Data.TreeMap

/-!
# Ledgers

A ledger lists records with the newest first; records of one moment keep the order in which they
came. Its index leads from an identifier to the first record that has it, and every later record
with the same identifier is reported as a duplicate.
-/

namespace GatewayLedger

namespace Record

/-- Whether any two of the records can be compared by time. -/
def haveOneClock (records : List Record) : Bool :=
  records.all (·.occurredAt.isAware) || records.all (!·.occurredAt.isAware)

def notNewer (a b : Record) : Bool := a.occurredAt.instant ≤ b.occurredAt.instant

/-- The records in order of time, which is not changed among records of one moment. -/
def oldestFirst (records : List Record) : Except Fault (List Record) :=
  if haveOneClock records then .ok (records.mergeSort notNewer) else .error .mixedClocks

def newestFirst (records : List Record) : Except Fault (List Record) :=
  if haveOneClock records then .ok (records.mergeSort fun a b => notNewer b a)
  else .error .mixedClocks

end Record

/-- A record that the index passes over, because a newer one has its identifier. -/
structure Duplicate where
  id : String
  kept : Kind
  shadowed : Kind
deriving DecidableEq

/-- A ledger carries no time at which it was built: nothing reads that time, and no listing, index or
figure depends on it. -/
structure Ledger where
  records : List Record
  /-- The position of the first record with an identifier. -/
  index : Std.TreeMap String Nat

namespace Ledger

def indexFrom (position : Nat) (index : Std.TreeMap String Nat) :
    List Record → Std.TreeMap String Nat
  | [] => index
  | r :: rest => indexFrom (position + 1) (index.insertIfNew r.id position) rest

/-- The ledger of records that are in order already. -/
def ofOrdered (records : List Record) : Ledger := ⟨records, indexFrom 0 ∅ records⟩

def empty : Ledger := ofOrdered []

def build (records : List Record) : Except Fault Ledger := do
  let ordered ← Record.newestFirst records
  .ok (ofOrdered ordered)

def size (l : Ledger) : Nat := l.records.length

def ids (l : Ledger) : List String := l.records.map (·.id)

def get? (l : Ledger) (id : String) : Option Record := do
  let position ← l.index[id]?
  l.records[position]?

def duplicateAt? (l : Ledger) (r : Record) (position : Nat) : Option Duplicate := do
  let first ← l.index[r.id]?
  if first < position then
    let kept ← l.records[first]?
    some ⟨r.id, kept.kind, r.kind⟩
  else none

def duplicates (l : Ledger) : List Duplicate :=
  l.records.zipIdx.filterMap fun p => l.duplicateAt? p.1 p.2

/-- The records of one asset, whose name counts in any case, as a ledger of their own. -/
def forAsset (l : Ledger) (asset : String) : Except Fault Ledger :=
  build (l.records.filter fun r => Text.toUpper r.asset == Text.toUpper asset)

def ofKind (l : Ledger) (kind : Kind) : List Record := l.records.filter fun r => r.kind == kind

/-- The assets that occur, each once and in upper case. -/
def assets (l : Ledger) : List String := (l.records.map fun r => Text.toUpper r.asset).eraseDups

theorem records_ofOrdered (records : List Record) : (ofOrdered records).records = records := rfl

end Ledger

end GatewayLedger
