import GatewayLedger.Record

/-!
# Summary

The headline figures of a ledger at a moment: how many records there are of each kind, how many are
completed, and the completed volume of the last day and of the last seven days. A window does not
include the moment at which it opens.
-/

namespace GatewayLedger

structure Summary where
  asOf : Moment
  total : Nat
  byKind : List (Kind × Nat)
  completed : Nat
  volumeOfDay : Decimal
  volumeOfWeek : Decimal

namespace Summary

/-- The moments after `opening` and up to `closing`. -/
structure Window where
  opening : Moment
  closing : Moment

def Window.contains (w : Window) (m : Moment) : Bool :=
  w.opening.instant < m.instant && m.instant ≤ w.closing.instant

def Window.ofMicros (micros : Nat) (now : Moment) : Except Fault Window :=
  match now.earlier? micros with
  | some opening => .ok ⟨opening, now⟩
  | none => .error .outsideCalendar

def Window.ofDays (days : Nat) (now : Moment) : Except Fault Window :=
  Window.ofMicros (days * Moment.microsPerDay) now

structure Volumes where
  short : Decimal
  long : Decimal

def addCompleted (short long : Window) (v : Volumes) (r : Record) : Except Fault Volumes :=
  if !r.occurredAt.comparable long.closing then .error .mixedClocks
  else if long.contains r.occurredAt then do
    let longVolume ← addAmounts v.long r.amount
    if short.contains r.occurredAt then
      let shortVolume ← addAmounts v.short r.amount
      .ok ⟨shortVolume, longVolume⟩
    else .ok ⟨v.short, longVolume⟩
  else .ok v

def isCompleted (r : Record) : Bool := r.status == .completed

def ofRecords (records : List Record) (now : Moment) : Except Fault Summary := do
  let short ← Window.ofDays 1 now
  let long ← Window.ofDays 7 now
  let completed := records.filter isCompleted
  let volumes ← completed.foldlM (addCompleted short long) ⟨Decimal.zero, Decimal.zero⟩
  .ok {
    asOf := now
    total := records.length
    byKind := Kind.all.map fun k => (k, records.countP fun r => r.kind == k)
    completed := completed.length
    volumeOfDay := volumes.short
    volumeOfWeek := volumes.long }

end Summary

end GatewayLedger
