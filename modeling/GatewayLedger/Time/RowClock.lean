import GatewayLedger.Time.Moment

/-!
# The clock of rows

A row without a time is given that of a clock, which answers one moment after the other.
-/

namespace GatewayLedger

structure RowClock where
  answer : Nat → Moment

namespace RowClock

def now (c : RowClock) : Moment := c.answer 0

/-- The clock after one answer. -/
def next (c : RowClock) : RowClock := ⟨fun n => c.answer (n + 1)⟩

def still (m : Moment) : RowClock := ⟨fun _ => m⟩

instance : Coe Moment RowClock := ⟨still⟩

end RowClock

end GatewayLedger
