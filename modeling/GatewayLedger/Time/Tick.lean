import GatewayLedger.Number.Binary64

/-!
# Ticks of a running clock

A running clock counts its seconds in the 64-bit binary format, and so do the delays that are measured
by it. Both are held as natural numbers of ticks, where a tick is the least positive number of the
format. Sums and differences are rounded to the format, as the clock rounds them.
-/

namespace GatewayLedger.Tick

open Rounding

def perSecond : Nat := pow2 1074

/-- What stands for infinity, the first power of two past the format. -/
def never : Nat := pow2 2098

/-- The ticks of a number of seconds. Less than none counts as none. -/
def ofSeconds : Binary64 → Nat
  | .finite false m e => m * pow2 (e + 1074).toNat
  | .infinite false => never
  | _ => 0

def round (n : Nat) : Nat := ofSeconds (.ofRatio false n perSecond)

/-- The instant to which a clock comes by waiting. A clock never goes back. -/
def after (now delay : Nat) : Nat := max now (round (now + delay))

/-- How long to wait for an instant; not at all if it is over. -/
def remaining (now target : Nat) : Nat :=
  if target ≤ now then 0 else if target = never then never else round (target - now)

/-- The nearest number of microseconds. -/
def micros (n : Nat) : Nat := halfEven (n * 1000000) perSecond

end GatewayLedger.Tick
