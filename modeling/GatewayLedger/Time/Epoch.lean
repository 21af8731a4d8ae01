import GatewayLedger.Time.Moment
import GatewayLedger.Number.Binary64

/-!
# Epoch milliseconds

The exchange counts time in milliseconds since the start of 1970. Both directions pass through
binary floating point: `Moment.ofMillis?` divides by a thousand and rounds the fraction of a second
to microseconds, `Moment.toMillis?` multiplies the seconds by a thousand and drops the fraction.
-/

namespace GatewayLedger.Moment

/-- The UTC moment of a number of milliseconds, unless it lies outside the calendar. -/
def ofMillis? (millis : Binary64) : Option Moment := do
  let seconds := millis.divNat 1000
  let whole ← seconds.truncate?
  let micros ← (seconds.fraction.mulNat microsPerSecond).nearest?
  ofReading? (epoch + whole * microsPerSecond + micros) (some 0)

/-- Seconds since the start of 1970. On a clock of unknown offset the seconds and the fraction are
rounded on their own, and the first day of the calendar has no such number. -/
def epochSeconds? (m : Moment) : Option Binary64 :=
  match m.offset with
  | some _ =>
    let micros := m.instant - epoch
    some (Binary64.ofRatio (decide (micros < 0)) micros.natAbs microsPerSecond)
  | none =>
    if m.reading < microsPerDay then none
    else
      let seconds : Int := (m.reading / microsPerSecond : Nat) - (epoch / microsPerSecond : Nat)
      some ((Binary64.ofInt seconds).add ((Binary64.ofInt m.micro).divNat microsPerSecond))

def toMillis? (m : Moment) : Option Int := do
  let seconds ← m.epochSeconds?
  (seconds.mulNat 1000).truncate?

end GatewayLedger.Moment
