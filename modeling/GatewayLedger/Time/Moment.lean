import GatewayLedger.Time.Calendar

/-!
# Moments

A moment is the reading of a clock in microseconds since the first day of the year 1, together with
the offset of that clock from UTC when it is known. The offset is a number: a clock that is set forward
or back has different ones at different moments, and nothing here says to which zone it belongs. Two
moments can be compared only if the offset of both is known or that of neither. No moment lies outside
the years 1 to 9999 of its own clock.
-/

namespace GatewayLedger

namespace Moment

def microsPerSecond : Nat := 1000000

def microsPerDay : Nat := 86400 * microsPerSecond

def span : Nat := Calendar.dayCount * microsPerDay

/-- The reading of a UTC clock at the start of the year 1970. -/
def epoch : Nat := 719162 * microsPerDay

end Moment

structure Moment where
  reading : Nat
  /-- Microseconds by which the clock is ahead of UTC. -/
  offset : Option Int
  inSpan : reading < Moment.span
deriving DecidableEq

namespace Moment

def ofReading? (n : Int) (offset : Option Int) : Option Moment :=
  if h : 0 ≤ n ∧ n.toNat < span then some ⟨n.toNat, offset, h.2⟩ else none

def isAware (m : Moment) : Bool := m.offset.isSome

def IsUtc (m : Moment) : Prop := m.offset = some 0

/-- Microseconds since the year 1 of the UTC clock, or of the clock itself if its offset is
unknown. -/
def instant (m : Moment) : Int := m.reading - m.offset.getD 0

def comparable (a b : Moment) : Bool := a.isAware == b.isAware

/-- The same moment on the UTC clock. A clock of unknown offset counts as a UTC clock. -/
def toUtc? (m : Moment) : Option Moment := ofReading? m.instant (some 0)

def earlier? (m : Moment) (micros : Nat) : Option Moment :=
  ofReading? ((m.reading : Int) - micros) m.offset

def later? (m : Moment) (micros : Nat) : Option Moment :=
  ofReading? ((m.reading : Int) + micros) m.offset

def dayNumber (m : Moment) : Nat := m.reading / microsPerDay + 1

def date (m : Moment) : Date := Date.ofDayNumber m.dayNumber

def secondOfDay (m : Moment) : Nat := m.reading % microsPerDay / microsPerSecond

def hour (m : Moment) : Nat := m.secondOfDay / 3600

def minute (m : Moment) : Nat := m.secondOfDay / 60 % 60

def second (m : Moment) : Nat := m.secondOfDay % 60

def micro (m : Moment) : Nat := m.reading % microsPerSecond

/-- The moment with the given date, time of day in microseconds and offset. -/
def ofParts? (date : Date) (micros : Nat) (offset : Option Int) : Option Moment :=
  if date.isValid && micros < microsPerDay then
    ofReading? ((date.dayNumber - 1) * microsPerDay + micros : Nat) offset
  else none

theorem ofReading?_reading (m : Moment) : ofReading? m.reading m.offset = some m := by
  have h : (0 : Int) ≤ m.reading ∧ (m.reading : Int).toNat < span := ⟨by omega, by simp [m.inSpan]⟩
  simp [ofReading?, m.inSpan]

end Moment

end GatewayLedger
