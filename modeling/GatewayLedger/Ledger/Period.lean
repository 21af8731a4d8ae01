import GatewayLedger.Number.Decimal.Printer
import GatewayLedger.Time.Iso

/-!
# Periods

The day, the week or the month in which a moment falls on its own clock, and the text by which a
period is known. The year in that text is not padded.
-/

namespace GatewayLedger

inductive Granularity where
  | day
  | week
  | month
deriving DecidableEq

namespace Granularity

def all : List Granularity := [day, week, month]

def name : Granularity → String
  | day => "day"
  | week => "week"
  | month => "month"

def named? (name : String) : Option Granularity := all.find? fun g => g.name == name

end Granularity

inductive Period where
  | day (date : Date)
  | week (year number : Nat)
  | month (year number : Nat)
deriving DecidableEq

namespace Period

def of (granularity : Granularity) (m : Moment) : Period :=
  match granularity with
  | .day => day m.date
  | .week => let (year, number) := Date.isoWeek m.dayNumber; week year number
  | .month => month m.date.year m.date.month

def key : Period → String
  | day d => Iso.padded 1 d.year ++ "-" ++ Iso.padded 2 d.month ++ "-" ++ Iso.padded 2 d.day
  | week year number => Iso.padded 1 year ++ "-W" ++ Iso.padded 2 number
  | month year number => Iso.padded 1 year ++ "-" ++ Iso.padded 2 number

end Period

end GatewayLedger
