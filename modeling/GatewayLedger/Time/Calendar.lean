/-!
# Calendar

The proleptic Gregorian calendar. Days are numbered from 1 for the first day of the year 1, which is
a Monday; `Date.dayNumber` and `Date.ofDayNumber` lead from dates to day numbers and back. A week
belongs to the year of its Thursday.
-/

namespace GatewayLedger

structure Date where
  year : Nat
  month : Nat
  day : Nat
deriving DecidableEq

namespace Calendar

def isLeap (year : Nat) : Bool :=
  year % 4 == 0 && (year % 100 != 0 || year % 400 == 0)

def daysInMonth (year month : Nat) : Nat :=
  match month with
  | 2 => if isLeap year then 29 else 28
  | 4 | 6 | 9 | 11 => 30
  | _ => 31

def daysInYear (year : Nat) : Nat := if isLeap year then 366 else 365

def daysBeforeYear (year : Nat) : Nat :=
  let y := year - 1
  y * 365 + y / 4 - y / 100 + y / 400

/-- The days of a year before its month `month + 1`. -/
def daysBeforeMonth (year : Nat) : Nat → Nat
  | 0 => 0
  | month + 1 => daysBeforeMonth year month + daysInMonth year (month + 1)

def maxYear : Nat := 9999

def dayCount : Nat := daysBeforeYear (maxYear + 1)

/-- Month and day of the day `n`, counted from 0, on or after the first of month `month`. -/
def monthAndDay (year : Nat) : Nat → Nat → Nat → Nat × Nat
  | 0, month, n => (month, n + 1)
  | fuel + 1, month, n =>
    let len := daysInMonth year month
    if n < len then (month, n + 1) else monthAndDay year fuel (month + 1) (n - len)

end Calendar

namespace Date

open Calendar

def isValid (d : Date) : Bool :=
  1 ≤ d.year && d.year ≤ maxYear && 1 ≤ d.month && d.month ≤ 12 && 1 ≤ d.day &&
    d.day ≤ daysInMonth d.year d.month

def dayNumber (d : Date) : Nat :=
  daysBeforeYear d.year + daysBeforeMonth d.year (d.month - 1) + d.day

/-- The year of a day number: a first guess by the mean length of a year, off by one at most. -/
def yearOfDayNumber (n : Nat) : Nat :=
  let guess := (n - 1) * 400 / 146097 + 1
  if n ≤ daysBeforeYear guess then guess - 1
  else if daysBeforeYear (guess + 1) < n then guess + 1
  else guess

def ofDayNumber (n : Nat) : Date :=
  let year := yearOfDayNumber n
  let (month, day) := monthAndDay year 11 1 (n - daysBeforeYear year - 1)
  ⟨year, month, day⟩

/-- The day of the week, from 0 for Monday. -/
def weekday (n : Nat) : Nat := (n + 6) % 7

def thursday (n : Nat) : Nat := n - weekday n + 3

def isoWeek (n : Nat) : Nat × Nat :=
  let t := thursday n
  let year := yearOfDayNumber t
  (year, (t - daysBeforeYear year - 1) / 7 + 1)

/-- The Monday of the first week of a year, whose Thursday is the first of the year. -/
def firstMonday (year : Nat) : Nat :=
  let first := daysBeforeYear year + 1
  let monday := first - weekday first
  if 3 < weekday first then monday + 7 else monday

def hasWeek53 (year : Nat) : Bool :=
  let first := weekday (daysBeforeYear year + 1)
  first == 3 || (first == 2 && isLeap year)

def ofIsoWeek? (year week day : Nat) : Option Date :=
  if year == 0 || maxYear < year || week == 0 || 53 < week || (week == 53 && !hasWeek53 year) ||
      day == 0 || 7 < day then none
  else
    let n := firstMonday year + (week - 1) * 7 + (day - 1)
    if n == 0 || dayCount < n then none else some (ofDayNumber n)

end Date

end GatewayLedger
