import GatewayLedger.Text.Utf8
import GatewayLedger.Time.Moment
import GatewayLedger.Number.Decimal.Printer

/-!
# ISO 8601 text

`Moment.isoText` writes the extended form. `Moment.readIso?` reads the extended and the basic form,
calendar dates and week dates, with any one character between date and time. Fields of the time may
be left out from the right, digits of the fraction beyond six are dropped, and what stands between
the time and the sign of the offset is passed over.
-/

namespace GatewayLedger

namespace Iso

abbrev Bytes := List UInt8

def isDigit (b : UInt8) : Bool := 48 ≤ b.toNat && b.toNat ≤ 57

def colon : UInt8 := 58

def dash : UInt8 := 45

def plus : UInt8 := 43

def weekMark : UInt8 := 87

def isFractionMark (b : UInt8) : Bool := b == 46 || b == 44

def numberOf (bs : Bytes) : Nat := bs.foldl (fun n b => 10 * n + (b.toNat - 48)) 0

def readNumber? (k : Nat) (bs : Bytes) : Option (Nat × Bytes) :=
  let ds := bs.take k
  if ds.length == k && ds.all isDigit then some (numberOf ds, bs.drop k) else none

/-! ## Dates -/

/-- Where the date ends, which the fifth and sixth character tell; a week date in basic form is told
from a following digit of the time by the parity of the run of digits. -/
def dateLength? (bs : Bytes) : Option Nat :=
  if bs.length == 7 then some 7
  else if bs[4]? == some dash then
    if bs[5]? == some weekMark then
      if bs[8]? == some dash then
        match bs.drop 9 with
        | [] => none
        | [_] => some 10
        | _ :: b :: _ => some (if isDigit b then 8 else 10)
      else some 8
    else some 10
  else if bs[4]? == some weekMark then
    let stop := 7 + ((bs.drop 7).takeWhile isDigit).length
    some (if stop < 9 then stop else if stop % 2 == 0 then 7 else 8)
  else some 8

def readDash? (dashed : Bool) (bs : Bytes) : Option Bytes :=
  if dashed then
    match bs with
    | b :: r => if b == dash then some r else none
    | [] => none
  else some bs

/-- The date at the start of a text, where a week date of the given length may lack the day. -/
def readDate? (bs : Bytes) (length : Nat) : Option Date := do
  let (year, r) ← readNumber? 4 bs
  let dashed := r.head? == some dash
  let r := if dashed then r.tail else r
  if r.head? == some weekMark then
    let (week, r) ← readNumber? 2 r.tail
    if bs.length - r.length < length then
      let (day, _) ← readNumber? 1 (← readDash? dashed r)
      Date.ofIsoWeek? year week day
    else Date.ofIsoWeek? year week 1
  else
    let (month, r) ← readNumber? 2 r
    let (day, _) ← readNumber? 2 (← readDash? dashed r)
    let date : Date := ⟨year, month, day⟩
    if date.isValid then some date else none

/-! ## Times -/

/-- A fraction of a second in microseconds, and what follows its digits. -/
def readFraction? (bs : Bytes) : Option (Nat × Bytes) := do
  let k := min 6 bs.length
  let (n, r) ← readNumber? k bs
  some (n * Rounding.pow10 (6 - k), r.dropWhile isDigit)

/-- Up to `count` fields of two digits and a fraction. Whether a colon divides the fields is decided
by what follows the first of them; one last character that belongs to no field is left over. -/
def readFields? (colons : Option Bool) : Nat → Bytes → Option (List Nat × Nat × Bytes)
  | 0, bs => do
    let (micros, rest) ← readFraction? bs
    some ([], micros, rest)
  | count + 1, bs => do
    let (v, r) ← readNumber? 2 bs
    match r with
    | [] => some ([v], 0, [])
    | [b] => some ([v], 0, [b])
    | b :: r' =>
      let colons := colons.getD (b == colon)
      let (vs, micros, rest) ←
        if colons && b == colon then readFields? (some colons) count r'
        else if isFractionMark b then readFields? (some colons) 0 r'
        else if colons then none
        else readFields? (some colons) count r
      some (v :: vs, micros, rest)

structure Clock where
  hour : Nat
  minute : Nat
  second : Nat
  micros : Nat

def Clock.seconds (c : Clock) : Nat := c.hour * 3600 + c.minute * 60 + c.second

def readClock? (bs : Bytes) : Option (Clock × Bytes) := do
  let (vs, micros, rest) ← readFields? none 3 bs
  some (⟨vs[0]?.getD 0, vs[1]?.getD 0, vs[2]?.getD 0, micros⟩, rest)

/-- Nothing may be left over at the end of a text; a NUL ends it. -/
def isEnd : Bytes → Bool
  | [] => true
  | b :: _ => b == 0

def Clock.isValid (c : Clock) : Bool := c.hour < 24 && c.minute < 60 && c.second < 60

/-- The offset behind its sign, in microseconds. An offset below one second is none at all. -/
def readOffset? (negative : Bool) (bs : Bytes) : Option Int := do
  let (c, rest) ← readClock? bs
  if !isEnd rest then none
  else if c.seconds == 0 then some 0
  else
    let micros := c.seconds * 1000000 + c.micros
    if Moment.microsPerDay ≤ micros then none
    else some (if negative then -(micros : Int) else micros)

def isSign (b : UInt8) : Bool := b == plus || b == dash

/-- The time of day in microseconds and the offset. -/
def readTime? (bs : Bytes) : Option (Nat × Option Int) := do
  let (c, rest) ← readClock? (bs.takeWhile fun b => !isSign b)
  let offset ←
    match bs.dropWhile fun b => !isSign b with
    | [] => if isEnd rest then some none else none
    | b :: r => (readOffset? (b == dash) r).map some
  if c.isValid then some (c.seconds * 1000000 + c.micros, offset) else none

/-- Passes over one character, whose length its first byte tells. -/
def dropCharacter (bs : Bytes) : Bytes :=
  match bs with
  | [] => []
  | b :: _ =>
    bs.drop (if b.toNat < 0x80 then 1 else if b.toNat < 0xE0 then 2 else if b.toNat < 0xF0 then 3
      else 4)

/-! ## Writing -/

def padded (width n : Nat) : String :=
  let ds := Decimal.digitChars n
  String.ofList (List.replicate (width - ds.length) '0' ++ ds)

/-- Hours and minutes, and seconds and a fraction where they are not zero. -/
def offsetText (offset : Int) : String :=
  let micros := offset.natAbs
  let s := micros / 1000000
  let us := micros % 1000000
  (if offset < 0 then "-" else "+") ++ padded 2 (s / 3600) ++ ":" ++ padded 2 (s / 60 % 60) ++
    (if s % 60 == 0 && us == 0 then "" else ":" ++ padded 2 (s % 60)) ++
    (if us == 0 then "" else "." ++ padded 6 us)

end Iso

namespace Moment

open Iso

/-- The extended form, with the given character between date and time. -/
def isoTextWith (separator : String) (m : Moment) : String :=
  padded 4 m.date.year ++ "-" ++ padded 2 m.date.month ++ "-" ++ padded 2 m.date.day ++
    separator ++ padded 2 m.hour ++ ":" ++ padded 2 m.minute ++ ":" ++ padded 2 m.second ++
    (if m.micro == 0 then "" else "." ++ padded 6 m.micro) ++
    (m.offset.map offsetText).getD ""

def isoText (m : Moment) : String := m.isoTextWith "T"

/-- Date and time to the second, without the offset and without zeros before the year. -/
def stampText (m : Moment) : String :=
  padded 1 m.date.year ++ "-" ++ padded 2 m.date.month ++ "-" ++ padded 2 m.date.day ++ " " ++
    padded 2 m.hour ++ ":" ++ padded 2 m.minute ++ ":" ++ padded 2 m.second

def readIso? (text : String) : Option Moment := do
  let bs := Text.encodeUtf8 text
  if text.length < 7 then none
  else
    let length ← dateLength? bs
    let date ← readDate? bs length
    let (micros, offset) ←
      if bs.length ≤ length then some (0, none) else readTime? (dropCharacter (bs.drop length))
    ofParts? date micros offset

end Moment

end GatewayLedger
