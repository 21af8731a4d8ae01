import GatewayLedger.Number.Rounding

/-!
# Decimals

A decimal is a sign, a coefficient and a power of ten, so that `1.50` and `1.5` are two decimals of
one value and zero has a sign. Sums are taken exactly and then rounded to 28 significant digits, a
half to the even neighbour; `rescale` moves a decimal to a given exponent.
-/

namespace GatewayLedger

structure Decimal where
  negative : Bool
  coefficient : Nat
  exponent : Int
deriving DecidableEq, Inhabited

namespace Decimal

open Rounding

inductive Fault where
  | invalid
  | overflow
deriving DecidableEq

inductive Tie where
  | toEven
  | up
deriving DecidableEq

def zero : Decimal := ⟨false, 0, 0⟩

def isZero (d : Decimal) : Bool := d.coefficient == 0

def isPositive (d : Decimal) : Bool := !d.negative && !d.isZero

def numDigits (d : Decimal) : Nat := Rounding.numDigits d.coefficient

/-- The exponent of the leading digit. -/
def adjusted (d : Decimal) : Int := d.exponent + d.numDigits - 1

/-- The value in units of `10 ^ e`, for an exponent `e` at or below that of the decimal. -/
def unitsAt (d : Decimal) (e : Int) : Int :=
  let magnitude : Int := (d.coefficient * pow10 (d.exponent - e).toNat : Nat)
  if d.negative then -magnitude else magnitude

def toRat (d : Decimal) : Rat :=
  if 0 ≤ d.exponent then (d.unitsAt 0 : Rat)
  else mkRat (d.unitsAt d.exponent) (pow10 (-d.exponent).toNat)

/-- The value as an integer, when it is one. -/
def toInt? (d : Decimal) : Option Int :=
  if d.isZero then some 0
  else if 0 ≤ d.exponent then some (d.unitsAt 0)
  else
    let places := (-d.exponent).toNat
    if d.numDigits ≤ places then none
    else if d.coefficient % pow10 places = 0 then
      let magnitude : Int := (d.coefficient / pow10 places : Nat)
      some (if d.negative then -magnitude else magnitude)
    else none

/-! ## Memory -/

/-- The size of the address space of a process, in bytes. Nothing larger can be allocated, and
anything smaller is taken to find its place. -/
def addressSpace : Nat := pow2 47

/-- The most digits that an integer may have when it is written out, at 19 digits in eight bytes. -/
def maxIntDigits : Nat := 19 * (addressSpace / 8)

/-- The digits before the point are more than can be written out. -/
def exceedsMemory (d : Decimal) : Bool := !d.isZero && maxIntDigits ≤ d.adjusted

/-- The zeros of the exponent alone are more characters than can be written out. -/
def exceedsText (d : Decimal) : Bool := addressSpace ≤ d.exponent.natAbs

/-- An exponent that is not negative settles it, however many zeros it stands for. -/
def isInteger (d : Decimal) : Bool := 0 ≤ d.exponent || d.toInt?.isSome

/-! ## Arithmetic in 28 digits -/

def precision : Nat := 28

def maxAdjusted : Int := 999999

/-- The least exponent of a rounded result. -/
def minExponent : Int := -1000026

/-- Rounds to at most 28 digits and an exponent in range. -/
def round (d : Decimal) : Except Fault Decimal :=
  if d.isZero then
    .ok { d with exponent := min maxAdjusted (max minExponent d.exponent) }
  else
    let target := max d.exponent (max (d.adjusted - (precision - 1)) minExponent)
    let c := dropDigits d.coefficient (target - d.exponent).toNat
    let r : Decimal :=
      if c = pow10 precision then ⟨d.negative, pow10 (precision - 1), target + 1⟩
      else ⟨d.negative, c, target⟩
    if maxAdjusted < r.adjusted then .error .overflow else .ok r

/-- A place far below the digits of a decimal and the least exponent of a result. -/
def cutoff (d : Decimal) : Int := min minExponent d.exponent - 4

/-- Replaces what lies below a place by at most one unit. No last digit that is 0 or 5 hides a rest,
so a sum with a decimal that ends before the place is rounded as it would be with the rest. -/
def squash (d : Decimal) (e : Int) : Decimal :=
  if e ≤ d.exponent then d
  else
    let gap := (e - d.exponent).toNat
    if d.numDigits ≤ gap then ⟨d.negative, if d.isZero then 0 else 1, e⟩
    else
      let q := d.coefficient / pow10 gap
      let exact := d.coefficient % pow10 gap = 0
      ⟨d.negative, if exact || q % 5 != 0 then q else q + 1, e⟩

theorem squash_of_le {d : Decimal} {e : Int} (h : e ≤ d.exponent) : d.squash e = d :=
  if_pos h

/-- The exact sum at the smaller exponent; a zero sum is negative only if both terms are. -/
def exactSum (a b : Decimal) : Decimal :=
  let e := min a.exponent b.exponent
  let s := a.unitsAt e + b.unitsAt e
  ⟨if s = 0 then a.negative && b.negative else decide (s < 0), s.natAbs, e⟩

/-- The exact sum, rounded. A term that reaches far below the other one is squashed first, so the
exact sum need not be written out. -/
def add (a b : Decimal) : Except Fault Decimal :=
  (exactSum (a.squash b.cutoff) (b.squash a.cutoff)).round

def sum (ds : List Decimal) : Except Fault Decimal := ds.foldlM add zero

/-- The quotient of two natural numbers to 28 significant digits. -/
def ofRatio (num den : Nat) : Decimal :=
  if num = 0 then zero
  else
    let shift := precision + 1 + Rounding.numDigits den
    let drop := Rounding.numDigits (num * pow10 shift / den) - precision
    ⟨false, halfEven (num * pow10 shift) (den * pow10 drop), (drop : Int) - shift⟩

/-- The decimal at exponent `e`; there is none if it needs more than 28 digits. -/
def rescale (d : Decimal) (e : Int) (tie : Tie) : Except Fault Decimal :=
  if d.isZero then .ok ⟨d.negative, 0, e⟩
  else if e ≤ d.exponent then
    let shift := (d.exponent - e).toNat
    if precision < d.numDigits + shift then .error .invalid
    else .ok ⟨d.negative, d.coefficient * pow10 shift, e⟩
  else
    let places := (e - d.exponent).toNat
    let c :=
      match tie with
      | .toEven => dropDigits d.coefficient places
      | .up => if d.numDigits < places then 0 else halfUp d.coefficient (pow10 places)
    if precision < Rounding.numDigits c then .error .invalid else .ok ⟨d.negative, c, e⟩

end Decimal

end GatewayLedger
