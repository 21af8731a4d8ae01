import GatewayLedger.Number.Decimal

/-!
# Binary floating point

Numbers of the 64-bit binary format, held as sign, significand and exponent. Every operation takes
the exact result and rounds it once to the nearest number of the format, a half to the even
significand.
-/

namespace GatewayLedger

inductive Binary64 where
  | notNumber
  | infinite (negative : Bool)
  | finite (negative : Bool) (significand : Nat) (exponent : Int)
deriving DecidableEq, Inhabited

namespace Binary64

open Rounding

def minExponent : Int := -1074

def maxExponent : Int := 971

def zero (negative : Bool) : Binary64 := .finite negative 0 minExponent

/-- The exponent of the leading bit of a positive ratio. -/
def leadingExponent (num den : Nat) : Int :=
  let k : Int := (num.log2 : Int) - den.log2
  if (if 0 ≤ k then den * pow2 k.toNat ≤ num else den ≤ num * pow2 (-k).toNat) then k else k - 1

/-- A ratio in units of `2 ^ e`, to the nearest integer. -/
def unitsAt (num den : Nat) (e : Int) : Nat :=
  if 0 ≤ e then halfEven num (den * pow2 e.toNat) else halfEven (num * pow2 (-e).toNat) den

def ofRatio (negative : Bool) (num den : Nat) : Binary64 :=
  if num = 0 then zero negative
  else
    let e := max (leadingExponent num den - 52) minExponent
    let m := unitsAt num den e
    let (m, e) := if m = pow2 53 then (pow2 52, e + 1) else (m, e)
    if maxExponent < e then .infinite negative else .finite negative m e

/-- Magnitude of `m * 2 ^ e` as a ratio. -/
def ratio (m : Nat) (e : Int) : Nat × Nat :=
  if 0 ≤ e then (m * pow2 e.toNat, 1) else (m, pow2 (-e).toNat)

def ofInt (n : Int) : Binary64 := ofRatio (decide (n < 0)) n.natAbs 1

/-- The number nearest to a decimal. Beyond 400 digits on either side of the point the decimal is
past every number of the format. -/
def ofDecimal (d : Decimal) : Binary64 :=
  if d.isZero || d.adjusted < -400 then zero d.negative
  else if 400 < d.adjusted then .infinite d.negative
  else if 0 ≤ d.exponent then ofRatio d.negative (d.coefficient * pow10 d.exponent.toNat) 1
  else ofRatio d.negative d.coefficient (pow10 (-d.exponent).toNat)

def mulNat (x : Binary64) (k : Nat) : Binary64 :=
  match x with
  | .finite negative m e => let (num, den) := ratio m e; ofRatio negative (num * k) den
  | x => x

def divNat (x : Binary64) (k : Nat) : Binary64 :=
  match x with
  | .finite negative m e => let (num, den) := ratio m e; ofRatio negative num (den * k)
  | x => x

/-- The sum of two finite numbers, given as multiples of the smaller power of two. -/
def addFinite (na : Bool) (ma : Nat) (ea : Int) (nb : Bool) (mb : Nat) (eb : Int) : Binary64 :=
  let e := min ea eb
  let units (negative : Bool) (m : Nat) (x : Int) : Int :=
    let magnitude : Int := (m * pow2 (x - e).toNat : Nat)
    if negative then -magnitude else magnitude
  let s := units na ma ea + units nb mb eb
  if s = 0 then zero (na && nb)
  else let (num, den) := ratio s.natAbs e; ofRatio (decide (s < 0)) num den

def add : Binary64 → Binary64 → Binary64
  | .finite na ma ea, .finite nb mb eb => addFinite na ma ea nb mb eb
  | .infinite a, .infinite b => if a = b then .infinite a else .notNumber
  | .infinite a, .finite _ _ _ => .infinite a
  | .finite _ _ _, .infinite b => .infinite b
  | _, _ => .notNumber

/-- The integer part of a finite number, toward zero. -/
def truncate? : Binary64 → Option Int
  | .finite negative m e =>
    let (num, den) := ratio m e
    let magnitude : Int := (num / den : Nat)
    some (if negative then -magnitude else magnitude)
  | _ => none

/-- What is left of a number without its integer part; it has the sign of the number. -/
def fraction : Binary64 → Binary64
  | .finite negative m e =>
    let (num, den) := ratio m e
    ofRatio negative (num % den) den
  | x => x

/-- The nearest integer of a finite number, a half to the even one. -/
def nearest? : Binary64 → Option Int
  | .finite negative m e =>
    let (num, den) := ratio m e
    let magnitude : Int := halfEven num den
    some (if negative then -magnitude else magnitude)
  | _ => none

def isZero : Binary64 → Bool
  | .finite _ m _ => m == 0
  | _ => false

end Binary64

end GatewayLedger
