/-!
# Rounding a ratio

A ratio of natural numbers is rounded to a nearest natural number; a half goes to the even
neighbour in `halfEven` and up in `halfUp`. `numDigits` counts the decimal digits of a number;
`pow10` and `pow2` are the powers of ten and of two.
-/

namespace GatewayLedger.Rounding

def pow10 (k : Nat) : Nat := Nat.pow 10 k

def pow2 (k : Nat) : Nat := Nat.pow 2 k

def halfEven (num den : Nat) : Nat :=
  let q := num / den
  let r := num % den
  if 2 * r < den then q else if den < 2 * r then q + 1 else q + q % 2

def halfUp (num den : Nat) : Nat := (2 * num + den) / (2 * den)

theorem halfEven_one (n : Nat) : halfEven n 1 = n := by
  simp [halfEven, Nat.mod_one]

/-- Splits off as many digits at once as the binary length of the number vouches for. -/
def numDigits (n : Nat) : Nat :=
  if n < 10 then 1
  else
    let m := max 1 (n.log2 * 3 / 10)
    numDigits (n / pow10 m) + m
termination_by n
decreasing_by
  apply Nat.div_lt_self (by omega)
  exact Nat.one_lt_pow (by omega) (by decide)

theorem numDigits_of_lt {n : Nat} (h : n < 10) : numDigits n = 1 := by
  rw [numDigits, if_pos h]

theorem numDigits_pos (n : Nat) : 0 < numDigits n := by
  rw [numDigits]
  split
  · exact Nat.one_pos
  · exact Nat.add_pos_right _ (by omega)

/-- Drops the last `k` decimal digits, to the nearest number and a half to the even neighbour. -/
def dropDigits (n k : Nat) : Nat :=
  if numDigits n < k then 0 else halfEven n (pow10 k)

end GatewayLedger.Rounding
