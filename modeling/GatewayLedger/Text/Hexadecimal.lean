/-!
# Hexadecimal digits

Digits are read in either case and written in the case that a format asks for.
-/

namespace GatewayLedger.Text.Hexadecimal

def value? (c : Char) : Option Nat :=
  let n := c.toNat
  if 48 ≤ n && n ≤ 57 then some (n - 48)
  else if 65 ≤ n && n ≤ 70 then some (n - 55)
  else if 97 ≤ n && n ≤ 102 then some (n - 87)
  else none

def upperDigit (n : Nat) : Char := Char.ofNat (if n < 10 then 48 + n else 55 + n)

def lowerDigit (n : Nat) : Char := Char.ofNat (if n < 10 then 48 + n else 87 + n)

/-- The number in exactly `count` digits; higher digits are cut off. -/
def lowerDigits : Nat → Nat → List Char
  | 0, _ => []
  | count + 1, n => lowerDigits count (n / 16) ++ [lowerDigit (n % 16)]

theorem length_lowerDigits (count n : Nat) : (lowerDigits count n).length = count := by
  induction count generalizing n with
  | zero => rfl
  | succ count ih => simp [lowerDigits, ih]

theorem exists_of_mem_lowerDigits {count n : Nat} {c : Char} (h : c ∈ lowerDigits count n) :
    ∃ k, k < 16 ∧ c = lowerDigit k := by
  induction count generalizing n with
  | zero => cases h
  | succ count ih =>
    rcases List.mem_append.mp h with h | h
    · exact ih h
    · exact ⟨n % 16, Nat.mod_lt n (by decide), List.mem_singleton.mp h⟩

theorem value?_upperDigit {n : Nat} (h : n < 16) : value? (upperDigit n) = some n := by
  have : ∀ k : Fin 16, value? (upperDigit k) = some k.val := by decide
  exact this ⟨n, h⟩

theorem value?_lowerDigit {n : Nat} (h : n < 16) : value? (lowerDigit n) = some n := by
  have : ∀ k : Fin 16, value? (lowerDigit k) = some k.val := by decide
  exact this ⟨n, h⟩

end GatewayLedger.Text.Hexadecimal
