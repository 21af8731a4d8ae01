import GatewayLedger.Text.Blank
import GatewayLedger.Text.DecimalDigit
import Mathlib.Data.List.TakeWhile

/-!
# ASCII digits

A digit is no blank, has no other case and is none of the marks between digits. So where a reader takes
digits, it takes all of them and stops before what follows.
-/

namespace GatewayLedger.Text

variable {c : Char} {cs ds : List Char}

theorem toNat_of_isDigit (h : c.isDigit = true) : 48 ≤ c.toNat ∧ c.toNat ≤ 57 :=
  Char.isDigit_iff_toNat.mp h

theorem isBlank_of_isDigit (h : c.isDigit = true) : isBlank c = false := by
  obtain ⟨hlow, hhigh⟩ := toNat_of_isDigit h
  simp only [isBlank, Bool.or_eq_false_iff, Bool.and_eq_false_iff, decide_eq_false_iff_not,
    beq_eq_false_iff_ne]
  omega

theorem toLower_of_isDigit (h : c.isDigit = true) : c.toLower = c := by
  obtain ⟨_, hhigh⟩ := toNat_of_isDigit h
  refine dif_neg fun hupper => ?_
  have hlow : 65 ≤ c.toNat := UInt32.le_iff_toNat_le.mp hupper.1
  omega

theorem ne_of_isDigit {d : Char} (h : c.isDigit = true) (hd : d.isDigit = false) : c ≠ d := by
  rintro rfl
  rw [h] at hd
  cases hd

theorem all_isAsciiDigit_iff : cs.all isAsciiDigit = true ↔ ∀ c ∈ cs, c.isDigit = true :=
  List.all_eq_true

theorem isDigit_of_mem_takeWhile (h : c ∈ cs.takeWhile isAsciiDigit) : c.isDigit = true :=
  List.mem_takeWhile_imp h

theorem takeWhile_digits_append (hds : ∀ c ∈ ds, c.isDigit = true)
    (hcs : ∀ c, cs.head? = some c → c.isDigit = false) :
    (ds ++ cs).takeWhile isAsciiDigit = ds ∧ (ds ++ cs).dropWhile isAsciiDigit = cs := by
  have hpos : ∀ c ∈ ds, isAsciiDigit c = true := hds
  rw [List.takeWhile_append_of_pos hpos, List.dropWhile_append_of_pos hpos]
  cases cs with
  | nil => exact ⟨List.append_nil ds, rfl⟩
  | cons c cs =>
    have hc : isAsciiDigit c = false := hcs c rfl
    rw [List.takeWhile_cons, List.dropWhile_cons, hc]
    exact ⟨List.append_nil ds, rfl⟩

end GatewayLedger.Text
