import GatewayLedger.Text.Uppercase
import Mathlib.Algebra.Group.Nat.Defs
import Mathlib.Data.List.Basic

/-!
# Upper case of upper case

A text in upper case stays as it is when it is brought to upper case once more: no character to which
the tables lead is one that they move. To compare the two sets of characters, each is written as one
number with a bit for every member.
-/

namespace GatewayLedger.Text

/-! ## Sets of numbers as bits -/

def bits (ns : List Nat) : Nat := ns.foldr (fun n m => 2 ^ n ||| m) 0

theorem testBit_bits (ns : List Nat) (n : Nat) : (bits ns).testBit n = decide (n ∈ ns) := by
  induction ns with
  | nil => simp [bits]
  | cons m ns ih =>
    have hcons : bits (m :: ns) = 2 ^ m ||| bits ns := rfl
    simp only [hcons, Nat.testBit_or, ih, Nat.testBit_two_pow, List.mem_cons, Bool.decide_or,
      eq_comm (a := m)]

theorem not_mem_of_bits {ns ms : List Nat} (h : bits ns &&& bits ms = 0) {n : Nat} (hn : n ∈ ns) :
    n ∉ ms := by
  intro hm
  have hbit : (bits ns &&& bits ms).testBit n = true := by
    rw [Nat.testBit_and, testBit_bits, testBit_bits, decide_eq_true hn, decide_eq_true hm]
    rfl
  rw [h, Nat.zero_testBit] at hbit
  exact Bool.false_ne_true hbit

/-! ## The characters of the tables -/

def runMembers (run : Nat × Nat × Nat × Int) : List Nat :=
  (List.range' 0 ((run.2.1 - run.1) / run.2.2.1 + 1)).map fun k => run.1 + k * run.2.2.1

/-- The characters that are no upper case. -/
def moved : List Nat :=
  List.range' 97 26 ++ upperSpecials.map (·.1) ++ upperRuns.flatMap runMembers

/-- The characters to which these lead, and the one that stands in for a number of no character. -/
def reached : List Nat :=
  0 :: List.range' 65 26 ++ upperSpecials.flatMap (·.2) ++
    upperRuns.flatMap fun run =>
      (runMembers run).map fun (n : Nat) => ((n : Int) + run.2.2.2).toNat

theorem not_mem_moved {n : Nat} (h : n ∈ reached) : n ∉ moved :=
  not_mem_of_bits (by decide +kernel) h

theorem mem_runMembers {run : Nat × Nat × Nat × Int} {n : Nat}
    (h : (run.1 ≤ n && n ≤ run.2.1 && (n - run.1) % run.2.2.1 == 0) = true) :
    n ∈ runMembers run := by
  simp only [Bool.and_eq_true, decide_eq_true_eq, beq_iff_eq] at h
  obtain ⟨⟨hlow, hhigh⟩, hstep⟩ := h
  have hdiv : (n - run.1) / run.2.2.1 * run.2.2.1 = n - run.1 :=
    Nat.div_mul_cancel (Nat.dvd_of_mod_eq_zero hstep)
  have hle : (n - run.1) / run.2.2.1 ≤ (run.2.1 - run.1) / run.2.2.1 :=
    Nat.div_le_div_right (by omega)
  rw [runMembers, List.mem_map]
  refine ⟨(n - run.1) / run.2.2.1, List.mem_range'_1.mpr ⟨Nat.zero_le _, ?_⟩, ?_⟩
  · rw [Nat.zero_add]
    exact Nat.lt_succ_of_le hle
  · rw [hdiv]
    omega

theorem toNat_ofNat_mem_reached {n : Nat} (h : n ∈ reached) : (Char.ofNat n).toNat ∈ reached := by
  by_cases hvalid : n.isValidChar
  · rw [Char.ofNat, dif_pos hvalid]
    exact h
  · rw [Char.ofNat, dif_neg hvalid]
    exact List.mem_append_left _ (List.mem_append_left _ List.mem_cons_self)

/-! ## Characters -/

theorem upperChar_of_not_mem_moved {c : Char} (h : c.toNat ∉ moved) : upperChar c = [c] := by
  simp only [moved, List.mem_append, not_or] at h
  obtain ⟨⟨hascii, hspecial⟩, hrun⟩ := h
  have hnone : (upperSpecials.find? fun s => s.1 == c.toNat) = none := by
    rw [List.find?_eq_none]
    intro s hs hsame
    exact hspecial (List.mem_map.mpr ⟨s, hs, by simpa using hsame⟩)
  have hother : (upperRuns.find? fun r => r.1 ≤ c.toNat && c.toNat ≤ r.2.1 &&
      (c.toNat - r.1) % r.2.2.1 == 0) = none := by
    rw [List.find?_eq_none]
    intro run hmem hin
    exact hrun (List.mem_flatMap.mpr ⟨run, hmem, mem_runMembers hin⟩)
  unfold upperChar
  dsimp only
  rw [hnone, hother]
  split
  · rw [if_neg]
    simp only [Bool.and_eq_true, decide_eq_true_eq]
    rintro ⟨hlow, hhigh⟩
    exact hascii (List.mem_range'_1.mpr (by omega))
  · rfl

/-- A character stays, or the tables lead to all that it becomes. -/
theorem upperChar_cases (c : Char) :
    upperChar c = [c] ∨ ∀ d ∈ upperChar c, d.toNat ∈ reached := by
  unfold upperChar
  dsimp only
  split
  · split
    · next hlower =>
      simp only [Bool.and_eq_true, decide_eq_true_eq] at hlower
      have hmem : c.toNat - 32 ∈ reached := by
        refine List.mem_append_left _ (List.mem_append_left _ (List.mem_cons_of_mem _ ?_))
        exact List.mem_range'_1.mpr (by omega)
      right
      intro d hd
      obtain rfl := List.mem_singleton.mp hd
      exact toNat_ofNat_mem_reached hmem
    · exact .inl rfl
  split
  · next us hfind =>
    right
    intro d hd
    obtain ⟨u, hu, rfl⟩ := List.mem_map.mp hd
    have hmem := List.mem_of_find?_eq_some hfind
    exact toNat_ofNat_mem_reached
      (List.mem_append_left _ (List.mem_append_right _ (List.mem_flatMap.mpr ⟨_, hmem, hu⟩)))
  split
  · next first last step shift hfind =>
    right
    intro d hd
    obtain rfl := List.mem_singleton.mp hd
    have hmem := List.mem_of_find?_eq_some hfind
    have hin := List.find?_some hfind
    exact toNat_ofNat_mem_reached (List.mem_append_right _
      (List.mem_flatMap.mpr ⟨_, hmem, List.mem_map.mpr ⟨_, mem_runMembers hin, rfl⟩⟩))
  · exact .inl rfl

theorem upperChar_of_mem_upperChar {c d : Char} (h : d ∈ upperChar c) : upperChar d = [d] := by
  rcases upperChar_cases c with hsame | hreached
  · obtain rfl : d = c := List.mem_singleton.mp (hsame ▸ h)
    exact hsame
  · exact upperChar_of_not_mem_moved (not_mem_moved (hreached d h))

theorem toUpper_toUpper (text : String) : toUpper (toUpper text) = toUpper text := by
  have hfixed : ∀ d ∈ (toUpper text).toList, upperChar d = [d] := by
    intro d hd
    rw [toList_toUpper, List.mem_flatMap] at hd
    obtain ⟨c, _, hdc⟩ := hd
    exact upperChar_of_mem_upperChar hdc
  rw [← String.toList_inj, toList_toUpper, List.flatMap_congr hfixed, List.flatMap_singleton']

end GatewayLedger.Text
