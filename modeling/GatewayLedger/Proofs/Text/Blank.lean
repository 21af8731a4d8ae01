import GatewayLedger.Text.Blank
import Mathlib.Data.List.TakeWhile

/-!
# Trimming

Trimming takes nothing from a text but blanks, all of those around it and none from between other
characters.
-/

namespace GatewayLedger.Text

variable {c : Char} {cs tail : List Char}

theorem mem_dropWhile {p : Char → Bool} (h : c ∈ cs) (hc : p c = false) : c ∈ cs.dropWhile p := by
  induction cs with
  | nil => exact h
  | cons d cs ih =>
    rw [List.dropWhile_cons]
    split
    · next hd =>
      rcases List.mem_cons.mp h with rfl | h
      · exact absurd (hc.symm.trans hd) (by decide)
      · exact ih h
    · exact h

/-- Only blanks are lost in trimming. -/
theorem mem_trim (h : c ∈ cs) (hc : isBlank c = false) : c ∈ trim cs :=
  List.mem_reverse.mpr (mem_dropWhile (List.mem_reverse.mpr (mem_dropWhile h hc)) hc)

/-- Text without blanks keeps what is before it from being trimmed at the end. -/
theorem trim_append (cs : List Char) (h : tail.any isBlank = false) (hne : tail ≠ []) :
    trim (cs ++ tail) = trimStart cs ++ tail := by
  have hkeeps : ∀ {ds : List Char}, ds.any isBlank = false → ds.dropWhile isBlank = ds := by
    intro ds hds
    cases ds with
    | nil => rfl
    | cons d ds =>
      have hd : isBlank d = false := (Bool.or_eq_false_iff.mp hds).1
      rw [List.dropWhile_cons, hd]
      rfl
  have hstart : trimStart (cs ++ tail) = trimStart cs ++ tail := by
    rw [trimStart, List.dropWhile_append, hkeeps h]
    split
    · next hnone => rw [trimStart, List.isEmpty_iff.mp hnone, List.nil_append]
    · rfl
  have hreverse : tail.reverse.dropWhile isBlank = tail.reverse := hkeeps (by rwa [List.any_reverse])
  rw [trim, hstart, trimEnd, List.reverse_append, List.dropWhile_append, hreverse,
    if_neg (by simpa using hne), List.reverse_append, List.reverse_reverse, List.reverse_reverse]

theorem trim_of_not_blank (h : tail.any isBlank = false) : trim tail = tail := by
  by_cases hne : tail = []
  · rw [hne]
    rfl
  · exact trim_append [] h hne

theorem trimStart_blank_append {before : List Char} (h : ∀ c ∈ before, isBlank c = true)
    (cs : List Char) : trimStart (before ++ cs) = trimStart cs :=
  List.dropWhile_append_of_pos h

theorem trimEnd_append_blank {after : List Char} (h : ∀ c ∈ after, isBlank c = true)
    (cs : List Char) : trimEnd (cs ++ after) = trimEnd cs := by
  have hreverse : ∀ c ∈ after.reverse, isBlank c = true := fun c hc => h c (List.mem_reverse.mp hc)
  rw [trimEnd, List.reverse_append, List.dropWhile_append_of_pos hreverse, ← trimEnd]

theorem trim_surrounded {before after : List Char} (hbefore : ∀ c ∈ before, isBlank c = true)
    (hafter : ∀ c ∈ after, isBlank c = true) (cs : List Char) :
    trim (before ++ cs ++ after) = trim cs := by
  rw [List.append_assoc, trim, trimStart_blank_append hbefore, trimStart, List.dropWhile_append]
  split
  · next hnone =>
    rw [List.dropWhile_eq_nil_iff.mpr hafter, trim, trimStart, List.isEmpty_iff.mp hnone]
  · exact trimEnd_append_blank hafter _

end GatewayLedger.Text
