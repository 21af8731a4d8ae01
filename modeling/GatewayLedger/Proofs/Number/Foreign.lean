import GatewayLedger.Proofs.Number.Literal

/-!
# Characters of no numeral

A text with a character that neither trimming nor reading passes over, and that is no digit, no mark
and no letter of a numeral, is no numeral. The colon of a time and the letter Z are such characters.
-/

namespace GatewayLedger

namespace Numeral

open Text

def marks : List Char := ['+', '-', '.', '_']

/-- The letters of the words for infinity and for no number, and that of an exponent. -/
def letters : List Char := ['i', 'n', 'f', 't', 'y', 'a', 's', 'e']

structure IsForeign (c : Char) : Prop where
  plain : plainChar? c = some c
  not_blank : isBlank c = false
  not_digit : isAsciiDigit c = false
  not_mark : c ∉ marks
  not_lower_digit : isAsciiDigit c.toLower = false
  not_letter : c.toLower ∉ letters

theorem isForeign_colon : IsForeign ':' :=
  ⟨by decide, by decide, by decide, by decide, by decide, by decide⟩

theorem isForeign_zulu : IsForeign 'Z' :=
  ⟨by decide, by decide, by decide, by decide, by decide, by decide⟩

variable {c : Char} {cs : List Char} {negative signaling : Bool}

namespace IsForeign

variable (hc : IsForeign c)

include hc

theorem ne_of_mem_marks {d : Char} (h : d ∈ marks) : c ≠ d := by
  rintro rfl
  exact hc.not_mark h

theorem ne_of_mem_letters {d : Char} (h : d ∈ letters) : c.toLower ≠ d := by
  rintro rfl
  exact hc.not_letter h

theorem mem_readSign (h : c ∈ cs) : c ∈ (readSign cs).2 := by
  unfold readSign
  split
  · exact (List.mem_cons.mp h).resolve_left (hc.ne_of_mem_marks (by decide))
  · exact (List.mem_cons.mp h).resolve_left (hc.ne_of_mem_marks (by decide))
  · exact h

theorem not_mem_chars (l : Literal) : c ∉ l.chars := by
  intro h
  rcases Literal.mem_chars h with hdigit | hmark
  · exact absurd (hc.not_digit.symm.trans hdigit) (by decide)
  · simp only [Literal.marks, List.mem_cons, List.not_mem_nil, or_false] at hmark
    rcases hmark with rfl | rfl | rfl | rfl | rfl
    · exact hc.not_mark (by decide)
    · exact hc.not_mark (by decide)
    · exact hc.not_mark (by decide)
    · exact hc.not_letter (by decide)
    · exact hc.not_letter (by decide)

theorem readFinite?_eq_none (h : c ∈ cs) : readFinite? negative cs = none := by
  cases hread : readFinite? negative cs with
  | none => rfl
  | some d =>
    rw [← Sign.isMinus_ofNegative negative] at hread
    obtain ⟨l, -, rfl, -⟩ := readFinite?_eq_some_iff.mp hread
    exact absurd (List.mem_append_right _ h) (hc.not_mem_chars l)

theorem readPayload?_eq_none (h : c.toLower ∈ cs) : readPayload? negative signaling cs = none := by
  have hdigits : cs.all isAsciiDigit = false :=
    List.all_eq_false.mpr ⟨c.toLower, h, by rw [hc.not_lower_digit]; decide⟩
  rw [readPayload?, hdigits]
  rfl

theorem readUnsigned?_eq_none (h : c ∈ cs) : readUnsigned? negative cs = none := by
  have hlower : c.toLower ∈ cs.map Char.toLower := List.mem_map_of_mem h
  have hletter : ∀ {d : Char} {ds : List Char}, d ∈ letters → c.toLower ∈ d :: ds →
      c.toLower ∈ ds :=
    fun hd hmem => (List.mem_cons.mp hmem).resolve_left (hc.ne_of_mem_letters hd)
  unfold readUnsigned?
  split
  · next hword =>
    have hletters : ['i', 'n', 'f'] ⊆ letters := by decide
    exact absurd (hletters (hword ▸ hlower)) hc.not_letter
  · next hword =>
    have hletters : ['i', 'n', 'f', 'i', 'n', 'i', 't', 'y'] ⊆ letters := by decide
    exact absurd (hletters (hword ▸ hlower)) hc.not_letter
  · next hword =>
    rw [hword] at hlower
    exact hc.readPayload?_eq_none
      (hletter (by decide) (hletter (by decide) (hletter (by decide) hlower)))
  · next hword =>
    rw [hword] at hlower
    exact hc.readPayload?_eq_none
      (hletter (by decide) (hletter (by decide) (hletter (by decide) (hletter (by decide) hlower))))
  · rw [hc.readFinite?_eq_none h]
    rfl

theorem readChars?_eq_none (h : c ∈ cs) : readChars? cs = none := by
  have hkept : c ∈ (trim cs).filter (· != '_') :=
    List.mem_filter.mpr ⟨mem_trim h hc.not_blank, bne_iff_ne.mpr (hc.ne_of_mem_marks (by decide))⟩
  unfold readChars?
  split
  · rfl
  · next hplain =>
    have hread := Literal.mem_of_mapM_plainChar? hc.plain hkept hplain
    exact hc.readUnsigned?_eq_none (hc.mem_readSign hread)

end IsForeign

end Numeral

end GatewayLedger
