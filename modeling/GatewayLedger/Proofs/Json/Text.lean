import GatewayLedger.Json.Printer
import GatewayLedger.Proofs.Text.Utf8

/-!
# Reading back texts

A text that is written as a JSON string is read back whatever its characters are, and so are the
fields of an object of texts, in their order, if no two of them share a name. Each lemma on a reader
speaks of what is written followed by any other characters.
-/

namespace GatewayLedger

namespace Json

open Text Hexadecimal

variable {c : Char} {cs rest : List Char} {n fuel depth : Nat} {name value : String}

/-! ## Escapes -/

theorem lowerDigits_four (n : Nat) : lowerDigits 4 n =
    [lowerDigit (n / 4096 % 16), lowerDigit (n / 256 % 16), lowerDigit (n / 16 % 16),
      lowerDigit (n % 16)] := by
  have htwo : n / 16 / 16 = n / 256 := by omega
  have hthree : n / 256 / 16 = n / 4096 := by omega
  simp only [lowerDigits, htwo, hthree, List.nil_append, List.cons_append]

theorem readUnit?_lowerDigits (h : n < 0x10000) (rest : List Char) :
    readUnit? (lowerDigits 4 n ++ rest) = some (n, rest) := by
  have hsum : 256 * (16 * (n / 4096 % 16) + n / 256 % 16) + (16 * (n / 16 % 16) + n % 16) = n := by
    omega
  rw [lowerDigits_four]
  simp only [List.cons_append, List.nil_append, readUnit?]
  rw [value?_lowerDigit (by omega), value?_lowerDigit (by omega), value?_lowerDigit (by omega),
    value?_lowerDigit (by omega)]
  simp only [Option.bind_eq_bind, Option.bind_some, hsum]

theorem isHighSurrogate_toNat (c : Char) : Charset.isHighSurrogate c.toNat = false := by
  have hvalid := toNat_lt_or c
  simp only [Charset.isHighSurrogate, Bool.and_eq_false_iff, decide_eq_false_iff_not]
  omega

theorem isLowSurrogate_toNat (c : Char) : Charset.isLowSurrogate c.toNat = false := by
  have hvalid := toNat_lt_or c
  simp only [Charset.isLowSurrogate, Bool.and_eq_false_iff, decide_eq_false_iff_not]
  omega

theorem readEscape?_escapeUnit (h : c.toNat < 0x10000) (rest : List Char) :
    readEscape? ('u' :: (lowerDigits 4 c.toNat ++ rest)) = some (c, rest) := by
  simp only [readEscape?, readUnit?_lowerDigits h, Option.bind_eq_bind, Option.bind_some,
    isHighSurrogate_toNat, isLowSurrogate_toNat, Bool.false_eq_true, if_false, Char.ofNat_toNat]

theorem readEscape?_pair {high low : Nat} (hhigh : Charset.isHighSurrogate high = true)
    (hlow : Charset.isLowSurrogate low = true) (hh : high < 0x10000) (hl : low < 0x10000)
    (rest : List Char) :
    readEscape? ('u' :: (lowerDigits 4 high ++ '\\' :: 'u' :: (lowerDigits 4 low ++ rest))) =
      some (Charset.joinSurrogates high low, rest) := by
  simp only [readEscape?, readUnit?_lowerDigits hh, readUnit?_lowerDigits hl, Option.bind_eq_bind,
    Option.bind_some, hhigh, hlow, if_true]

theorem joinSurrogates_halves (h : ¬ c.toNat < 0x10000) :
    Charset.joinSurrogates (0xD800 + (c.toNat - 0x10000) / 0x400)
      (0xDC00 + (c.toNat - 0x10000) % 0x400) = c := by
  have hsum : 0x10000 + (0xD800 + (c.toNat - 0x10000) / 0x400 - 0xD800) * 0x400 +
      (0xDC00 + (c.toNat - 0x10000) % 0x400 - 0xDC00) = c.toNat := by omega
  rw [Charset.joinSurrogates, hsum, Char.ofNat_toNat]

/-- A character beyond the units is put together of its surrogates. -/
theorem readEscape?_surrogates (h : ¬ c.toNat < 0x10000) (rest : List Char) :
    readEscape? ('u' :: (lowerDigits 4 (0xD800 + (c.toNat - 0x10000) / 0x400) ++
      '\\' :: 'u' :: (lowerDigits 4 (0xDC00 + (c.toNat - 0x10000) % 0x400) ++ rest))) =
      some (c, rest) := by
  have hvalid := toNat_lt_or c
  have hhigh : Charset.isHighSurrogate (0xD800 + (c.toNat - 0x10000) / 0x400) = true := by
    simp only [Charset.isHighSurrogate, Bool.and_eq_true, decide_eq_true_eq]
    omega
  have hlow : Charset.isLowSurrogate (0xDC00 + (c.toNat - 0x10000) % 0x400) = true := by
    simp only [Charset.isLowSurrogate, Bool.and_eq_true, decide_eq_true_eq]
    omega
  have hread := readEscape?_pair hhigh hlow (by omega) (by omega) rest
  rwa [joinSurrogates_halves h] at hread

/-! ## Strings -/

/-- One step of the reader of strings, for an escape. -/
theorem readString?_escape {r r' : List Char} (h : readEscape? r = some (c, r')) :
    readString? (fuel + 1) ('\\' :: r) =
      (readString? fuel r').map fun found => (c :: found.1, found.2) := by
  rw [readString?.eq_3, if_neg (by decide), if_pos (by decide), h]
  simp only [Option.bind_eq_bind, Option.bind_some]
  cases readString? fuel r' <;> rfl

/-- One step of the reader of strings, for a character that stands for itself. -/
theorem readString?_plain (hquote : c ≠ '"') (hescape : c ≠ '\\') (hc : 32 ≤ c.toNat) :
    readString? (fuel + 1) (c :: rest) =
      (readString? fuel rest).map fun found => (c :: found.1, found.2) := by
  have hquote' : (c == '"') = false := by simpa using hquote
  have hescape' : (c == '\\') = false := by simpa using hescape
  rw [readString?.eq_3, hquote', hescape', if_neg Bool.false_ne_true, if_neg Bool.false_ne_true,
    if_neg (by omega)]
  cases readString? fuel rest <;> rfl

theorem readString?_quote : readString? (fuel + 1) ('"' :: rest) = some ([], rest) := by
  rw [readString?.eq_3, if_pos (by decide)]

/-- What is written for a character is read back in one step. -/
theorem readString?_escapeChar (c : Char) (fuel : Nat) (rest : List Char) :
    readString? (fuel + 1) (escapeChar c ++ rest) =
      (readString? fuel rest).map fun found => (c :: found.1, found.2) := by
  have hc : Char.ofNat c.toNat = c := Char.ofNat_toNat c
  unfold escapeChar
  by_cases hself : (c == '"' || c == '\\') = true
  · rw [if_pos hself]
    simp only [Bool.or_eq_true, beq_iff_eq] at hself
    rcases hself with rfl | rfl
    · exact readString?_escape rfl
    · exact readString?_escape rfl
  rw [if_neg hself]
  simp only [Bool.or_eq_true, beq_iff_eq, not_or] at hself
  by_cases hn : (c == '\n') = true
  · rw [if_pos hn, beq_iff_eq.mp hn]
    exact readString?_escape rfl
  rw [if_neg hn]
  by_cases hr : (c == '\r') = true
  · rw [if_pos hr, beq_iff_eq.mp hr]
    exact readString?_escape rfl
  rw [if_neg hr]
  by_cases ht : (c == '\t') = true
  · rw [if_pos ht, beq_iff_eq.mp ht]
    exact readString?_escape rfl
  rw [if_neg ht]
  by_cases hb : (c.toNat == 8) = true
  · rw [if_pos hb, ← hc, beq_iff_eq.mp hb]
    exact readString?_escape rfl
  rw [if_neg hb]
  by_cases hf : (c.toNat == 12) = true
  · rw [if_pos hf, ← hc, beq_iff_eq.mp hf]
    exact readString?_escape rfl
  rw [if_neg hf]
  dsimp only
  by_cases hplain : (decide (32 ≤ c.toNat) && decide (c.toNat < 127)) = true
  · rw [if_pos hplain]
    simp only [Bool.and_eq_true, decide_eq_true_eq] at hplain
    exact readString?_plain hself.1 hself.2 hplain.1
  rw [if_neg hplain]
  by_cases hunit : c.toNat < 0x10000
  · rw [if_pos hunit]
    exact readString?_escape (readEscape?_escapeUnit hunit rest)
  · rw [if_neg hunit, escapeUnit, escapeUnit, List.append_assoc]
    exact readString?_escape (readEscape?_surrogates hunit rest)

theorem readString?_flatMap (h : cs.length < fuel) (rest : List Char) :
    readString? fuel (cs.flatMap escapeChar ++ '"' :: rest) = some (cs, rest) := by
  induction cs generalizing fuel with
  | nil =>
    obtain ⟨fuel, rfl⟩ := Nat.exists_eq_succ_of_ne_zero (Nat.ne_of_gt h)
    exact readString?_quote
  | cons c cs ih =>
    obtain ⟨fuel, rfl⟩ := Nat.exists_eq_succ_of_ne_zero (Nat.ne_of_gt (Nat.zero_lt_of_lt h))
    have hlt : cs.length < fuel := Nat.lt_of_succ_lt_succ h
    rw [List.flatMap_cons, List.append_assoc, readString?_escapeChar, ih hlt]
    rfl

theorem toList_stringText (s : String) :
    (stringText s).toList = '"' :: (s.toList.flatMap escapeChar ++ ['"']) := by
  rw [stringText, String.toList_ofList]

theorem skipSpace_of_ne (h : isSpace c = false) (rest : List Char) :
    skipSpace (c :: rest) = c :: rest := by
  rw [skipSpace, List.dropWhile_cons_of_neg (by simp [h])]

theorem length_le_length_flatMap (cs : List Char) : cs.length ≤ (cs.flatMap escapeChar).length := by
  have hpos : ∀ c, 1 ≤ (escapeChar c).length := by
    intro c
    unfold escapeChar
    dsimp only [escapeUnit]
    repeat' split
    all_goals simp
  induction cs with
  | nil => exact Nat.zero_le _
  | cons c cs ih =>
    have hc := hpos c
    rw [List.flatMap_cons, List.length_append, List.length_cons]
    omega

theorem readName?_text (name : String) (rest : List Char) :
    readName? (name.toList.flatMap escapeChar ++ '"' :: ':' :: ' ' :: rest) =
      some (name, skipSpace rest) := by
  have hlength := length_le_length_flatMap name.toList
  have hread : readString? ((name.toList.flatMap escapeChar ++ '"' :: ':' :: ' ' :: rest).length + 1)
      (name.toList.flatMap escapeChar ++ '"' :: ':' :: ' ' :: rest) =
        some (name.toList, ':' :: ' ' :: rest) :=
    readString?_flatMap (by rw [List.length_append]; omega) _
  simp only [readName?, hread, Option.bind_eq_bind, Option.bind_some,
    skipSpace_of_ne (c := ':') (by decide), String.ofList_toList]
  rfl

theorem readValue_text (value : String) (rest : List Char) :
    readValue (fuel + 1) depth ('"' :: (value.toList.flatMap escapeChar ++ '"' :: rest)) =
      .ok (.text value, rest) := by
  have hlength := length_le_length_flatMap value.toList
  have hread : readString? ((value.toList.flatMap escapeChar ++ '"' :: rest).length + 1)
      (value.toList.flatMap escapeChar ++ '"' :: rest) = some (value.toList, rest) :=
    readString?_flatMap (by rw [List.length_append]; omega) _
  have hword : readWord? ('"' :: (value.toList.flatMap escapeChar ++ '"' :: rest)) = none := rfl
  change readScalar ('"' :: (value.toList.flatMap escapeChar ++ '"' :: rest)) = _
  simp only [readScalar, hword, hread, String.ofList_toList]

/-! ## Objects of texts -/

def memberChars (field : String × String) : List Char :=
  '"' :: (field.1.toList.flatMap escapeChar ++
    '"' :: ':' :: ' ' :: '"' :: (field.2.toList.flatMap escapeChar ++ ['"']))

theorem toList_memberText (field : String × String) :
    (memberText field).toList = memberChars field := by
  rw [memberText, String.toList_append, String.toList_append, toList_stringText, toList_stringText]
  simp [memberChars]

theorem toList_lineText (fields : List (String × String)) :
    (lineText fields).toList =
      '\x7b' :: ([',', ' '].intercalate (fields.map memberChars) ++ ['\x7d']) := by
  rw [lineText, String.toList_append, String.toList_append, String.toList_intercalate, List.map_map]
  have hmembers : String.toList ∘ memberText = memberChars := funext toList_memberText
  rw [hmembers]
  rfl

theorem memberChars_append (field : String × String) (rest : List Char) :
    memberChars field ++ rest =
      '"' :: (field.1.toList.flatMap escapeChar ++
        '"' :: ':' :: ' ' :: '"' :: (field.2.toList.flatMap escapeChar ++ '"' :: rest)) := by
  simp [memberChars]

/-- The name of a field is followed by its value. -/
theorem readName?_memberChars (field : String × String) (rest : List Char) :
    readName? (field.1.toList.flatMap escapeChar ++
        '"' :: ':' :: ' ' :: '"' :: (field.2.toList.flatMap escapeChar ++ '"' :: rest)) =
      some (field.1, '"' :: (field.2.toList.flatMap escapeChar ++ '"' :: rest)) := by
  rw [readName?_text, skipSpace_of_ne (by decide)]

theorem readMembers_last (field : String × String) (rest : List Char) :
    readMembers (fuel + 2) depth (memberChars field ++ '\x7d' :: rest) =
      .ok ([(field.1, .text field.2)], rest) := by
  rw [memberChars_append, readMembers.eq_def]
  simp only [readName?_memberChars, readValue_text, bind, Except.bind,
    skipSpace_of_ne (c := '\x7d') (by decide)]

theorem readMembers_next {members : Fields} (field : String × String)
    (h : readMembers (fuel + 1) depth (skipSpace rest) = .ok (members, cs)) :
    readMembers (fuel + 2) depth (memberChars field ++ ',' :: rest) =
      .ok ((field.1, .text field.2) :: members, cs) := by
  rw [memberChars_append, readMembers.eq_def]
  simp only [readName?_memberChars, readValue_text, bind, Except.bind,
    skipSpace_of_ne (c := ',') (by decide), h]

def membersChars (fields : List (String × String)) : List Char :=
  [',', ' '].intercalate (fields.map memberChars)

theorem membersChars_cons (field : String × String) (fields : List (String × String)) :
    ∃ cs, membersChars (field :: fields) = '"' :: cs := by
  cases fields with
  | nil => exact ⟨_, by rw [membersChars, List.map_singleton, List.intercalate_singleton, memberChars]⟩
  | cons next others =>
    exact ⟨_, by
      rw [membersChars, List.map_cons, List.map_cons, List.intercalate_cons_cons, memberChars]
      rfl⟩

/-- Each field takes one unit of the fuel, and the last value takes one more. -/
theorem readMembers_membersChars (depth : Nat) {fields : List (String × String)}
    (hne : fields ≠ []) (h : fields.length < fuel) (rest : List Char) :
    readMembers fuel depth (membersChars fields ++ '\x7d' :: rest) =
      .ok (fields.map fun f => (f.1, .text f.2), rest) := by
  induction fields generalizing fuel with
  | nil => exact absurd rfl hne
  | cons field fields ih =>
    obtain ⟨fuel, rfl⟩ : ∃ n, fuel = n + 2 := ⟨fuel - 2, by rw [List.length_cons] at h; omega⟩
    cases fields with
    | nil =>
      rw [membersChars, List.map_singleton, List.intercalate_singleton]
      exact readMembers_last field rest
    | cons next others =>
      have hrest : readMembers (fuel + 1) depth (membersChars (next :: others) ++ '\x7d' :: rest) =
          .ok ((next :: others).map fun f => (f.1, .text f.2), rest) :=
        ih (by simp) (by rw [List.length_cons] at h; omega)
      obtain ⟨cs, hcs⟩ := membersChars_cons next others
      have hspace : skipSpace (' ' :: (membersChars (next :: others) ++ '\x7d' :: rest)) =
          membersChars (next :: others) ++ '\x7d' :: rest := by
        rw [hcs]
        rfl
      have hchars : membersChars (field :: next :: others) ++ '\x7d' :: rest =
          memberChars field ++ ',' :: ' ' :: (membersChars (next :: others) ++ '\x7d' :: rest) := by
        rw [membersChars, List.map_cons, List.map_cons, List.intercalate_cons_cons,
          List.append_assoc, List.append_assoc]
        rfl
      rw [← hspace] at hrest
      rw [hchars]
      exact readMembers_next field hrest

end Json

namespace Fields

theorem insert_of_not_mem {α : Type} {fields : List (String × α)} {name : String} (value : α)
    (h : name ∉ fields.map (·.1)) : insert fields name value = fields ++ [(name, value)] := by
  induction fields with
  | nil => rfl
  | cons f rest ih =>
    rw [List.map_cons, List.mem_cons, not_or] at h
    rw [insert, if_neg (Ne.symm h.1), ih h.2, List.cons_append]

/-- Fields with names of their own stay as they are. -/
theorem ofList_of_nodup {α : Type} {pairs : List (String × α)} (h : (pairs.map (·.1)).Nodup) :
    ofList pairs = pairs := by
  have hfold : ∀ fields : List (String × α), ((fields ++ pairs).map (·.1)).Nodup →
      pairs.foldl (fun fields p => insert fields p.1 p.2) fields = fields ++ pairs := by
    clear h
    induction pairs with
    | nil => intro fields _; rw [List.foldl_nil, List.append_nil]
    | cons p rest ih =>
      intro fields hnodup
      have hnew : p.1 ∉ fields.map (·.1) := by
        intro hmem
        rw [List.map_append, List.nodup_append] at hnodup
        exact hnodup.2.2 _ hmem _ List.mem_cons_self rfl
      have hshift : fields ++ p :: rest = (fields ++ [(p.1, p.2)]) ++ rest := by simp
      rw [hshift] at hnodup ⊢
      rw [List.foldl_cons, insert_of_not_mem p.2 hnew]
      exact ih _ hnodup
  exact hfold [] (by simpa using h)

end Fields

namespace Json

theorem length_le_length_membersChars (fields : List (String × String)) :
    fields.length ≤ (membersChars fields).length := by
  induction fields with
  | nil => exact Nat.zero_le _
  | cons field fields ih =>
    cases fields with
    | nil => simp [membersChars, memberChars]
    | cons next others =>
      rw [membersChars, List.map_cons, List.map_cons, List.intercalate_cons_cons]
      rw [membersChars, List.map_cons] at ih
      simp only [List.length_append, List.length_cons] at ih ⊢
      omega

theorem readValue_line (depth : Nat) {fields : List (String × String)} (hnodup : (fields.map (·.1)).Nodup)
    (h : fields.length < fuel) :
    readValue (fuel + 1) (depth + 1) ('\x7b' :: (membersChars fields ++ ['\x7d'])) =
      .ok (.object (fields.map fun f => (f.1, .text f.2)), []) := by
  cases fields with
  | nil => rfl
  | cons field fields =>
    have hmembers := readMembers_membersChars depth (List.cons_ne_nil field fields) h []
    have hnames : (((field :: fields).map fun f => (f.1, Value.text f.2)).map (·.1)).Nodup := by
      rwa [List.map_map]
    obtain ⟨cs, hcs⟩ := membersChars_cons field fields
    rw [hcs, List.cons_append] at hmembers ⊢
    have hread : readValue (fuel + 1) (depth + 1) ('\x7b' :: '"' :: (cs ++ ['\x7d'])) =
        (readMembers fuel depth ('"' :: (cs ++ ['\x7d']))).bind fun found =>
          .ok (.object (Fields.ofList found.1), found.2) := rfl
    rw [hread, hmembers, Except.bind, Fields.ofList_of_nodup hnames]

/-- An object of texts is read back from the line on which it is written. -/
theorem read_lineText {fields : List (String × String)} (h : (fields.map (·.1)).Nodup) :
    read (lineText fields) = .ok (.object (fields.map fun f => (f.1, .text f.2))) := by
  have hlength := length_le_length_membersChars fields
  have hline : (lineText fields).toList = '\x7b' :: (membersChars fields ++ ['\x7d']) :=
    toList_lineText fields
  have hfuel : fields.length < 2 * (lineText fields).toList.length + 1 := by
    rw [hline, List.length_cons, List.length_append]
    omega
  obtain ⟨depth, hdepth⟩ : ∃ depth, (lineText fields).toList.length = depth + 1 :=
    ⟨_, by rw [hline, List.length_cons]⟩
  have hread := readValue_line depth h hfuel
  rw [← hline, ← hdepth] at hread
  have hspace : skipSpace (lineText fields).toList = (lineText fields).toList := by
    rw [hline]
    exact skipSpace_of_ne (by decide) _
  rw [read, readNested, readChars, hspace]
  simp only [hread, bind, Except.bind]
  rfl

end Json

end GatewayLedger
