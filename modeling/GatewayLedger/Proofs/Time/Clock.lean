import GatewayLedger.Proofs.Time.Field

/-!
# Reading back a clock

The fields of a time of day are read back up to the sign of an offset, and so are those of the offset,
where the seconds and the fraction of a second may be left out. The sign is the first one in the text,
since a clock is written without any.
-/

namespace GatewayLedger

namespace Iso

variable {n : Nat} {rest : Bytes}

/-! ## Clocks -/

/-- The mark of a fraction of a second. -/
def point : UInt8 := 46

/-- Digits behind a point, unless they are all zero. -/
def fractionBytes (micros : Nat) : Bytes := if micros == 0 then [] else point :: field 6 micros

namespace Clock

def bytes (c : Clock) : Bytes :=
  field 2 c.hour ++ colon :: (field 2 c.minute ++ colon :: (field 2 c.second ++ fractionBytes c.micros))

def shortBytes (c : Clock) : Bytes := field 2 c.hour ++ colon :: field 2 c.minute

def total (c : Clock) : Nat := c.seconds * Moment.microsPerSecond + c.micros

/-- A time of day. -/
structure IsNormal (c : Clock) : Prop where
  hour_lt : c.hour < 24
  minute_lt : c.minute < 60
  second_lt : c.second < 60
  micros_lt : c.micros < 10 ^ 6

theorem IsNormal.isValid {c : Clock} (h : c.IsNormal) : c.isValid = true := by
  simp [Clock.isValid, h.hour_lt, h.minute_lt, h.second_lt]

theorem IsNormal.total_lt {c : Clock} (h : c.IsNormal) : c.total < Moment.microsPerDay := by
  obtain ⟨hhour, hminute, hsecond, hmicros⟩ := h
  unfold total seconds Moment.microsPerDay Moment.microsPerSecond
  omega

end Clock

variable {count micros : Nat} {colons : Option Bool} {c : Clock}

theorem readFraction?_field (h : micros < 10 ^ 6) :
    readFraction? (field 6 micros) = some (micros, []) := by
  have hread := readNumber?_field (by decide) h []
  rw [List.append_nil] at hread
  rw [readFraction?, length_field (by decide) h, Nat.min_self, hread]
  simp [Rounding.pow10]

theorem readFields?_field_end (h : n < 10 ^ 2) :
    readFields? colons (count + 1) (field 2 n) = some ([n], 0, []) := by
  have hread := readNumber?_field (by decide) h []
  rw [List.append_nil] at hread
  rw [readFields?, hread]
  rfl

theorem readFields?_field_colon (h : n < 10 ^ 2) (hrest : rest ≠ []) (hcolons : colons ≠ some false) :
    readFields? colons (count + 1) (field 2 n ++ colon :: rest) =
      (readFields? (some true) count rest).map fun r => (n :: r.1, r.2.1, r.2.2) := by
  obtain ⟨b, rest, rfl⟩ := List.exists_cons_of_ne_nil hrest
  -- a colon behind the first field decides that colons divide the fields
  have hyes : colons.getD true = true := by
    rcases colons with _ | _ | _
    · rfl
    · exact absurd rfl hcolons
    · rfl
  rw [readFields?, readNumber?_field (by decide) h]
  simp only [Option.bind_eq_bind, Option.bind_some, BEq.rfl, hyes, Bool.and_self, if_true]
  cases readFields? (some true) count (b :: rest) <;> rfl

theorem readFields?_field_fraction (h : n < 10 ^ 2) (hmicros : micros < 10 ^ 6) :
    readFields? (some true) (count + 1) (field 2 n ++ fractionBytes micros) =
      some ([n], micros, []) := by
  unfold fractionBytes
  split
  · next hzero =>
    rw [List.append_nil, readFields?_field_end h, beq_iff_eq.mp hzero]
  · have hread := readFraction?_field hmicros
    have hlast : readFields? (some true) 0 (field 6 micros) = some ([], micros, []) := by
      rw [readFields?, hread]
      rfl
    obtain ⟨b, rest, hfield⟩ := List.exists_cons_of_ne_nil (field_ne_nil (by decide) hmicros)
    rw [hfield] at hlast ⊢
    rw [readFields?, readNumber?_field (by decide) h]
    simp only [Option.bind_eq_bind, Option.bind_some, Option.getD_some]
    have hmark : (true && point == colon) = false := rfl
    have hpoint : isFractionMark point = true := rfl
    rw [hmark, hpoint, hlast]
    rfl

theorem readClock?_bytes (h : c.IsNormal) : readClock? c.bytes = some (c, []) := by
  obtain ⟨hhour, hminute, hsecond, hmicros⟩ := h
  have hnone : ∀ {k m : Nat} {rest : Bytes}, 0 < k → m < 10 ^ k → field k m ++ rest ≠ [] :=
    fun hk hm => List.append_ne_nil_of_left_ne_nil (field_ne_nil hk hm) _
  rw [readClock?, Clock.bytes, readFields?_field_colon (by omega) (hnone (by decide) (by omega))
    (by decide), readFields?_field_colon (by omega) (hnone (by decide) (by omega)) (by decide),
    readFields?_field_fraction (by omega) hmicros]
  rfl

theorem readClock?_shortBytes (h : c.IsNormal) (hsecond : c.second = 0) (hmicros : c.micros = 0) :
    readClock? c.shortBytes = some (c, []) := by
  obtain ⟨hhour, hminute, _, _⟩ := h
  rw [readClock?, Clock.shortBytes, readFields?_field_colon (by omega)
    (field_ne_nil (by decide) (by omega)) (by decide), readFields?_field_end (by omega)]
  obtain ⟨hour, minute, second, micros⟩ := c
  subst hsecond hmicros
  rfl

/-! ## Offsets -/

/-- An offset that its text keeps. It is less than a day, and no mere fraction of a second. -/
def IsKept (offset : Int) : Prop :=
  offset.natAbs < Moment.microsPerDay ∧ (offset = 0 ∨ Moment.microsPerSecond ≤ offset.natAbs)

/-- The clock that shows so many microseconds after midnight. -/
def Clock.ofTotal (micros : Nat) : Clock where
  hour := micros / Moment.microsPerSecond / 3600
  minute := micros / Moment.microsPerSecond / 60 % 60
  second := micros / Moment.microsPerSecond % 60
  micros := micros % Moment.microsPerSecond

theorem Clock.isNormal_ofTotal (h : micros < Moment.microsPerDay) : (ofTotal micros).IsNormal := by
  unfold Moment.microsPerDay Moment.microsPerSecond at h
  constructor <;> simp only [ofTotal, Moment.microsPerSecond] <;> omega

theorem Clock.seconds_ofTotal (micros : Nat) :
    (ofTotal micros).seconds = micros / Moment.microsPerSecond := by
  simp only [seconds, ofTotal]
  omega

theorem Clock.total_ofTotal (micros : Nat) : (ofTotal micros).total = micros := by
  rw [total, seconds_ofTotal]
  exact Nat.div_add_mod' micros Moment.microsPerSecond

theorem readOffset?_of_readClock? {bs : Bytes} (hread : readClock? bs = some (c, []))
    (h : c.IsNormal) (hkept : c.seconds = 0 → c.micros = 0) (negative : Bool) :
    readOffset? negative bs = some (if negative then -(c.total : Int) else c.total) := by
  have htotal := h.total_lt
  have hunit : Moment.microsPerSecond = 1000000 := rfl
  unfold Clock.total at htotal ⊢
  rw [hunit] at htotal ⊢
  simp only [readOffset?, hread, Option.bind_eq_bind, Option.bind_some, isEnd, Bool.not_true,
    Bool.false_eq_true, if_false]
  split
  · next hzero =>
    have hseconds := beq_iff_eq.mp hzero
    rw [hseconds, hkept hseconds]
    cases negative <;> rfl
  · rw [if_neg (by omega)]

/-- The bytes of an offset behind its sign. -/
def offsetBytes (offset : Int) : Bytes :=
  let c := Clock.ofTotal offset.natAbs
  if c.second == 0 && c.micros == 0 then c.shortBytes else c.bytes

theorem encodeUtf8_fraction (micros : Nat) :
    Text.encodeUtf8 (if micros == 0 then "" else "." ++ padded 6 micros) = fractionBytes micros := by
  unfold fractionBytes
  split
  · rfl
  · rw [Text.encodeUtf8_append]
    rfl

theorem encodeUtf8_offsetText (offset : Int) : Text.encodeUtf8 (offsetText offset) =
    (if offset < 0 then dash else plus) :: offsetBytes offset := by
  have hsign : Text.encodeUtf8 (if offset < 0 then "-" else "+") =
      [if offset < 0 then dash else plus] := by
    split <;> rfl
  have hcolon : Text.encodeUtf8 ":" = [colon] := rfl
  have hmicros : Moment.microsPerSecond = 1000000 := rfl
  simp only [offsetText, Text.encodeUtf8_append, hsign, hcolon, encodeUtf8_fraction, offsetBytes,
    Clock.ofTotal, hmicros]
  generalize (if offset < 0 then dash else plus) = sign
  split
  · next hshort =>
    rw [Bool.and_eq_true] at hshort
    have hnone : Text.encodeUtf8 "" = [] := rfl
    rw [hnone, fractionBytes, if_pos hshort.2]
    simp [Clock.shortBytes, field]
  · simp [Clock.bytes, field, Text.encodeUtf8_append, hcolon]

theorem readOffset?_offsetBytes {offset : Int} (h : IsKept offset) :
    readOffset? (decide (offset < 0)) (offsetBytes offset) = some offset := by
  obtain ⟨hday, hsecond⟩ := h
  have hnormal := Clock.isNormal_ofTotal hday
  have hread : readClock? (offsetBytes offset) = some (Clock.ofTotal offset.natAbs, []) := by
    unfold offsetBytes
    dsimp only
    split
    · next hshort =>
      rw [Bool.and_eq_true, beq_iff_eq, beq_iff_eq] at hshort
      exact readClock?_shortBytes hnormal hshort.1 hshort.2
    · exact readClock?_bytes hnormal
  -- what is below one second would be read as no offset at all
  have hkept : (Clock.ofTotal offset.natAbs).seconds = 0 →
      (Clock.ofTotal offset.natAbs).micros = 0 := by
    rw [Clock.seconds_ofTotal]
    simp only [Clock.ofTotal, Moment.microsPerSecond] at hsecond ⊢
    omega
  rw [readOffset?_of_readClock? hread hnormal hkept, Clock.total_ofTotal]
  congr 1
  simp only [decide_eq_true_eq]
  split <;> omega

theorem isSign_of_isDigit {b : UInt8} (h : isDigit b = true) : isSign b = false := by
  rw [isDigit, Bool.and_eq_true, decide_eq_true_eq] at h
  rw [isSign, Bool.or_eq_false_iff, beq_eq_false_iff_ne, beq_eq_false_iff_ne]
  constructor
  · rintro rfl
    exact absurd h.1 (by decide)
  · rintro rfl
    exact absurd h.1 (by decide)

theorem isSign_of_mem_bytes {b : UInt8} (h : b ∈ c.bytes) : isSign b = false := by
  have hfield : ∀ {k m}, b ∈ field k m → isSign b = false :=
    fun hb => isSign_of_isDigit (isDigit_of_mem_field hb)
  have hfraction : b ∈ fractionBytes c.micros → isSign b = false := by
    unfold fractionBytes
    split
    · exact fun hb => absurd hb List.not_mem_nil
    · intro hb
      rcases List.mem_cons.mp hb with rfl | hb
      · rfl
      · exact hfield hb
  simp only [Clock.bytes, List.mem_append, List.mem_cons] at h
  rcases h with h | rfl | h | rfl | h | h
  · exact hfield h
  · rfl
  · exact hfield h
  · rfl
  · exact hfield h
  · exact hfraction h

/-- The clock ends where the sign of an offset stands. -/
theorem split_bytes (c : Clock) {tail : Bytes} (h : ∀ b ∈ tail.head?, isSign b = true) :
    (c.bytes ++ tail).takeWhile (fun b => !isSign b) = c.bytes ∧
      (c.bytes ++ tail).dropWhile (fun b => !isSign b) = tail := by
  have hclock : ∀ b ∈ c.bytes, (!isSign b) = true := by
    intro b hb
    rw [isSign_of_mem_bytes hb]
    rfl
  rw [List.takeWhile_append_of_pos hclock, List.dropWhile_append_of_pos hclock]
  cases tail with
  | nil => exact ⟨List.append_nil _, rfl⟩
  | cons b tail =>
    have hb : (!isSign b) = false := by
      rw [h b rfl]
      rfl
    rw [List.takeWhile_cons, List.dropWhile_cons, hb]
    exact ⟨List.append_nil _, rfl⟩

/-- A time of day is read back with its offset, if it has one. -/
theorem readTime?_bytes {offset : Option Int} (h : c.IsNormal)
    (hoffset : ∀ o, offset = some o → IsKept o) :
    readTime? (c.bytes ++ Text.encodeUtf8 ((offset.map offsetText).getD "")) =
      some (c.total, offset) := by
  have htotal : c.seconds * 1000000 + c.micros = c.total := rfl
  cases offset with
  | none =>
    have hhead : ∀ b ∈ ([] : Bytes).head?, isSign b = true := by simp
    obtain ⟨hbefore, hbehind⟩ := split_bytes c hhead
    have hnone : Text.encodeUtf8 "" = [] := rfl
    simp only [readTime?, Option.map_none, Option.getD_none, hnone, hbefore, hbehind,
      readClock?_bytes h, Option.bind_eq_bind, Option.bind_some, isEnd, if_true, h.isValid, htotal]
  | some o =>
    have hsign : isSign (if o < 0 then dash else plus) = true := by
      split <;> rfl
    have hnegative : ((if o < 0 then dash else plus) == dash) = decide (o < 0) := by
      by_cases ho : o < 0 <;> simp [ho, plus, dash]
    have hhead : ∀ b ∈ ((if o < 0 then dash else plus) :: offsetBytes o).head?, isSign b = true := by
      rintro b ⟨⟩
      exact hsign
    obtain ⟨hbefore, hbehind⟩ := split_bytes c hhead
    simp only [readTime?, Option.map_some, Option.getD_some, encodeUtf8_offsetText, hbefore, hbehind,
      readClock?_bytes h, Option.bind_eq_bind, Option.bind_some, hnegative,
      readOffset?_offsetBytes (hoffset o rfl), h.isValid, if_true, htotal]

end Iso

end GatewayLedger
