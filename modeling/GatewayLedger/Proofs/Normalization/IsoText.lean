import GatewayLedger.Ledger.Period
import GatewayLedger.Proofs.Normalization.Metadata
import GatewayLedger.Proofs.Number.Foreign
import GatewayLedger.Proofs.Time.IsoText

/-!
# Timestamps as ISO text

The text of a moment is no numeral, and what is read from it is the same instant on the UTC clock, if
that has the instant. So it does not matter at which offset a time was written down, nor whether the
offset of UTC is written as the letter Z.
-/

namespace GatewayLedger

/-! ## Characters of ISO text -/

namespace Iso

def isoMarks : List Char := ['-', 'T', ':', '.', '+']

def IsIsoChar (c : Char) : Prop := c.isDigit = true ∨ c ∈ isoMarks

def HasIsoChars (text : String) : Prop := ∀ c ∈ text.toList, IsIsoChar c

variable {a b : String} {c : Char}

theorem hasIsoChars_append : HasIsoChars (a ++ b) ↔ HasIsoChars a ∧ HasIsoChars b := by
  simp only [HasIsoChars, String.toList_append, List.mem_append, or_imp, forall_and]

theorem hasIsoChars_padded (width n : Nat) : HasIsoChars (padded width n) :=
  fun _ hc => .inl (isDigit_of_mem_padded hc)

theorem hasIsoChars_ite {p : Prop} [Decidable p] (ha : HasIsoChars a) (hb : HasIsoChars b) :
    HasIsoChars (if p then a else b) := by
  split
  · exact ha
  · exact hb

theorem hasIsoChars_of_marks (h : a.toList ⊆ isoMarks) : HasIsoChars a := fun _ hc => .inr (h hc)

theorem hasIsoChars_fraction (micros : Nat) :
    HasIsoChars (if micros == 0 then "" else "." ++ padded 6 micros) := by
  have hnone : HasIsoChars "" := hasIsoChars_of_marks (by decide)
  have hpoint : HasIsoChars "." := hasIsoChars_of_marks (by decide)
  exact hasIsoChars_ite hnone (hasIsoChars_append.mpr ⟨hpoint, hasIsoChars_padded _ _⟩)

theorem hasIsoChars_offsetText (offset : Int) : HasIsoChars (offsetText offset) := by
  have hnone : HasIsoChars "" := hasIsoChars_of_marks (by decide)
  have hcolon : HasIsoChars ":" := hasIsoChars_of_marks (by decide)
  have hsign : HasIsoChars (if offset < 0 then "-" else "+") :=
    hasIsoChars_ite (hasIsoChars_of_marks (by decide)) (hasIsoChars_of_marks (by decide))
  simp only [offsetText, hasIsoChars_append, hasIsoChars_padded, hasIsoChars_fraction, hcolon, hsign,
    true_and, and_true]
  exact hasIsoChars_ite hnone (hasIsoChars_append.mpr ⟨hcolon, hasIsoChars_padded _ _⟩)

theorem hasIsoChars_isoText (m : Moment) : HasIsoChars m.isoText := by
  have hdash : HasIsoChars "-" := hasIsoChars_of_marks (by decide)
  have hseparator : HasIsoChars "T" := hasIsoChars_of_marks (by decide)
  have hcolon : HasIsoChars ":" := hasIsoChars_of_marks (by decide)
  simp only [Moment.isoText, Moment.isoTextWith, hasIsoChars_append, hasIsoChars_padded,
    hasIsoChars_fraction, hdash, hseparator, hcolon, true_and, and_true]
  cases m.offset with
  | none => exact hasIsoChars_of_marks (a := "") (by decide)
  | some offset => exact hasIsoChars_offsetText offset

theorem IsIsoChar.not_blank (h : IsIsoChar c) : Text.isBlank c = false := by
  rcases h with h | h
  · exact Text.isBlank_of_isDigit h
  · have hmarks : isoMarks.any Text.isBlank = false := by decide
    simpa using List.any_eq_false.mp hmarks c h

theorem IsIsoChar.ne_zulu (h : IsIsoChar c) : c ≠ 'Z' := by
  rintro rfl
  rcases h with h | h
  · exact absurd h (by decide)
  · exact absurd h (by decide)

end Iso

/-! ## Timestamps -/

namespace Timestamp

variable {m other : Moment} {text : String}

theorem expandZulu_of_ne (h : ∀ c ∈ text.toList, c ≠ 'Z') : expandZulu text = text := by
  have hkept : ∀ c ∈ text.toList, (if c == 'Z' then "+00:00".toList else [c]) = [c] :=
    fun c hc => if_neg (by simpa using h c hc)
  rw [expandZulu, List.flatMap_congr hkept, List.flatMap_singleton', String.ofList_toList]

/-- The letter Z may stand for the offset of UTC. -/
theorem ofText?_zulu (front : String) : ofText? (front ++ "Z") = ofText? (front ++ "+00:00") := by
  have hread : ∀ {c : Char} {cs : List Char}, Numeral.IsForeign c → c ∈ cs →
      Numeral.read? (String.ofList cs) = none := by
    intro c cs hc hmem
    rw [Numeral.read?, String.toList_ofList, hc.readChars?_eq_none hmem]
  have hzulu : Numeral.read? (String.ofList (Text.trimStart front.toList ++ "Z".toList)) = none :=
    hread Numeral.isForeign_zulu (List.mem_append_right _ (by decide))
  have hcolon : Numeral.read? (String.ofList (Text.trimStart front.toList ++ "+00:00".toList)) =
      none :=
    hread Numeral.isForeign_colon (List.mem_append_right _ (by decide))
  have hexpand : ∀ cs, expandZulu (String.ofList (cs ++ "Z".toList)) =
      expandZulu (String.ofList (cs ++ "+00:00".toList)) := by
    intro cs
    simp only [expandZulu, String.toList_ofList, List.flatMap_append]
    rfl
  have htrim : Text.trim (front.toList ++ "Z".toList) = Text.trimStart front.toList ++ "Z".toList :=
    Text.trim_append _ (by decide) (by decide)
  have htrim' : Text.trim (front.toList ++ "+00:00".toList) =
      Text.trimStart front.toList ++ "+00:00".toList :=
    Text.trim_append _ (by decide) (by decide)
  simp only [ofText?, String.toList_append, htrim, htrim', hzulu, hcolon, ofIso?, hexpand]

theorem ofText?_isoText (h : ∀ offset, m.offset = some offset → Iso.IsKept offset) :
    ofText? m.isoText = m.toUtc? := by
  have hchars := Iso.hasIsoChars_isoText m
  have htrim : Text.trim m.isoText.toList = m.isoText.toList :=
    Text.trim_of_not_blank (List.any_eq_false.mpr fun c hc => by rw [(hchars c hc).not_blank]; decide)
  have hcolon : ':' ∈ m.isoText.toList := by
    simp [Moment.isoText, Moment.isoTextWith, String.toList_append]
  have hread : Numeral.read? m.isoText = none := Numeral.isForeign_colon.readChars?_eq_none hcolon
  simp only [ofText?, htrim, String.ofList_toList, hread, ofIso?,
    expandZulu_of_ne fun c hc => (hchars c hc).ne_zulu, Moment.readIso?_isoText h,
    Option.bind_eq_bind, Option.bind_some]

end Timestamp

/-! ## Rows -/

theorem Value.field_insert (row : Fields) (name other : String) (value : Value) :
    Value.field (Fields.insert row name value) other =
      if other = name then value else Value.field row other := by
  unfold Value.field
  split
  · next h => rw [h, Fields.get?_insert_self, Option.getD_some]
  · next h => rw [Fields.get?_insert_of_ne row value h]

namespace Timestamp

variable {row : Fields} {name : String} {a b : Value}

theorem firstOf_insert_congr (h : ofValue a = ofValue b) (names : List String) :
    firstOf (Fields.insert row name a) names = firstOf (Fields.insert row name b) names := by
  induction names with
  | nil => rfl
  | cons other names ih =>
    simp only [firstOf, Value.field_insert, ih]
    split
    · rw [h]
    · rfl

theorem firstOf_append_of_none {before : List String}
    (h : ∀ other ∈ before, ofValue (Value.field row other) = .ok none) (names : List String) :
    firstOf row (before ++ names) = firstOf row names := by
  induction before with
  | nil => rfl
  | cons other before ih =>
    rw [List.cons_append, firstOf, h other List.mem_cons_self]
    exact ih fun n hn => h n (List.mem_cons_of_mem other hn)

end Timestamp

namespace Record

variable {kind : Kind} {row : Fields} {name text : String} {now u : Moment} {a b : Value}

/-- The text is in a field for the time, and the fields that are preferred to it hold no time. -/
def IsTimedBy (kind : Kind) (row : Fields) (text : String) : Prop :=
  ∃ before name behind, timeFields kind = before ++ name :: behind ∧
    (∀ other ∈ before, Timestamp.ofValue (Value.field row other) = .ok none) ∧
    Value.field row name = .text text

theorem exists_ofRow_of_isTimedBy (h : IsTimedBy kind row text) (hs : HasStatus kind row)
    (hu : Timestamp.ofValue (.text text) = .ok (some u)) (now : Moment) :
    ∃ status, ofRow kind now row = .ok (ofTimedRow kind row status u) := by
  obtain ⟨before, name, behind, hfields, hbefore, htext⟩ := h
  have htime : Timestamp.firstOf row (timeFields kind) = .ok (some u) := by
    rw [hfields, Timestamp.firstOf_append_of_none hbefore, Timestamp.firstOf, htext, hu]
    rfl
  obtain ⟨status, -, hr⟩ := exists_ofRow hs htime now
  exact ⟨status, hr⟩

theorem agreeOn_insert (h : name ∈ timeFields kind) (row : Fields) (value : Value) :
    Fields.AgreeOn (directFields kind) (Fields.insert row name value) row := by
  have hnames : ∀ kind, ∀ name ∈ timeFields kind, name ∉ directFields kind := by
    intro kind
    cases kind <;> decide
  intro other hmem
  apply Fields.get?_insert_of_ne
  rintro rfl
  exact hnames kind _ h hmem

/-- The record has nothing of a field for the time but the time that is read from it. -/
theorem ofTimedRow_insert (h : name ∈ timeFields kind) (row : Fields) (value : Value)
    (status : Status) :
    ofTimedRow kind (Fields.insert row name value) status u = ofTimedRow kind row status u := by
  have hknown : name ∈ knownFields := mem_knownFields_iff.mpr ⟨kind, List.mem_append_right _ h⟩
  rw [ofTimedRow_congr (agreeOn_insert h row value), metadataOf_insert hknown]
  rfl

theorem ofRow_insert_congr (h : name ∈ timeFields kind)
    (hvalues : Timestamp.ofValue a = Timestamp.ofValue b) :
    ofRow kind now (Fields.insert row name a) = ofRow kind now (Fields.insert row name b) := by
  simp only [ofRow, Timestamp.firstOf_insert_congr hvalues, ofTimedRow_insert h,
    statusOf_congr (agreeOn_insert h row _)]

end Record

/-! ## One instant at several offsets -/

/-- The offset from UTC is unknown, or it is a whole number of seconds and less than a day. -/
def Moment.HasWholeOffset (m : Moment) : Prop :=
  ∀ offset, m.offset = some offset → offset.natAbs < microsPerDay ∧ offset % microsPerSecond = 0

theorem Moment.HasWholeOffset.isKept {m : Moment} (h : m.HasWholeOffset) :
    ∀ offset, m.offset = some offset → Iso.IsKept offset := by
  intro offset hoffset
  obtain ⟨hday, hwhole⟩ := h offset hoffset
  refine ⟨hday, ?_⟩
  unfold microsPerSecond at hwhole ⊢
  omega

namespace Timestamp

variable {m : Moment}

/-- The text of a moment is read as its instant on the UTC clock, or as nothing where the years of that
clock do not reach. Texts of one instant are therefore read alike, and so are the rows that they date. -/
theorem iso_text_tells_instant (h : m.HasWholeOffset) :
    (∃ found, ofValue (.text m.isoText) = .ok found ∧
      (∀ u, found = some u ↔ u.IsUtc ∧ u.instant = m.instant) ∧
      (found = none ↔ m.instant < 0 ∨ Moment.span ≤ m.instant)) ∧
    (m.offset = none → ofValue (.text m.isoText) = .ok (some ⟨m.reading, some 0, m.inSpan⟩)) ∧
    (∀ front, m.isoText = front ++ "+00:00" →
      ofValue (.text (front ++ "Z")) = ofValue (.text m.isoText)) ∧
    ∀ other : Moment, other.HasWholeOffset → other.instant = m.instant →
      (∀ kind now row name, name ∈ Record.timeFields kind →
        Record.ofRow kind now (Fields.insert row name (.text other.isoText)) =
          Record.ofRow kind now (Fields.insert row name (.text m.isoText))) ∧
      ∀ kind otherKind now later row otherRow, 0 ≤ m.instant → m.instant < Moment.span →
        Record.IsTimedBy kind row m.isoText → Record.IsTimedBy otherKind otherRow other.isoText →
        Record.HasStatus kind row → Record.HasStatus otherKind otherRow →
          ∃ r s, Record.ofRow kind now row = .ok r ∧ Record.ofRow otherKind later otherRow = .ok s ∧
            r.occurredAt.instant = m.instant ∧ s.occurredAt = r.occurredAt ∧
            ∀ g, (Period.of g s.occurredAt).key = (Period.of g r.occurredAt).key := by
  have hread : ∀ {m : Moment}, m.HasWholeOffset → ofValue (.text m.isoText) = .ok m.toUtc? :=
    fun hm => congrArg Except.ok (ofText?_isoText hm.isKept)
  refine ⟨⟨_, hread h, fun u => Moment.toUtc?_eq_some_iff, Moment.toUtc?_eq_none_iff⟩, ?_, ?_, ?_⟩
  · intro hnaive
    rw [hread h]
    congr 1
    apply Moment.toUtc?_eq_some_iff.mpr
    refine ⟨rfl, ?_⟩
    simp [Moment.instant, hnaive]
  · intro front hfront
    rw [hfront]
    exact congrArg Except.ok (ofText?_zulu front)
  · intro other hother hinstant
    have hsame : ofValue (.text other.isoText) = ofValue (.text m.isoText) := by
      rw [hread h, hread hother, Moment.toUtc?_congr hinstant]
    refine ⟨fun kind now row name hname => Record.ofRow_insert_congr hname hsame, ?_⟩
    intro kind otherKind now later row otherRow hlow hhigh hrow hotherRow hstatus hotherStatus
    obtain ⟨u, hu⟩ : ∃ u, m.toUtc? = some u := by
      rw [← Option.ne_none_iff_exists', Ne, Moment.toUtc?_eq_none_iff]
      omega
    obtain ⟨-, hinstant⟩ := Moment.toUtc?_eq_some_iff.mp hu
    have hfound : ofValue (.text m.isoText) = .ok (some u) := by rw [hread h, hu]
    obtain ⟨_, hr⟩ := Record.exists_ofRow_of_isTimedBy hrow hstatus hfound now
    obtain ⟨_, hs⟩ :=
      Record.exists_ofRow_of_isTimedBy hotherRow hotherStatus (hsame.trans hfound) later
    exact ⟨_, _, hr, hs, hinstant, rfl, fun g => rfl⟩

/-- Half an hour before midnight in the west, the year has begun on the UTC clock. -/
theorem iso_texts_of_new_year :
    let newYear := 739251 * Moment.microsPerDay
    let west : Moment := ⟨newYear - 1799500000, some (-3630000000), by decide⟩
    let utc : Moment := ⟨newYear + 1830500000, some 0, by decide⟩
    west.isoText = "2024-12-31T23:30:00.500000-01:00:30" ∧
      ofValue (.text west.isoText) = .ok (some utc) ∧
      ofValue (.text "2025-01-01T00:30:30.500000Z") = .ok (some utc) ∧
      ∃ r s, Record.ofRow .deposit utc [("insertTime", .text west.isoText)] = .ok r ∧
        Record.ofRow .payment west [("createTime", .text utc.isoText)] = .ok s ∧
        s.occurredAt = r.occurredAt ∧
        ∀ g, (Period.of g s.occurredAt).key = (Period.of g r.occurredAt).key := by
  intro newYear west utc
  have hwest : west.HasWholeOffset := by
    rintro _ ⟨⟩
    decide
  have hutc : utc.HasWholeOffset := by
    rintro _ ⟨⟩
    decide
  have hinstant : utc.instant = west.instant := by decide
  obtain ⟨⟨found, hfound, hsome, _⟩, _, _, halike⟩ := iso_text_tells_instant hwest
  obtain rfl : found = some utc := (hsome utc).mpr ⟨rfl, hinstant⟩
  obtain ⟨⟨found, hread, hsome, _⟩, _, hzulu, _⟩ := iso_text_tells_instant hutc
  obtain rfl : found = some utc := (hsome utc).mpr ⟨rfl, rfl⟩
  obtain ⟨_, hrows⟩ := halike utc hutc hinstant
  refine ⟨by decide +kernel, hfound, ?_, ?_⟩
  · have htext : utc.isoText = "2025-01-01T00:30:30.500000" ++ "+00:00" := by decide +kernel
    have hletter : "2025-01-01T00:30:30.500000Z" = "2025-01-01T00:30:30.500000" ++ "Z" := by decide
    rw [hletter, hzulu _ htext, hread]
  · obtain ⟨r, s, hr, hs, _, hsame, hkeys⟩ := hrows .deposit .payment utc west
      [("insertTime", .text west.isoText)] [("createTime", .text utc.isoText)] (by decide) (by decide)
      ⟨[], "insertTime", [], rfl, by simp, rfl⟩ ⟨["createdAt"], "createTime", [], rfl, by simp; rfl, rfl⟩
      (fun _ hexceeds => by cases hexceeds.1) fun hkind => absurd rfl hkind
    exact ⟨r, s, hr, hs, hsame, hkeys⟩

end Timestamp

end GatewayLedger
