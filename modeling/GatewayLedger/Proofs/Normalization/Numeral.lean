import GatewayLedger.Json.Reader
import GatewayLedger.Proofs.Normalization
import GatewayLedger.Proofs.Number.Integer

/-!
# Integers written as numerals

Every part of a record is read alike from an integer and from its numeral: the texts show the same
digits, the numeral denotes the same amount, the same status and the same number of milliseconds. So a
row may hold its integers as numbers or as texts, and only the raw status tells which.
-/

namespace GatewayLedger

/-! ## Values -/

namespace Value

/-- An integer as its numeral. -/
def spelled : Value → Value
  | int n => text (Quoted.number n)
  | v => v

/-- An integer with no more digits than integers are written with. -/
def IsSpellable (v : Value) : Prop :=
  ∀ n, v = int n → Rounding.numDigits n.natAbs ≤ Json.maxIntegerDigits

variable {n : Int}

theorem IsSpellable.read?_number (h : IsSpellable (int n)) :
    Numeral.read? (Quoted.number n) = some (.finite (Decimal.ofInt n)) := by
  have hdigits := h n rfl
  unfold Json.maxIntegerDigits at hdigits
  exact Quoted.read?_number (hdigits.trans (by decide))

theorem display_spelled (v : Value) : v.spelled.display = v.display := by
  cases v with
  | int n => exact (display_int n).symm
  | _ => rfl

end Value

theorem Amount.ofValue_spelled (v : Value) : Amount.ofValue v.spelled = Amount.ofValue v := by
  cases v with
  | int n =>
    change Amount.ofText (Quoted.number n) = Amount.ofText (Value.int n).display
    rw [Value.display_int]
  | _ => rfl

namespace Status

theorem code?_spelled {v : Value} (h : v.IsSpellable) : code? v.spelled = code? v := by
  cases v with
  | int n =>
    have hread : Decimal.read? (Quoted.number n) = some (Decimal.ofInt n) := by
      rw [Decimal.read?, h.read?_number]
      rfl
    have hsize : (Decimal.ofInt n).exceedsMemory = false := by
      have hdigits := (h n rfl).trans (by decide : Json.maxIntegerDigits ≤ Decimal.maxIntDigits)
      rw [Decimal.exceedsMemory, Decimal.adjusted_ofInt, Bool.and_eq_false_iff,
        decide_eq_false_iff_not]
      omega
    have hcode : code? (.text (Quoted.number n)) = codeOf (Decimal.ofInt n) :=
      (IsRead.text _).code?_of_some hread
    rw [Value.spelled, hcode, codeOf, hsize, Bool.and_false, if_neg Bool.false_ne_true,
      Decimal.toInt?_ofInt]
    rfl
  | _ => rfl

/-- No word of the table has a digit. -/
theorem ofPaymentWord_of_digit {word : String} (h : (foldWord word).toList.any Char.isDigit = true) :
    ofPaymentWord word = unknown := by
  unfold ofPaymentWord
  split <;> first
    | rfl
    | next hword =>
      rw [hword] at h
      exact absurd h (by decide)

theorem ofPaymentWord_number (n : Int) : ofPaymentWord (Quoted.number n) = unknown := by
  obtain ⟨c, hc, hdigit⟩ := Quoted.exists_digit_number n
  apply ofPaymentWord_of_digit
  rw [foldWord, Quoted.trim_number, String.toList_ofList, List.any_eq_true]
  refine ⟨c, List.mem_map.mpr ⟨c, hc, Text.toLower_of_isDigit hdigit⟩, hdigit⟩

theorem ofRaw_spelled (kind : Kind) {v : Value} (h : v.IsSpellable) :
    ofRaw kind v.spelled = ofRaw kind v := by
  cases kind with
  | deposit => rw [ofRaw, ofRaw, code?_spelled h]
  | withdrawal => rw [ofRaw, ofRaw, code?_spelled h]
  | payment =>
    cases v with
    | int n => exact congrArg Except.ok (ofPaymentWord_number n)
    | _ => rfl

end Status

theorem Timestamp.ofValue_spelled {v : Value} (h : v.IsSpellable) :
    Timestamp.ofValue v.spelled = Timestamp.ofValue v := by
  cases v with
  | int n =>
    change Except.ok (ofText? (Quoted.number n)) = .ok (Moment.ofMillis? (Binary64.ofInt n))
    rw [ofText?, Quoted.trim_number, String.ofList_toList, h.read?_number]
    dsimp only [ofNumeral?]
    rw [Binary64.ofDecimal_ofInt]
  | _ => rfl

/-! ## Rows -/

/-- The row with the integers of the named fields as their numerals. -/
def Fields.spell (names : List String) (row : Fields) : Fields :=
  row.map fun f => (f.1, if f.1 ∈ names then f.2.spelled else f.2)

section Row

variable {names : List String} {row : Fields} {name : String}

theorem Fields.get?_spell (names : List String) (row : Fields) (name : String) :
    get? (spell names row) name =
      (get? row name).map fun v => if name ∈ names then v.spelled else v := by
  induction row with
  | nil => rfl
  | cons f row ih =>
    unfold spell get? at ih ⊢
    rw [List.map_cons, List.find?_cons, List.find?_cons]
    by_cases h : f.1 = name
    · simp [h]
    · simpa [h] using ih

theorem Value.field_spell (names : List String) (row : Fields) (name : String) :
    field (Fields.spell names row) name =
      if name ∈ names then (field row name).spelled else field row name := by
  unfold field
  rw [Fields.get?_spell]
  cases Fields.get? row name with
  | none => split <;> rfl
  | some v => rfl

/-- What is read alike from an integer and its numeral is read alike from a field. -/
theorem Value.apply_field_spell {β : Type} (f : Value → β)
    (h : name ∈ names → f (field row name).spelled = f (field row name)) :
    f (field (Fields.spell names row) name) = f (field row name) := by
  rw [field_spell]
  split
  · next hname => exact h hname
  · rfl

theorem Timestamp.firstOf_spell (h : ∀ name ∈ names, (Value.field row name).IsSpellable)
    (timeNames : List String) :
    firstOf (Fields.spell names row) timeNames = firstOf row timeNames := by
  induction timeNames with
  | nil => rfl
  | cons name timeNames ih =>
    rw [firstOf, firstOf, ih,
      Value.apply_field_spell ofValue fun hname => ofValue_spelled (h name hname)]

namespace Record

/-- The fields that are read alike from integers and from numerals. A text in a field for the asset is
an asset even if it is the numeral of zero. -/
def numeralFields : List String :=
  ["id", "amount", "status", "network", "address", "txId", "insertTime", "applyTime", "createdAt",
    "createTime"]

theorem textField?_of_spelled {a b : Fields}
    (h : Value.field a name = (Value.field b name).spelled) : textField? a name = textField? b name := by
  unfold textField?
  rw [h]
  cases Value.field b name with
  | int n =>
    dsimp only [Value.spelled]
    split
    · next heq => cases heq
    · next heq => exact absurd (Value.text.inj heq) (Quoted.number_ne_empty n)
    · rw [Value.display_int]
      rfl
  | _ => rfl

theorem textField?_spell (names : List String) (row : Fields) (name : String) :
    textField? (Fields.spell names row) name = textField? row name := by
  have hfield := Value.field_spell names row name
  by_cases hname : name ∈ names
  · rw [if_pos hname] at hfield
    exact textField?_of_spelled hfield
  · rw [if_neg hname] at hfield
    unfold textField?
    rw [hfield]

theorem idOf_spell (names : List String) (row : Fields) :
    idOf (Fields.spell names row) = idOf row := by
  have hdisplay : ∀ v : Value, (if "id" ∈ names then v.spelled else v).display = v.display := by
    intro v
    split
    · exact v.display_spelled
    · rfl
  rw [idOf, idOf, Fields.get?_spell, Option.map_map]
  congr 2
  exact funext hdisplay

theorem assetOf_spell (h : ∀ name ∈ names, name ∈ numeralFields) (kind : Kind) (row : Fields) :
    assetOf kind (Fields.spell names row) = assetOf kind row := by
  have hother : assetField kind ∉ numeralFields := by
    cases kind <;> decide
  have hfield := Value.field_spell names row (assetField kind)
  rw [if_neg fun hname => hother (h _ hname)] at hfield
  rw [assetOf, assetOf, hfield]

theorem metadataOf_spell (h : ∀ name ∈ names, name ∈ numeralFields) (row : Fields) :
    metadataOf (Fields.spell names row) = metadataOf row := by
  have hsubset : numeralFields ⊆ knownFields := by decide
  induction row with
  | nil => rfl
  | cons f row ih =>
    unfold metadataOf Fields.spell at ih ⊢
    rw [List.map_cons, List.filter_cons, List.filter_cons, ih]
    by_cases hname : f.1 ∈ names
    · have hknown : knownFields.contains f.1 = true := by simpa using hsubset (h _ hname)
      simp only [hknown, Bool.not_true, Bool.false_eq_true, if_false]
    · rw [if_neg hname]

theorem statusOf_spell (hdigits : ∀ name ∈ names, (Value.field row name).IsSpellable) (kind : Kind) :
    statusOf kind (Fields.spell names row) = statusOf kind row :=
  Value.apply_field_spell _ fun h => Status.ofRaw_spelled kind (hdigits _ h)

theorem ofTimedRow_spell (hnames : ∀ name ∈ names, name ∈ numeralFields) (row : Fields) (kind : Kind)
    (status : Status) (time : Moment) :
    ofTimedRow kind (Fields.spell names row) status time =
      { ofTimedRow kind row status time with
        rawStatus := Value.field (Fields.spell names row) "status" } := by
  have hamount : Amount.ofValue (Value.field (Fields.spell names row) "amount") =
      Amount.ofValue (Value.field row "amount") :=
    Value.apply_field_spell _ fun _ => Amount.ofValue_spelled _
  simp only [ofTimedRow, idOf_spell, assetOf_spell hnames, hamount, textField?_spell,
    metadataOf_spell hnames]

/-- The integers of any fields but that of the asset may be given as their numerals. The record stays
the same but for the raw status. -/
theorem numerals_normalize_like_integers
    (hnames : ∀ name ∈ names, name ∈ numeralFields)
    (hdigits : ∀ name ∈ names, ∀ n, Value.field row name = .int n →
      Rounding.numDigits n.natAbs ≤ Json.maxIntegerDigits)
    (kind : Kind) (now : Moment) :
    ofRow kind now (Fields.spell names row) =
      (ofRow kind now row).map fun r =>
        { r with rawStatus := if "status" ∈ names then r.rawStatus.spelled else r.rawStatus } := by
  have htime := Timestamp.firstOf_spell hdigits (timeFields kind)
  have hraw := Value.field_spell names row "status"
  rw [ofRow, ofRow, htime, statusOf_spell hdigits]
  cases statusOf kind row with
  | error f => rfl
  | ok status =>
    cases Timestamp.firstOf row (timeFields kind) with
    | error f => rfl
    | ok time =>
      change Except.ok _ = Except.ok _
      rw [ofTimedRow_spell hnames, hraw]
      rfl

/-- A deposit with four integers, and the same deposit with their numerals. -/
theorem deposit_of_numerals_like_integers :
    let names := ["id", "amount", "status", "insertTime"]
    let row : Fields := [("id", .int 7), ("amount", .int (-12)), ("status", .int 1),
      ("insertTime", .int 1704067200000), ("note", .int 5)]
    let spelled : Fields := [("id", .text "7"), ("amount", .text "-12"), ("status", .text "1"),
      ("insertTime", .text "1704067200000"), ("note", .int 5)]
    let now : Moment := ⟨0, some 0, by decide⟩
    ((∀ name ∈ names, name ∈ numeralFields) ∧ ∀ name ∈ names, ∀ n, Value.field row name = .int n →
        Rounding.numDigits n.natAbs ≤ Json.maxIntegerDigits) ∧
      ∃ r, ofRow .deposit now row = .ok r ∧ r.status = .completed ∧ r.rawStatus = .int 1 ∧
        ofRow .deposit now spelled = .ok { r with rawStatus := .text "1" } := by
  intro names row spelled now
  have hnames : ∀ name ∈ names, name ∈ numeralFields := by decide
  have hdigits : ∀ name ∈ names, ∀ n, Value.field row name = .int n →
      Rounding.numDigits n.natAbs ≤ Json.maxIntegerDigits := by
    intro name hname n hn
    simp only [names, List.mem_cons, List.not_mem_nil, or_false] at hname
    rcases hname with rfl | rfl | rfl | rfl <;> cases hn <;> decide +kernel
  have hspelled : Fields.spell names row = spelled := by
    have hnumbers : [7, -12, 1, 1704067200000].map Quoted.number =
        ["7", "-12", "1", "1704067200000"] := by decide +kernel
    simp only [List.map_cons, List.map_nil, List.cons.injEq, and_true] at hnumbers
    obtain ⟨hid, hamount, hstatus, htime⟩ := hnumbers
    simp [Fields.spell, names, row, spelled, Value.spelled, hid, hamount, hstatus, htime]
  have hjson : row.AreJson := by
    simp only [Fields.AreJson, row, List.forall_mem_cons]
    exact ⟨.int _, .int _, .int _, .int _, .int _, by simp⟩
  obtain ⟨time, htime⟩ := Timestamp.exists_firstOf_of_areJson hjson (timeFields .deposit)
  have hr : ofRow .deposit now row =
      .ok (ofTimedRow .deposit row .completed (time.getD now)) := by
    rw [ofRow, htime]
    rfl
  have hone : (Value.int 1).spelled = .text "1" := by
    rw [Value.spelled]
    exact congrArg Value.text (by decide +kernel)
  have hraw : Value.field row "status" = .int 1 := rfl
  have hlisted : "status" ∈ names := by decide
  have hnumerals := numerals_normalize_like_integers hnames hdigits .deposit now
  rw [hspelled, hr, Except.map, if_pos hlisted] at hnumerals
  refine ⟨⟨hnames, hdigits⟩, _, hr, rfl, hraw, ?_⟩
  rw [hnumerals, ← hone]
  rfl

end Record

end Row

end GatewayLedger
