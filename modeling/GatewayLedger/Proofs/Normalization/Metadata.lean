import GatewayLedger.Proofs.Normalization

/-!
# Fields that a record keeps

Each kind reads the fields that `Record.readFields` names and no others: in any other field rows may
differ, and their records differ in the metadata alone. The metadata holds what the row has under the
names that no kind reads. So a field that only another kind reads leaves no trace in the record.
-/

namespace GatewayLedger

section Agreement

variable {names : List String} {name : String} {a b : Fields}

def Fields.AgreeOn (names : List String) (a b : Fields) : Prop :=
  ∀ name ∈ names, get? a name = get? b name

theorem Fields.AgreeOn.field_eq (h : AgreeOn names a b) (hname : name ∈ names) :
    Value.field a name = Value.field b name := by
  rw [Value.field, Value.field, h name hname]

theorem Timestamp.firstOf_congr (h : Fields.AgreeOn names a b) : firstOf a names = firstOf b names := by
  induction names with
  | nil => rfl
  | cons name names ih =>
    have hrest := ih fun other hother => h other (List.mem_cons_of_mem name hother)
    rw [firstOf, firstOf, h.field_eq List.mem_cons_self, hrest]

end Agreement

namespace Record

variable {kind : Kind} {name : String} {a b row : Fields} {now : Moment} {r : Record}

/-! ## Fields that a kind reads -/

/-- The fields that are read whatever the others hold. -/
def directFields (kind : Kind) : List String :=
  ["id", assetField kind, "amount", "network", "address", "txId", "status"]

def readFields (kind : Kind) : List String := directFields kind ++ timeFields kind

theorem statusOf_congr (h : Fields.AgreeOn (directFields kind) a b) :
    statusOf kind a = statusOf kind b := by
  rw [statusOf, statusOf, h.field_eq (by simp [directFields])]

theorem ofTimedRow_congr (h : Fields.AgreeOn (directFields kind) a b) (status : Status)
    (time : Moment) : ofTimedRow kind a status time =
      { ofTimedRow kind b status time with metadata := metadataOf a } := by
  have hid : idOf a = idOf b := by
    rw [idOf, idOf, h "id" (by simp [directFields])]
  have hasset : assetOf kind a = assetOf kind b := by
    rw [assetOf, assetOf, h.field_eq (by simp [directFields])]
  have htext : ∀ name ∈ directFields kind, textField? a name = textField? b name := by
    intro name hname
    rw [textField?, textField?, h.field_eq hname]
  have hvalue : ∀ name ∈ directFields kind, Value.field a name = Value.field b name :=
    fun name hname => h.field_eq hname
  simp only [directFields, List.forall_mem_cons] at htext hvalue
  obtain ⟨-, -, -, hnetwork, haddress, htxId, -⟩ := htext
  obtain ⟨-, -, hamount, -, -, -, hstatus, -⟩ := hvalue
  simp only [ofTimedRow, hid, hasset, hamount, hnetwork, haddress, htxId, hstatus]

/-- Rows that agree on the fields that the kind reads come to the same record, their metadata apart. -/
theorem ofRow_congr (h : Fields.AgreeOn (readFields kind) a b) (now : Moment) :
    ofRow kind now a =
      (ofRow kind now b).map fun r => { r with metadata := metadataOf a } := by
  have hdirect : Fields.AgreeOn (directFields kind) a b :=
    fun name hname => h name (List.mem_append_left _ hname)
  have htime : Timestamp.firstOf a (timeFields kind) = Timestamp.firstOf b (timeFields kind) :=
    Timestamp.firstOf_congr fun name hname => h name (List.mem_append_right _ hname)
  rw [ofRow, ofRow, htime, statusOf_congr hdirect]
  cases statusOf kind b with
  | error f => rfl
  | ok status =>
    cases Timestamp.firstOf b (timeFields kind) with
    | error f => rfl
    | ok time => exact congrArg Except.ok (ofTimedRow_congr hdirect status _)

def withoutMetadata (r : Record) : Record := { r with metadata := [] }

/-- What the field holds can make a difference to the record, its metadata apart. -/
def Reads (kind : Kind) (name : String) : Prop :=
  ∃ now a b, (∀ other, other ≠ name → Fields.get? a other = Fields.get? b other) ∧
    (ofRow kind now a).map withoutMetadata ≠ (ofRow kind now b).map withoutMetadata

theorem not_reads_of_not_mem (h : name ∉ readFields kind) : ¬ Reads kind name := by
  rintro ⟨now, a, b, hagree, hdiffer⟩
  have hread : Fields.AgreeOn (readFields kind) a b :=
    fun other hother => hagree other fun he => h (he ▸ hother)
  apply hdiffer
  rw [ofRow_congr hread now]
  cases ofRow kind now b with
  | error f => rfl
  | ok r => rfl

/-- Which parts of a record hold something, where the time of the year 1 is nothing. -/
def given (r : Record) : List Bool :=
  [r.id != "", r.asset != "", !r.amount.isZero, r.network.isSome, r.address.isSome, r.txHash.isSome,
    r.rawStatus.isGiven, r.occurredAt.reading != 0]

/-- A number makes the difference in any field that is read. -/
theorem reads_of_mem (h : name ∈ readFields kind) : Reads kind name := by
  let now : Moment := ⟨0, some 0, by decide⟩
  have hgiven : ∀ kind ∈ Kind.all, ∀ name ∈ readFields kind,
      (ofRow kind now [(name, .int 1)]).map given ≠ (ofRow kind now []).map given := by
    decide +kernel
  refine ⟨now, [(name, .int 1)], [], ?_, ?_⟩
  · intro other hother
    simp [Fields.get?, Ne.symm hother]
  · intro hsame
    apply hgiven kind kind.mem_all name h
    have hmap : ∀ x : Except Fault Record, (x.map withoutMetadata).map given = x.map given := by
      intro x
      cases x with
      | error f => rfl
      | ok r => rfl
    rw [← hmap, hsame, hmap]

theorem mem_readFields_iff : name ∈ readFields kind ↔ Reads kind name := by
  refine ⟨reads_of_mem, fun h => ?_⟩
  by_contra hname
  exact not_reads_of_not_mem hname h

/-! ## Fields that are kept -/

/-- The known fields are those that some kind reads. -/
theorem mem_knownFields_iff : name ∈ knownFields ↔ ∃ kind, name ∈ readFields kind := by
  constructor
  · intro h
    have hall : ∀ name ∈ knownFields, ∃ kind ∈ Kind.all, name ∈ readFields kind := by decide
    obtain ⟨kind, -, hread⟩ := hall name h
    exact ⟨kind, hread⟩
  · rintro ⟨kind, hread⟩
    have hsubset : readFields kind ⊆ knownFields := by
      cases kind <;> decide
    exact hsubset hread

/-- The fields that another kind reads, and this one does not. -/
def foreignFields (kind : Kind) : List String :=
  knownFields.filter fun name => !(readFields kind).contains name

theorem mem_foreignFields_iff :
    name ∈ foreignFields kind ↔ (∃ other, name ∈ readFields other) ∧ name ∉ readFields kind := by
  simp [foreignFields, mem_knownFields_iff]

theorem mem_metadataOf {f : String × Value} :
    f ∈ metadataOf row ↔ f ∈ row ∧ ∀ kind, f.1 ∉ readFields kind := by
  simp [metadataOf, mem_knownFields_iff]

theorem get?_metadataOf (row : Fields) (h : name ∉ knownFields) :
    Fields.get? (metadataOf row) name = Fields.get? row name := by
  unfold Fields.get? metadataOf
  rw [List.find?_filter]
  congr 2
  funext f
  by_cases hname : f.1 = name
  · simp [hname, h]
  · simp [hname]

theorem metadataOf_insert (h : name ∈ knownFields) (row : Fields) (value : Value) :
    metadataOf (Fields.insert row name value) = metadataOf row := by
  have hknown : (!knownFields.contains name) = false := by simp [h]
  unfold metadataOf
  induction row with
  | nil => simp [Fields.insert, h]
  | cons f row ih =>
    obtain ⟨first, held⟩ := f
    unfold Fields.insert
    split
    · next hsame =>
      subst hsame
      rw [List.filter_cons, List.filter_cons, hknown]
      rfl
    · rw [List.filter_cons, List.filter_cons, ih]

/-- The row without the fields that are foreign to the kind. -/
def withoutForeign (kind : Kind) (row : Fields) : Fields :=
  row.filter fun f => !(foreignFields kind).contains f.1

theorem agreeOn_withoutForeign (kind : Kind) (row : Fields) :
    Fields.AgreeOn (readFields kind) (withoutForeign kind row) row := by
  intro name hname
  have hown : name ∉ foreignFields kind := fun h => (mem_foreignFields_iff.mp h).2 hname
  unfold Fields.get? withoutForeign
  rw [List.find?_filter]
  congr 2
  funext f
  by_cases heq : f.1 = name
  · simp [heq, hown]
  · simp [heq]

theorem metadataOf_withoutForeign (kind : Kind) (row : Fields) :
    metadataOf (withoutForeign kind row) = metadataOf row := by
  unfold metadataOf withoutForeign
  rw [List.filter_filter]
  refine List.filter_congr fun f _ => ?_
  by_cases h : f.1 ∈ knownFields
  · simp [h]
  · have hforeign : f.1 ∉ foreignFields kind := fun hf => h (List.mem_of_mem_filter hf)
    simp [h, hforeign]

/-- Foreign fields leave no trace. -/
theorem ofRow_withoutForeign (kind : Kind) (now : Moment) (row : Fields) :
    ofRow kind now (withoutForeign kind row) = ofRow kind now row := by
  rw [ofRow_congr (agreeOn_withoutForeign kind row) now, metadataOf_withoutForeign]
  cases h : ofRow kind now row with
  | error f => rfl
  | ok r =>
    obtain ⟨status, time, -, -, rfl⟩ := exists_of_ofRow h
    rfl

/-- A field of a row that is not foreign to its kind is read, or the metadata keeps it with its value. The
metadata holds nothing else, and of the foreign fields there is nothing in the record. -/
theorem fields_are_read_or_kept (kind : Kind) (now : Moment) (row : Fields) :
    (∀ name, name ∈ readFields kind ↔ Reads kind name) ∧
    (row.AreJson → ((∃ r, ofRow kind now row = .ok r) ↔ HasStatus kind row)) ∧
    ∀ r, ofRow kind now row = .ok r →
      (∀ name value, Fields.get? row name = some value → name ∉ foreignFields kind →
        name ∈ readFields kind ∨ Fields.get? r.metadata name = some value) ∧
      (r.metadata.Sublist row ∧ ∀ f ∈ r.metadata, ∀ other, f.1 ∉ readFields other) ∧
      ofRow kind now (withoutForeign kind row) = .ok r := by
  refine ⟨fun name => mem_readFields_iff, ?_, fun r hr => ?_⟩
  · intro hrow
    exact exists_ofRow_iff hrow kind now
  · have hmetadata : r.metadata = metadataOf row := by
      obtain ⟨status, time, -, -, rfl⟩ := exists_of_ofRow hr
      rfl
    refine ⟨?_, ⟨?_, ?_⟩, (ofRow_withoutForeign kind now row).trans hr⟩
    · intro name value hvalue hforeign
      by_cases hread : name ∈ readFields kind
      · exact .inl hread
      · have hunknown : name ∉ knownFields := fun h =>
          hforeign (mem_foreignFields_iff.mpr ⟨mem_knownFields_iff.mp h, hread⟩)
        right
        rw [hmetadata, get?_metadataOf row hunknown, hvalue]
    · rw [hmetadata]
      exact List.filter_sublist
    · intro f hf
      rw [hmetadata] at hf
      exact (mem_metadataOf.mp hf).2

/-- A payment with a customer, who is kept, and with a coin, which only the other kinds read. -/
theorem fields_of_payment_with_coin :
    let row : Fields := [("asset", .text "USDT"), ("customer", .text "c"), ("coin", .text "X"),
      ("createTime", .int 0)]
    let now : Moment := ⟨0, some 0, by decide⟩
    row.AreJson ∧ ∃ r, ofRow .payment now row = .ok r ∧
      (Fields.get? row "customer" = some (.text "c") ∧ "customer" ∉ foreignFields .payment ∧
        Fields.get? r.metadata "customer" = some (.text "c")) ∧
      ofRow .payment now [("asset", .text "USDT"), ("customer", .text "c"), ("createTime", .int 0)] =
        .ok r := by
  intro row now
  obtain ⟨-, hexists, hkept⟩ := fields_are_read_or_kept .payment now row
  have hjson : row.AreJson := by
    simp only [Fields.AreJson, row, List.forall_mem_cons]
    exact ⟨.text _, .text _, .text _, .int _, by simp⟩
  have hcustomer : Fields.get? row "customer" = some (.text "c") := rfl
  have hown : "customer" ∉ foreignFields .payment := by decide
  obtain ⟨r, hr⟩ := (hexists hjson).mpr fun hkind => absurd rfl hkind
  obtain ⟨hfields, -, hrow⟩ := hkept r hr
  refine ⟨hjson, r, hr, ⟨hcustomer, hown, ?_⟩, hrow⟩
  rcases hfields "customer" _ hcustomer hown with hread | hmetadata
  · exact absurd hread (by decide)
  · exact hmetadata

/-- An asset that a deposit names beside its coin is neither read nor kept. -/
theorem asset_of_deposit_is_lost :
    let row : Fields := [("id", .text "d1"), ("coin", .text "USDT"), ("asset", .text "X")]
    let now : Moment := ⟨0, some 0, by decide⟩
    ∃ r, ofRow .deposit now row = .ok r ∧ Fields.get? row "asset" = some (.text "X") ∧
      ¬ Reads .deposit "asset" ∧ Fields.get? r.metadata "asset" = none :=
  ⟨_, rfl, rfl, not_reads_of_not_mem (by decide), rfl⟩

end Record

end GatewayLedger
