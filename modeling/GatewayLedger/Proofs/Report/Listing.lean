import GatewayLedger.Proofs.Outcome
import GatewayLedger.Proofs.Record.Amount
import GatewayLedger.Proofs.Time.Field
import GatewayLedger.Report.Ledger

/-!
# What the report of a ledger lists

The report of a ledger has one line for each record that its limit leaves, in the order of the ledger,
and a footer with their number. A limit that is not negative leaves so many of the first records; a
negative one leaves all but so many of the last.
-/

namespace GatewayLedger

/-! ## Lines -/

namespace Text

section Lines

variable {a b text : String} {texts : List String}

/-- The pieces of a text between its line feeds. -/
def linesOf (text : String) : List String := (text.toList.splitOn '\n').map String.ofList

def IsOneLine (text : String) : Prop := '\n' ∉ text.toList

instance (text : String) : Decidable (IsOneLine text) := inferInstanceAs (Decidable (¬ _))

theorem linesOf_of_isOneLine (h : IsOneLine text) : linesOf text = [text] := by
  rw [linesOf, List.splitOn_eq_singleton h, List.map_singleton, String.ofList_toList]

theorem flatMap_linesOf (h : ∀ text ∈ texts, IsOneLine text) : texts.flatMap linesOf = texts := by
  induction texts with
  | nil => rfl
  | cons text texts ih =>
    rw [List.flatMap_cons, linesOf_of_isOneLine (h text List.mem_cons_self),
      ih fun other hother => h other (List.mem_cons_of_mem text hother), List.singleton_append]

theorem linesOf_append (a b : String) : linesOf (a ++ "\n" ++ b) = linesOf a ++ linesOf b := by
  have hchars : (a ++ "\n" ++ b).toList = a.toList ++ '\n' :: b.toList := by
    simp [String.toList_append]
  rw [linesOf, hchars, List.splitOn_append_cons_self, List.map_append, linesOf, linesOf]

theorem linesOf_lines (texts : List String) :
    linesOf (Report.lines texts) = texts.flatMap linesOf ++ [""] := by
  induction texts with
  | nil => rfl
  | cons text texts ih =>
    have hsplit : Report.lines (text :: texts) = text ++ "\n" ++ Report.lines texts := by
      simp [Report.lines, String.join_cons]
    rw [hsplit, linesOf_append, ih, List.flatMap_cons, List.append_assoc]

theorem isOneLine_append : IsOneLine (a ++ b) ↔ IsOneLine a ∧ IsOneLine b := by
  simp [IsOneLine, String.toList_append]

theorem isOneLine_ruler {mark : Char} (h : mark ≠ '\n') (width : Nat) :
    IsOneLine (ruler mark width) := by
  intro hmem
  rw [ruler, String.toList_ofList] at hmem
  exact h (List.eq_of_mem_replicate hmem).symm

theorem isOneLine_spaces (n : Nat) : IsOneLine (spaces n) := isOneLine_ruler (by decide) n

theorem isOneLine_intercalate (h : ∀ text ∈ texts, IsOneLine text) :
    IsOneLine (" ".intercalate texts) := by
  induction texts with
  | nil => decide
  | cons text texts ih =>
    have hrest := ih fun other hother => h other (List.mem_cons_of_mem text hother)
    have htext := h text List.mem_cons_self
    cases texts with
    | nil => exact htext
    | cons other texts =>
      rw [String.intercalate_cons_cons, isOneLine_append, isOneLine_append]
      exact ⟨⟨htext, by decide⟩, hrest⟩

theorem isOneLine_of_digits (h : ∀ c ∈ text.toList, c.isDigit = true) : IsOneLine text := by
  intro hmem
  exact absurd (h _ hmem) (by decide)

end Lines

/-! ## Columns -/

/-- A text with the width of its column and the side of the column at which it stands. -/
inductive Cell where
  | left (width : Nat) (text : String)
  | right (width : Nat) (text : String)

namespace Cell

def text : Cell → String
  | left _ text => text
  | right _ text => text

/-- Blanks fill up the column, and a text that is wider than the column stands without blanks. -/
inductive IsWritten : Cell → String → Prop
  | left {width n : Nat} {text : String} (h : text.length + n = max width text.length) :
      IsWritten (.left width text) (text ++ spaces n)
  | right {width n : Nat} {text : String} (h : n + text.length = max width text.length) :
      IsWritten (.right width text) (spaces n ++ text)

theorem isWritten_padRight (width : Nat) (text : String) :
    IsWritten (.left width text) (padRight width text) := .left (by omega)

theorem isWritten_padLeft (width : Nat) (text : String) :
    IsWritten (.right width text) (padLeft width text) := .right (by omega)

/-- The last text of a line needs no column. -/
theorem isWritten_self (text : String) : IsWritten (.left 0 text) text := by
  have h := isWritten_padRight 0 text
  rwa [padRight, Nat.zero_sub, spaces, List.replicate_zero, String.append_empty] at h

theorem IsWritten.isOneLine {cell : Cell} {column : String} (h : cell.IsWritten column)
    (htext : IsOneLine cell.text) : IsOneLine column := by
  cases h with
  | left _ => exact isOneLine_append.mpr ⟨htext, isOneLine_spaces _⟩
  | right _ => exact isOneLine_append.mpr ⟨isOneLine_spaces _, htext⟩

end Cell

end Text

/-! ## Texts without line feeds -/

open Text (IsOneLine)

theorem Iso.isOneLine_padded (width n : Nat) : IsOneLine (Iso.padded width n) :=
  Text.isOneLine_of_digits fun _ hc => Iso.isDigit_of_mem_padded hc

theorem Moment.isOneLine_stampText (m : Moment) : IsOneLine m.stampText := by
  have hmarks : IsOneLine "-" ∧ IsOneLine " " ∧ IsOneLine ":" := by decide
  obtain ⟨hdash, hblank, hcolon⟩ := hmarks
  simp only [stampText, Text.isOneLine_append, Iso.isOneLine_padded, hdash, hblank, hcolon, and_self]

theorem Kind.isOneLine_name (kind : Kind) : IsOneLine kind.name := by
  cases kind <;> decide

theorem Status.isOneLine_name (status : Status) : IsOneLine status.name := by
  cases status <;> decide

theorem PlainNumeral.mem_chars {n : PlainNumeral} {c : Char} (h : c ∈ n.chars) :
    c.isDigit = true ∨ c = '-' ∨ c = '.' := by
  have hdigit : ∀ c, c ∈ n.whole ∨ c ∈ n.fraction → c.isDigit = true := fun c hc =>
    n.isDigit c (List.mem_append.mpr hc)
  rw [chars, List.mem_append, List.mem_append] at h
  rcases h with hsign | hwhole | hfraction
  · rw [Decimal.signChars] at hsign
    split at hsign
    · exact .inr (.inl (List.mem_singleton.mp hsign))
    · cases hsign
  · exact .inl (hdigit c (.inl hwhole))
  · split at hfraction
    · cases hfraction
    · rcases List.mem_cons.mp hfraction with hpoint | hmem
      · exact .inr (.inr hpoint)
      · exact .inl (hdigit c (.inr hmem))

theorem PlainNumeral.isOneLine_text (n : PlainNumeral) : IsOneLine n.text := by
  intro h
  rw [text, String.toList_ofList] at h
  rcases mem_chars h with hdigit | hminus | hpoint
  · exact absurd hdigit (by decide)
  · exact absurd hminus (by decide)
  · exact absurd hpoint (by decide)

namespace Amount

theorem forall_isRounded_lt_iff {d : Decimal} :
    (∀ q, IsRounded d.toRat q → |q| < 10 ^ 20) ↔ d.coefficientAt (-8) < 10 ^ Decimal.precision := by
  have hrounded := isRounded_movedTo d
  rw [← abs_movedTo_lt_iff]
  constructor
  · intro hall
    exact hall _ hrounded
  · intro hlt q hq
    rwa [hq.unique hrounded]

theorem exists_isOneLine_text {d : Decimal} (h : ∀ q, IsRounded d.toRat q → |q| < 10 ^ 20) :
    ∃ amount, text d = .ok amount ∧ IsOneLine amount := by
  obtain ⟨n, -, htext, -⟩ := exists_text (forall_isRounded_lt_iff.mp h)
  exact ⟨n.text, htext, n.isOneLine_text⟩

end Amount

/-- The texts that the exchange chose for a record have no line feeds. -/
structure Record.HasOneLineTexts (r : Record) : Prop where
  id : IsOneLine r.id
  asset : IsOneLine r.asset
  network : ∀ network, r.network = some network → IsOneLine network

/-! ## Lines of records -/

namespace Report

open Text

variable {l : Ledger} {asset : Option String} {r : Record} {report : String} {rows : List String}

theorem isOneLine_networkText (h : r.HasOneLineTexts) : IsOneLine (networkText r) := by
  unfold networkText
  split
  · decide
  · decide
  · next network _ hnetwork => exact h.network network hnetwork

/-- What the line of a record shows, in its order. -/
def recordCells (r : Record) (amount : String) : List Cell :=
  [.left 20 r.occurredAt.stampText, .left 10 r.kind.name, .left 8 r.asset, .right 18 amount,
    .left 8 (networkText r), .left 10 r.status.name, .left 0 r.id]

/-- The columns of a record with a blank between any two of them. -/
def ShowsRecord (r : Record) (line : String) : Prop :=
  ∃ amount columns, Amount.text r.amount = .ok amount ∧
    List.Forall₂ Cell.IsWritten (recordCells r amount) columns ∧ line = " ".intercalate columns

theorem exists_recordLine (hr : r.HasOneLineTexts)
    (hamount : ∀ q, Amount.IsRounded r.amount.toRat q → |q| < 10 ^ 20) :
    ∃ line, recordLine r = .ok line ∧ ShowsRecord r line ∧ IsOneLine line := by
  obtain ⟨amount, htext, hline⟩ := Amount.exists_isOneLine_text hamount
  have hcells : List.Forall₂ Cell.IsWritten (recordCells r amount)
      [padRight 20 r.occurredAt.stampText, padRight 10 r.kind.name, padRight 8 r.asset,
        padLeft 18 amount, padRight 8 (networkText r), padRight 10 r.status.name, r.id] := by
    refine .cons (Cell.isWritten_padRight _ _) (.cons (Cell.isWritten_padRight _ _) ?_)
    refine .cons (Cell.isWritten_padRight _ _) (.cons (Cell.isWritten_padLeft _ _) ?_)
    refine .cons (Cell.isWritten_padRight _ _) (.cons (Cell.isWritten_padRight _ _) ?_)
    exact .cons (Cell.isWritten_self _) .nil
  have htexts : ∀ cell ∈ recordCells r amount, IsOneLine cell.text := by
    simp only [recordCells, List.forall_mem_cons, Cell.text]
    exact ⟨r.occurredAt.isOneLine_stampText, r.kind.isOneLine_name, hr.asset, hline,
      isOneLine_networkText hr, r.status.isOneLine_name, hr.id, by simp⟩
  refine ⟨_, ?_, ⟨amount, _, htext, hcells, rfl⟩, isOneLine_intercalate ?_⟩
  · rw [recordLine, amountColumn, htext]
    rfl
  · intro column hcolumn
    obtain ⟨cell, hcell, hwritten⟩ := mem_of_forall₂ hcells hcolumn
    exact hwritten.isOneLine (htexts cell hcell)

/-! ## Reports -/

theorem limited_none (l : Ledger) : limited none l.records = l.records.take l.size :=
  List.take_length.symm

theorem limited_of_nonneg {n : Int} (h : 0 ≤ n) (l : Ledger) :
    limited (some n) l.records = l.records.take (min n.toNat l.size) := by
  rw [limited, if_pos h, Ledger.size, List.take_eq_take_min]

theorem limited_of_neg {n : Int} (h : n < 0) (l : Ledger) :
    limited (some n) l.records = l.records.take (l.size - n.natAbs) := by
  have hcount : (-n).toNat = n.natAbs := by omega
  rw [limited, if_neg (by omega), hcount, Ledger.size]

/-- The table of a report, or what stands in its place where there are no lines for it. -/
def tableLines (total : Nat) (rows : List String) : List String :=
  if rows = [] then ["No transactions found."]
  else ledgerHeading :: ruler '-' 96 :: rows ++
    [ruler '-' 96, toString rows.length ++ " of " ++ toString total ++ " record(s)"]

/-- The report lists so many of the first records of a ledger, one on a line, and no others. -/
def ListsFirst (count : Nat) (l : Ledger) (asset : Option String) (report : String) : Prop :=
  ∃ rows, List.Forall₂ ShowsRecord (l.records.take count) rows ∧
    linesOf report = linesOf (title "TRANSACTION LEDGER" asset) ++
      ruler '=' 96 :: tableLines l.size rows ++ ["", ""]

theorem isOneLine_toString (n : Nat) : IsOneLine (toString n) := by
  apply isOneLine_of_digits
  intro c hc
  have hchars : (toString n).toList = Decimal.digitChars n := String.toList_ofList
  rw [hchars] at hc
  exact Decimal.isDigit_of_mem_digitChars hc

theorem isOneLine_ledgerHeading : IsOneLine ledgerHeading := by
  apply isOneLine_intercalate
  simp only [List.forall_mem_cons, padRight, padLeft, isOneLine_append, isOneLine_spaces, and_true,
    true_and]
  decide

theorem isOneLine_of_mem_tableLines {total : Nat} (h : ∀ row ∈ rows, IsOneLine row) :
    ∀ line ∈ tableLines total rows, IsOneLine line := by
  have hruler : IsOneLine (ruler '-' 96) := isOneLine_ruler (by decide) 96
  have hfooter : IsOneLine (toString rows.length ++ " of " ++ toString total ++ " record(s)") := by
    simp only [isOneLine_append, isOneLine_toString, true_and]
    decide
  unfold tableLines
  split
  · simp only [List.forall_mem_singleton]
    decide
  · simp only [List.forall_mem_append, List.forall_mem_cons]
    exact ⟨⟨isOneLine_ledgerHeading, hruler, h⟩, hruler, hfooter, by simp⟩

theorem exists_ledger {limit : Option Int} {count : Nat}
    (hlimited : limited limit l.records = l.records.take count)
    (htexts : ∀ r ∈ l.records, r.HasOneLineTexts)
    (hamounts : ∀ r ∈ l.records, ∀ q, Amount.IsRounded r.amount.toRat q → |q| < 10 ^ 20)
    (asset : Option String) : ∃ report, ledger l limit asset = .ok report ∧
      ListsFirst count l asset report := by
  have hrow : ∀ r ∈ l.records.take count, ∃ row, recordLine r = .ok row ∧
      ShowsRecord r row ∧ IsOneLine row := fun r hr =>
    exists_recordLine (htexts r (List.mem_of_mem_take hr)) (hamounts r (List.mem_of_mem_take hr))
  obtain ⟨rows, hrows, hshown⟩ := exists_mapM hrow
  have honeLine : ∀ row ∈ rows, IsOneLine row := fun row hmem => by
    obtain ⟨r, -, -, hrow⟩ := mem_of_forall₂ hshown hmem
    exact hrow
  have hbody : (if rows.isEmpty then ["No transactions found."]
      else ledgerHeading :: ruler '-' 96 :: rows ++ [ruler '-' 96, footer rows.length l.size]) =
      tableLines l.size rows := by
    cases rows <;> rfl
  refine ⟨_, by rw [ledger, hlimited, hrows]; rfl, rows, hshown.imp fun _ _ h => h.1, ?_⟩
  have hbelow : ∀ line ∈ ruler '=' 96 :: tableLines l.size rows ++ [""], IsOneLine line := by
    simp only [List.forall_mem_append, List.forall_mem_cons]
    exact ⟨⟨isOneLine_ruler (by decide) 96, isOneLine_of_mem_tableLines honeLine⟩, by decide, by simp⟩
  rw [linesOf_lines, hbody, List.cons_append, List.flatMap_cons, flatMap_linesOf hbelow,
    List.append_assoc, List.append_assoc, List.append_assoc]
  rfl

theorem length_tableLines (total : Nat) (rows : List String) :
    (tableLines total rows).length = if rows.length = 0 then 1 else rows.length + 4 := by
  cases rows with
  | nil => rfl
  | cons row rows => simp [tableLines]

/-- A report tells how many records it lists. -/
theorem ListsFirst.count_eq {j k : Nat} (hj : ListsFirst j l asset report)
    (hk : ListsFirst k l asset report) : min j l.size = min k l.size := by
  obtain ⟨first, hfirst, hreport⟩ := hj
  obtain ⟨second, hsecond, hsame⟩ := hk
  rw [hreport] at hsame
  have hlength := congrArg List.length hsame
  simp only [List.length_append, List.length_cons, length_tableLines, ← hfirst.length_eq,
    ← hsecond.length_eq, List.length_take] at hlength
  unfold Ledger.size
  split at hlength <;> split at hlength <;> omega

/-- Without a limit all records are listed. A limit that is not negative leaves so many of the first
records at most, and a negative one drops so many of the last. -/
theorem lists_first_records (l : Ledger) (asset : Option String)
    (htexts : ∀ r ∈ l.records, r.HasOneLineTexts)
    (hamounts : ∀ r ∈ l.records, ∀ q, Amount.IsRounded r.amount.toRat q → |q| < 10 ^ 20) :
    (∃ report, ledger l none asset = .ok report ∧ ListsFirst l.size l asset report) ∧
    ∀ n : Int,
      (0 ≤ n → ∃ report, ledger l (some n) asset = .ok report ∧
        ListsFirst (min n.toNat l.size) l asset report) ∧
      (n < 0 → ∃ report, ledger l (some n) asset = .ok report ∧
        ListsFirst (l.size - n.natAbs) l asset report) := by
  refine ⟨?_, fun n => ⟨fun hn => ?_, fun hn => ?_⟩⟩
  · exact exists_ledger (limited_none l) htexts hamounts asset
  · exact exists_ledger (limited_of_nonneg hn l) htexts hamounts asset
  · exact exists_ledger (limited_of_neg hn l) htexts hamounts asset

/-- Two withdrawals of the first microsecond of the year 1, without a network. The longer amount is wider
than its column. -/
def sampleLedger : Ledger :=
  let withdrawal (id : String) (amount : Decimal) : Record :=
    ⟨id, .withdrawal, "USDT", amount, none, none, none, .pending, .int 4, ⟨0, some 0, by decide⟩, []⟩
  .ofOrdered [withdrawal "b" ⟨true, 99999999999999999999999999994, -9⟩, withdrawal "a" ⟨false, 5, 1⟩]

theorem hasOneLineTexts_of_mem_sampleLedger : ∀ r ∈ sampleLedger.records, r.HasOneLineTexts := by
  intro r hr
  simp only [sampleLedger, Ledger.records_ofOrdered, List.mem_cons, List.not_mem_nil, or_false] at hr
  rcases hr with rfl | rfl
  · exact ⟨by decide, by decide, fun _ h => by cases h⟩
  · exact ⟨by decide, by decide, fun _ h => by cases h⟩

theorem isRounded_lt_of_mem_sampleLedger :
    ∀ r ∈ sampleLedger.records, ∀ q, Amount.IsRounded r.amount.toRat q → |q| < 10 ^ 20 := by
  intro r hr
  simp only [sampleLedger, Ledger.records_ofOrdered, List.mem_cons, List.not_mem_nil, or_false] at hr
  rw [Amount.forall_isRounded_lt_iff]
  rcases hr with rfl | rfl
  · decide +kernel
  · decide +kernel

theorem lists_first_of_sampleLedger :
    (∀ r ∈ sampleLedger.records, r.HasOneLineTexts) ∧
    (∀ r ∈ sampleLedger.records, ∀ q, Amount.IsRounded r.amount.toRat q → |q| < 10 ^ 20) ∧
    (∃ report, ledger sampleLedger none none = .ok report ∧ ListsFirst 2 sampleLedger none report) ∧
    ((0 : Int) ≤ 1 ∧ ∃ report, ledger sampleLedger (some 1) none = .ok report ∧
      ListsFirst 1 sampleLedger none report) ∧
    ((-7 : Int) < 0 ∧ ∃ report, ledger sampleLedger (some (-7)) none = .ok report ∧
      ListsFirst 0 sampleLedger none report) := by
  have htexts := hasOneLineTexts_of_mem_sampleLedger
  have hamounts := isRounded_lt_of_mem_sampleLedger
  obtain ⟨hall, hlimited⟩ := lists_first_records sampleLedger none htexts hamounts
  exact ⟨htexts, hamounts, hall, ⟨by decide, (hlimited 1).1 (by decide)⟩,
    by decide, (hlimited (-7)).2 (by decide)⟩

/-- The limit -1 does not stand for no record at all. -/
theorem lists_one_of_limit_below_zero :
    (∀ r ∈ sampleLedger.records, r.HasOneLineTexts) ∧
    (∀ r ∈ sampleLedger.records, ∀ q, Amount.IsRounded r.amount.toRat q → |q| < 10 ^ 20) ∧
    ∃ report, ledger sampleLedger (some (-1)) none = .ok report ∧
      ListsFirst 1 sampleLedger none report ∧
      ¬ ListsFirst (min (max (-1 : Int) 0).toNat sampleLedger.size) sampleLedger none report := by
  have htexts := hasOneLineTexts_of_mem_sampleLedger
  have hamounts := isRounded_lt_of_mem_sampleLedger
  obtain ⟨report, hreport, hone⟩ :=
    exists_ledger (limited_of_neg (n := -1) (by decide) sampleLedger) htexts hamounts none
  refine ⟨htexts, hamounts, report, hreport, hone, fun hnone => ?_⟩
  exact absurd (hone.count_eq hnone) (by decide)

end Report

end GatewayLedger
