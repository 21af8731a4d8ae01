import GatewayLedger.Proofs.Normalization
import GatewayLedger.Proofs.Number.Printed

/-!
# Amounts that are read again

Whatever is read as an amount is a decimal in range and below `10 ^ 101`. Every such decimal is read
as itself, from the decimal, from its text, and from its text as the amount of a row.
-/

namespace GatewayLedger.Amount

open Decimal Text

variable {d : Decimal} {v : Value}

theorem inRange_zero : Decimal.zero.InRange :=
  inRange_iff_exists_read?.mpr ⟨"0", by decide +kernel⟩

theorem inRange_ofText (text : String) : (ofText text).InRange := by
  rw [ofText]
  cases hread : Numeral.read? text with
  | none => exact inRange_zero
  | some n =>
    cases n with
    | finite d =>
      change (if isAdmitted d then d else Decimal.zero).InRange
      split
      · exact inRange_iff_exists_read?.mpr ⟨text, hread⟩
      · exact inRange_zero
    | _ => exact inRange_zero

theorem inRange_ofValue (v : Value) : (ofValue v).InRange := by
  unfold ofValue
  split
  · exact inRange_zero
  · exact inRange_zero
  · exact inRange_ofText _

theorem adjusted_ofValue_le (v : Value) : (ofValue v).adjusted ≤ 100 :=
  of_decide_eq_true (isAdmitted_ofValue v)

theorem ofText_of_read? {text : String} (h : Numeral.read? text = some (.finite d))
    (hsize : d.adjusted ≤ 100) : ofText text = d := by
  have hadmitted : isAdmitted d = true := decide_eq_true hsize
  rw [ofText, h]
  exact if_pos hadmitted

/-- A value that has the decimal for its text: the decimal itself or its text between blanks. -/
inductive Shows (d : Decimal) : Value → Prop
  | decimal : Shows d (.decimal (.finite d))
  | text {before after : List Char} (hbefore : ∀ c ∈ before, isBlank c = true)
      (hafter : ∀ c ∈ after, isBlank c = true) :
      Shows d (.text (String.ofList (before ++ d.chars ++ after)))

theorem Shows.ofValue_eq (h : Shows d v) (hrange : d.InRange) (hsize : d.adjusted ≤ 100) :
    ofValue v = d := by
  cases h with
  | decimal => exact ofText_of_read? (read?_text hrange) hsize
  | text hbefore hafter => exact ofText_of_read? (read?_surrounded hrange hbefore hafter) hsize

/-- An amount is read back as it was written, and what is read is an amount. -/
theorem read_back_as_written :
    (∀ v, (ofValue v).InRange ∧ (ofValue v).adjusted ≤ 100 ∧
      ofValue (.decimal (.finite (ofValue v))) = ofValue v) ∧
    ∀ d : Decimal, d.InRange → d.adjusted ≤ 100 → ∀ v, Shows d v → ofValue v = d ∧
      ∀ kind now (row : Fields), Value.field row "amount" = v →
        (∀ r, Record.ofRow kind now row = .ok r → r.amount = d) ∧
        (row.AreJson → ((∃ r, Record.ofRow kind now row = .ok r) ↔ Record.HasStatus kind row)) := by
  refine ⟨fun v => ⟨inRange_ofValue v, adjusted_ofValue_le v, ?_⟩, fun d hrange hsize v hv => ?_⟩
  · exact Shows.decimal.ofValue_eq (inRange_ofValue v) (adjusted_ofValue_le v)
  have hamount : ofValue v = d := hv.ofValue_eq hrange hsize
  refine ⟨hamount, fun kind now row hrow => ⟨fun r hr => ?_, fun hjson => ?_⟩⟩
  · obtain ⟨status, time, -, -, rfl⟩ := Record.exists_of_ofRow hr
    rw [← hamount, ← hrow]
    rfl
  · exact Record.exists_ofRow_iff hjson kind now

/-- Zero keeps its sign and its places, and a large amount the zeros at its end. -/
theorem read_back_of_zero_and_large :
    let zero : Decimal := ⟨true, 0, -12⟩
    let large : Decimal := ⟨false, 12300, 96⟩
    let row : Fields := [("amount", .text " 1.2300E+100\n")]
    (zero.InRange ∧ Shows zero (.text "-0E-12") ∧ ofValue (.text "-0E-12") = zero) ∧
    large.InRange ∧ Shows large (.text " 1.2300E+100\n") ∧ row.AreJson ∧
      ∃ r, Record.ofRow .deposit ⟨0, some 0, by decide⟩ row = .ok r ∧ r.amount = large := by
  intro zero large row
  have hzero : zero.InRange := by decide +kernel
  have hlarge : large.InRange := by decide +kernel
  have hblank : ∀ c ∈ [' '], isBlank c = true := List.all_eq_true.mp rfl
  have hnewline : ∀ c ∈ ['\n'], isBlank c = true := List.all_eq_true.mp rfl
  have hshows : Shows zero (.text (String.ofList ([] ++ zero.chars ++ []))) :=
    .text (List.forall_mem_nil _) (List.forall_mem_nil _)
  have hsurrounded : Shows large (.text (String.ofList ([' '] ++ large.chars ++ ['\n']))) :=
    .text hblank hnewline
  have htext : String.ofList ([] ++ zero.chars ++ []) = "-0E-12" := by decide +kernel
  have hlines : String.ofList ([' '] ++ large.chars ++ ['\n']) = " 1.2300E+100\n" := by
    decide +kernel
  rw [htext] at hshows
  rw [hlines] at hsurrounded
  have hjson : row.AreJson := by
    intro f hf
    obtain rfl := List.mem_singleton.mp hf
    exact .text _
  have hback := (read_back_as_written.2 zero hzero (by decide +kernel) _ hshows).1
  obtain ⟨hamount, hrow⟩ := (read_back_as_written.2 large hlarge (by decide +kernel) _ hsurrounded).2
    .deposit ⟨0, some 0, by decide⟩ row rfl
  obtain ⟨r, hr⟩ := (hrow hjson).mpr fun _ hexceeds => by cases hexceeds.1
  exact ⟨⟨hzero, hshows, hback⟩, hlarge, hsurrounded, hjson, r, hr, hamount r hr⟩

end GatewayLedger.Amount
