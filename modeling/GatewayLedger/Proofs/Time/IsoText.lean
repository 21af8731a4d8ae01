import GatewayLedger.Proofs.Time.Calendar
import GatewayLedger.Proofs.Time.Clock
import GatewayLedger.Proofs.Time.Moment

/-!
# Reading back ISO text

A moment is read back from its text, with all its digits and with its offset, unless the offset is a
fraction of a second.
-/

namespace GatewayLedger

/-! ## Dates -/

namespace Date

open Calendar

variable {d : Date}

/-- What the text of a date takes for granted. -/
theorem bounds_of_isValid (h : d.isValid = true) :
    1 ≤ d.year ∧ d.year ≤ 9999 ∧ 1 ≤ d.month ∧ d.month ≤ 12 ∧ 1 ≤ d.day ∧ d.day ≤ 31 := by
  have hmonth : daysInMonth d.year d.month ≤ 31 := by
    unfold daysInMonth
    split
    · split <;> omega
    all_goals omega
  have hyears : maxYear = 9999 := rfl
  simp only [isValid, Bool.and_eq_true, decide_eq_true_eq] at h
  omega

end Date

namespace Iso

variable {k n : Nat} {d : Date}

/-- The letter between date and time. -/
def timeMark : UInt8 := 84

def dateBytes (d : Date) : Bytes :=
  field 4 d.year ++ dash :: (field 2 d.month ++ dash :: field 2 d.day)

theorem head?_field_ne (hk : 0 < k) (h : n < 10 ^ k) (rest : Bytes) :
    ((field k n ++ rest).head? == some weekMark) = false := by
  obtain ⟨b, others, hfield⟩ := List.exists_cons_of_ne_nil (field_ne_nil hk h)
  have hdigit : isDigit b = true := isDigit_of_mem_field (hfield ▸ List.mem_cons_self)
  rw [hfield, List.cons_append, List.head?_cons, beq_eq_false_iff_ne]
  intro hmark
  rw [Option.some.inj hmark] at hdigit
  exact absurd hdigit (by decide)

theorem length_dateBytes (h : d.isValid = true) : (dateBytes d).length = 10 := by
  obtain ⟨_, hyear, _, hmonth, _, hday⟩ := Date.bounds_of_isValid h
  simp only [dateBytes, List.length_append, List.length_cons]
  rw [length_field (by decide) (by omega), length_field (by decide) (by omega),
    length_field (by decide) (by omega)]

theorem dateLength?_dateBytes (h : d.isValid = true) (rest : Bytes) :
    dateLength? (dateBytes d ++ rest) = some 10 := by
  obtain ⟨_, hyear, _, hmonth, _, _⟩ := Date.bounds_of_isValid h
  have hlength : ((dateBytes d ++ rest).length == 7) = false := by
    rw [beq_eq_false_iff_ne, List.length_append, length_dateBytes h]
    omega
  have hfour : (field 4 d.year).length = 4 := length_field (by decide) (by omega)
  have hbehind : ∀ i, (dateBytes d ++ rest)[4 + i]? =
      (dash :: (field 2 d.month ++ (dash :: field 2 d.day ++ rest)))[i]? := by
    intro i
    rw [dateBytes, List.append_assoc, List.getElem?_append_right (by omega), hfour,
      Nat.add_sub_cancel_left, List.cons_append, List.append_assoc]
  -- a dash and no letter of a week behind it: a calendar date in the extended form
  have hdash : (dateBytes d ++ rest)[4]? = some dash := hbehind 0
  have hdigit : ((dateBytes d ++ rest)[5]? == some weekMark) = false := by
    rw [hbehind 1, List.getElem?_cons_succ, ← List.head?_eq_getElem?]
    exact head?_field_ne (by decide) (by omega) _
  rw [dateLength?, hlength, hdash, hdigit]
  rfl

theorem readDate?_dateBytes (h : d.isValid = true) (rest : Bytes) :
    readDate? (dateBytes d ++ rest) 10 = some d := by
  obtain ⟨_, hyear, _, hmonth, _, hday⟩ := Date.bounds_of_isValid h
  have hyear' : ∀ rest, readNumber? 4 (field 4 d.year ++ rest) = some (d.year, rest) :=
    readNumber?_field (by decide) (by omega)
  have hmonth' : ∀ rest, readNumber? 2 (field 2 d.month ++ rest) = some (d.month, rest) :=
    readNumber?_field (by decide) (by omega)
  have hday' : ∀ rest, readNumber? 2 (field 2 d.day ++ rest) = some (d.day, rest) :=
    readNumber?_field (by decide) (by omega)
  have hweek : ∀ rest, ((field 2 d.month ++ rest).head? == some weekMark) = false :=
    head?_field_ne (by decide) (by omega)
  simp only [readDate?, dateBytes, List.append_assoc, List.cons_append, hyear', hmonth', hday',
    hweek, List.head?_cons, List.tail_cons, readDash?, BEq.rfl, if_true, Bool.false_eq_true, if_false,
    Option.bind_eq_bind, Option.bind_some, h]

end Iso

/-! ## Moments -/

namespace Moment

open Iso

variable {m : Moment}

/-- The time of day of a moment, as its text has it. -/
def clock (m : Moment) : Clock := ⟨m.hour, m.minute, m.second, m.micro⟩

theorem clock_eq (m : Moment) : m.clock = Clock.ofTotal (m.reading % microsPerDay) := by
  have hmicro : m.reading % microsPerDay % microsPerSecond = m.micro :=
    Nat.mod_mod_of_dvd _ ⟨86400, by decide⟩
  rw [Clock.ofTotal, hmicro]
  rfl

theorem isValid_date (m : Moment) : m.date.isValid = true := by
  have hday : m.reading / microsPerDay < Calendar.dayCount :=
    (Nat.div_lt_iff_lt_mul (by decide)).mpr m.inSpan
  exact Date.isValid_ofDayNumber m.one_le_dayNumber hday

theorem ofParts?_date (m : Moment) : ofParts? m.date m.clock.total m.offset = some m := by
  have hday : m.reading % microsPerDay < microsPerDay := Nat.mod_lt _ (by decide)
  have hnumber : m.date.dayNumber - 1 = m.reading / microsPerDay := by
    rw [date, Date.dayNumber_ofDayNumber m.one_le_dayNumber]
    rfl
  rw [clock_eq, Clock.total_ofTotal, ofParts?, m.isValid_date, hnumber, Nat.div_add_mod',
    ofReading?_reading]
  simp [hday]

theorem encodeUtf8_isoText (m : Moment) : Text.encodeUtf8 m.isoText =
    dateBytes m.date ++
      timeMark :: (m.clock.bytes ++ Text.encodeUtf8 ((m.offset.map offsetText).getD "")) := by
  have hdash : Text.encodeUtf8 "-" = [dash] := rfl
  have hcolon : Text.encodeUtf8 ":" = [colon] := rfl
  have hseparator : Text.encodeUtf8 "T" = [timeMark] := rfl
  simp only [isoText, isoTextWith, Text.encodeUtf8_append, hdash, hcolon, hseparator, dateBytes,
    Clock.bytes, clock, encodeUtf8_fraction, field]
  simp only [List.append_assoc, List.cons_append, List.nil_append]

theorem seven_le_length_isoText (m : Moment) : 7 ≤ m.isoText.length := by
  have hyear := le_length_padded 4 m.date.year
  have hmonth := le_length_padded 2 m.date.month
  have hdash : "-".length = 1 := rfl
  simp only [isoText, isoTextWith, String.length_append, hdash]
  omega

/-- The text of a moment tells the moment. -/
theorem readIso?_isoText (h : ∀ offset, m.offset = some offset → IsKept offset) :
    readIso? m.isoText = some m := by
  have hclock : m.clock.IsNormal := by
    rw [clock_eq]
    exact Clock.isNormal_ofTotal (Nat.mod_lt _ (by decide))
  have hvalid := m.isValid_date
  have hlength := length_dateBytes hvalid
  have hshort : ¬ m.isoText.length < 7 := Nat.not_lt.mpr m.seven_le_length_isoText
  have hdrop : ∀ rest : Bytes, dropCharacter (timeMark :: rest) = rest := fun _ => rfl
  have hlong : ∀ rest : Bytes, ¬ (dateBytes m.date ++ timeMark :: rest).length ≤ 10 := by
    intro rest
    rw [List.length_append, hlength, List.length_cons]
    omega
  simp only [readIso?, hshort, if_false, encodeUtf8_isoText, dateLength?_dateBytes hvalid,
    Option.bind_eq_bind, Option.bind_some, readDate?_dateBytes hvalid, hlong,
    List.drop_left' hlength, hdrop, readTime?_bytes hclock h, ofParts?_date]

end Moment

end GatewayLedger
