import GatewayLedger.Ledger.Period
import GatewayLedger.Proofs.Time.Calendar
import GatewayLedger.Proofs.Time.Field
import GatewayLedger.Proofs.Time.Moment
import Mathlib.Data.List.Basic

/-!
# Periods in order of time

The periods of one granularity follow each other: each has an index that goes up with the day
number, and two moments with one index have one period and one key. So the moments of a period lie
side by side, whatever its key looks like as a text.
-/

namespace GatewayLedger

namespace Iso

variable {width m n : Nat} {rest others : String}

/-- A number ends at the dash behind it. -/
theorem padded_dash_inj : padded width m ++ ("-" ++ rest) = padded width n ++ ("-" ++ others) ↔
    m = n ∧ rest = others := by
  constructor
  · intro h
    have hdash : ∀ k, ∀ c ∈ (padded width k).toList, (c != '-') = true := by
      intro k c hc
      rw [bne_iff_ne]
      rintro rfl
      exact absurd (isDigit_of_mem_padded hc) (by decide)
    have htext := congrArg String.toList h
    simp only [String.toList_append] at htext
    have hbefore : ∀ k (cs : List Char), ((padded width k).toList ++ ("-".toList ++ cs)).takeWhile
        (· != '-') = (padded width k).toList := by
      intro k cs
      rw [List.takeWhile_append_of_pos (hdash k)]
      exact List.append_nil _
    have hsame := hbefore m rest.toList
    rw [htext, hbefore] at hsame
    have hnumber := padded_inj.mp (String.toList_inj.mp hsame)
    rw [hnumber] at htext
    have hrest := List.append_cancel_left (List.append_cancel_left htext)
    exact ⟨hnumber.symm, String.toList_inj.mp hrest⟩
  · rintro ⟨rfl, rfl⟩
    rfl

end Iso

namespace Granularity

variable {g : Granularity} {a b : Moment}

/-- The place of the period of a moment among all periods of its granularity. -/
def index (g : Granularity) (m : Moment) : Nat :=
  match g with
  | day => m.dayNumber
  | week => Date.weekIndex m.dayNumber
  | month => m.date.monthIndex

theorem index_mono (g : Granularity) (h : a.reading ≤ b.reading) : g.index a ≤ g.index b := by
  have hday := Moment.dayNumber_mono h
  cases g with
  | day => exact hday
  | week => exact Date.weekIndex_mono hday
  | month => exact Date.monthIndex_mono a.one_le_dayNumber hday

theorem index_le_of_instant_le (g : Granularity) (ha : a.IsUtc) (hb : b.IsUtc)
    (h : a.instant ≤ b.instant) : g.index a ≤ g.index b := by
  rw [Moment.instant_of_isUtc ha, Moment.instant_of_isUtc hb] at h
  exact g.index_mono (by omega)

theorem index_of_day_eq (g : Granularity) (h : day.index a = day.index b) :
    g.index a = g.index b := by
  have hday : a.dayNumber = b.dayNumber := h
  cases g with
  | day => exact hday
  | week => exact congrArg Date.weekIndex hday
  | month => exact congrArg (fun n => (Date.ofDayNumber n).monthIndex) hday

theorem of_eq_iff : Period.of g a = Period.of g b ↔ g.index a = g.index b := by
  cases g with
  | day =>
    rw [Period.of, Period.of, Period.day.injEq]
    exact Date.ofDayNumber_inj a.one_le_dayNumber b.one_le_dayNumber
  | week =>
    rw [Period.of, Period.of, Period.week.injEq, ← Prod.ext_iff]
    exact Date.isoWeek_inj a.one_le_dayNumber b.one_le_dayNumber
  | month =>
    rw [Period.of, Period.of, Period.month.injEq]
    exact (Date.monthIndex_inj a.one_le_dayNumber b.one_le_dayNumber).symm

/-- The key of a period tells it from all others of its granularity. -/
theorem key_eq_iff :
    (Period.of g a).key = (Period.of g b).key ↔ Period.of g a = Period.of g b := by
  cases g with
  | day =>
    have hdate : ∀ d e : Date, d = e ↔ d.year = e.year ∧ d.month = e.month ∧ d.day = e.day := by
      rintro ⟨_, _, _⟩ ⟨_, _, _⟩
      rw [Date.mk.injEq]
    simp only [Period.of, Period.key, Period.day.injEq, String.append_assoc, Iso.padded_dash_inj,
      Iso.padded_inj, hdate]
  | week =>
    have hmark : ∀ text : String, "-W" ++ text = "-" ++ ("W" ++ text) := by
      intro text
      rw [← String.append_assoc]
      rfl
    simp only [Period.of, Period.key, Period.week.injEq, String.append_assoc, hmark,
      Iso.padded_dash_inj, String.append_right_inj, Iso.padded_inj]
  | month =>
    simp only [Period.of, Period.key, Period.month.injEq, String.append_assoc, Iso.padded_dash_inj,
      Iso.padded_inj]

end Granularity

end GatewayLedger
