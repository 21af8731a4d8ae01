import GatewayLedger.Proofs.Text.Digit
import GatewayLedger.Proofs.Text.Percent
import GatewayLedger.Time.Iso
import Mathlib.Algebra.Group.Nat.Defs

/-!
# Fields of digits

A number with zeros before it tells the number. Where it has a field of so many digits for itself, it
is read back from the bytes of the text, whatever follows the field.
-/

namespace GatewayLedger.Iso

variable {width k m n : Nat}

/-! ## Numbers with zeros before them -/

theorem isDigit_of_mem_padded {c : Char} (h : c ∈ (padded width n).toList) : c.isDigit = true := by
  rw [padded, String.toList_ofList, List.mem_append] at h
  rcases h with h | h
  · rw [List.eq_of_mem_replicate h]
    decide
  · exact Nat.isDigit_of_mem_toDigits (by decide) (by decide) h

theorem ofDigitChars_padded (width n : Nat) :
    Nat.ofDigitChars 10 (padded width n).toList 0 = n := by
  rw [padded, String.toList_ofList, Nat.ofDigitChars_append, Nat.ofDigitChars_replicate_zero,
    Nat.mul_zero]
  exact Nat.ofDigitChars_toDigits (by decide) (by decide)

theorem padded_inj : padded width m = padded width n ↔ m = n := by
  constructor
  · intro h
    rw [← ofDigitChars_padded width m, h, ofDigitChars_padded]
  · exact congrArg (padded width)

theorem le_length_padded (width n : Nat) : width ≤ (padded width n).length := by
  rw [padded, ← String.length_toList, String.toList_ofList, List.length_append,
    List.length_replicate]
  omega

/-! ## Bytes -/

/-- The bytes of a number in a field of so many digits. -/
def field (k n : Nat) : Bytes := Text.encodeUtf8 (padded k n)

theorem field_eq_map (k n : Nat) :
    field k n = (padded k n).toList.map fun c => UInt8.ofNat c.toNat := by
  have hbyte : ∀ c ∈ (padded k n).toList, String.utf8EncodeChar c = [UInt8.ofNat c.toNat] := by
    intro c hc
    have hrange := Text.toNat_of_isDigit (isDigit_of_mem_padded hc)
    rw [← Text.Percent.utf8EncodeChar_of_lt (by omega), Char.ofNat_toNat]
  rw [field, Text.encodeUtf8, List.map_eq_flatMap]
  exact List.flatMap_congr hbyte

theorem isDigit_of_mem_field {b : UInt8} (h : b ∈ field k n) : isDigit b = true := by
  rw [field_eq_map] at h
  obtain ⟨c, hc, rfl⟩ := List.mem_map.mp h
  have hrange := Text.toNat_of_isDigit (isDigit_of_mem_padded hc)
  have hbyte : (UInt8.ofNat c.toNat).toNat = c.toNat := Text.toNat_byte (by omega)
  rw [isDigit, hbyte, Bool.and_eq_true, decide_eq_true_eq, decide_eq_true_eq]
  omega

theorem length_field (hk : 0 < k) (h : n < 10 ^ k) : (field k n).length = k := by
  have hle : (Decimal.digitChars n).length ≤ k :=
    (Nat.length_toDigits_le_iff (by decide) hk).mpr h
  rw [field_eq_map, List.length_map, padded, String.toList_ofList, List.length_append,
    List.length_replicate]
  omega

theorem numberOf_field (k n : Nat) : numberOf (field k n) = n := by
  have hdigits := ofDigitChars_padded k n
  have hchars : ∀ cs : List Char, (∀ c ∈ cs, c.isDigit = true) → ∀ start,
      (cs.map fun c => UInt8.ofNat c.toNat).foldl (fun n b => 10 * n + (b.toNat - 48)) start =
        Nat.ofDigitChars 10 cs start := by
    intro cs hcs start
    induction cs generalizing start with
    | nil => rfl
    | cons c cs ih =>
      have hrange := Text.toNat_of_isDigit (hcs c List.mem_cons_self)
      have hbyte : (UInt8.ofNat c.toNat).toNat = c.toNat := Text.toNat_byte (by omega)
      rw [List.map_cons, List.foldl_cons, hbyte]
      exact ih (fun d hd => hcs d (List.mem_cons_of_mem c hd)) _
  rw [field_eq_map, numberOf, hchars _ (fun c hc => isDigit_of_mem_padded hc), hdigits]

theorem readNumber?_field (hk : 0 < k) (h : n < 10 ^ k) (rest : Bytes) :
    readNumber? k (field k n ++ rest) = some (n, rest) := by
  have hlength := length_field hk h
  have hall : (field k n).all isDigit = true :=
    List.all_eq_true.mpr fun b hb => isDigit_of_mem_field hb
  simp only [readNumber?, List.take_left' hlength, List.drop_left' hlength, hlength, hall,
    numberOf_field, BEq.rfl, Bool.and_self, if_true]

theorem field_ne_nil (hk : 0 < k) (h : n < 10 ^ k) : field k n ≠ [] := by
  have hlength := length_field hk h
  exact List.ne_nil_of_length_pos (by omega)

end GatewayLedger.Iso
