import GatewayLedger.Proofs.Text.Utf8
import GatewayLedger.Text.Percent

/-!
# Reading back percent-encoded text

Decoding undoes the encoding of any text, and what is encoded consists of unreserved characters and
percent signs, so that it holds no mark by which the parts of a query are told apart.
-/

namespace GatewayLedger.Text.Percent

open Hexadecimal

/-- The characters of an encoded text. -/
def IsEncoded (c : Char) : Prop := isUnreserved c = true ∨ c = '%'

theorem toNat_lt_of_isUnreserved {c : Char} (h : isUnreserved c = true) : c.toNat < 128 := by
  delta isUnreserved Char.isAlphanum Char.isAlpha Char.isUpper Char.isLower Char.isDigit at h
  simp only [Bool.or_eq_true, Bool.and_eq_true, decide_eq_true_eq, beq_iff_eq, ge_iff_le,
    UInt32.le_iff_toNat_le] at h
  change ((((((65 ≤ c.toNat ∧ c.toNat ≤ 90) ∨ (97 ≤ c.toNat ∧ c.toNat ≤ 122)) ∨
    (48 ≤ c.toNat ∧ c.toNat ≤ 57)) ∨ c = '_') ∨ c = '.') ∨ c = '-') ∨ c = '~' at h
  rcases h with (((h | rfl) | rfl) | rfl) | rfl
  · omega
  all_goals decide

theorem isEncoded_of_mem_encodeByte {b : UInt8} {c : Char} (h : c ∈ encodeByte b) :
    IsEncoded c := by
  have hdigit : ∀ k : Fin 16, isUnreserved (upperDigit k) = true := by decide
  have hb : b.toNat < 256 := b.toNat_lt
  unfold encodeByte at h
  dsimp only at h
  split at h
  · next hu =>
    obtain rfl : c = Char.ofNat b.toNat := List.mem_singleton.mp h
    exact .inl hu
  · simp only [List.mem_cons, List.not_mem_nil, or_false] at h
    rcases h with rfl | rfl | rfl
    · exact .inr rfl
    · exact .inl (hdigit ⟨b.toNat / 16, by omega⟩)
    · exact .inl (hdigit ⟨b.toNat % 16, by omega⟩)

theorem isEncoded_of_mem_encode {text : String} {c : Char} (h : c ∈ (encode text).toList) :
    IsEncoded c := by
  rw [encode, String.toList_ofList, encodeBytes, List.mem_flatMap] at h
  obtain ⟨b, _, hc⟩ := h
  exact isEncoded_of_mem_encodeByte hc

/-! ## Decoding -/

theorem decodeBytes_of_ne {c : Char} (h : c ≠ '%') (rest : List Char) :
    decodeBytes (c :: rest) = String.utf8EncodeChar c ++ decodeBytes rest := by
  rw [decodeBytes.eq_2]
  intro high low rest' hc
  exact absurd hc h

theorem utf8EncodeChar_of_lt {n : Nat} (h : n < 128) :
    String.utf8EncodeChar (Char.ofNat n) = [UInt8.ofNat n] := by
  have hval : (Char.ofNat n).val.toNat = n := toNat_ofNat_of_lt (by omega)
  have hle : n ≤ 127 := by omega
  simp only [String.utf8EncodeChar, hval, if_pos hle]

theorem escaped?_upperDigit (b : UInt8) :
    escaped? (upperDigit (b.toNat / 16)) (upperDigit (b.toNat % 16)) = some b := by
  have hb : b.toNat < 256 := b.toNat_lt
  have hsum : 16 * (b.toNat / 16) + b.toNat % 16 = b.toNat := by omega
  rw [escaped?, value?_upperDigit (by omega), value?_upperDigit (by omega)]
  change some (UInt8.ofNat (16 * (b.toNat / 16) + b.toNat % 16)) = some b
  rw [hsum, UInt8.ofNat_toNat]

theorem decodeBytes_encodeByte (b : UInt8) (rest : List Char) :
    decodeBytes (encodeByte b ++ rest) = b :: decodeBytes rest := by
  unfold encodeByte
  dsimp only
  split
  · next hu =>
    have hlt : b.toNat < 128 := by
      have hchar := toNat_lt_of_isUnreserved hu
      have hb : b.toNat < 256 := b.toNat_lt
      rwa [toNat_ofNat_of_lt (by omega)] at hchar
    have hne : Char.ofNat b.toNat ≠ '%' := by
      intro he
      rw [he] at hu
      exact absurd hu (by decide)
    rw [List.singleton_append, decodeBytes_of_ne hne, utf8EncodeChar_of_lt hlt, UInt8.ofNat_toNat]
    rfl
  · rw [List.cons_append, List.cons_append, List.cons_append, List.nil_append, decodeBytes,
      escaped?_upperDigit]

theorem decodeBytes_encodeBytes (bs : List UInt8) : decodeBytes (encodeBytes bs) = bs := by
  induction bs with
  | nil => rfl
  | cons b bs ih => rw [encodeBytes_cons, decodeBytes_encodeByte, ih]

theorem decode_encode (text : String) : decode (encode text) = text := by
  rw [decode, encode, String.toList_ofList, decodeBytes_encodeBytes, decodeUtf8_encodeUtf8]

/-! ## Texts that need no encoding -/

theorem encodeBytes_utf8EncodeChar {c : Char} (h : isUnreserved c = true) :
    encodeBytes (String.utf8EncodeChar c) = [c] := by
  have hlt := toNat_lt_of_isUnreserved h
  have hbyte : (UInt8.ofNat c.toNat).toNat = c.toNat := toNat_byte (by omega)
  have hbytes : String.utf8EncodeChar c = [UInt8.ofNat c.toNat] := by
    rw [← utf8EncodeChar_of_lt hlt, Char.ofNat_toNat]
  simp only [hbytes, encodeBytes, List.flatMap_singleton, encodeByte, hbyte, Char.ofNat_toNat,
    if_pos h]

theorem encodeBytes_flatMap {cs : List Char} (h : ∀ c ∈ cs, isUnreserved c = true) :
    encodeBytes (cs.flatMap String.utf8EncodeChar) = cs := by
  induction cs with
  | nil => rfl
  | cons c cs ih =>
    have hhead := encodeBytes_utf8EncodeChar (h c List.mem_cons_self)
    have hrest := ih fun d hd => h d (List.mem_cons_of_mem c hd)
    rw [encodeBytes] at hhead hrest ⊢
    rw [List.flatMap_cons, List.flatMap_append, hhead, hrest, List.singleton_append]

theorem encode_of_isUnreserved {text : String} (h : ∀ c ∈ text.toList, isUnreserved c = true) :
    encode text = text := by
  rw [encode, encodeUtf8, encodeBytes_flatMap h, String.ofList_toList]

end GatewayLedger.Text.Percent
