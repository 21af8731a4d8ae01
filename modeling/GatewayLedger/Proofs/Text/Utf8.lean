import GatewayLedger.Text.Utf8
import Mathlib.Data.List.Basic

/-!
# Reading back UTF-8

The bytes of a text decode to the text, whatever bytes follow. `Lead.ofByte?` is opened once for each
length of a character; the ranges of the first continuation byte are exactly those that leave out
what is no character.
-/

namespace GatewayLedger.Text

theorem toNat_lt_or (c : Char) :
    c.toNat < 0xD800 ∨ (0xDFFF < c.toNat ∧ c.toNat < 0x110000) := c.valid

theorem toNat_byte {n : Nat} (h : n < 256) : (UInt8.ofNat n).toNat = n := by
  rw [UInt8.toNat_ofNat']
  exact Nat.mod_eq_of_lt h

theorem toNat_ofNat_of_lt {n : Nat} (h : n < 0xD800) : (Char.ofNat n).toNat = n := by
  have hvalid : n.isValidChar := .inl h
  rw [Char.ofNat, dif_pos hvalid]
  rfl

theorem ofByte?_two {k : Nat} (hlow : 2 ≤ k) (hhigh : k < 32) :
    Lead.ofByte? (k + 192) = some ⟨1, k, 0x80, 0xBF⟩ := by
  have h : ∀ k : Fin 32, 2 ≤ k.val → Lead.ofByte? (k.val + 192) = some ⟨1, k, 0x80, 0xBF⟩ := by
    decide
  exact h ⟨k, hhigh⟩ hlow

theorem ofByte?_three {k : Nat} (hk : k < 16) :
    Lead.ofByte? (k + 224) =
      some ⟨2, k, if k = 0 then 0xA0 else 0x80, if k = 13 then 0x9F else 0xBF⟩ := by
  have h : ∀ k : Fin 16, Lead.ofByte? (k.val + 224) =
      some ⟨2, k, if k.val = 0 then 0xA0 else 0x80, if k.val = 13 then 0x9F else 0xBF⟩ := by
    decide
  exact h ⟨k, hk⟩

theorem ofByte?_four {k : Nat} (hk : k < 5) :
    Lead.ofByte? (k + 240) =
      some ⟨3, k, if k = 0 then 0x90 else 0x80, if k = 4 then 0x8F else 0xBF⟩ := by
  have h : ∀ k : Fin 5, Lead.ofByte? (k.val + 240) =
      some ⟨3, k, if k.val = 0 then 0x90 else 0x80, if k.val = 4 then 0x8F else 0xBF⟩ := by
    decide
  exact h ⟨k, hk⟩

theorem readTail_zero (bits low high : Nat) (bs : List UInt8) :
    readTail 0 bits low high bs = (Char.ofNat bits, bs) := rfl

/-- A continuation byte adds its six bits. -/
theorem readTail_succ {more bits low high n : Nat} {bs : List UInt8} (hn : n < 64)
    (hlow : low ≤ n + 128) (hhigh : n + 128 ≤ high) :
    readTail (more + 1) bits low high (UInt8.ofNat (n + 128) :: bs) =
      readTail more (bits * 64 + n) 0x80 0xBF bs := by
  have hbyte : (UInt8.ofNat (n + 128)).toNat = n + 128 := toNat_byte (by omega)
  have hin : (decide (low ≤ n + 128) && decide (n + 128 ≤ high)) = true := by simp [hlow, hhigh]
  have hbits : n + 128 - 0x80 = n := by omega
  rw [readTail, hbyte, if_pos hin, hbits]

theorem decodeUtf8Chars_of_lt {n : Nat} (h : n < 0x80) (bs : List UInt8) :
    decodeUtf8Chars (UInt8.ofNat n :: bs) = Char.ofNat n :: decodeUtf8Chars bs := by
  have hbyte : (UInt8.ofNat n).toNat = n := toNat_byte (by omega)
  rw [decodeUtf8Chars, hbyte, if_pos h]

theorem decodeUtf8Chars_of_lead {n : Nat} {l : Lead} {c : Char} {bs rest : List UInt8}
    (hlow : 0x80 ≤ n) (hhigh : n < 256) (hl : Lead.ofByte? n = some l)
    (htail : readTail l.more l.bits l.low l.high bs = (c, rest)) :
    decodeUtf8Chars (UInt8.ofNat n :: bs) = c :: decodeUtf8Chars rest := by
  have hbyte : (UInt8.ofNat n).toNat = n := toNat_byte hhigh
  rw [decodeUtf8Chars, hbyte, if_neg (by omega), hl]
  simp only [htail]

theorem decodeUtf8Chars_two {v : Nat} (hlow : 127 < v) (hhigh : v ≤ 2047) (rest : List UInt8) :
    decodeUtf8Chars (UInt8.ofNat (v / 64 % 32 + 192) :: UInt8.ofNat (v % 64 + 128) :: rest) =
      Char.ofNat v :: decodeUtf8Chars rest := by
  have hbits : v / 64 % 32 * 64 + v % 64 = v := by omega
  have htail : readTail 1 (v / 64 % 32) 0x80 0xBF (UInt8.ofNat (v % 64 + 128) :: rest) =
      (Char.ofNat v, rest) := by
    rw [readTail_succ (by omega) (by omega) (by omega), readTail_zero, hbits]
  exact decodeUtf8Chars_of_lead (by omega) (by omega) (ofByte?_two (by omega) (by omega)) htail

/-- The first continuation byte leaves out shorter forms and surrogates. -/
theorem decodeUtf8Chars_three {v : Nat} (hlow : 2047 < v) (hhigh : v ≤ 65535)
    (hvalid : v < 0xD800 ∨ 0xDFFF < v) (rest : List UInt8) :
    decodeUtf8Chars (UInt8.ofNat (v / 4096 % 16 + 224) :: UInt8.ofNat (v / 64 % 64 + 128) ::
      UInt8.ofNat (v % 64 + 128) :: rest) = Char.ofNat v :: decodeUtf8Chars rest := by
  have hbits : (v / 4096 % 16 * 64 + v / 64 % 64) * 64 + v % 64 = v := by omega
  have hfirst : (if v / 4096 % 16 = 0 then 0xA0 else 0x80) ≤ v / 64 % 64 + 128 := by
    split <;> omega
  have hlast : v / 64 % 64 + 128 ≤ if v / 4096 % 16 = 13 then 0x9F else 0xBF := by
    split <;> omega
  have htail : readTail 2 (v / 4096 % 16) (if v / 4096 % 16 = 0 then 0xA0 else 0x80)
      (if v / 4096 % 16 = 13 then 0x9F else 0xBF)
      (UInt8.ofNat (v / 64 % 64 + 128) :: UInt8.ofNat (v % 64 + 128) :: rest) =
        (Char.ofNat v, rest) := by
    rw [readTail_succ (by omega) hfirst hlast, readTail_succ (by omega) (by omega) (by omega),
      readTail_zero, hbits]
  exact decodeUtf8Chars_of_lead (by omega) (by omega) (ofByte?_three (by omega)) htail

theorem decodeUtf8Chars_four {v : Nat} (hlow : 65535 < v) (hhigh : v < 0x110000)
    (rest : List UInt8) :
    decodeUtf8Chars (UInt8.ofNat (v / 262144 % 8 + 240) :: UInt8.ofNat (v / 4096 % 64 + 128) ::
      UInt8.ofNat (v / 64 % 64 + 128) :: UInt8.ofNat (v % 64 + 128) :: rest) =
        Char.ofNat v :: decodeUtf8Chars rest := by
  have hbits : ((v / 262144 % 8 * 64 + v / 4096 % 64) * 64 + v / 64 % 64) * 64 + v % 64 = v := by
    omega
  have hfirst : (if v / 262144 % 8 = 0 then 0x90 else 0x80) ≤ v / 4096 % 64 + 128 := by
    split <;> omega
  have hlast : v / 4096 % 64 + 128 ≤ if v / 262144 % 8 = 4 then 0x8F else 0xBF := by
    split <;> omega
  have htail : readTail 3 (v / 262144 % 8) (if v / 262144 % 8 = 0 then 0x90 else 0x80)
      (if v / 262144 % 8 = 4 then 0x8F else 0xBF)
      (UInt8.ofNat (v / 4096 % 64 + 128) :: UInt8.ofNat (v / 64 % 64 + 128) ::
        UInt8.ofNat (v % 64 + 128) :: rest) = (Char.ofNat v, rest) := by
    rw [readTail_succ (by omega) hfirst hlast, readTail_succ (by omega) (by omega) (by omega),
      readTail_succ (by omega) (by omega) (by omega), readTail_zero, hbits]
  exact decodeUtf8Chars_of_lead (by omega) (by omega) (ofByte?_four (by omega)) htail

/-- Decoding takes exactly the bytes of a character. -/
theorem decodeUtf8Chars_utf8EncodeChar (c : Char) (rest : List UInt8) :
    decodeUtf8Chars (String.utf8EncodeChar c ++ rest) = c :: decodeUtf8Chars rest := by
  have hvalid := toNat_lt_or c
  have hc : Char.ofNat c.toNat = c := Char.ofNat_toNat c
  have hval : c.val.toNat = c.toNat := rfl
  unfold String.utf8EncodeChar
  rw [hval]
  conv_rhs => rw [← hc]
  generalize c.toNat = v at hvalid
  dsimp only
  by_cases hone : v ≤ 127
  · rw [if_pos hone]
    exact decodeUtf8Chars_of_lt (by omega) rest
  rw [if_neg hone]
  by_cases htwo : v ≤ 2047
  · rw [if_pos htwo]
    exact decodeUtf8Chars_two (by omega) htwo rest
  rw [if_neg htwo]
  by_cases hthree : v ≤ 65535
  · rw [if_pos hthree]
    exact decodeUtf8Chars_three (by omega) hthree (by omega) rest
  · rw [if_neg hthree]
    exact decodeUtf8Chars_four (by omega) (by omega) rest

theorem decodeUtf8Chars_flatMap (cs : List Char) :
    decodeUtf8Chars (cs.flatMap String.utf8EncodeChar) = cs := by
  induction cs with
  | nil => simp [decodeUtf8Chars]
  | cons c cs ih => rw [List.flatMap_cons, decodeUtf8Chars_utf8EncodeChar, ih]

theorem decodeUtf8_encodeUtf8 (text : String) : decodeUtf8 (encodeUtf8 text) = text := by
  rw [decodeUtf8, encodeUtf8, decodeUtf8Chars_flatMap, String.ofList_toList]

theorem encodeUtf8_inj {text other : String} : encodeUtf8 text = encodeUtf8 other ↔ text = other := by
  constructor
  · intro h
    rw [← decodeUtf8_encodeUtf8 text, h, decodeUtf8_encodeUtf8]
  · exact congrArg encodeUtf8

theorem encodeUtf8_append (a b : String) :
    encodeUtf8 (a ++ b) = encodeUtf8 a ++ encodeUtf8 b := by
  rw [encodeUtf8, String.toList_append, List.flatMap_append]
  rfl

end GatewayLedger.Text
