/-!
# UTF-8

The bytes of a text, and the text of any bytes. `decodeUtf8` never fails: each maximal run of bytes
that starts a well-formed character and then breaks off becomes one replacement character, and so
does each byte that starts none.
-/

namespace GatewayLedger.Text

def replacement : Char := Char.ofNat 0xFFFD

def encodeUtf8 (text : String) : List UInt8 := text.toList.flatMap String.utf8EncodeChar

/-- What a leading byte announces: how many continuation bytes follow, the bits that it carries,
and the range in which the first continuation byte has to lie. -/
structure Lead where
  more : Nat
  bits : Nat
  low : Nat
  high : Nat
deriving DecidableEq

def Lead.ofByte? (b : Nat) : Option Lead :=
  if 0xC2 ≤ b && b ≤ 0xDF then some ⟨1, b - 0xC0, 0x80, 0xBF⟩
  else if b == 0xE0 then some ⟨2, 0, 0xA0, 0xBF⟩
  else if b == 0xED then some ⟨2, 13, 0x80, 0x9F⟩
  else if 0xE1 ≤ b && b ≤ 0xEF then some ⟨2, b - 0xE0, 0x80, 0xBF⟩
  else if b == 0xF0 then some ⟨3, 0, 0x90, 0xBF⟩
  else if 0xF1 ≤ b && b ≤ 0xF3 then some ⟨3, b - 0xF0, 0x80, 0xBF⟩
  else if b == 0xF4 then some ⟨3, 4, 0x80, 0x8F⟩
  else none

/-- Reads `more` continuation bytes; the character is lost as soon as one is missing. -/
def readTail : Nat → Nat → Nat → Nat → List UInt8 → Char × List UInt8
  | 0, bits, _, _, bs => (Char.ofNat bits, bs)
  | _ + 1, _, _, _, [] => (replacement, [])
  | more + 1, bits, low, high, b :: bs =>
    if low ≤ b.toNat && b.toNat ≤ high then
      readTail more (bits * 64 + (b.toNat - 0x80)) 0x80 0xBF bs
    else (replacement, b :: bs)

theorem length_readTail_le (more bits low high : Nat) (bs : List UInt8) :
    (readTail more bits low high bs).2.length ≤ bs.length := by
  induction more generalizing bits low high bs with
  | zero => simp [readTail]
  | succ more ih =>
    cases bs with
    | nil => simp [readTail]
    | cons b bs =>
      unfold readTail
      split
      · exact Nat.le_succ_of_le (ih _ _ _ _)
      · simp

def decodeUtf8Chars : List UInt8 → List Char
  | [] => []
  | b :: bs =>
    if b.toNat < 0x80 then Char.ofNat b.toNat :: decodeUtf8Chars bs
    else
      match Lead.ofByte? b.toNat with
      | none => replacement :: decodeUtf8Chars bs
      | some l =>
        let step := readTail l.more l.bits l.low l.high bs
        step.1 :: decodeUtf8Chars step.2
termination_by bs => bs.length
decreasing_by
  all_goals simp_wf
  have := length_readTail_le l.more l.bits l.low l.high bs
  omega

def decodeUtf8 (bs : List UInt8) : String := String.ofList (decodeUtf8Chars bs)

end GatewayLedger.Text
