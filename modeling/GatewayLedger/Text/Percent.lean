import GatewayLedger.Text.Hexadecimal
import GatewayLedger.Text.Utf8

/-!
# Percent encoding

A text is written byte by byte. Letters, digits and the four marks `_.-~` stand for themselves, and
every other byte becomes a percent sign with two hexadecimal digits in upper case. `decode` reads
such a text back.
-/

namespace GatewayLedger.Text.Percent

open Hexadecimal

def isUnreserved (c : Char) : Bool :=
  c.isAlphanum || c == '_' || c == '.' || c == '-' || c == '~'

def encodeByte (b : UInt8) : List Char :=
  let c := Char.ofNat b.toNat
  if isUnreserved c then [c] else ['%', upperDigit (b.toNat / 16), upperDigit (b.toNat % 16)]

def encodeBytes (bs : List UInt8) : List Char := bs.flatMap encodeByte

def encode (text : String) : String := String.ofList (encodeBytes (encodeUtf8 text))

/-- The byte that a percent sign and two hexadecimal digits stand for. -/
def escaped? (high low : Char) : Option UInt8 := do
  some (UInt8.ofNat (16 * (← value? high) + (← value? low)))

/-- A percent sign without two digits stands for itself. -/
def decodeBytes : List Char → List UInt8
  | '%' :: high :: low :: rest =>
    match escaped? high low with
    | some b => b :: decodeBytes rest
    | none => 37 :: decodeBytes (high :: low :: rest)
  | c :: rest => String.utf8EncodeChar c ++ decodeBytes rest
  | [] => []

def decode (text : String) : String := decodeUtf8 (decodeBytes text.toList)

theorem encodeBytes_cons (b : UInt8) (bs : List UInt8) :
    encodeBytes (b :: bs) = encodeByte b ++ encodeBytes bs := rfl

end GatewayLedger.Text.Percent
