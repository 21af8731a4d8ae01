import GatewayLedger.Digest.Sha256

/-!
# HMAC-SHA256

The keyed digest over SHA-256, as bytes and as hexadecimal text.
-/

namespace GatewayLedger.Hmac

open Sha256

def blockSize : Nat := 64

/-- A key of one block: a longer key is replaced by its digest, a shorter one filled with zeros. -/
def blockKey (key : Bytes) : Bytes :=
  let k := if blockSize < key.length then digest key else key
  k ++ List.replicate (blockSize - k.length) 0

def authenticate (key message : Bytes) : Bytes :=
  let k := blockKey key
  digest (k.map (· ^^^ 0x5c) ++ digest (k.map (· ^^^ 0x36) ++ message))

def hexText (bs : Bytes) : String :=
  String.ofList (bs.flatMap fun b => Text.Hexadecimal.lowerDigits 2 b.toNat)

theorem length_authenticate (key message : Bytes) : (authenticate key message).length = 32 :=
  length_digest _

end GatewayLedger.Hmac
