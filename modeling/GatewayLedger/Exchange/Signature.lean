import GatewayLedger.Digest.Hmac
import GatewayLedger.Exchange.Error
import GatewayLedger.Exchange.Query

/-!
# Signatures

The parameters of a request are signed in the order in which they are sent: the signature is the
HMAC-SHA256 of their query under the secret. Nothing can be signed without a secret.
-/

namespace GatewayLedger.Signature

def ofText (secret text : String) : String :=
  Hmac.hexText (Hmac.authenticate (Text.encodeUtf8 secret) (Text.encodeUtf8 text))

def sign (secret : String) (pairs : List (String × Value)) : Except GatewayError String :=
  if secret = "" then .error (.configuration .signingSecret)
  else .ok (ofText secret (Query.canonical pairs))

theorem sign_eq_ok_iff {secret signature : String} {pairs : List (String × Value)} :
    sign secret pairs = .ok signature ↔
      secret ≠ "" ∧ signature = ofText secret (Query.canonical pairs) := by
  unfold sign
  split <;> simp_all [eq_comm]

end GatewayLedger.Signature
