/-!
# Credentials

The key and the secret of an account, and a store that holds the ones that were set last.
-/

namespace GatewayLedger

structure Credentials where
  apiKey : String
  secret : String
deriving DecidableEq

/-- Keeps credentials in memory only. -/
structure CredentialStore where
  current : Option Credentials

namespace CredentialStore

def get (s : CredentialStore) : Option Credentials := s.current

def set (_ : CredentialStore) (apiKey secret : String) : CredentialStore := ⟨some ⟨apiKey, secret⟩⟩

end CredentialStore

end GatewayLedger
