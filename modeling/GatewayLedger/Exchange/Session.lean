/-!
# Sessions

A client sends through one session at a time: its own, which it opens when it needs one and closes
when it is done, or one that its caller gave it and that it leaves open.
-/

namespace GatewayLedger

inductive HeldSession where
  | none
  | own
  | given
deriving DecidableEq

structure Sessions where
  held : HeldSession
  /-- Whether a session that the caller gave is still open. -/
  givenOpen : Bool
  created : Nat
  closed : Nat

namespace Sessions

def initial : Sessions := ⟨.none, false, 0, 0⟩

def withGiven : Sessions := ⟨.given, true, 0, 0⟩

def acquire (s : Sessions) : Sessions :=
  match s.held with
  | .own => s
  | .given => if s.givenOpen then s else { s with held := .own, created := s.created + 1 }
  | .none => { s with held := .own, created := s.created + 1 }

/-- Lets go of the session that is held, and closes it if it is the client's own. -/
def close (s : Sessions) : Sessions :=
  match s.held with
  | .own => { s with held := .none, closed := s.closed + 1 }
  | _ => { s with held := .none }

def closeGiven (s : Sessions) : Sessions :=
  if s.givenOpen then { s with givenOpen := false, closed := s.closed + 1 } else s

end Sessions

end GatewayLedger
