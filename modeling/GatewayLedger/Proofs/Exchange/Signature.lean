import GatewayLedger.Proofs.Exchange.Request

/-!
# What is signed

A query says no more and no less than the names and the texts of its parameters in their order. So do
the bytes that are signed, as long as no name holds a mark of a query: two lists of parameters share
them only if they could not be told apart by the exchange either.
-/

namespace GatewayLedger

namespace Query

variable {pairs others : List (String × Value)}

theorem canonical_eq_iff (h : ∀ p ∈ pairs, IsName p.1) (hothers : ∀ p ∈ others, IsName p.1) :
    canonical pairs = canonical others ↔ texts pairs = texts others := by
  constructor
  · intro hsame
    have hsplit := split_canonical h
    rw [hsame, split_canonical hothers] at hsplit
    exact hsplit.symm
  · exact canonical_congr

end Query

namespace Signature

open Query

variable {pairs others : List (String × Value)} {secret : String}

/-- The bytes of which a signature is taken. -/
def input (pairs : List (String × Value)) : List UInt8 := Text.encodeUtf8 (canonical pairs)

theorem sign_eq_authenticate (h : secret ≠ "") (pairs : List (String × Value)) :
    sign secret pairs =
      .ok (Hmac.hexText (Hmac.authenticate (Text.encodeUtf8 secret) (input pairs))) :=
  Request.sign_of_ne_empty h pairs

/-- A query is read back to the names and texts of its parameters, and what is signed differs as soon
as one of them does, or their order. -/
theorem input_identifies_parameters (h : ∀ p ∈ pairs, IsName p.1)
    (hothers : ∀ p ∈ others, IsName p.1) :
    split (canonical pairs) = texts pairs ∧
      (canonical pairs = canonical others ↔ texts pairs = texts others) ∧
      (input pairs = input others ↔ texts pairs = texts others) ∧
      ∀ secret, secret ≠ "" → sign secret pairs =
        .ok (Hmac.hexText (Hmac.authenticate (Text.encodeUtf8 secret) (input pairs))) :=
  ⟨split_canonical h, canonical_eq_iff h hothers,
    Text.encodeUtf8_inj.trans (canonical_eq_iff h hothers),
    fun _ hsecret => sign_eq_authenticate hsecret pairs⟩

/-- One text that holds all marks of a query is not taken for two parameters, and a name may be
empty. -/
theorem input_identifies_marked_text :
    let pairs : List (String × Value) := [("a", .text "1&b=%é"), ("", .bool true)]
    let others : List (String × Value) := [("a", .int 1), ("b", .text "%é"), ("", .text "true")]
    (∀ p ∈ pairs, IsName p.1) ∧ (∀ p ∈ others, IsName p.1) ∧
      split (canonical pairs) = [("a", "1&b=%é"), ("", "true")] ∧ input pairs ≠ input others := by
  intro pairs others
  have h : ∀ p ∈ pairs, IsName p.1 := by decide
  have hothers : ∀ p ∈ others, IsName p.1 := by decide
  obtain ⟨hsplit, _, hinput, _⟩ := input_identifies_parameters h hothers
  refine ⟨h, hothers, hsplit, ?_⟩
  intro hsame
  have hlength := congrArg List.length (hinput.mp hsame)
  exact absurd hlength (by decide)

end Signature

end GatewayLedger
