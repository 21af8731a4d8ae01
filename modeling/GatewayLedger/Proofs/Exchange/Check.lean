import GatewayLedger.Proofs.Exchange.Request

/-!
# Local checks

What a caller submits is checked before anything is sent. A check that fails names a field and a
reason, and never fails in another way.
-/

namespace GatewayLedger

/-- The failure of a check, for one of the given reasons. -/
def Failure.IsInvalid (failure : Failure) (reasons : List String) : Prop :=
  ∃ field, ∃ reason ∈ reasons, failure = .gateway (.validation field reason)

variable {failure : Failure} {field text : String} {amount : Decimal}

def emptyReason : String := "must not be empty"

def positiveReason (amount : Decimal) : String := "must be positive, got " ++ amount.text

theorem eq_invalid_of_requireText (h : requireText field text = .error failure) :
    failure = .gateway (.validation field emptyReason) := by
  unfold requireText at h
  split at h
  · exact (Except.error.inj h).symm
  · cases h

theorem eq_invalid_of_requirePositive (h : requirePositive amount = .error failure) :
    failure = .gateway (.validation "amount" (positiveReason amount)) := by
  unfold requirePositive at h
  split at h
  · cases h
  · exact (Except.error.inj h).symm

namespace Withdrawal

variable {w : Withdrawal}

def addressReason (w : Withdrawal) : String := "not a valid " ++ Text.toUpper w.network ++ " address"

theorem eq_invalid_of_checkAddress (h : w.checkAddress = .error failure) :
    failure = .gateway (.validation "address" w.addressReason) := by
  unfold checkAddress at h
  split at h
  · cases h
  · exact (Except.error.inj h).symm

/-- The reasons for which a withdrawal can be refused. -/
def reasons (w : Withdrawal) : List String :=
  [emptyReason, positiveReason w.amount, w.addressReason]

theorem isInvalid_of_check (h : w.check = .error failure) : failure.IsInvalid w.reasons := by
  rcases bind_eq_error_iff.mp h with h | ⟨_, _, h⟩
  · exact ⟨_, _, by simp [reasons], eq_invalid_of_requireText h⟩
  rcases bind_eq_error_iff.mp h with h | ⟨_, _, h⟩
  · exact ⟨_, _, by simp [reasons], eq_invalid_of_requireText h⟩
  rcases bind_eq_error_iff.mp h with h | ⟨_, _, h⟩
  · exact ⟨_, _, by simp [reasons], eq_invalid_of_requirePositive h⟩
  rcases bind_eq_error_iff.mp h with h | ⟨_, _, h⟩
  · exact ⟨_, _, by simp [reasons], eq_invalid_of_requireText h⟩
  · exact ⟨_, _, by simp [reasons], eq_invalid_of_checkAddress h⟩

theorem payload_of_check (h : w.check = .ok ()) (hmemory : w.amount.exceedsText = false) :
    (Call.submitWithdrawal w).payload = .ok (.body w.body) := by
  rw [Call.payload, checkedBody_eq_ok_iff.mpr ⟨h, hmemory, rfl⟩]
  rfl

end Withdrawal

namespace PaymentRequest

variable {p : PaymentRequest}

theorem isInvalid_of_check (h : p.check = .error failure) :
    failure.IsInvalid [emptyReason, positiveReason p.amount] := by
  rcases bind_eq_error_iff.mp h with h | ⟨_, _, h⟩
  · exact ⟨_, _, by simp, eq_invalid_of_requireText h⟩
  · exact ⟨_, _, by simp, eq_invalid_of_requirePositive h⟩

end PaymentRequest

end GatewayLedger
