import GatewayLedger.Proofs.Command.Visit
import GatewayLedger.Proofs.Exchange.Check
import GatewayLedger.Proofs.Number.Plain

/-!
# The hint to look at the history

After an ambiguous failure the user is told to look at the withdrawal history. No other message ends
as the hint does, whatever text it repeats, so the end of what is printed tells whether the hint is
there.
-/

namespace GatewayLedger

/-- Failures after which nobody can tell whether the exchange has accepted the request. -/
inductive Failure.IsAmbiguous : Failure → Prop
  | network (method : Method) (path reason : String) :
      IsAmbiguous (.gateway (.network method path reason))
  | unknown (status : Int) (body : String) : IsAmbiguous (.gateway (.unknown status body))

namespace Run

/-- The last thing that is printed is the hint. -/
def EndsInHint (text : String) : Prop := ∃ shown, text = shown ++ retryHint

theorem suffix_of_endsInHint {text : String} (h : EndsInHint text) :
    retryHint.toList <:+ text.toList := by
  obtain ⟨shown, rfl⟩ := h
  exact ⟨shown.toList, String.toList_append.symm⟩

theorem not_endsInHint_empty : ¬ EndsInHint "" := by
  intro h
  exact absurd (suffix_of_endsInHint h).length_le (by decide)

/-- The last sentence of the hint ends in a full stop. -/
theorem getLast?_of_endsInHint {line : String} (h : EndsInHint (line ++ "\n")) :
    line.toList.getLast? = some '.' := by
  obtain ⟨shown, hshown⟩ := h
  obtain ⟨sentence, hsentence⟩ : ∃ sentence, retryHint.toList = sentence ++ ['.'] ++ ['\n'] :=
    ⟨retryHint.toList.dropLast.dropLast, by decide⟩
  have hline : line.toList ++ ['\n'] = shown.toList ++ sentence ++ ['.'] ++ ['\n'] := by
    have hlist := congrArg String.toList hshown
    simpa [String.toList_append, hsentence] using hlist
  rw [List.append_cancel_right hline, List.getLast?_concat]

theorem getLast?_toList_append {front ending : String} {c : Char}
    (h : ending.toList.getLast? = some c) : (front ++ ending).toList.getLast? = some c := by
  rw [String.toList_append, List.getLast?_append, h, Option.some_or]

theorem not_endsInHint_line {line : String} {c : Char} (hlast : line.toList.getLast? = some c)
    (hne : c ≠ '.') : ¬ EndsInHint (line ++ "\n") := by
  intro h
  exact hne (Option.some.inj (hlast.symm.trans (getLast?_of_endsInHint h)))

/-- What the user is told of an error that is no invalid input. -/
theorem endsInHint_of_gateway {e : GatewayError} (h : ∀ field reason, e ≠ .validation field reason) :
    EndsInHint ((ofFailure (.gateway e)).errors ++ hintAfter (.error (.gateway e))) ↔
      Failure.IsAmbiguous (.gateway e) := by
  have hplain : ∀ e' : GatewayError, ¬ retryHint.toList <:+ (ofFailure (.gateway e')).errors.toList →
      ¬ EndsInHint ((ofFailure (.gateway e')).errors ++ "") := by
    intro e' hnot hhint
    rw [String.append_empty] at hhint
    exact hnot (suffix_of_endsInHint hhint)
  -- these messages do not depend on what the error holds
  have hconfiguration := hplain (.configuration .apiKey) (by decide)
  have hauth := hplain (.auth 0 "") (by decide)
  have hlimit := hplain (.rateLimit none "") (by decide)
  cases e with
  | configuration missing => exact ⟨fun hhint => absurd hhint hconfiguration, by rintro ⟨⟩⟩
  | auth status body => exact ⟨fun hhint => absurd hhint hauth, by rintro ⟨⟩⟩
  | rateLimit retryAfter body => exact ⟨fun hhint => absurd hhint hlimit, by rintro ⟨⟩⟩
  | network method path reason => exact ⟨fun _ => .network method path reason, fun _ => ⟨_, rfl⟩⟩
  | validation field reason => exact absurd rfl (h field reason)
  | unknown status body => exact ⟨fun _ => .unknown status body, fun _ => ⟨_, rfl⟩⟩

theorem endsInHint_of_failure {failure : Failure}
    (h : ∀ field reason, failure ≠ .gateway (.validation field reason)) :
    EndsInHint ((ofFailure failure).errors ++ hintAfter (.error failure)) ↔
      failure.IsAmbiguous := by
  cases failure with
  | gateway e => exact endsInHint_of_gateway fun field reason he => h field reason (by rw [he])
  | _ => exact ⟨fun hhint => absurd hhint not_endsInHint_empty, by rintro ⟨⟩⟩

/-- A withdrawal that fails its check is refused with the reason, and this is no hint. -/
theorem not_endsInHint_of_check {w : Withdrawal} {failure : Failure} (h : w.check = .error failure) :
    ¬ EndsInHint (ofFailure failure).errors := by
  obtain ⟨field, reason, hreason, rfl⟩ := Withdrawal.isInvalid_of_check h
  have hlast : ∃ c, reason.toList.getLast? = some c ∧ c ≠ '.' := by
    have hempty : emptyReason.toList.getLast? = some 'y' := by decide
    have haddress : " address".toList.getLast? = some 's' := by decide
    simp only [Withdrawal.reasons, List.mem_cons, List.not_mem_nil, or_false] at hreason
    rcases hreason with rfl | rfl | rfl
    · exact ⟨'y', hempty, by decide⟩
    · obtain ⟨c, hc, hdigit⟩ := w.amount.exists_getLast?_chars
      have htext : w.amount.text.toList.getLast? = some c := by
        rw [Decimal.text, String.toList_ofList, hc]
      exact ⟨c, getLast?_toList_append htext, by rintro rfl; cases hdigit⟩
    · exact ⟨'s', getLast?_toList_append haddress, by decide⟩
  obtain ⟨c, hc, hne⟩ := hlast
  exact not_endsInHint_line (getLast?_toList_append (getLast?_toList_append hc)) hne

variable {s : Surroundings} {settings : Settings} {w : Withdrawal}

theorem requests_submit : (submit s settings w).requests =
    (s.call settings (.submitWithdrawal w)).requests := by
  simp only [submit, ofVisit]
  cases (s.call settings (.submitWithdrawal w)).outcome <;> rfl

theorem endsInHint_submit
    (h : ∀ field reason, (s.call settings (.submitWithdrawal w)).outcome ≠
      .error (.gateway (.validation field reason))) :
    EndsInHint (submit s settings w).errors ↔ ∃ failure,
      (s.call settings (.submitWithdrawal w)).outcome = .error failure ∧ failure.IsAmbiguous := by
  simp only [submit, ofVisit]
  cases houtcome : (s.call settings (.submitWithdrawal w)).outcome with
  | ok v => exact ⟨fun hhint => absurd hhint not_endsInHint_empty, by rintro ⟨_, h, _⟩; cases h⟩
  | error failure =>
    have hvalid : ∀ field reason, failure ≠ .gateway (.validation field reason) :=
      fun field reason he => h field reason (by rw [houtcome, he])
    refine (endsInHint_of_failure hvalid).trans ⟨fun hambiguous => ⟨failure, rfl, hambiguous⟩, ?_⟩
    rintro ⟨_, h, hambiguous⟩
    cases h
    exact hambiguous

/-- A run that sends nothing has no hint to give. -/
structure SendsNothing (run : Run) : Prop where
  requests : run.requests = []
  errors : ¬ EndsInHint run.errors

theorem sendsNothing_quiet (ending : Ending) : (quiet ending).SendsNothing :=
  ⟨rfl, not_endsInHint_empty⟩

end Run

end GatewayLedger
