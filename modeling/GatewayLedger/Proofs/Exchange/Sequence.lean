import GatewayLedger.Proofs.Exchange.Filter
import GatewayLedger.Proofs.Exchange.Reply

/-!
# Sequences of calls

However a client is used, it sends one request for each call that passes its local check, and none for
any other call. The exchange answers these requests one after the other, so no answer leads to
another request and no two calls share one.
-/

namespace GatewayLedger

/-! ## Calls that fail their check -/

/-- The errors of a call that is not sent. -/
inductive GatewayError.IsLocal : GatewayError → Prop
  | validation (field reason : String) : IsLocal (.validation field reason)
  | configuration (missing : Requirement) : IsLocal (.configuration missing)

def Failure.IsLocal (failure : Failure) : Prop := ∃ e : GatewayError, failure = .gateway e ∧ e.IsLocal

variable {failure : Failure}

theorem Failure.IsInvalid.isLocal {reasons : List String} (h : failure.IsInvalid reasons) :
    failure.IsLocal := by
  obtain ⟨field, reason, _, rfl⟩ := h
  exact ⟨_, rfl, .validation field reason⟩

theorem Filter.isLocal_of_params {f : Filter} (hf : f.TimesAware) (h : f.params = .error failure) :
    failure.IsLocal := by
  rcases params_cases hf with ⟨-, herror⟩ | ⟨-, -, herror⟩ | ⟨-, -, params, hok⟩
  · cases herror.symm.trans h
    exact ⟨_, rfl, .validation _ _⟩
  · cases herror.symm.trans h
    exact ⟨_, rfl, .validation _ _⟩
  · rw [hok] at h
    cases h

namespace Call

def filter? : Call → Option Filter
  | deposits f => some f
  | withdrawals f => some f
  | paymentRequests f => some f
  | _ => none

/-- The times of a filter, where the call has one, are aware. -/
def TimesAware (call : Call) : Prop := ∀ f, call.filter? = some f → f.TimesAware

def amount? : Call → Option Decimal
  | submitWithdrawal w => some w.amount
  | requestPayment p => some p.amount
  | _ => none

/-- All that a call has to say can be written out: an amount in the memory that there is, and the
integers of a query in the digits that are written. -/
structure IsWritable (call : Call) : Prop where
  amount : ∀ amount, call.amount? = some amount → amount.exceedsText = false
  params : ∀ params, call.payload = .ok (.query params) → Query.areWritable params = true

theorem areWritable_signedPairs {call : Call} {payload : Payload} {millis : Int}
    (h : call.IsWritable) (hpayload : call.payload = .ok payload)
    (hmillis : Query.isWritable (.int millis) = true) :
    Query.areWritable (Request.signedPairs payload millis) = true := by
  cases payload with
  | query params =>
    have hparams := h.params params hpayload
    simp only [Query.areWritable] at hparams
    simp [Query.areWritable, Request.signedPairs, hparams, hmillis]
  | body fields =>
    simpa [Query.areWritable, Request.signedPairs, Query.ofFields, Query.isWritable] using hmillis

theorem isLocal_of_check {check : Except Failure Unit} {amount : Decimal}
    {body : List (String × String)} (hamount : amount.exceedsText = false)
    (hcheck : ∀ failure, check = .error failure → failure.IsLocal)
    (h : (checkedBody check amount body).map Payload.body = .error failure) : failure.IsLocal := by
  rcases checkedBody_eq_error_iff.mp (eq_error_of_map h) with herror | ⟨_, hvast, _⟩
  · exact hcheck failure herror
  · cases hamount.symm.trans hvast

theorem isLocal_of_payload {call : Call} (hcall : call.TimesAware) (hwritable : call.IsWritable)
    (h : call.payload = .error failure) : failure.IsLocal := by
  cases call with
  | balances => cases h
  | accountStatus => cases h
  | deposits f => exact Filter.isLocal_of_params (hcall f rfl) (eq_error_of_map h)
  | withdrawals f => exact Filter.isLocal_of_params (hcall f rfl) (eq_error_of_map h)
  | paymentRequests f => exact Filter.isLocal_of_params (hcall f rfl) (eq_error_of_map h)
  | submitWithdrawal w =>
    exact isLocal_of_check (hwritable.amount w.amount rfl)
      (fun _ hcheck => (Withdrawal.isInvalid_of_check hcheck).isLocal) h
  | requestPayment p =>
    exact isLocal_of_check (hwritable.amount p.amount rfl)
      (fun _ hcheck => (PaymentRequest.isInvalid_of_check hcheck).isLocal) h

end Call

namespace Account

/-- The local check of a call: its payload exists and can be signed. -/
def passes (a : Account) (call : Call) : Bool := call.payload.isOk && a.secret != ""

/-- A signed request for a call at some time. -/
def IsRequestFor (a : Account) (call : Call) (r : Request) : Prop :=
  ∃ payload millis, call.payload = .ok payload ∧
    Request.make a call.endpoint payload millis = .ok r

end Account

theorem Request.make_of_secret_eq_empty {a : Account} (h : a.secret = "") (e : Endpoint)
    (payload : Payload) (millis : Int) :
    make a e payload millis = .error (.configuration .signingSecret) := by
  simp only [make, Signature.sign, h, ↓reduceIte, bind, Except.bind]

/-- What becomes of a request that gets an answer. -/
def Answer.issued (a : Answer) (p : Platform) (timeout : Binary64) (r : Request) : Issued :=
  ⟨some r, a.delay, a.delivery.settle p r.endpoint timeout⟩

namespace Script

/-- Answers requests one after the other. -/
def answerAll (script : Script) : List Request → List Answer × Script
  | [] => ([], script)
  | r :: rest =>
    let (a, script) := script.answer r
    let (others, script) := script.answerAll rest
    (a :: others, script)

end Script

namespace Client

variable {c : Client} {call : Call}

/-- The clock has a millisecond at any time, which can be written out. -/
def ClockTicks (c : Client) : Prop :=
  ∀ now ∈ c.clock, ∃ millis, now.millis = .ok millis ∧ Query.isWritable (.int millis) = true

theorem ClockTicks.exists_millis (h : c.ClockTicks) :
    ∃ millis, c.readClock.1.millis = .ok millis ∧ Query.isWritable (.int millis) = true := by
  unfold readClock
  split
  · exact ⟨0, rfl, by decide +kernel⟩
  · next now hclock => exact h now (by simp [hclock])
  · next now rest _ hclock => exact h now (by simp [hclock])

theorem ClockTicks.readClock (h : c.ClockTicks) : c.readClock.2.ClockTicks := by
  unfold Client.readClock
  split
  · exact h
  · exact h
  · next now rest _ hclock =>
    intro later hlater
    exact h later (by rw [hclock]; exact List.mem_cons_of_mem now hlater)

/-- One call of a client. -/
inductive Issues (c : Client) (call : Call) : Issued → Client → Prop
  | sent {r : Request} {c' : Client} (hpass : c.account.passes call = true)
      (hr : c.account.IsRequestFor call r)
      (haccount : c'.account = c.account) (hclock : c'.ClockTicks)
      (hscript : c'.script = (c.script.answer r).2) (hplatform : c'.platform = c.platform) :
      Issues c call ((c.script.answer r).1.issued c.platform c.account.timeout r) c'
  | refused {e : GatewayError} {c' : Client} (hpass : c.account.passes call = false)
      (he : e.IsLocal)
      (haccount : c'.account = c.account) (hclock : c'.ClockTicks)
      (hscript : c'.script = c.script) (hplatform : c'.platform = c.platform) :
      Issues c call (.refused (.gateway e)) c'

theorem Issues.clockTicks {i : Issued} {c' : Client} (h : Issues c call i c') : c'.ClockTicks := by
  cases h with
  | sent _ _ _ hclock _ _ => exact hclock
  | refused _ _ _ hclock _ _ => exact hclock

theorem issues_issue (hclock : c.ClockTicks) (hcall : call.TimesAware)
    (hwritable : call.IsWritable) : Issues c call (c.issue call).1 (c.issue call).2 := by
  cases hpayload : call.payload with
  | error failure =>
    obtain ⟨e, rfl, he⟩ := Call.isLocal_of_payload hcall hwritable hpayload
    have hissue : c.issue call = (.refused (.gateway e), c) := by
      simp only [issue, hpayload]
    rw [hissue]
    exact .refused (by rw [Account.passes, hpayload]; rfl) he rfl hclock rfl rfl
  | ok payload =>
    obtain ⟨millis, hmillis, hdigits⟩ := hclock.exists_millis
    by_cases hsecret : c.account.secret = ""
    · have hissue : c.issue call =
          (.refused (.gateway (.configuration .signingSecret)), c.readClock.2) := by
        simp only [issue, hpayload, prepare, hmillis, account_readClock,
          Request.make_of_secret_eq_empty hsecret, Except.mapError, bind, Except.bind]
      rw [hissue]
      exact .refused (by simp [Account.passes, hsecret]) (.configuration _) c.account_readClock
        hclock.readClock c.script_readClock c.platform_readClock
    · have hpairs := Call.areWritable_signedPairs hwritable hpayload hdigits
      obtain ⟨r, hr, _⟩ := Request.exists_make hsecret call.endpoint payload millis
      have hpass : c.account.passes call = true := by
        simp [Account.passes, hpayload, hsecret, Except.isOk, Except.toBool]
      have hissued : (c.issue call).1 = (c.script.answer r).1.issued c.platform c.account.timeout r := by
        rw [issue_eq_send hpayload hmillis hpairs hr, send, script_readClock, account_readClock, platform_readClock]
        rfl
      rw [hissued, issue_eq_send hpayload hmillis hpairs hr]
      refine .sent hpass ⟨payload, millis, hpayload, hr⟩ c.account_readClock hclock.readClock ?_
        c.platform_readClock
      rw [send, script_readClock]

/-! ## Runs -/

/-- What can be done with a client. -/
inductive Step where
  | call (call : Call)
  | close
  /-- The caller closes the session that it gave. -/
  | closeGiven

namespace Step

def call? : Step → Option Call
  | .call asked => some asked
  | .close => none
  | .closeGiven => none

def calls (steps : List Step) : List Call := steps.filterMap call?

end Step

def perform (c : Client) : Step → List Issued × Client
  | .call call => let (issued, c) := c.issue call; ([issued], c)
  | .close => ([], c.close)
  | .closeGiven => ([], { c with sessions := c.sessions.closeGiven })

def performAll (c : Client) : List Step → List Issued × Client
  | [] => ([], c)
  | step :: rest =>
    let (issued, c) := c.perform step
    let (others, c) := c.performAll rest
    (issued ++ others, c)

/-- A call that passes has a request of its own, and any other one ends in an error without one. -/
def Settles (a : Account) (call : Call) (i : Issued) : Prop :=
  if a.passes call = true then ∃ r, i.request = some r ∧ a.IsRequestFor call r
  else ∃ e : GatewayError, e.IsLocal ∧ i = .refused (.gateway e)

def sent (issued : List Issued) : List Request := issued.filterMap (·.request)

/-- The requests of a list of calls, each of which has been answered once and in its turn. -/
structure Answered (c : Client) (calls : List Call) (issued : List Issued) (last : Client) :
    Prop where
  settles : List.Forall₂ (Settles c.account) calls issued
  answers : issued.filter (·.request.isSome) =
    List.zipWith (fun a r => a.issued c.platform c.account.timeout r) (c.script.answerAll (sent issued)).1
      (sent issued)
  script : last.script = (c.script.answerAll (sent issued)).2

theorem Answered.cons {c' last : Client} {i : Issued} {calls : List Call} {issued : List Issued}
    (hi : Issues c call i c') (h : Answered c' calls issued last) :
    Answered c (call :: calls) (i :: issued) last := by
  obtain ⟨hsettles, hanswers, hscript⟩ := h
  cases hi with
  | @sent r _ hpass hr haccount _ hnext hplatform =>
    rw [haccount] at hsettles hanswers
    rw [hplatform] at hanswers
    rw [hnext] at hanswers hscript
    have hsent : sent ((c.script.answer r).1.issued c.platform c.account.timeout r :: issued) =
        r :: sent issued := rfl
    refine ⟨.cons ?_ hsettles, ?_, ?_⟩
    · rw [Settles, if_pos hpass]
      exact ⟨r, rfl, hr⟩
    · rw [hsent, Script.answerAll, List.zipWith_cons_cons, ← hanswers]
      rfl
    · rw [hsent, Script.answerAll]
      exact hscript
  | @refused e _ hpass he haccount _ hnext hplatform =>
    rw [haccount] at hsettles hanswers
    rw [hplatform] at hanswers
    rw [hnext] at hanswers hscript
    have hsent : sent (.refused (.gateway e) :: issued) = sent issued := rfl
    refine ⟨.cons ?_ hsettles, ?_, ?_⟩
    · rw [Settles, if_neg (by simp [hpass])]
      exact ⟨e, he, rfl⟩
    · rw [hsent, ← hanswers]
      rfl
    · rw [hsent]
      exact hscript

theorem answered_performAll {steps : List Step} (hclock : c.ClockTicks)
    (htimes : ∀ call ∈ Step.calls steps, call.TimesAware)
    (hwritable : ∀ call ∈ Step.calls steps, call.IsWritable) :
    Answered c (Step.calls steps) (c.performAll steps).1 (c.performAll steps).2 := by
  induction steps generalizing c with
  | nil => exact ⟨.nil, rfl, rfl⟩
  | cons step rest ih =>
    cases step with
    | call call =>
      obtain ⟨hcall, htimes⟩ := List.forall_mem_cons.mp htimes
      obtain ⟨hcallWritable, hwritable⟩ := List.forall_mem_cons.mp hwritable
      have hissues := issues_issue hclock hcall hcallWritable
      exact (ih hissues.clockTicks htimes hwritable).cons hissues
    | close =>
      obtain ⟨hsettles, hanswers, hscript⟩ := ih (c := c.close) hclock htimes hwritable
      exact ⟨hsettles, hanswers, hscript⟩
    | closeGiven =>
      obtain ⟨hsettles, hanswers, hscript⟩ :=
        ih (c := { c with sessions := c.sessions.closeGiven }) hclock htimes hwritable
      exact ⟨hsettles, hanswers, hscript⟩

theorem forall₂_sent {a : Account} {calls : List Call} {issued : List Issued}
    (h : List.Forall₂ (Settles a) calls issued) :
    List.Forall₂ a.IsRequestFor (calls.filter a.passes) (sent issued) := by
  induction h with
  | nil => exact .nil
  | @cons call i calls issued hi _ ih =>
    unfold Settles at hi
    by_cases hpass : a.passes call = true
    · rw [if_pos hpass] at hi
      obtain ⟨r, hrequest, hr⟩ := hi
      rw [List.filter_cons_of_pos hpass, sent, List.filterMap_cons_some hrequest]
      exact .cons hr ih
    · rw [if_neg hpass] at hi
      obtain ⟨e, _, rfl⟩ := hi
      rw [List.filter_cons_of_neg hpass]
      exact ih

/-- Whatever is done with a client and whatever the exchange answers, the requests are those of the
calls that pass their check, one for each and in their order. The exchange has answered exactly
these, and each call ends with the answer to its own request; a call that fails its check ends
in an error and leaves no request. -/
theorem sends_once_for_each_passing_call (steps : List Step) (hclock : c.ClockTicks)
    (htimes : ∀ call ∈ Step.calls steps, call.TimesAware)
    (hwritable : ∀ call ∈ Step.calls steps, call.IsWritable) :
    let ran := c.performAll steps
    let requests := sent ran.1
    let answers := c.script.answerAll requests
    List.Forall₂ c.account.IsRequestFor ((Step.calls steps).filter c.account.passes) requests ∧
      List.Forall₂ (Settles c.account) (Step.calls steps) ran.1 ∧
      ran.1.filter (·.request.isSome) =
        List.zipWith (fun a r => a.issued c.platform c.account.timeout r) answers.1 requests ∧
      ran.2.script = answers.2 := by
  intro ran requests answers
  have h : Answered c (Step.calls steps) ran.1 ran.2 := answered_performAll hclock htimes hwritable
  exact ⟨forall₂_sent h.settles, h.settles, h.answers, h.script⟩

/-- The same withdrawal is sent twice, and what is asked in between with a limit of zero is not. -/
theorem sends_repeated_withdrawal_twice :
    let w : Withdrawal := ⟨"USDT", "0123456789a", ⟨false, 5, 0⟩, "XYZ"⟩
    let epoch : Moment := ⟨Moment.epoch, some 0, by decide⟩
    let filter : Filter := { startTime := some epoch, limit := 0 }
    let steps : List Step := [.call (.submitWithdrawal w), .close, .call (.withdrawals filter),
      .call (.submitWithdrawal w)]
    let c : Client :=
      ⟨sampleAccount, Sessions.initial, [.whole 1700000000], [], Platform.usual⟩
    (c.ClockTicks ∧ (∀ call ∈ Step.calls steps, call.TimesAware) ∧
      ∀ call ∈ Step.calls steps, call.IsWritable) ∧
      List.Forall₂ c.account.IsRequestFor [.submitWithdrawal w, .submitWithdrawal w]
        (sent (c.performAll steps).1) := by
  intro w epoch filter steps c
  have hclock : c.ClockTicks := by
    intro now hnow
    obtain rfl := List.mem_singleton.mp hnow
    exact ⟨1700000000000, rfl, by decide +kernel⟩
  have hfilter : filter.TimesAware := by
    refine ⟨fun m hm => ?_, fun m hm => by cases hm⟩
    obtain rfl := Option.some.inj hm
    exact ⟨0, rfl, by decide⟩
  have htimes : ∀ call ∈ Step.calls steps, call.TimesAware := by
    intro call hcall f hf
    have hcalls : call ∈ [Call.submitWithdrawal w, .withdrawals filter, .submitWithdrawal w] := hcall
    simp only [List.mem_cons, List.not_mem_nil, or_false] at hcalls
    rcases hcalls with rfl | rfl | rfl
    · cases hf
    · obtain rfl := Option.some.inj hf
      exact hfilter
    · cases hf
  have hwritable : ∀ call ∈ Step.calls steps, call.IsWritable := by
    have hcalls : Step.calls steps =
      [.submitWithdrawal w, .withdrawals filter, .submitWithdrawal w] := rfl
    have hw : (Call.submitWithdrawal w).IsWritable := by
      refine ⟨fun amount hamount => ?_, fun params hparams => ?_⟩
      · obtain rfl := Option.some.inj hamount
        decide
      · cases Call.carries_of_payload hparams with
        | query hmethod _ _ => cases hmethod
    have hf : (Call.withdrawals filter).IsWritable := by
      refine ⟨fun amount hamount => (by cases hamount), fun params hparams => ?_⟩
      have hrefused : (Call.withdrawals filter).payload.isOk = false := by decide
      rw [hparams] at hrefused
      cases hrefused
    rw [hcalls]
    simp [hw, hf]
  have hpasses : (Step.calls steps).filter c.account.passes =
      [.submitWithdrawal w, .submitWithdrawal w] := by
    have hw : c.account.passes (.submitWithdrawal w) = true := by decide
    have hf : c.account.passes (.withdrawals filter) = false := by decide
    have hcalls : Step.calls steps =
      [.submitWithdrawal w, .withdrawals filter, .submitWithdrawal w] := rfl
    rw [hcalls, List.filter_cons_of_pos hw, List.filter_cons_of_neg (by simp [hf]),
      List.filter_cons_of_pos hw, List.filter_nil]
  obtain ⟨hsent, _⟩ := sends_once_for_each_passing_call steps hclock htimes hwritable
  rw [hpasses] at hsent
  exact ⟨⟨hclock, htimes, hwritable⟩, hsent⟩

end Client

end GatewayLedger
