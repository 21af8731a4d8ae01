import GatewayLedger.Proofs.Command.RetryHint

/-!
# The command to withdraw

A withdrawal is sent at most once, and only after everything else has been settled: the amount is a
number, the request passes its check, the user has agreed, and the settings allow a signature. Then
the hint to look at the history is due exactly if nobody can tell what became of the request.
-/

namespace GatewayLedger

namespace Confirmation

/-- The first line that can be read as an answer says yes. -/
def Agrees (lines : List String) : Prop :=
  ∃ before line after, lines = before ++ line :: after ∧
    (∀ l ∈ before, readingOf l = .unclear) ∧ readingOf line = .yes

theorem not_agrees_nil : ¬ Agrees [] := by
  rintro ⟨before, line, after, h, _⟩
  simp at h

theorem agrees_cons_iff {line : String} {rest : List String} : Agrees (line :: rest) ↔
    readingOf line = .yes ∨ readingOf line = .unclear ∧ Agrees rest := by
  constructor
  · rintro ⟨before, answer, after, h, hbefore, hyes⟩
    cases before with
    | nil =>
      obtain ⟨rfl, _⟩ := List.cons.inj h
      exact .inl hyes
    | cons first before =>
      obtain ⟨rfl, rfl⟩ := List.cons.inj h
      exact .inr ⟨hbefore _ List.mem_cons_self,
        before, answer, after, rfl, fun l hl => hbefore l (List.mem_cons_of_mem _ hl), hyes⟩
  · rintro (hyes | ⟨hunclear, before, answer, after, rfl, hbefore, hyes⟩)
    · exact ⟨[], line, rest, rfl, by simp, hyes⟩
    · refine ⟨line :: before, answer, after, rfl, ?_, hyes⟩
      intro l hl
      rcases List.mem_cons.mp hl with rfl | hl
      · exact hunclear
      · exact hbefore l hl

theorem agreed_ask_iff (question : String) (lines : List String) :
    (ask question lines).agreed = true ↔ Agrees lines := by
  induction lines with
  | nil => simp [ask, not_agrees_nil]
  | cons line rest ih =>
    rw [agrees_cons_iff]
    unfold ask
    cases hreading : readingOf line with
    | yes => simp
    | no => simp
    | unclear => simpa using ih

end Confirmation

/-! ## Orders -/

/-- What the user has typed for the command to withdraw. -/
structure WithdrawalOrder where
  coin : String
  address : String
  amount : String
  network : String
  isConfirmed : Bool
  baseUrl : Option String

namespace WithdrawalOrder

variable {o : WithdrawalOrder} {s : Surroundings} {settings : Settings} {amount : Decimal}

def invocation (o : WithdrawalOrder) : Invocation :=
  ⟨.withdraw o.coin o.address o.amount o.network o.isConfirmed, o.baseUrl⟩

theorem invocation_inj {other : WithdrawalOrder} (h : o.invocation = other.invocation) :
    o = other := by
  obtain ⟨_, _, _, _, _, _⟩ := o
  obtain ⟨_, _, _, _, _, _⟩ := other
  simpa [invocation, and_assoc] using h

def withdrawal (o : WithdrawalOrder) (amount : Decimal) : Withdrawal :=
  ⟨Text.toUpper o.coin, o.address, amount, Text.toUpper o.network⟩

/-- The user has agreed beforehand or agrees when asked. -/
def Agreed (s : Surroundings) (isConfirmed : Bool) : Prop :=
  isConfirmed = true ∨ Confirmation.Agrees (Confirmation.lines s.input)

/-- What has to be settled before the exchange is visited. -/
structure Approved (s : Surroundings) (o : WithdrawalOrder) (amount : Decimal)
    (settings : Settings) : Prop where
  isAmount : Decimal.read? o.amount = some amount
  isValid : (o.withdrawal amount).check = .ok ()
  isAgreed : Agreed s o.isConfirmed
  isLoaded : s.settings o.baseUrl = .ok settings

theorem Approved.unique {other : Decimal} {otherSettings : Settings}
    (h : Approved s o amount settings) (h' : Approved s o other otherSettings) :
    amount = other ∧ settings = otherSettings :=
  ⟨Option.some.inj (h.isAmount.symm.trans h'.isAmount),
    Except.ok.inj (h.isLoaded.symm.trans h'.isLoaded)⟩

/-- A run that ends before the visit. -/
structure EndsBefore (s : Surroundings) (o : WithdrawalOrder) (run : Run) : Prop where
  not_approved : ∀ amount settings, ¬ Approved s o amount settings
  sendsNothing : run.SendsNothing

/-- A run that gets as far as the visit, after which it shows nothing more. -/
structure Visits (s : Surroundings) (o : WithdrawalOrder) (amount : Decimal) (settings : Settings)
    (run : Run) : Prop where
  approved : Approved s o amount settings
  requests : run.requests = (Run.submit s settings (o.withdrawal amount)).requests
  errors : run.errors = (Run.submit s settings (o.withdrawal amount)).errors

theorem endsBefore_of_amount (h : Decimal.read? o.amount = none) :
    EndsBefore s o (Run.ofInvocation s o.invocation) := by
  have hrun : Run.ofInvocation s o.invocation =
      Run.refused ("Error: '" ++ o.amount ++ "' is not a valid amount\n") := by
    simp only [invocation, Run.ofInvocation, Run.withAmount, h]
  have hending : "' is not a valid amount\n" = "' is not a valid amount" ++ "\n" := by decide
  refine ⟨fun amount settings happroved => ?_, by rw [hrun]; rfl, ?_⟩
  · cases h.symm.trans happroved.isAmount
  · rw [hrun, hending, ← String.append_assoc]
    exact Run.not_endsInHint_line (c := 't') (Run.getLast?_toList_append (by decide)) (by decide)

theorem ofInvocation_of_amount (h : Decimal.read? o.amount = some amount) :
    Run.ofInvocation s o.invocation =
      Run.withdraw s o.baseUrl (o.withdrawal amount) o.isConfirmed := by
  simp only [invocation, Run.ofInvocation, Run.withAmount, h, withdrawal]

theorem endsBefore_of_check {failure : Failure} (hamount : Decimal.read? o.amount = some amount)
    (h : (o.withdrawal amount).check = .error failure) :
    EndsBefore s o (Run.ofInvocation s o.invocation) := by
  have hrun : Run.ofInvocation s o.invocation = Run.ofFailure failure := by
    simp only [ofInvocation_of_amount hamount, Run.withdraw, h]
  refine ⟨fun other settings happroved => ?_, ?_, ?_⟩
  · obtain rfl : amount = other := Option.some.inj (hamount.symm.trans happroved.isAmount)
    cases h.symm.trans happroved.isValid
  · obtain ⟨_, _, _, rfl⟩ := Withdrawal.isInvalid_of_check h
    rw [hrun]
    rfl
  · rw [hrun]
    exact Run.not_endsInHint_of_check h

/-- The user is asked unless the order is confirmed already. -/
theorem withdraw_of_check (s : Surroundings) (baseUrl : Option String) (isConfirmed : Bool)
    {w : Withdrawal} (h : w.check = .ok ()) :
    let run := Run.withdraw s baseUrl w isConfirmed
    let next := Run.withSettings s baseUrl fun settings => Run.submit s settings w
    (Agreed s isConfirmed → run.requests = next.requests ∧ run.errors = next.errors) ∧
      (¬ Agreed s isConfirmed → run.requests = [] ∧ run.errors = Run.aborted) := by
  intro run next
  have hrun : run = if isConfirmed then next else Run.confirmed s w next := by
    simp only [run, next, Run.withdraw, h]
  cases isConfirmed with
  | true =>
    rw [hrun, if_pos rfl]
    exact ⟨fun _ => ⟨rfl, rfl⟩, fun hnot => absurd (.inl rfl) hnot⟩
  | false =>
    have hasked := Confirmation.agreed_ask_iff (Run.question w) (Confirmation.lines s.input)
    have hnext : run = (if (Confirmation.ask (Run.question w) (Confirmation.lines s.input)).agreed
        then next else Run.refused Run.aborted).after _ "" := hrun
    rw [hnext]
    constructor
    · rintro (hconfirmed | hagrees)
      · cases hconfirmed
      · rw [if_pos (hasked.mpr hagrees)]
        exact ⟨rfl, String.empty_append⟩
    · intro hnot
      rw [if_neg fun hagreed => hnot (.inr (hasked.mp hagreed))]
      exact ⟨rfl, String.empty_append⟩

/-- The command gets as far as the visit, or it ends before. -/
theorem visits_or_endsBefore (s : Surroundings) (o : WithdrawalOrder) :
    (∃ amount settings, Visits s o amount settings (Run.ofInvocation s o.invocation)) ∨
      EndsBefore s o (Run.ofInvocation s o.invocation) := by
  cases hamount : Decimal.read? o.amount with
  | none => exact .inr (endsBefore_of_amount hamount)
  | some amount =>
  cases hcheck : (o.withdrawal amount).check with
  | error failure => exact .inr (endsBefore_of_check hamount hcheck)
  | ok _ =>
  obtain ⟨hnext, haborted⟩ := withdraw_of_check s o.baseUrl o.isConfirmed hcheck
  rw [← ofInvocation_of_amount hamount] at hnext haborted
  by_cases hagreed : Agreed s o.isConfirmed
  · obtain ⟨hrequests, herrors⟩ := hnext hagreed
    cases hsettings : s.settings o.baseUrl with
    | error fault =>
      simp only [Run.withSettings, hsettings] at hrequests herrors
      refine .inr ⟨fun other settings happroved => ?_, hrequests, ?_⟩
      · cases hsettings.symm.trans happroved.isLoaded
      · rw [herrors]
        exact Run.not_endsInHint_empty
    | ok settings =>
      simp only [Run.withSettings, hsettings] at hrequests herrors
      exact .inl ⟨amount, settings, ⟨hamount, hcheck, hagreed, hsettings⟩, hrequests, herrors⟩
  · obtain ⟨hrequests, herrors⟩ := haborted hagreed
    refine .inr ⟨fun other settings happroved => hagreed happroved.isAgreed, hrequests, ?_⟩
    rw [herrors]
    exact fun hhint => absurd (Run.suffix_of_endsInHint hhint) (by decide)

/-! ## Command lines -/

theorem exists_order_of_read? {words : List String} {i : Invocation}
    (h : Invocation.read? .withdraw words = some i) : ∃ o : WithdrawalOrder, i = o.invocation := by
  obtain ⟨a, _, h⟩ := Option.bind_eq_some_iff.mp h
  obtain ⟨command, hcommand, h⟩ := Option.bind_eq_some_iff.mp h
  obtain rfl := Option.some.inj h
  unfold Invocation.commandOf? at hcommand
  split at hcommand
  case h_5 _ coin address amount _ _ =>
    obtain ⟨network, _, hcommand⟩ := Option.bind_eq_some_iff.mp hcommand
    obtain rfl := Option.some.inj hcommand
    exact ⟨⟨coin, address, amount, network, a.has "yes", a.value? "base-url"⟩, rfl⟩
  all_goals contradiction

/-- The request that an order comes to: its address as it was typed, its coin and its network in upper
case, and its amount in digits of the same value. -/
structure IsSentAs (o : WithdrawalOrder) (amount : Decimal) (settings : Settings) (r : Request) :
    Prop where
  method : r.endpoint.method = .post
  url : r.url = Account.withoutSlashes settings.baseUrl ++ "/withdrawals" ++ "?" ++ r.query
  body : ∃ numeral : PlainNumeral, numeral.value = amount.toRat ∧
    r.body = some [("coin", Text.toUpper o.coin), ("address", o.address), ("amount", numeral.text),
      ("network", Text.toUpper o.network)]

theorem isSentAs_of_sends {r : Request}
    (hvalid : (o.withdrawal amount).check = .ok ()) (hmemory : amount.exceedsText = false)
    (h : s.Sends settings (.submitWithdrawal (o.withdrawal amount)) r) :
    o.IsSentAs amount settings r := by
  obtain ⟨numeral, htext, hvalue⟩ := amount.exists_plain
  have hpayload := Withdrawal.payload_of_check hvalid hmemory
  refine ⟨by rw [h.endpoint]; rfl, ?_, numeral, hvalue, ?_⟩
  · rw [Request.url, h.baseUrl, h.endpoint]
    rfl
  · rw [h.body _ hpayload, htext]
    rfl

end WithdrawalOrder

namespace Surroundings

/-- A request ends in a failure. -/
def Fails (s : Surroundings) (r : Request) (failure : Failure) : Prop :=
  ∃ timeout,
    ((s.script.answer r).1.delivery.settle s.platform r.endpoint timeout).outcome = .error failure

end Surroundings

namespace Run

open WithdrawalOrder

variable {s : Surroundings} {words rest : List String} {name : CommandName}

/-- The words name a command, and others follow its name. -/
def Names (words : List String) (name : CommandName) (rest : List String) : Prop :=
  ∃ a word, Arguments.read false [verbose] words = some a ∧ a.words = word :: rest ∧
    CommandName.named? word = some name

theorem ofWords_of_names (s : Surroundings) (h : Names words name rest) :
    ofWords s words = ofWords.invoke s name rest ∨
      ∃ fault, Settings.load s.source = .error fault ∧
        ofWords s words = quiet (.escaped (.settings fault)) := by
  obtain ⟨a, word, hread, hwords, hname⟩ := h
  unfold ofWords
  simp only [hread, hwords, hname]
  cases Settings.load s.source with
  | ok settings => exact .inl rfl
  | error fault =>
    cases a.has "verbose" with
    | true => exact .inl rfl
    | false => exact .inr ⟨fault, rfl, rfl⟩

/-- The words order a withdrawal that gets as far as the visit, or the run ends before. -/
theorem visits_or_ends_of_names (s : Surroundings) (h : Names words .withdraw rest) :
    (∃ o amount settings, Invocation.read? .withdraw rest = some o.invocation ∧
      Visits s o amount settings (ofWords s words)) ∨
    (∀ o : WithdrawalOrder, Invocation.read? .withdraw rest = some o.invocation →
      ∀ amount settings, ¬ Approved s o amount settings) ∧ (ofWords s words).SendsNothing := by
  rcases ofWords_of_names s h with hrun | ⟨fault, hload, hrun⟩
  · rw [hrun, ofWords.invoke]
    cases hread : Invocation.read? .withdraw rest with
    | none => exact .inr ⟨by rintro _ ⟨⟩, sendsNothing_quiet _⟩
    | some i =>
      obtain ⟨o, rfl⟩ := exists_order_of_read? hread
      rcases visits_or_endsBefore s o with ⟨amount, settings, hvisits⟩ | hends
      · exact .inl ⟨o, amount, settings, rfl, hvisits⟩
      · refine .inr ⟨?_, hends.sendsNothing⟩
        intro other hother
        obtain rfl : o = other := invocation_inj (Option.some.inj hother)
        exact hends.not_approved
  · rw [hrun]
    refine .inr ⟨?_, sendsNothing_quiet _⟩
    intro o _ amount settings happroved
    have hloaded := happroved.isLoaded
    rw [Surroundings.settings, hload] at hloaded
    cases hloaded

/-- A run that sends the request of an order, and gives the hint if that ends in an ambiguous
failure. -/
structure SendsOrder (s : Surroundings) (o : WithdrawalOrder) (amount : Decimal)
    (settings : Settings) (r : Request) (run : Run) : Prop where
  requests : run.requests = [r]
  isSentAs : o.IsSentAs amount settings r
  endsInHint_iff : EndsInHint run.errors ↔ ∃ failure, s.Fails r failure ∧ failure.IsAmbiguous

/-- A visit is made once everything is settled, and it sends its request unless the credentials or
the clock prevent it, or the request cannot be written out. -/
theorem sends_or_not_of_visits {o : WithdrawalOrder} {amount : Decimal} {settings : Settings}
    {run : Run} (h : Visits s o amount settings run) :
    (∃ credentials millis r,
      s.CanSend settings (.submitWithdrawal (o.withdrawal amount)) credentials millis ∧
      SendsOrder s o amount settings r run) ∨
    (∀ credentials millis,
      ¬ s.CanSend settings (.submitWithdrawal (o.withdrawal amount)) credentials millis) ∧
      run.SendsNothing := by
  have hrequests := h.requests.trans requests_submit
  by_cases hsend : ∃ credentials millis,
      s.CanSend settings (.submitWithdrawal (o.withdrawal amount)) credentials millis
  · obtain ⟨credentials, millis, hsend⟩ := hsend
    obtain ⟨r, hsends⟩ := Surroundings.exists_sends hsend
    obtain ⟨payload, hpayload, _⟩ := hsend.isWritable
    obtain ⟨fields, hfields, _⟩ := exists_of_map_eq_ok hpayload
    obtain ⟨_, hmemory, _⟩ := checkedBody_eq_ok_iff.mp hfields
    refine .inl ⟨credentials, millis, r, hsend, hrequests.trans hsends.requests,
      isSentAs_of_sends h.approved.isValid hmemory hsends, ?_⟩
    have houtcome : ∀ failure, s.Fails r failure ↔
        (s.call settings (.submitWithdrawal (o.withdrawal amount))).outcome = .error failure := by
      intro failure
      rw [hsends.outcome]
      constructor
      · rintro ⟨timeout, h⟩
        rw [Delivery.outcome_settle_congr _ _ _ settings.timeout timeout]
        exact h
      · exact fun h => ⟨_, h⟩
    rw [h.errors, endsInHint_submit]
    · simp only [houtcome]
    · intro field reason
      rw [hsends.outcome]
      exact Delivery.settle_ne_validation _ _ _ _ field reason
  · have hcannot : ∀ credentials millis,
        ¬ s.CanSend settings (.submitWithdrawal (o.withdrawal amount)) credentials millis :=
      fun credentials millis h => hsend ⟨credentials, millis, h⟩
    have hvast : ∀ failure, (Call.submitWithdrawal (o.withdrawal amount)).payload = .error failure →
        failure.isGateway = false := by
      intro failure hfailure
      rcases checkedBody_eq_error_iff.mp (eq_error_of_map hfailure) with hcheck | ⟨_, _, rfl⟩
      · cases h.approved.isValid.symm.trans hcheck
      · rfl
    obtain ⟨hnone, failure, houtcome, hlocal⟩ :=
      Surroundings.requests_of_cannot_send hcannot hvast
    refine .inr ⟨hcannot, hrequests.trans hnone, ?_⟩
    rw [h.errors, endsInHint_submit]
    · rintro ⟨other, hother, hambiguous⟩
      obtain rfl : failure = other := Except.error.inj (houtcome.symm.trans hother)
      rcases hlocal with ⟨missing, rfl⟩ | hother
      · cases hambiguous
      · cases hambiguous <;> cases hother
    · rintro field reason h
      obtain rfl : failure = _ := Except.error.inj (houtcome.symm.trans h)
      rcases hlocal with ⟨missing, h⟩ | h <;> cases h

/-- Everything that a withdrawal takes, from the words to the request. -/
structure IsReady (s : Surroundings) (rest : List String) (o : WithdrawalOrder) (amount : Decimal)
    (settings : Settings) (credentials : Credentials) (millis : Int) : Prop where
  isRead : Invocation.read? .withdraw rest = some o.invocation
  isApproved : Approved s o amount settings
  canSend : s.CanSend settings (.submitWithdrawal (o.withdrawal amount)) credentials millis

theorem sends_or_not_of_names (s : Surroundings) (h : Names words .withdraw rest) :
    let run := ofWords s words
    (∃ o amount settings credentials millis r,
      IsReady s rest o amount settings credentials millis ∧
      SendsOrder s o amount settings r run) ∨
    (∀ o amount settings credentials millis,
      ¬ IsReady s rest o amount settings credentials millis) ∧ run.SendsNothing := by
  intro run
  rcases visits_or_ends_of_names s h with ⟨o, amount, settings, hread, hvisits⟩ | ⟨hnot, hnothing⟩
  · rcases sends_or_not_of_visits hvisits with
      ⟨credentials, millis, r, hsend, hsends⟩ | ⟨hcannot, hnothing⟩
    · exact .inl ⟨o, amount, settings, credentials, millis, r,
        ⟨hread, hvisits.approved, hsend⟩, hsends⟩
    · refine .inr ⟨?_, hnothing⟩
      intro other otherAmount otherSettings credentials millis hready
      obtain rfl : o = other :=
        invocation_inj (Option.some.inj (hread.symm.trans hready.isRead))
      obtain ⟨rfl, rfl⟩ := hvisits.approved.unique hready.isApproved
      exact hcannot credentials millis hready.canSend
  · refine .inr ⟨?_, hnothing⟩
    intro o amount settings credentials millis hready
    exact hnot o hready.isRead amount settings hready.isApproved

/-- A command line that orders a withdrawal sends one request at most. It sends one only if the amount
is a number, the withdrawal passes its check, the user has agreed, and key and secret are set. The
hint is due exactly if this one request has ended in an ambiguous failure. -/
theorem withdraw_sends_at_most_once (h : Names words .withdraw rest) (s : Surroundings) :
    let run := ofWords s words
    run.requests.length ≤ 1 ∧
    (∀ r ∈ run.requests, ∃ o amount settings key secret,
      Invocation.read? .withdraw rest = some o.invocation ∧ Approved s o amount settings ∧
      settings.apiKey = some key ∧ key ≠ "" ∧ settings.apiSecret = some secret ∧ secret ≠ "" ∧
      o.IsSentAs amount settings r) ∧
    (EndsInHint run.errors ↔ ∃ r failure, run.requests = [r] ∧ s.Fails r failure ∧
      failure.IsAmbiguous) := by
  intro run
  rcases sends_or_not_of_names s h with
    ⟨o, amount, settings, credentials, millis, r, hready, hrequests, hsent, hhint⟩ |
    ⟨hnot, hrequests, hhint⟩
  · obtain ⟨⟨hkey, hkeyNe⟩, hsecret, hsecretNe⟩ :=
      Settings.credentials_eq_ok_iff.mp hready.canSend.credentials
    refine ⟨by rw [hrequests]; exact Nat.le_refl 1, ?_, ?_⟩
    · intro other hother
      rw [hrequests] at hother
      obtain rfl := List.mem_singleton.mp hother
      exact ⟨o, amount, settings, _, _, hready.isRead, hready.isApproved, hkey, hkeyNe, hsecret,
        hsecretNe, hsent⟩
    · refine hhint.trans ⟨fun ⟨failure, hfails⟩ => ⟨r, failure, hrequests, hfails⟩, ?_⟩
      rintro ⟨other, failure, hother, hfails⟩
      obtain rfl : r = other := List.singleton_inj.mp (hrequests.symm.trans hother)
      exact ⟨failure, hfails⟩
  · refine ⟨by rw [hrequests]; exact Nat.zero_le 1, by simp [run, hrequests], ?_⟩
    refine ⟨fun h => absurd h hhint, ?_⟩
    rintro ⟨r, _, hr, _⟩
    cases hrequests.symm.trans hr

/-- A small withdrawal that is confirmed beforehand. -/
theorem withdraw_sends_small_amount_once :
    let words := ["withdraw", "usdt", "0123456789a", "5", "--network", "xyz", "--yes"]
    let start : Moment := ⟨0, some 0, by decide⟩
    let source : Settings.Source :=
      ⟨[("PAYDASH_API_KEY", "key"), ("PAYDASH_API_SECRET", "secret")], []⟩
    let s : Surroundings := ⟨source, "", [], [.whole 0], start, Platform.usual⟩
    Names words .withdraw words.tail ∧ (ofWords s words).requests.length = 1 := by
  intro words start source s
  have hnames : Names words .withdraw words.tail := by
    refine ⟨⟨[], words⟩, "withdraw", ?_, rfl, by decide⟩
    rw [Arguments.read]
    rfl
  let o : WithdrawalOrder := ⟨"usdt", "0123456789a", "5", "xyz", true, none⟩
  have hread : Invocation.read? .withdraw words.tail = some o.invocation := by
    have hparts : (Arguments.read true CommandName.withdraw.switches words.tail).map
        (fun a => (a.switches, a.words)) =
          some ([("network", "xyz"), ("yes", "")], ["usdt", "0123456789a", "5"]) := by
      decide +kernel
    obtain ⟨a, ha, hsame⟩ := Option.map_eq_some_iff.mp hparts
    obtain rfl : a = ⟨[("network", "xyz"), ("yes", "")], ["usdt", "0123456789a", "5"]⟩ := by
      obtain ⟨switches, given⟩ := a
      simpa using hsame
    rw [Invocation.read?, ha]
    rfl
  have hamount : Decimal.read? "5" = some ⟨false, 5, 0⟩ := by decide +kernel
  have hvalid : (o.withdrawal ⟨false, 5, 0⟩).check = .ok () := by decide
  have hpayload := Withdrawal.payload_of_check hvalid (by decide)
  have hwritable : Query.areWritable
      (Request.signedPairs (.body (o.withdrawal ⟨false, 5, 0⟩).body) 0) = true := by
    decide +kernel
  have hready : IsReady s words.tail o ⟨false, 5, 0⟩ _ ⟨"key", "secret"⟩ 0 :=
    ⟨hread, ⟨hamount, hvalid, .inl rfl, rfl⟩, ⟨rfl, rfl, _, hpayload, hwritable⟩⟩
  obtain ⟨hmost, _⟩ := withdraw_sends_at_most_once hnames s
  rcases sends_or_not_of_names s hnames with ⟨_, _, _, _, _, r, _, hsends⟩ | ⟨hnot, _⟩
  · have hsome : 0 < (ofWords s words).requests.length := by
      rw [hsends.requests]
      exact Nat.one_pos
    exact ⟨hnames, Nat.le_antisymm hmost hsome⟩
  · exact absurd hready (hnot _ _ _ _ _)

end Run

end GatewayLedger
