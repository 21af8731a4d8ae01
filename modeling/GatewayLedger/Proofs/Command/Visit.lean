import GatewayLedger.Command.Run
import GatewayLedger.Proofs.Exchange.Reply

/-!
# Visits to the exchange

A command that makes one call visits the exchange once. It sends one request if the settings hold a
key and a secret and the clock has a millisecond, and none otherwise; what it brings back is then what
becomes of that request.
-/

namespace GatewayLedger

namespace Settings

variable {s : Settings} {c : Credentials} {e : GatewayError}

theorem filled?_eq_some_iff {text : Option String} {value : String} :
    filled? text = some value ↔ text = some value ∧ value ≠ "" := by
  unfold filled?
  split
  · simp only [reduceCtorEq, Option.some.injEq, false_iff, not_and, not_not]
    exact Eq.symm
  · next hne =>
    refine ⟨fun h => ⟨h, ?_⟩, And.left⟩
    rintro rfl
    exact hne h

theorem credentials_eq_ok_iff : s.credentials = .ok c ↔
    (s.apiKey = some c.apiKey ∧ c.apiKey ≠ "") ∧ s.apiSecret = some c.secret ∧ c.secret ≠ "" := by
  rw [← filled?_eq_some_iff, ← filled?_eq_some_iff]
  unfold credentials
  split
  · next h => simp [h]
  · next h => simp [h]
  · next hkey hsecret =>
    obtain ⟨apiKey, secret⟩ := c
    simp [hkey, hsecret]

theorem exists_missing_of_credentials (h : s.credentials = .error e) :
    ∃ missing, e = .configuration missing := by
  unfold credentials at h
  split at h
  · exact ⟨_, (Except.error.inj h).symm⟩
  · exact ⟨_, (Except.error.inj h).symm⟩
  · cases h

end Settings

namespace Request

variable {a : Account} {e : Endpoint} {payload : Payload} {millis : Int} {r : Request}

theorem body_of_make {fields : List (String × String)}
    (h : make a e (.body fields) millis = .ok r) : r.body = some fields := by
  obtain ⟨signature, _, h⟩ := exists_of_bind_eq_ok h
  cases h
  rfl

end Request

namespace Delivery

/-- How long the transport waited matters to the log only. -/
theorem outcome_settle_congr (d : Delivery) (p : Platform) (e : Endpoint)
    (timeout other : Binary64) :
    (d.settle p e timeout).outcome = (d.settle p e other).outcome := by
  cases d <;> rfl

theorem settle_ne_validation (d : Delivery) (p : Platform) (e : Endpoint) (timeout : Binary64)
    (field reason : String) :
    (d.settle p e timeout).outcome ≠ .error (.gateway (.validation field reason)) := by
  cases d with
  | reply r =>
    intro h
    rw [settle, Reply.settle] at h
    split at h
    · next text _ =>
      have hunderstood := r.understood_settleText p.nesting e text
      rw [h] at hunderstood
      cases hunderstood
    · cases h
  | timedOut => simp [settle]
  | broken breakage text => simp [settle]
  | defect => simp [settle]

end Delivery

namespace Client

variable {c : Client} {call : Call} {payload : Payload}

theorem readClock_fst (c : Client) : c.readClock.1 = c.clock.headD (.whole 0) := by
  unfold readClock
  split <;> simp_all

theorem issue_of_clock {fault : Seconds.Fault} (hpayload : call.payload = .ok payload)
    (hclock : c.readClock.1.millis = .error fault) :
    c.issue call = (.refused (failureOfClock fault), c.readClock.2) := by
  simp only [issue, hpayload, prepare, hclock, Except.mapError, bind, Except.bind]

theorem issue_of_not_writable {millis : Int} (hpayload : call.payload = .ok payload)
    (hclock : c.readClock.1.millis = .ok millis) (hsecret : c.account.secret ≠ "")
    (h : ¬ Query.areWritable (Request.signedPairs payload millis) = true) :
    c.issue call = (.refused .integerTooLong, c.readClock.2) := by
  obtain ⟨r, hr, _⟩ := Request.exists_make hsecret call.endpoint payload millis
  simp only [issue, hpayload, prepare, hclock, account_readClock, hr, h, if_false, Except.mapError,
    bind, Except.bind, Bool.false_eq_true]

theorem isGateway_failureOfClock (fault : Seconds.Fault) :
    (failureOfClock fault).isGateway = false := by
  cases fault <;> rfl

end Client

namespace Surroundings

variable {s : Surroundings} {settings : Settings} {c : Credentials} {call : Call}
  {payload : Payload} {millis : Int}

/-- What it takes to send a request that passes its check: credentials, the time, and that all of it
can be written out. -/
structure CanSend (s : Surroundings) (settings : Settings) (call : Call) (c : Credentials)
    (millis : Int) : Prop where
  credentials : settings.credentials = .ok c
  clock : (s.clock.headD (.whole 0)).millis = .ok millis
  isWritable : ∃ payload, call.payload = .ok payload ∧
    Query.areWritable (Request.signedPairs payload millis) = true

theorem exists_client (s : Surroundings) (h : settings.credentials = .ok c) :
    ∃ account : Account,
      s.client settings = .ok ⟨account, Sessions.initial, s.clock, s.script, s.platform⟩ ∧
      account.secret = c.secret ∧ account.baseUrl = Account.withoutSlashes settings.baseUrl ∧
      account.timeout = settings.timeout := by
  obtain ⟨⟨_, hkey⟩, _⟩ := Settings.credentials_eq_ok_iff.mp h
  refine ⟨⟨c.apiKey, c.secret, Account.withoutSlashes settings.baseUrl, settings.timeout, hkey⟩, ?_,
    rfl, rfl, rfl⟩
  simp only [client, h, Account.make, hkey, ↓reduceDIte, bind, Except.bind]

/-- A visit that sends a request, and brings back what becomes of it. -/
structure Sends (s : Surroundings) (settings : Settings) (call : Call) (r : Request) : Prop where
  requests : (s.call settings call).requests = [r]
  endpoint : r.endpoint = call.endpoint
  baseUrl : r.baseUrl = Account.withoutSlashes settings.baseUrl
  body : ∀ fields, call.payload = .ok (.body fields) → r.body = some fields
  outcome : (s.call settings call).outcome =
    ((s.script.answer r).1.delivery.settle s.platform r.endpoint settings.timeout).outcome

theorem exists_sends (h : s.CanSend settings call c millis) : ∃ r, s.Sends settings call r := by
  obtain ⟨payload, hpayload, hwritable⟩ := h.isWritable
  obtain ⟨account, hclient, hsecret, hbase, htimeout⟩ := s.exists_client h.credentials
  obtain ⟨_, _, hne⟩ := Settings.credentials_eq_ok_iff.mp h.credentials
  let client : Client := ⟨account, Sessions.initial, s.clock, s.script, s.platform⟩
  have hclock : client.readClock.1.millis = .ok millis := by
    rw [client.readClock_fst]
    exact h.clock
  obtain ⟨r, hr, hendpoint⟩ :=
    Request.exists_make (hsecret ▸ hne) call.endpoint payload millis
  have hissue : client.issue call = client.readClock.2.send r :=
    Client.issue_eq_send hpayload hclock hwritable hr
  have hscript : client.readClock.2.script = s.script := client.script_readClock
  have hcall : s.call settings call = ⟨(client.issue call).1.settlement.outcome,
      (client.issue call).1.request.toList, (client.issue call).2.close.sessions, []⟩ := by
    simp only [Surroundings.call, visit, hclient]
    rfl
  refine ⟨r, ?_, hendpoint, ?_, ?_, ?_⟩
  · rw [hcall, hissue]
    rfl
  · rw [Request.baseUrl_of_make hr, hbase]
  · intro fields hfields
    obtain rfl : payload = .body fields := Except.ok.inj (hpayload.symm.trans hfields)
    exact Request.body_of_make hr
  · rw [hcall, hissue]
    have haccount : client.readClock.2.account = account := client.account_readClock
    have hplatform : client.readClock.2.platform = s.platform := client.platform_readClock
    simp only [Client.send, hscript, haccount, htimeout, hplatform]

/-- Without that, nothing is sent. The visit then brings back a failure that is one of the
configuration or none of the exchange. -/
theorem requests_of_cannot_send (h : ∀ c millis, ¬ s.CanSend settings call c millis)
    (hlocal : ∀ failure, call.payload = .error failure → failure.isGateway = false) :
    (s.call settings call).requests = [] ∧ ∃ failure,
      (s.call settings call).outcome = .error failure ∧
      ((∃ missing, failure = .gateway (.configuration missing)) ∨ failure.isGateway = false) := by
  cases hcredentials : settings.credentials with
  | error e =>
    obtain ⟨missing, rfl⟩ := Settings.exists_missing_of_credentials hcredentials
    have hclient : s.client settings = .error (.configuration missing) := by
      simp only [client, hcredentials, bind, Except.bind]
    simp only [Surroundings.call, visit, hclient]
    exact ⟨trivial, _, rfl, .inl ⟨missing, rfl⟩⟩
  | ok c =>
    obtain ⟨account, hclient, hsecret, _⟩ := s.exists_client hcredentials
    obtain ⟨_, _, hne⟩ := Settings.credentials_eq_ok_iff.mp hcredentials
    let client : Client := ⟨account, Sessions.initial, s.clock, s.script, s.platform⟩
    have hread : client.readClock.1 = s.clock.headD (.whole 0) := client.readClock_fst
    have hrefused : ∃ failure later, client.issue call = (.refused failure, later) ∧
        failure.isGateway = false := by
      cases hpayload : call.payload with
      | error failure =>
        exact ⟨failure, client, by simp only [Client.issue, hpayload], hlocal failure hpayload⟩
      | ok payload =>
      cases hclock : (s.clock.headD (.whole 0)).millis with
      | error fault =>
        exact ⟨_, _, Client.issue_of_clock hpayload (by rw [hread]; exact hclock),
          Client.isGateway_failureOfClock fault⟩
      | ok millis =>
        have hlong : ¬ Query.areWritable (Request.signedPairs payload millis) = true :=
          fun hwritable => h c millis ⟨hcredentials, hclock, payload, hpayload, hwritable⟩
        exact ⟨_, _, Client.issue_of_not_writable hpayload (by rw [hread]; exact hclock)
          (hsecret ▸ hne) hlong, rfl⟩
    obtain ⟨failure, later, hissue, hfailure⟩ := hrefused
    simp only [Surroundings.call, visit, hclient]
    rw [hissue]
    exact ⟨rfl, failure, rfl, .inr hfailure⟩

end Surroundings

end GatewayLedger
