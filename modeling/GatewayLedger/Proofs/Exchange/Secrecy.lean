import GatewayLedger.Proofs.Exchange.Sequence

/-!
# What credentials show up in

Two clients whose accounts differ in their credentials alone make alike requests, and an exchange
that answers by method and place gives them the same answers. So every call of the one ends as the
same call of the other, with the same outcome and the same lines in the log. A secret leaves its mark
on the signatures only, and a key on one header.
-/

namespace GatewayLedger

/-! ## Alike requests -/

namespace Signature

/-- A signature is a digest of 32 bytes in lower-case hexadecimal digits. -/
def IsDigest (signature : String) : Prop :=
  signature.length = 64 ∧ ∀ c ∈ signature.toList, c ∈ "0123456789abcdef".toList

theorem isDigest_ofText (secret text : String) : IsDigest (ofText secret text) := by
  unfold ofText
  generalize hbytes : Hmac.authenticate (Text.encodeUtf8 secret) (Text.encodeUtf8 text) = bytes
  have hcount : bytes.length = 32 := hbytes ▸ Hmac.length_authenticate _ _
  refine ⟨?_, fun c hc => ?_⟩
  · simp [← String.length_toList, Hmac.hexText, List.length_flatMap,
      Text.Hexadecimal.length_lowerDigits, hcount]
  · have hdigit : ∀ k : Fin 16,
        Text.Hexadecimal.lowerDigit k ∈ "0123456789abcdef".toList := by decide
    obtain ⟨k, hk, rfl⟩ := Hmac.exists_of_mem_hexText hc
    exact hdigit ⟨k, hk⟩

end Signature

namespace Request

/-- Requests to one endpoint of one exchange. -/
structure SamePlace (r s : Request) : Prop where
  endpoint_eq : r.endpoint = s.endpoint
  baseUrl_eq : r.baseUrl = s.baseUrl

/-- The same request, except for the value of the signature at the end of the query. -/
structure SameButSignature (r s : Request) : Prop extends SamePlace r s where
  headers_eq : r.headers = s.headers
  body_eq : r.body = s.body
  query : ∃ signed signature other, Signature.IsDigest signature ∧ Signature.IsDigest other ∧
    r.query = signed ++ "&signature=" ++ signature ∧ s.query = signed ++ "&signature=" ++ other

/-- The same request, except for the value of the header with the key. -/
structure SameButKey (r s : Request) : Prop extends SamePlace r s where
  headers : List.Forall₂ (fun h k => h.1 = k.1 ∧ (h.1 ≠ "X-API-KEY" → h.2 = k.2)) r.headers s.headers
  body_eq : r.body = s.body
  query_eq : r.query = s.query

variable {r s : Request} {R : Request → Request → Prop}

theorem SamePlace.location_eq (h : r.SamePlace s) : Route.location r = Route.location s := by
  have hcut : ∀ (before rest other : List Char),
      (before ++ '?' :: rest).takeWhile (· != '?') = (before ++ '?' :: other).takeWhile (· != '?') := by
    intro before rest other
    rw [List.takeWhile_append, List.takeWhile_append, List.takeWhile_cons_of_neg (by decide),
      List.takeWhile_cons_of_neg (by decide)]
  have hurl : ∀ q : Request, q.url.toList =
      (q.baseUrl ++ q.endpoint.path).toList ++ '?' :: q.query.toList := by
    intro q
    simp only [Request.url, String.toList_append, List.append_assoc]
    rfl
  rw [Route.location, Route.location, hurl, hurl, h.endpoint_eq, h.baseUrl_eq,
    hcut _ r.query.toList s.query.toList]

/-- What two accounts make of the same call. -/
inductive MadeAlike (R : Request → Request → Prop) :
    Except GatewayError Request → Except GatewayError Request → Prop
  | made {r s : Request} (h : R r s) : MadeAlike R (.ok r) (.ok s)
  | refused (e : GatewayError) : MadeAlike R (.error e) (.error e)

end Request

/-- An exchange answers by method and place alone. -/
theorem Script.answer_congr {r s : Request} (script : Script) (h : r.SamePlace s) :
    script.answer r = script.answer s := by
  induction script with
  | nil => rfl
  | cons route rest ih =>
    have hfits : route.fits r = route.fits s := by
      rw [Route.fits, Route.fits, h.endpoint_eq, h.location_eq]
    rw [answer, answer, hfits, ih]

/-! ## Alike clients -/

open Request (MadeAlike)

/-- Accounts that make alike requests of all calls. -/
structure Account.Alike (R : Request → Request → Prop) (a b : Account) : Prop where
  timeout_eq : a.timeout = b.timeout
  make : ∀ e payload millis, MadeAlike R (Request.make a e payload millis)
    (Request.make b e payload millis)
  samePlace : ∀ {r s}, R r s → r.SamePlace s

/-- Calls that end in the same way and whose requests are alike. -/
structure Issued.Alike (R : Request → Request → Prop) (i j : Issued) : Prop where
  request : Option.Rel R i.request j.request
  delay_eq : i.delay = j.delay
  settlement_eq : i.settlement = j.settlement

theorem Issued.alike_refused (R : Request → Request → Prop) (failure : Failure) :
    Issued.Alike R (.refused failure) (.refused failure) := ⟨.none, rfl, rfl⟩

namespace Client

/-- Clients of alike accounts that are in the same state otherwise. -/
structure Alike (R : Request → Request → Prop) (c d : Client) : Prop where
  account : c.account.Alike R d.account
  sessions_eq : c.sessions = d.sessions
  clock_eq : c.clock = d.clock
  script_eq : c.script = d.script
  platform_eq : c.platform = d.platform

variable {R : Request → Request → Prop} {c d : Client} {r s : Request}

theorem Alike.readClock (h : c.Alike R d) :
    c.readClock.1 = d.readClock.1 ∧ c.readClock.2.Alike R d.readClock.2 := by
  obtain ⟨account, sessions, clock, script, platform⟩ := c
  obtain ⟨other, _, _, _, _⟩ := d
  obtain ⟨haccount, rfl, rfl, rfl, rfl⟩ := h
  match clock with
  | [] => exact ⟨rfl, haccount, rfl, rfl, rfl, rfl⟩
  | [_] => exact ⟨rfl, haccount, rfl, rfl, rfl, rfl⟩
  | _ :: _ :: _ => exact ⟨rfl, haccount, rfl, rfl, rfl, rfl⟩

theorem Alike.prepare (h : c.Alike R d) (e : Endpoint) (payload : Payload) (now : Seconds) :
    (∃ r s, c.prepare e payload now = .ok r ∧ d.prepare e payload now = .ok s ∧ R r s) ∨
      ∃ failure, c.prepare e payload now = .error failure ∧
        d.prepare e payload now = .error failure := by
  unfold Client.prepare
  cases now.millis with
  | error fault => exact .inr ⟨_, rfl, rfl⟩
  | ok millis =>
    have hmade := h.account.make e payload millis
    dsimp only [Except.mapError, bind, Except.bind]
    generalize Request.make c.account e payload millis = made at hmade ⊢
    generalize Request.make d.account e payload millis = other at hmade ⊢
    cases hmade with
    | made hr =>
      dsimp only
      split
      · exact .inl ⟨_, _, rfl, rfl, hr⟩
      · exact .inr ⟨_, rfl, rfl⟩
    | refused e => exact .inr ⟨_, rfl, rfl⟩

theorem Alike.send (h : c.Alike R d) (hr : R r s) :
    (c.send r).1.Alike R (d.send s).1 ∧ (c.send r).2.Alike R (d.send s).2 := by
  have hplace := h.account.samePlace hr
  have hanswer : c.script.answer r = d.script.answer s := by
    rw [h.script_eq, d.script.answer_congr hplace]
  unfold Client.send
  rw [hanswer, h.sessions_eq, h.account.timeout_eq, hplace.endpoint_eq, h.platform_eq]
  exact ⟨⟨.some hr, rfl, rfl⟩, h.account, rfl, h.clock_eq, rfl, rfl⟩

theorem Alike.issue (h : c.Alike R d) (call : Call) :
    (c.issue call).1.Alike R (d.issue call).1 ∧ (c.issue call).2.Alike R (d.issue call).2 := by
  unfold Client.issue
  cases call.payload with
  | error failure => exact ⟨Issued.alike_refused R failure, h⟩
  | ok payload =>
    obtain ⟨hnow, hnext⟩ := h.readClock
    dsimp only
    rw [hnow]
    rcases hnext.prepare call.endpoint payload d.readClock.1 with
      ⟨r, s, hr, hs, halike⟩ | ⟨failure, hr, hs⟩
    · rw [hr, hs]
      exact hnext.send halike
    · rw [hr, hs]
      exact ⟨Issued.alike_refused R failure, hnext⟩

theorem Alike.perform (h : c.Alike R d) (step : Step) :
    List.Forall₂ (Issued.Alike R) (c.perform step).1 (d.perform step).1 ∧
      (c.perform step).2.Alike R (d.perform step).2 := by
  cases step with
  | call call =>
    obtain ⟨hissued, hnext⟩ := h.issue call
    exact ⟨.cons hissued .nil, hnext⟩
  | close =>
    have hsessions : c.sessions.close = d.sessions.close := congrArg Sessions.close h.sessions_eq
    exact ⟨.nil, h.account, hsessions, h.clock_eq, h.script_eq, h.platform_eq⟩
  | closeGiven =>
    have hsessions : c.sessions.closeGiven = d.sessions.closeGiven :=
      congrArg Sessions.closeGiven h.sessions_eq
    exact ⟨.nil, h.account, hsessions, h.clock_eq, h.script_eq, h.platform_eq⟩

/-- Alike clients do alike things, whatever is done with them. -/
theorem Alike.performAll (h : c.Alike R d) (steps : List Step) :
    List.Forall₂ (Issued.Alike R) (c.performAll steps).1 (d.performAll steps).1 ∧
      (c.performAll steps).2.Alike R (d.performAll steps).2 := by
  induction steps generalizing c d with
  | nil => exact ⟨.nil, h⟩
  | cons step rest ih =>
    obtain ⟨hfirst, hnext⟩ := h.perform step
    obtain ⟨hrest, hlast⟩ := ih hnext
    exact ⟨List.rel_append hfirst hrest, hlast⟩

end Client

/-! ## Other credentials -/

namespace Account

variable {a b : Account}

/-- Accounts with two secrets and nothing else that is different. -/
structure DifferInSecret (a b : Account) : Prop where
  apiKey_eq : a.apiKey = b.apiKey
  baseUrl_eq : a.baseUrl = b.baseUrl
  timeout_eq : a.timeout = b.timeout
  secret_ne : a.secret ≠ ""
  other_ne : b.secret ≠ ""

/-- Accounts with two keys and nothing else that is different. -/
structure DifferInKey (a b : Account) : Prop where
  secret_eq : a.secret = b.secret
  baseUrl_eq : a.baseUrl = b.baseUrl
  timeout_eq : a.timeout = b.timeout

theorem DifferInSecret.alike (h : a.DifferInSecret b) : a.Alike Request.SameButSignature b := by
  refine ⟨h.timeout_eq, fun e payload millis => ?_, fun hr => hr.toSamePlace⟩
  simp only [Request.make, Request.headersOf, Request.sign_of_ne_empty h.secret_ne,
    Request.sign_of_ne_empty h.other_ne, h.baseUrl_eq, h.apiKey_eq, bind, Except.bind]
  refine .made ⟨⟨rfl, rfl⟩, rfl, rfl, _, _, _, ?_, ?_, rfl, rfl⟩
  · exact Signature.isDigest_ofText _ _
  · exact Signature.isDigest_ofText _ _

theorem DifferInKey.alike (h : a.DifferInKey b) : a.Alike Request.SameButKey b := by
  refine ⟨h.timeout_eq, fun e payload millis => ?_, fun hr => hr.toSamePlace⟩
  simp only [Request.make, h.secret_eq, h.baseUrl_eq, bind, Except.bind]
  cases Signature.sign b.secret (Request.signedPairs payload millis) with
  | error missing => exact .refused missing
  | ok signature =>
    refine .made ⟨⟨rfl, rfl⟩, ?_, rfl, rfl⟩
    exact .cons ⟨rfl, fun hne => absurd rfl hne⟩ (.cons ⟨rfl, fun _ => rfl⟩
      (.cons ⟨rfl, fun _ => rfl⟩ .nil))

end Account

namespace Client

/-- Clients in one state with the accounts of a relation. -/
structure DifferInAccount (D : Account → Account → Prop) (c d : Client) : Prop where
  account : D c.account d.account
  sessions_eq : c.sessions = d.sessions
  clock_eq : c.clock = d.clock
  script_eq : c.script = d.script
  platform_eq : c.platform = d.platform

variable {c d : Client}

theorem DifferInAccount.alike {D : Account → Account → Prop} {R : Request → Request → Prop}
    (h : DifferInAccount D c d) (hD : ∀ {a b : Account}, D a b → a.Alike R b) : c.Alike R d :=
  ⟨hD h.account, h.sessions_eq, h.clock_eq, h.script_eq, h.platform_eq⟩

/-- Another secret changes the signatures of the requests and nothing else, and another key changes
one header of them: all calls end with the same outcome and the same lines of the log. -/
theorem credentials_show_in_requests_only (c d : Client) (steps : List Step) :
    (DifferInAccount Account.DifferInSecret c d →
      List.Forall₂ (Issued.Alike Request.SameButSignature) (c.performAll steps).1
        (d.performAll steps).1) ∧
    (DifferInAccount Account.DifferInKey c d →
      List.Forall₂ (Issued.Alike Request.SameButKey) (c.performAll steps).1
        (d.performAll steps).1) := by
  refine ⟨fun h => ?_, fun h => ?_⟩
  · exact ((h.alike Account.DifferInSecret.alike).performAll steps).1
  · exact ((h.alike Account.DifferInKey.alike).performAll steps).1

/-- Balances are asked for twice, in the name of accounts with another secret and with another key. -/
theorem credentials_show_in_two_calls :
    let account (key secret : String) (h : key ≠ "") : Account :=
      ⟨key, secret, "http://h/api", Binary64.ofInt 15, h⟩
    let client (a : Account) : Client :=
      ⟨a, Sessions.initial, [.whole 1700000000], [⟨"GET", "/account", [⟨0, .timedOut⟩]⟩],
        Platform.usual⟩
    let c := client (account "key" "secret" (by decide))
    let d := client (account "key" "other" (by decide))
    let k := client (account "other" "secret" (by decide))
    let steps : List Step := [.call .balances, .close, .call .balances]
    (DifferInAccount Account.DifferInSecret c d ∧ DifferInAccount Account.DifferInKey c k) ∧
      List.Forall₂ (Issued.Alike Request.SameButSignature) (c.performAll steps).1
        (d.performAll steps).1 ∧
      List.Forall₂ (Issued.Alike Request.SameButKey) (c.performAll steps).1
        (k.performAll steps).1 := by
  intro account client c d k steps
  have hsecret : DifferInAccount Account.DifferInSecret c d :=
    ⟨⟨rfl, rfl, rfl, by decide, by decide⟩, rfl, rfl, rfl, rfl⟩
  have hkey : DifferInAccount Account.DifferInKey c k := ⟨⟨rfl, rfl, rfl⟩, rfl, rfl, rfl, rfl⟩
  exact ⟨⟨hsecret, hkey⟩, (credentials_show_in_requests_only c d steps).1 hsecret,
    (credentials_show_in_requests_only c k steps).2 hkey⟩

end Client

end GatewayLedger
