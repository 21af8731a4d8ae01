import GatewayLedger.Proofs.Exchange.Request
import Mathlib.Data.List.TakeWhile

/-!
# What an answer comes to

Each status has one meaning: 401 and 403 reject the account, 429 asks to wait, and whatever else lies
outside the range from 200 to 299 is unexpected. Within it a blank body is an empty object and any
other one has to be JSON. A caller sees a value or an error of the exchange, with
three exceptions: a body that its codec refuses, one that is nested too deep, and an integer in the
body that has more digits than are read. Each of them fails with a cause of its own.
-/

namespace GatewayLedger

/-! ## Integers of many digits -/

namespace Json

/-- The digits that an integer may begin with. -/
def leadingDigits : List Char := ['1', '2', '3', '4', '5', '6', '7', '8', '9']

variable {c : Char} {ds : List Char}

/-- What is true of every leading digit one by one. -/
theorem of_mem_leadingDigits {p : Char → Bool} (hall : leadingDigits.all p = true)
    (h : c ∈ leadingDigits) : p c = true := List.all_eq_true.mp hall c h

theorem readValue_eq_readUnsigned (h : c ∈ leadingDigits) (fuel depth : Nat) (ds : List Char) :
    readValue (fuel + 1) depth (c :: ds) = readUnsigned false (c :: ds) := by
  simp only [leadingDigits, List.mem_cons, List.not_mem_nil, or_false] at h
  rcases h with rfl | rfl | rfl | rfl | rfl | rfl | rfl | rfl | rfl <;> rfl

theorem readWhole?_of_digits (h : c ∈ leadingDigits) (hdigits : ∀ d ∈ ds, Text.isAsciiDigit d = true) :
    readWhole? (c :: ds) = some (c :: ds, []) := by
  have hall : ∀ d ∈ c :: ds, Text.isAsciiDigit d = true := by
    intro d hd
    rcases List.mem_cons.mp hd with rfl | hd
    · exact of_mem_leadingDigits (by decide) h
    · exact hdigits d hd
  have hzero : c ≠ '0' := bne_iff_ne.mp (of_mem_leadingDigits (p := (· != '0')) (by decide) h)
  have htake := List.takeWhile_eq_self_iff.mpr hall
  have hdrop := List.dropWhile_eq_nil_iff.mpr hall
  unfold readWhole?
  split
  · next hcs => exact absurd (List.cons.inj hcs).1 hzero
  · rw [htake, hdrop]
    rfl

theorem readNested_of_many_digits (depth : Nat) (h : c ∈ leadingDigits) (hdigits : ∀ d ∈ ds, Text.isAsciiDigit d = true)
    (hlong : maxIntegerDigits < (c :: ds).length) :
    readNested depth (String.ofList (c :: ds)) = .error .integerTooLong := by
  have hspace : isSpace c = false :=
    Bool.not_eq_eq_eq_not.mp (of_mem_leadingDigits (p := (!isSpace ·)) (by decide) h)
  have hunsigned : readUnsigned false (c :: ds) = .error .integerTooLong := by
    rw [readUnsigned, readWhole?_of_digits h hdigits]
    exact if_pos hlong
  rw [readNested, String.toList_ofList, readChars, skipSpace_of_ne hspace, readValue_eq_readUnsigned h,
    hunsigned]
  rfl

end Json

/-! ## Replies -/

namespace Reply

variable {r : Reply} {p : Platform} {nesting : Nat} {text : String}
  {outcome : Except Failure Value}

def IsRejected (r : Reply) : Prop := r.status = 401 ∨ r.status = 403

def IsLimited (r : Reply) : Prop := r.status = 429

def IsSuccess (r : Reply) : Prop := 200 ≤ r.status ∧ r.status < 300

def IsUnexpected (r : Reply) : Prop := ¬ r.IsRejected ∧ ¬ r.IsLimited ∧ ¬ r.IsSuccess

/-- The body is a text that is blank. -/
def IsBlank (r : Reply) (p : Platform) : Prop :=
  ∃ text, r.text? p = some text ∧ Text.allBlank text = true

/-- The body is a text that is not blank and reads as a value. -/
def ReadsAs (r : Reply) (p : Platform) (v : Value) : Prop :=
  ∃ text, r.text? p = some text ∧ Text.allBlank text = false ∧
    Json.readNested p.nesting text = .ok v

/-- The body is a text that is not blank, and reading it as JSON fails for the given cause. -/
def IsUnread (r : Reply) (p : Platform) (cause : Json.Fault) : Prop :=
  ∃ text, r.text? p = some text ∧ Text.allBlank text = false ∧
    Json.readNested p.nesting text = .error cause

/-- The ways in which a reply is understood, one for each kind of status and of body. -/
inductive Understood (r : Reply) (nesting : Nat) (text : String) : Except Failure Value → Prop
  | rejected (h : r.IsRejected) : Understood r nesting text (.error (.gateway (.auth r.status text)))
  | limited (h : r.IsLimited) :
      Understood r nesting text (.error (.gateway (.rateLimit r.retrySeconds? text)))
  | unexpected (h : r.IsUnexpected) :
      Understood r nesting text (.error (.gateway (.unknown r.status text)))
  | blank (h : r.IsSuccess) (hblank : Text.allBlank text = true) :
      Understood r nesting text (.ok (.object []))
  | read {v : Value} (h : r.IsSuccess) (hblank : Text.allBlank text = false)
      (hread : Json.readNested nesting text = .ok v) : Understood r nesting text (.ok v)
  | malformed (h : r.IsSuccess) (hblank : Text.allBlank text = false)
      (hread : Json.readNested nesting text = .error .malformed) :
      Understood r nesting text (.error (.gateway (.unknown r.status text)))
  | tooLong (h : r.IsSuccess) (hblank : Text.allBlank text = false)
      (hread : Json.readNested nesting text = .error .integerTooLong) :
      Understood r nesting text (.error .integerTooLong)
  | tooDeep (h : r.IsSuccess) (hblank : Text.allBlank text = false)
      (hread : Json.readNested nesting text = .error .nestedTooDeep) :
      Understood r nesting text (.error .nestedTooDeep)

theorem understood_readBody (h : r.IsSuccess) :
    r.Understood nesting text (readBody nesting r.status text) := by
  cases hblank : Text.allBlank text with
  | true =>
    rw [readBody, if_pos hblank]
    exact .blank h hblank
  | false =>
    have hne : ¬ Text.allBlank text = true := by simp [hblank]
    rw [readBody, if_neg hne]
    cases hread : Json.readNested nesting text with
    | ok v => exact .read h hblank hread
    | error cause =>
      cases cause with
      | malformed => exact .malformed h hblank hread
      | integerTooLong => exact .tooLong h hblank hread
      | nestedTooDeep => exact .tooDeep h hblank hread

theorem understood_settleText (r : Reply) (nesting : Nat) (e : Endpoint) (text : String) :
    r.Understood nesting text (r.settleText nesting e text).outcome := by
  unfold settleText
  by_cases hrejected : r.status = 401 ∨ r.status = 403
  · rw [if_pos hrejected]
    exact .rejected hrejected
  rw [if_neg hrejected]
  by_cases hlimited : r.status = 429
  · rw [if_pos hlimited]
    exact .limited hlimited
  rw [if_neg hlimited]
  by_cases hrange : r.status < 200 ∨ 300 ≤ r.status
  · rw [if_pos hrange]
    have hsuccess : ¬ r.IsSuccess := by
      unfold IsSuccess
      omega
    exact .unexpected ⟨hrejected, hlimited, hsuccess⟩
  · rw [if_neg hrange]
    have hsuccess : r.IsSuccess := by
      unfold IsSuccess
      omega
    exact understood_readBody hsuccess

/-- What an outcome says about the reply behind it. -/
structure Means (r : Reply) (p : Platform) (outcome : Except Failure Value) : Prop where
  auth_iff : ∀ status body, outcome = .error (.gateway (.auth status body)) ↔
    (r.status = status ∧ r.text? p = some body) ∧ r.IsRejected
  rateLimit_iff : ∀ seconds body, outcome = .error (.gateway (.rateLimit seconds body)) ↔
    (r.retrySeconds? = seconds ∧ r.text? p = some body) ∧ r.IsLimited
  unknown_iff : ∀ status body, outcome = .error (.gateway (.unknown status body)) ↔
    (r.status = status ∧ r.text? p = some body) ∧
      (r.IsUnexpected ∨ r.IsSuccess ∧ r.IsUnread p .malformed)
  empty_of_blank : r.IsSuccess → r.IsBlank p → outcome = .ok (.object [])
  value_of_read : ∀ v, r.IsSuccess → r.ReadsAs p v → outcome = .ok v
  undecodable_iff : outcome = .error .undecodable ↔ r.text? p = none
  tooLong_iff : outcome = .error .integerTooLong ↔ r.IsSuccess ∧ r.IsUnread p .integerTooLong
  tooDeep_iff : outcome = .error .nestedTooDeep ↔ r.IsSuccess ∧ r.IsUnread p .nestedTooDeep
  isKnown : (∃ v, outcome = .ok v) ∨ (∃ error, outcome = .error (.gateway error)) ∨
    outcome = .error .undecodable ∨ outcome = .error .integerTooLong ∨
    outcome = .error .nestedTooDeep

/-- The three ranges of statuses with a meaning of their own do not meet. -/
theorem IsSuccess.not_isRejected (h : r.IsSuccess) : ¬ r.IsRejected := by
  unfold IsSuccess at h
  unfold IsRejected
  omega

theorem IsSuccess.not_isLimited (h : r.IsSuccess) : ¬ r.IsLimited := by
  unfold IsSuccess at h
  unfold IsLimited
  omega

theorem IsLimited.not_isRejected (h : r.IsLimited) : ¬ r.IsRejected := by
  unfold IsLimited at h
  unfold IsRejected
  omega

theorem means_of_understood (htext : r.text? p = some text)
    (h : r.Understood p.nesting text outcome) : r.Means p outcome := by
  cases h with
  | rejected h =>
    have hlimited : ¬ r.IsLimited := fun hl => hl.not_isRejected h
    have hsuccess : ¬ r.IsSuccess := fun hs => hs.not_isRejected h
    constructor <;> simp [IsUnexpected, htext, h, hlimited, hsuccess]
  | limited h =>
    have hsuccess : ¬ r.IsSuccess := fun hs => hs.not_isLimited h
    constructor <;> simp [IsUnexpected, htext, h, h.not_isRejected, hsuccess]
  | unexpected h =>
    obtain ⟨hrejected, hlimited, hsuccess⟩ := h
    constructor <;> simp [IsUnexpected, htext, hrejected, hlimited, hsuccess]
  | blank h hblank =>
    constructor <;> simp [IsUnexpected, IsBlank, ReadsAs, IsUnread, htext, h, h.not_isRejected,
      h.not_isLimited, hblank]
  | read h hblank hread =>
    constructor <;> simp [IsUnexpected, IsBlank, ReadsAs, IsUnread, htext, h, h.not_isRejected,
      h.not_isLimited, hblank, hread]
  | malformed h hblank hread =>
    constructor <;> simp [IsUnexpected, IsBlank, ReadsAs, IsUnread, htext, h, h.not_isRejected,
      h.not_isLimited, hblank, hread]
  | tooLong h hblank hread =>
    constructor <;> simp [IsUnexpected, IsBlank, ReadsAs, IsUnread, htext, h, h.not_isRejected,
      h.not_isLimited, hblank, hread]
  | tooDeep h hblank hread =>
    constructor <;> simp [IsUnexpected, IsBlank, ReadsAs, IsUnread, htext, h, h.not_isRejected,
      h.not_isLimited, hblank, hread]

theorem means_settle (r : Reply) (p : Platform) (e : Endpoint) : r.Means p (r.settle p e).outcome := by
  cases htext : r.text? p with
  | some text =>
    rw [settle, htext]
    exact means_of_understood htext (r.understood_settleText p.nesting e text)
  | none =>
    rw [settle, htext]
    constructor <;> simp [IsBlank, ReadsAs, IsUnread, htext]

end Reply

/-! ## Deliveries and calls -/

namespace Delivery

/-- What an outcome says about the delivery behind it: a transport that gave up or broke is an error
of the network, and only a reply says more. -/
def Means (d : Delivery) (p : Platform) (e : Endpoint) (outcome : Except Failure Value) : Prop :=
  match d with
  | reply r => r.Means p outcome
  | timedOut => outcome = .error (.gateway (.network e.method e.path "request timed out"))
  | broken _ _ => ∃ reason, outcome = .error (.gateway (.network e.method e.path reason))
  | defect => outcome = .error .transportDefect

theorem means_settle (d : Delivery) (p : Platform) (e : Endpoint) (timeout : Binary64) :
    d.Means p e (d.settle p e timeout).outcome := by
  cases d with
  | reply r => exact r.means_settle p e
  | timedOut => rfl
  | broken breakage text => exact ⟨_, rfl⟩
  | defect => rfl

end Delivery

namespace Request

theorem exists_make {a : Account} (h : a.secret ≠ "") (e : Endpoint) (payload : Payload)
    (millis : Int) : ∃ r, make a e payload millis = .ok r ∧ r.endpoint = e := by
  cases payload with
  | query params =>
    obtain ⟨r, hr, hendpoint, _⟩ := exists_make_query h e params millis
    exact ⟨r, hr, hendpoint⟩
  | body fields =>
    obtain ⟨r, hr, hendpoint, _⟩ := exists_make_body h e fields millis
    exact ⟨r, hr, hendpoint⟩

theorem baseUrl_of_make {a : Account} {e : Endpoint} {payload : Payload} {millis : Int}
    {r : Request} (h : make a e payload millis = .ok r) : r.baseUrl = a.baseUrl := by
  obtain ⟨signature, _, h⟩ := exists_of_bind_eq_ok h
  cases h
  rfl

end Request

namespace Script

variable {route : Route} {r : Request}

theorem location_eq (h : '?' ∉ (r.baseUrl ++ r.endpoint.path).toList) :
    Route.location r = r.baseUrl ++ r.endpoint.path := by
  have hbefore : ∀ c ∈ (r.baseUrl ++ r.endpoint.path).toList, (c != '?') = true := by
    intro c hc
    simp only [bne_iff_ne, ne_eq]
    rintro rfl
    exact h hc
  have hurl : r.url.toList = (r.baseUrl ++ r.endpoint.path).toList ++ '?' :: r.query.toList := by
    simp only [Request.url, String.toList_append, List.append_assoc]
    rfl
  rw [Route.location, hurl, List.takeWhile_append_of_pos hbefore, List.takeWhile_cons_of_neg
    (by decide), List.append_nil, String.ofList_toList]

/-- A request to the first route of a script gets its only answer. -/
theorem answer_of_location {script : Script} {a : Answer}
    (hmethod : route.method = r.endpoint.method.name) (hanswers : route.answers = [a])
    (hending : (Route.location r).endsWith route.ending = true) :
    (answer (route :: script) r).1 = a := by
  have hfits : route.fits r = true := by simp [Route.fits, hmethod, hending]
  simp [answer, hfits, Route.next, hanswers]

end Script

namespace Client

variable {c : Client} {call : Call} {payload : Payload} {millis : Int}

theorem script_readClock (c : Client) : c.readClock.2.script = c.script := by
  unfold readClock
  split <;> rfl

theorem platform_readClock (c : Client) : c.readClock.2.platform = c.platform := by
  unfold readClock
  split <;> rfl

/-- A call that passes its check is sent, and its outcome is what the delivery comes to. -/
theorem exists_delivery_of_payload (c : Client) (hpayload : call.payload = .ok payload)
    (hsecret : c.account.secret ≠ "") (hclock : c.readClock.1.millis = .ok millis)
    (hwritable : Query.areWritable (Request.signedPairs payload millis) = true) :
    ∃ r, (c.issue call).1.request = some r ∧ r.endpoint = call.endpoint ∧
      r.baseUrl = c.account.baseUrl ∧ (c.issue call).1.settlement =
        (c.script.answer r).1.delivery.settle c.platform call.endpoint c.account.timeout := by
  obtain ⟨r, hr, hendpoint⟩ := Request.exists_make hsecret call.endpoint payload millis
  have hissue := issue_eq_send hpayload hclock hwritable hr
  refine ⟨r, by rw [hissue]; rfl, hendpoint, Request.baseUrl_of_make hr, ?_⟩
  rw [hissue, ← hendpoint, ← script_readClock c, ← account_readClock c, ← platform_readClock c]
  rfl

/-- The outcome of every call that passes its check is what the answer of the exchange means, whatever
codecs the platform has and however deep it reads. -/
theorem means_of_payload (c : Client) (hpayload : call.payload = .ok payload)
    (hsecret : c.account.secret ≠ "") (hclock : c.readClock.1.millis = .ok millis)
    (hwritable : Query.areWritable (Request.signedPairs payload millis) = true) :
    ∃ r, (c.issue call).1.request = some r ∧ (c.script.answer r).1.delivery.Means c.platform
      call.endpoint (c.issue call).1.settlement.outcome := by
  obtain ⟨r, hr, _, _, hsettlement⟩ :=
    c.exists_delivery_of_payload hpayload hsecret hclock hwritable
  refine ⟨r, hr, ?_⟩
  rw [hsettlement]
  exact Delivery.means_settle _ _ _ _

def sampleAccount : Account := ⟨"key", "secret", "http://h/api", Binary64.ofInt 15, by decide⟩

/-- Without a script every answer is the empty list. -/
theorem means_of_empty_script :
    let c : Client :=
      ⟨sampleAccount, Sessions.initial, [.whole 1700000000], [], Platform.usual⟩
    (Call.balances.payload = .ok (.query []) ∧ c.account.secret ≠ "" ∧
      c.readClock.1.millis = .ok 1700000000000 ∧
      Query.areWritable (Request.signedPairs (.query []) 1700000000000) = true) ∧
      ∃ r, (c.issue .balances).1.request = some r ∧
        Delivery.Means Answer.emptyList.delivery Platform.usual Call.balances.endpoint
          (c.issue .balances).1.settlement.outcome := by
  intro c
  have hsecret : c.account.secret ≠ "" := by decide
  have hclock : c.readClock.1.millis = .ok 1700000000000 := rfl
  have hwritable : Query.areWritable (Request.signedPairs (.query []) 1700000000000) = true := by
    decide +kernel
  exact ⟨⟨rfl, hsecret, hclock, hwritable⟩, c.means_of_payload rfl hsecret hclock hwritable⟩

/-- A client of an exchange that always gives the same reply about its account. -/
def ofAccountReply (reply : Reply) : Client where
  account := sampleAccount
  sessions := Sessions.initial
  clock := [.whole 1700000000]
  script := [⟨"GET", "/account", [⟨0, .reply reply⟩]⟩]
  platform := Platform.usual

theorem areWritable_sample :
    Query.areWritable (Request.signedPairs (.query []) (1700000000 * 1000)) = true := by
  decide +kernel

theorem outcome_ofAccountReply (reply : Reply) :
    ((ofAccountReply reply).issue .balances).1.settlement =
      reply.settle Platform.usual Call.balances.endpoint := by
  have hsecret : sampleAccount.secret ≠ "" := by decide
  have hpayload : Call.balances.payload = .ok (.query []) := rfl
  obtain ⟨r, _, hendpoint, hbase, hsettlement⟩ :=
    (ofAccountReply reply).exists_delivery_of_payload hpayload hsecret (Seconds.millis_whole _)
      areWritable_sample
  have hplace : r.baseUrl ++ r.endpoint.path = "http://h/api/account" := by
    rw [hendpoint]
    exact congrArg (· ++ "/account") hbase
  have hbefore : '?' ∉ (r.baseUrl ++ r.endpoint.path).toList := by
    rw [hplace]
    decide
  have hending : (Route.location r).endsWith "/account" = true := by
    rw [Script.location_eq hbefore, hplace]
    decide +kernel
  have hanswer : ((ofAccountReply reply).script.answer r).1 = ⟨0, .reply reply⟩ :=
    Script.answer_of_location (by rw [hendpoint]; rfl) rfl hending
  rw [hsettlement, hanswer]
  rfl

end Client

namespace Reply

def ofText (text : String) : Reply := { body := Text.encodeUtf8 text }

theorem text?_ofText (p : Platform) (text : String) : (ofText text).text? p = some text := by
  rw [text?, ofText, Text.Codecs.decode]
  exact congrArg some (Text.decodeUtf8_encodeUtf8 text)

theorem isUnread_of_many_digits (p : Platform) {c : Char} {ds : List Char} (h : c ∈ Json.leadingDigits)
    (hdigits : ∀ d ∈ ds, Text.isAsciiDigit d = true)
    (hlong : Json.maxIntegerDigits < (c :: ds).length) :
    (ofText (String.ofList (c :: ds))).IsUnread p .integerTooLong := by
  have hblank : Text.isBlank c = false :=
    Bool.not_eq_eq_eq_not.mp (Json.of_mem_leadingDigits (p := (!Text.isBlank ·)) (by decide) h)
  refine ⟨_, text?_ofText p _, ?_, Json.readNested_of_many_digits p.nesting h hdigits hlong⟩
  rw [Text.allBlank, String.toList_ofList, List.all_cons, hblank, Bool.false_and]

end Reply

namespace Client

theorem outcome_of_many_digits {d : Char} {ds : List Char} (h : d ∈ Json.leadingDigits)
    (hdigits : ∀ d ∈ ds, Text.isAsciiDigit d = true)
    (hlong : Json.maxIntegerDigits < (d :: ds).length) :
    ((ofAccountReply (Reply.ofText (String.ofList (d :: ds)))).issue .balances).1.settlement.outcome =
      .error .integerTooLong := by
  have hunread := Reply.isUnread_of_many_digits Platform.usual h hdigits hlong
  have hsuccess : (Reply.ofText (String.ofList (d :: ds))).IsSuccess :=
    ⟨(by decide : (200 : Int) ≤ 200), (by decide : (200 : Int) < 300)⟩
  have hmeans := (Reply.ofText (String.ofList (d :: ds))).means_settle Platform.usual
    Call.balances.endpoint
  rw [outcome_ofAccountReply]
  exact hmeans.tooLong_iff.mpr ⟨hsuccess, hunread⟩

/-- A reply of one integer with 4301 digits. -/
def longInteger : Reply := Reply.ofText (String.ofList ('1' :: List.replicate 4300 '1'))

theorem outcome_of_longInteger :
    ((ofAccountReply longInteger).issue .balances).1.settlement.outcome = .error .integerTooLong := by
  have hdigits : ∀ d ∈ List.replicate 4300 '1', Text.isAsciiDigit d = true := by
    intro d hd
    rw [List.eq_of_mem_replicate hd]
    decide
  have hlong : Json.maxIntegerDigits < ('1' :: List.replicate 4300 '1').length := by
    rw [List.length_cons, List.length_replicate]
    decide
  have hone : '1' ∈ Json.leadingDigits := by decide
  unfold longInteger
  exact outcome_of_many_digits hone hdigits hlong

/-- A failure that is no error of the exchange, in a call that passes its check. -/
theorem not_gateway_of_longInteger :
    (Call.balances.payload = .ok (.query []) ∧ (ofAccountReply longInteger).account.secret ≠ "" ∧
      (ofAccountReply longInteger).readClock.1.millis = .ok (1700000000 * 1000) ∧
      Query.areWritable (Request.signedPairs (.query []) (1700000000 * 1000)) = true) ∧
      ¬ ((∃ v, ((ofAccountReply longInteger).issue .balances).1.settlement.outcome = .ok v) ∨
        ∃ error, ((ofAccountReply longInteger).issue .balances).1.settlement.outcome =
          .error (.gateway error)) := by
  have hsecret : sampleAccount.secret ≠ "" := by decide
  refine ⟨⟨rfl, hsecret, Seconds.millis_whole 1700000000, areWritable_sample⟩, ?_⟩
  rintro (⟨v, hv⟩ | ⟨error, herror⟩)
  · cases outcome_of_longInteger.symm.trans hv
  · cases outcome_of_longInteger.symm.trans herror

end Client

end GatewayLedger
