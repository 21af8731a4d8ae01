import GatewayLedger.Exchange.Client
import GatewayLedger.Proofs.Exchange.Query
import GatewayLedger.Proofs.Json
import GatewayLedger.Proofs.Json.Text

/-!
# Signed requests on the wire

What the exchange reads off a request, it can check by itself: the parameters of a query are signed
as they stand before the signature, and the fields of a body with the time of the query behind them.
Reading either of them gives back what the call was about, in the documented order.
-/

namespace GatewayLedger

namespace Hmac

theorem exists_of_mem_hexText {bytes : Sha256.Bytes} {c : Char} (h : c ∈ (hexText bytes).toList) :
    ∃ k, k < 16 ∧ c = Text.Hexadecimal.lowerDigit k := by
  rw [hexText, String.toList_ofList, List.mem_flatMap] at h
  obtain ⟨b, _, hc⟩ := h
  exact Text.Hexadecimal.exists_of_mem_lowerDigits hc

theorem isUnreserved_of_mem_hexText {bytes : Sha256.Bytes} {c : Char}
    (h : c ∈ (hexText bytes).toList) : Text.Percent.isUnreserved c = true := by
  have hdigit : ∀ k : Fin 16,
      Text.Percent.isUnreserved (Text.Hexadecimal.lowerDigit k) = true := by decide
  obtain ⟨k, hk, rfl⟩ := exists_of_mem_hexText h
  exact hdigit ⟨k, hk⟩

end Hmac

namespace Query

/-- Names and texts of parameters, which are all that a query shows of them. -/
def texts (pairs : List (String × Value)) : List (String × String) :=
  pairs.map fun p => (p.1, valueText p.2)

theorem texts_append (pairs others : List (String × Value)) :
    texts (pairs ++ others) = texts pairs ++ texts others := List.map_append

theorem texts_ofFields (fields : List (String × String)) : texts (ofFields fields) = fields := by
  rw [texts, ofFields, List.map_map]
  exact List.map_id fields

theorem canonical_congr {pairs others : List (String × Value)} (h : texts pairs = texts others) :
    canonical pairs = canonical others := by
  have hpairs : ∀ ps : List (String × Value), ps.map pairText =
      (texts ps).map fun t => t.1 ++ "=" ++ Text.Percent.encode t.2 := by
    intro ps
    rw [texts, List.map_map]
    rfl
  rw [canonical, canonical, hpairs pairs, hpairs others, h]

theorem valueText_int (n : Int) : valueText (.int n) = Quoted.number n := Value.display_int n

/-- The time of a query and a signature behind it are the parameters of a query. -/
theorem canonical_stamp (millis : Int) {signature : String}
    (h : Text.Percent.encode signature = signature) :
    canonical [("timestamp", .int millis)] ++ "&signature=" ++ signature =
      canonical [("timestamp", .int millis), ("signature", .text signature)] := by
  have hmark : "&signature=" = "&" ++ ("signature" ++ "=") := by decide
  have hpair : pairText ("signature", .text signature) = "signature" ++ "=" ++ signature :=
    congrArg ("signature" ++ "=" ++ ·) h
  change pairText ("timestamp", .int millis) ++ "&signature=" ++ _ =
    pairText ("timestamp", .int millis) ++ "&" ++ pairText _
  rw [hpair, hmark]
  simp only [String.append_assoc]

end Query

namespace Filter

variable {f : Filter} {params : List (String × Value)}

/-- The parameters of a filter as texts, in the documented order: each of them is there if it is
given, a coin also has to be non-empty, and a time stands as its milliseconds. -/
def IsWritten (f : Filter) (fields : List (String × String)) : Prop :=
  ∃ opening closing : Option Int,
    f.startTime.map Moment.toMillis? = opening.map some ∧
    f.endTime.map Moment.toMillis? = closing.map some ∧
    fields = (f.coin.filter (· ≠ "")).toList.map (fun coin => ("coin", coin)) ++
      f.status.toList.map (fun status => ("status", Quoted.number status)) ++
      opening.toList.map (fun millis => ("startTime", Quoted.number millis)) ++
      closing.toList.map (fun millis => ("endTime", Quoted.number millis)) ++
      [("limit", Quoted.number f.limit)]

theorem exists_of_timeParam {name : String} {time : Option Moment} {found : List (String × Value)}
    (h : timeParam name time = .ok found) :
    ∃ millis : Option Int, time.map Moment.toMillis? = millis.map some ∧
      found = millis.toList.map fun n => (name, .int n) := by
  cases time with
  | none =>
    cases h
    exact ⟨none, rfl, rfl⟩
  | some m =>
    rw [timeParam] at h
    cases hm : m.toMillis? with
    | none =>
      rw [hm] at h
      cases h
    | some n =>
      rw [hm] at h
      cases h
      exact ⟨some n, by rw [Option.map_some, hm]; rfl, rfl⟩

theorem coinParam_eq (f : Filter) :
    f.coinParam = (f.coin.filter (· ≠ "")).toList.map fun coin => ("coin", .text coin) := by
  unfold coinParam
  split
  · next h => rw [h]; rfl
  · next h => rw [h]; rfl
  · next coin hne h =>
    rw [h]
    have hcoin : coin ≠ "" := hne
    simp [Option.filter, hcoin]

theorem exists_of_params (h : f.params = .ok params) :
    ∃ opening closing : Option Int,
      f.startTime.map Moment.toMillis? = opening.map some ∧
      f.endTime.map Moment.toMillis? = closing.map some ∧
      params = f.coinParam ++ (f.status.map fun s => ("status", Value.int s)).toList ++
        (opening.toList.map fun n => ("startTime", .int n)) ++
        (closing.toList.map fun n => ("endTime", .int n)) ++ [("limit", .int f.limit)] := by
  obtain ⟨_, _, h⟩ := exists_of_bind_eq_ok h
  obtain ⟨_, ho, h⟩ := exists_of_bind_eq_ok h
  obtain ⟨_, hc, h⟩ := exists_of_bind_eq_ok h
  obtain ⟨opening, hopening, rfl⟩ := exists_of_timeParam ho
  obtain ⟨closing, hclosing, rfl⟩ := exists_of_timeParam hc
  exact ⟨opening, closing, hopening, hclosing, (Except.ok.inj h).symm⟩

theorem isWritten_of_params (h : f.params = .ok params) : f.IsWritten (Query.texts params) := by
  obtain ⟨opening, closing, hopening, hclosing, rfl⟩ := exists_of_params h
  have hint : ∀ (name : String) (value : Option Int),
      Query.texts (value.toList.map fun n => (name, .int n)) =
        value.toList.map fun n => (name, Quoted.number n) := by
    intro name value
    rw [Query.texts, List.map_map]
    exact List.map_congr_left fun n _ => congrArg (name, ·) (Query.valueText_int n)
  have hcoin : Query.texts f.coinParam =
      (f.coin.filter (· ≠ "")).toList.map fun coin => ("coin", coin) := by
    rw [coinParam_eq, Query.texts, List.map_map]
    rfl
  have hstatus : (f.status.map fun s => ("status", Value.int s)).toList =
      f.status.toList.map fun s => ("status", .int s) := by
    cases f.status <;> rfl
  have hlimit := hint "limit" (some f.limit)
  refine ⟨opening, closing, hopening, hclosing, ?_⟩
  rw [Query.texts_append, Query.texts_append, Query.texts_append, Query.texts_append, hcoin,
    hstatus, hint, hint, hint]
  exact congrArg _ hlimit

theorem isName_of_params (h : f.params = .ok params) : ∀ p ∈ params, Query.IsName p.1 := by
  have hnames : ∀ name ∈ ["coin", "status", "startTime", "endTime", "limit"],
      Query.IsName name := by decide
  obtain ⟨opening, closing, _, _, rfl⟩ := exists_of_params h
  intro p hp
  apply hnames
  simp only [coinParam_eq, List.mem_append, List.mem_map, Option.mem_toList, Option.map_eq_some_iff,
    List.mem_singleton] at hp
  rcases hp with (((⟨_, _, rfl⟩ | ⟨_, _, rfl⟩) | ⟨_, _, rfl⟩) | ⟨_, _, rfl⟩) | rfl
  all_goals simp

end Filter

namespace PaymentRequest

theorem nodup_body (p : PaymentRequest) : (p.body.map (·.1)).Nodup := by
  have hnames : ∀ (name : String) (text : Option String),
      (optionalField name text).map (·.1) = [] ∨ (optionalField name text).map (·.1) = [name] := by
    intro name text
    unfold optionalField
    split
    · exact .inl rfl
    · exact .inl rfl
    · exact .inr rfl
  rw [body, List.map_append, List.map_append]
  rcases hnames "customer" p.customer with hc | hc <;>
    rcases hnames "description" p.description with hd | hd <;> rw [hc, hd] <;> simp

end PaymentRequest

namespace Call

variable {call : Call} {payload : Payload}

/-- What a call has to say, as names and texts in the documented order. -/
def IsWritten : Call → List (String × String) → Prop
  | balances, fields => fields = []
  | accountStatus, fields => fields = []
  | deposits f, fields => f.IsWritten fields
  | withdrawals f, fields => f.IsWritten fields
  | paymentRequests f, fields => f.IsWritten fields
  | submitWithdrawal w, fields => fields = w.body
  | requestPayment p, fields => fields = p.body

/-- A payload that a call puts into its query, or into its body. -/
inductive Carries (call : Call) : Payload → Prop
  | query {params : List (String × Value)} (hmethod : call.endpoint.method = .get)
      (hwritten : call.IsWritten (Query.texts params)) (hnames : ∀ p ∈ params, Query.IsName p.1) :
      Carries call (.query params)
  | body {fields : List (String × String)} (hmethod : call.endpoint.method = .post)
      (hwritten : call.IsWritten fields) (hnodup : (fields.map (·.1)).Nodup) :
      Carries call (.body fields)

theorem carries_of_filter {f : Filter} (hmethod : call.endpoint.method = .get)
    (hwritten : ∀ fields, f.IsWritten fields → call.IsWritten fields)
    (h : f.params.map Payload.query = .ok payload) : call.Carries payload := by
  obtain ⟨params, hparams, rfl⟩ := exists_of_map_eq_ok h
  exact .query hmethod (hwritten _ (Filter.isWritten_of_params hparams))
    (Filter.isName_of_params hparams)

theorem carries_of_payload (h : call.payload = .ok payload) : call.Carries payload := by
  cases call with
  | balances =>
    cases h
    exact .query rfl rfl (by simp)
  | accountStatus =>
    cases h
    exact .query rfl rfl (by simp)
  | deposits f => exact carries_of_filter rfl (fun _ hf => hf) h
  | withdrawals f => exact carries_of_filter rfl (fun _ hf => hf) h
  | paymentRequests f => exact carries_of_filter rfl (fun _ hf => hf) h
  | submitWithdrawal w =>
    obtain ⟨fields, hfields, rfl⟩ := exists_of_map_eq_ok h
    obtain ⟨_, _, rfl⟩ := checkedBody_eq_ok_iff.mp hfields
    exact .body rfl rfl (by simp [Withdrawal.body])
  | requestPayment p =>
    obtain ⟨fields, hfields, rfl⟩ := exists_of_map_eq_ok h
    obtain ⟨_, _, rfl⟩ := checkedBody_eq_ok_iff.mp hfields
    exact .body rfl rfl p.nodup_body

end Call

namespace Request

variable {a : Account}

def stamp (millis : Int) : List (String × Value) := [("timestamp", .int millis)]

theorem sign_of_ne_empty {secret : String} (h : secret ≠ "") (pairs : List (String × Value)) :
    Signature.sign secret pairs = .ok (Signature.ofText secret (Query.canonical pairs)) :=
  Signature.sign_eq_ok_iff.mpr ⟨h, rfl⟩

theorem exists_make_query (h : a.secret ≠ "") (e : Endpoint) (params : List (String × Value))
    (millis : Int) :
    ∃ r, make a e (.query params) millis = .ok r ∧ r.endpoint = e ∧ r.content = none ∧
      r.query = Query.canonical (params ++ stamp millis) ++ "&signature=" ++
        Signature.ofText a.secret (Query.canonical (params ++ stamp millis)) := by
  have hsign := sign_of_ne_empty h (params ++ stamp millis)
  have hmake : make a e (.query params) millis = .ok {
      endpoint := e, baseUrl := a.baseUrl, headers := headersOf a, body := none,
      query := Query.canonical (params ++ stamp millis) ++ "&signature=" ++
        Signature.ofText a.secret (Query.canonical (params ++ stamp millis)) } := by
    rw [stamp] at hsign ⊢
    simp only [make, signedPairs, hsign, bind, Except.bind]
  exact ⟨_, hmake, rfl, rfl, rfl⟩

theorem exists_make_body (h : a.secret ≠ "") (e : Endpoint) (fields : List (String × String))
    (millis : Int) :
    ∃ r, make a e (.body fields) millis = .ok r ∧ r.endpoint = e ∧
      r.content = some (Json.lineText fields) ∧
      r.query = Query.canonical (stamp millis) ++ "&signature=" ++
        Signature.ofText a.secret (Query.canonical (Query.ofFields fields ++ stamp millis)) := by
  have hsign := sign_of_ne_empty h (Query.ofFields fields ++ stamp millis)
  have hmake : make a e (.body fields) millis = .ok {
      endpoint := e, baseUrl := a.baseUrl, headers := headersOf a, body := some fields,
      query := Query.canonical (stamp millis) ++ "&signature=" ++
        Signature.ofText a.secret (Query.canonical (Query.ofFields fields ++ stamp millis)) } := by
    rw [stamp] at hsign ⊢
    simp only [make, signedPairs, hsign, bind, Except.bind]
  exact ⟨_, hmake, rfl, rfl, rfl⟩

end Request

namespace Client

variable {c : Client} {call : Call} {payload : Payload} {millis : Int} {r : Request}

theorem account_readClock (c : Client) : c.readClock.2.account = c.account := by
  unfold readClock
  split <;> rfl

/-- A call that passes its check is sent, if the clock answers and the request can be written out
and signed. -/
theorem issue_eq_send (hpayload : call.payload = .ok payload)
    (hclock : c.readClock.1.millis = .ok millis)
    (hwritable : Query.areWritable (Request.signedPairs payload millis) = true)
    (hr : Request.make c.account call.endpoint payload millis = .ok r) :
    c.issue call = c.readClock.2.send r := by
  simp only [issue, hpayload, prepare, hclock, account_readClock, hr, hwritable, if_true,
    Except.mapError, bind, Except.bind]

theorem encode_ofText (secret text : String) :
    Text.Percent.encode (Signature.ofText secret text) = Signature.ofText secret text :=
  Text.Percent.encode_of_isUnreserved fun _ hc => Hmac.isUnreserved_of_mem_hexText hc

/-- A query with the time behind it reads as the texts that were signed. -/
theorem split_canonical_stamp {params : List (String × Value)}
    (h : ∀ p ∈ params, Query.IsName p.1) (millis : Int) :
    Query.split (Query.canonical (params ++ Request.stamp millis)) =
      Query.texts params ++ [("timestamp", Quoted.number millis)] := by
  have hnames : ∀ p ∈ params ++ Request.stamp millis, Query.IsName p.1 := by
    intro p hp
    rcases List.mem_append.mp hp with hp | hp
    · exact h p hp
    · obtain rfl : p = ("timestamp", .int millis) := List.mem_singleton.mp hp
      exact (by decide : Query.IsName "timestamp")
  rw [Query.split_canonical hnames, List.map_append, ← Query.valueText_int]
  rfl

theorem split_canonical_signature (millis : Int) {signature : String}
    (h : Text.Percent.encode signature = signature) :
    Query.split (Query.canonical (Request.stamp millis) ++ "&signature=" ++ signature) =
      [("timestamp", Quoted.number millis), ("signature", signature)] := by
  have hnames : ∀ name ∈ ["timestamp", "signature"], Query.IsName name := by decide
  rw [Request.stamp, Query.canonical_stamp millis h, Query.split_canonical, ← Query.valueText_int]
  · rfl
  · intro p hp
    apply hnames
    rcases List.mem_cons.mp hp with rfl | hp
    · exact List.mem_cons_self
    · obtain rfl := List.mem_singleton.mp hp
      exact List.mem_cons_of_mem _ List.mem_cons_self

/-- Every call that passes its check goes over the wire with a signature that the exchange can
recompute from what it reads there. -/
theorem exists_request_of_payload (c : Client) (hpayload : call.payload = .ok payload)
    (hsecret : c.account.secret ≠ "") (hclock : c.readClock.1.millis = .ok millis)
    (hwritable : Query.areWritable (Request.signedPairs payload millis) = true) :
    ∃ r fields, (c.issue call).1.request = some r ∧ r.endpoint = call.endpoint ∧
      call.IsWritten fields ∧
      match call.endpoint.method with
      | .get => r.content = none ∧ ∃ signed,
          r.query = signed ++ "&signature=" ++ Signature.ofText c.account.secret signed ∧
          Query.split signed = fields ++ [("timestamp", Quoted.number millis)]
      | .post => ∃ text parsed stamp signature,
          r.content = some text ∧ Json.read text = .ok (.object parsed) ∧
          Query.texts parsed = fields ∧ stamp = Quoted.number millis ∧
          Query.split r.query = [("timestamp", stamp), ("signature", signature)] ∧
          signature = Signature.ofText c.account.secret
            (Query.canonical (parsed ++ [("timestamp", .text stamp)])) := by
  cases Call.carries_of_payload hpayload with
  | @query params hmethod hwritten hnames =>
    obtain ⟨r, hr, hendpoint, hcontent, hquery⟩ :=
      Request.exists_make_query hsecret call.endpoint params millis
    have hissue := issue_eq_send hpayload hclock hwritable hr
    refine ⟨r, Query.texts params, by rw [hissue]; rfl, hendpoint, hwritten, ?_⟩
    rw [hmethod]
    exact ⟨hcontent, _, hquery, split_canonical_stamp hnames millis⟩
  | @body fields hmethod hwritten hnodup =>
    obtain ⟨r, hr, hendpoint, hcontent, hquery⟩ :=
      Request.exists_make_body hsecret call.endpoint fields millis
    have hissue := issue_eq_send hpayload hclock hwritable hr
    have hsplit := split_canonical_signature millis (encode_ofText c.account.secret
      (Query.canonical (Query.ofFields fields ++ Request.stamp millis)))
    -- the time is signed as a number and read back as a text
    have hstamp : Query.canonical (Query.ofFields fields ++ Request.stamp millis) =
        Query.canonical (Query.ofFields fields ++ [("timestamp", .text (Quoted.number millis))]) := by
      apply Query.canonical_congr
      rw [Query.texts_append, Query.texts_append]
      exact congrArg _ (congrArg (fun text => [("timestamp", text)]) (Query.valueText_int millis))
    rw [hstamp] at hquery hsplit
    rw [← hquery] at hsplit
    refine ⟨r, fields, by rw [hissue]; rfl, hendpoint, hwritten, ?_⟩
    rw [hmethod]
    exact ⟨_, _, _, _, hcontent, Json.read_lineText hnodup, Query.texts_ofFields fields, rfl,
      hsplit, rfl⟩

/-- The marks of both formats in a request for a payment. -/
theorem exists_request_of_marked_payment :
    let p : PaymentRequest := ⟨"A&B", ⟨false, 150, -2⟩, none, some "\"ü\" = 𝄞\n"⟩
    let c : Client := ⟨⟨"key", "secret", "http://h", Binary64.ofInt 15, by decide⟩,
      Sessions.initial, [.whole 1700000000], [], Platform.usual⟩
    ((Call.requestPayment p).payload = .ok (.body p.body) ∧ c.account.secret ≠ "" ∧
      c.readClock.1.millis = .ok 1700000000000 ∧
      Query.areWritable (Request.signedPairs (.body p.body) 1700000000000) = true) ∧
      ∃ r text parsed, (c.issue (.requestPayment p)).1.request = some r ∧
        r.content = some text ∧ Json.read text = .ok (.object parsed) ∧
        Query.texts parsed =
          [("asset", "A&B"), ("amount", "1.50"), ("description", "\"ü\" = 𝄞\n")] := by
  intro p c
  have hblank : Text.allBlank p.asset = false := by decide
  have hpositive : p.amount.isPositive = true := by decide
  have hcheck : p.check = .ok () := by
    rw [PaymentRequest.check, requireText, hblank, requirePositive, hpositive]
    rfl
  have hpayload : (Call.requestPayment p).payload = .ok (.body p.body) := by
    rw [Call.payload, hcheck]
    rfl
  have hsecret : c.account.secret ≠ "" := by decide
  have hclock : c.readClock.1.millis = .ok 1700000000000 := rfl
  have hwritable : Query.areWritable (Request.signedPairs (.body p.body) 1700000000000) = true := by
    decide +kernel
  have hbody : p.body =
      [("asset", "A&B"), ("amount", "1.50"), ("description", "\"ü\" = 𝄞\n")] := by decide
  obtain ⟨r, fields, hr, _, hwritten, text, parsed, _, _, hcontent, hread, htexts, _⟩ :=
    c.exists_request_of_payload hpayload hsecret hclock hwritable
  exact ⟨⟨hpayload, hsecret, hclock, hwritable⟩, r, text, parsed, hr, hcontent, hread,
    htexts.trans (Eq.trans hwritten hbody)⟩

end Client

end GatewayLedger
