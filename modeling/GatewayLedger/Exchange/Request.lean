import GatewayLedger.Exchange.Filter
import GatewayLedger.Exchange.Signature
import GatewayLedger.Exchange.Transfer
import GatewayLedger.Json.Printer
import GatewayLedger.Log

/-!
# Requests

A `Call` is what a caller wants of the exchange; its payload exists only if its local check passes.
A `Request` is what goes over the wire: the payload, stamped with the time, signed, and with the key
of the account in a header. The fields of a body are signed with the time after them, while only
time and signature stand in the query.
-/

namespace GatewayLedger

structure Account where
  apiKey : String
  secret : String
  baseUrl : String
  /-- Seconds after which the transport gives up. -/
  timeout : Binary64
  apiKey_ne : apiKey ≠ ""

namespace Account

def withoutSlashes (url : String) : String :=
  String.ofList (url.toList.reverse.dropWhile (· == '/')).reverse

def make (apiKey secret baseUrl : String) (timeout : Binary64) : Except GatewayError Account :=
  if h : apiKey = "" then .error (.configuration .apiKey)
  else .ok ⟨apiKey, secret, withoutSlashes baseUrl, timeout, h⟩

end Account

inductive Call where
  | balances
  | accountStatus
  | deposits (filter : Filter)
  | withdrawals (filter : Filter)
  | paymentRequests (filter : Filter)
  | submitWithdrawal (withdrawal : Withdrawal)
  | requestPayment (payment : PaymentRequest)

inductive Payload where
  | query (params : List (String × Value))
  | body (fields : List (String × String))

namespace Call

def endpoint : Call → Endpoint
  | balances => ⟨.get, "/account"⟩
  | accountStatus => ⟨.get, "/account/status"⟩
  | deposits _ => ⟨.get, "/deposits"⟩
  | withdrawals _ => ⟨.get, "/withdrawals"⟩
  | paymentRequests _ => ⟨.get, "/payment-requests"⟩
  | submitWithdrawal _ => ⟨.post, "/withdrawals"⟩
  | requestPayment _ => ⟨.post, "/payment-requests"⟩

/-- Checks what the caller gave and lists what is to be sent. -/
def payload : Call → Except Failure Payload
  | balances => .ok (.query [])
  | accountStatus => .ok (.query [])
  | deposits f => f.params.map .query
  | withdrawals f => f.params.map .query
  | paymentRequests f => f.params.map .query
  | submitWithdrawal w => (checkedBody w.check w.amount w.body).map .body
  | requestPayment p => (checkedBody p.check p.amount p.body).map .body

end Call

structure Request where
  endpoint : Endpoint
  baseUrl : String
  query : String
  headers : List (String × String)
  body : Option (List (String × String))

namespace Request

def url (r : Request) : String := r.baseUrl ++ r.endpoint.path ++ "?" ++ r.query

/-- The body as it is written on the wire. -/
def content (r : Request) : Option String := r.body.map Json.lineText

def headersOf (a : Account) : List (String × String) :=
  [("X-API-KEY", a.apiKey), ("Accept", "application/json"), ("User-Agent", "paydash/0.1")]

def signedPairs (payload : Payload) (millis : Int) : List (String × Value) :=
  let pairs :=
    match payload with
    | .query params => params
    | .body fields => Query.ofFields fields
  pairs ++ [("timestamp", .int millis)]

def make (a : Account) (endpoint : Endpoint) (payload : Payload) (millis : Int) :
    Except GatewayError Request := do
  let pairs := signedPairs payload millis
  let signature ← Signature.sign a.secret pairs
  let visible :=
    match payload with
    | .query _ => Query.canonical pairs
    | .body _ => Query.canonical [("timestamp", .int millis)]
  .ok {
    endpoint := endpoint
    baseUrl := a.baseUrl
    query := visible ++ "&signature=" ++ signature
    headers := headersOf a
    body :=
      match payload with
      | .query _ => none
      | .body fields => some fields }

end Request

end GatewayLedger
