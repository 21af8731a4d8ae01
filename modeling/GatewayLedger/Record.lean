import GatewayLedger.Record.Amount
import GatewayLedger.Record.Status
import GatewayLedger.Record.Timestamp
import GatewayLedger.Time.RowClock

/-!
# Records

A record is a deposit, a withdrawal or a payment in one shape. `Record.ofRow` makes it of the row
that the exchange sent: each kind has its own names for asset and time, a row without a time gets
that of the clock, and the fields with no place in the record are kept as its metadata.
-/

namespace GatewayLedger

structure Record where
  id : String
  kind : Kind
  asset : String
  amount : Decimal
  network : Option String
  address : Option String
  txHash : Option String
  status : Status
  rawStatus : Value
  occurredAt : Moment
  metadata : Fields

namespace Record

def assetField : Kind → String
  | .deposit => "coin"
  | .withdrawal => "coin"
  | .payment => "asset"

/-- The fields that may hold the time, the preferred one first. -/
def timeFields : Kind → List String
  | .deposit => ["insertTime"]
  | .withdrawal => ["applyTime"]
  | .payment => ["createdAt", "createTime"]

/-- The fields that have a place of their own in the record of some kind. -/
def knownFields : List String :=
  ["id", "coin", "asset", "amount", "network", "address", "txId", "status", "insertTime",
    "applyTime", "createdAt", "createTime"]

/-- A field that is missing, null or empty holds no text. -/
def textField? (row : Fields) (name : String) : Option String :=
  match Value.field row name with
  | .null => none
  | .text "" => none
  | v => some v.display

def idOf (row : Fields) : String := ((Fields.get? row "id").map Value.display).getD ""

def assetOf (kind : Kind) (row : Fields) : String :=
  let v := Value.field row (assetField kind)
  if v.isGiven then v.display else ""

def metadataOf (row : Fields) : Fields := row.filter fun f => !knownFields.contains f.1

def ofTimedRow (kind : Kind) (row : Fields) (status : Status) (time : Moment) : Record where
  id := idOf row
  kind := kind
  asset := assetOf kind row
  amount := Amount.ofValue (Value.field row "amount")
  network := textField? row "network"
  address := textField? row "address"
  txHash := textField? row "txId"
  status := status
  rawStatus := Value.field row "status"
  occurredAt := time
  metadata := metadataOf row

def statusOf (kind : Kind) (row : Fields) : Except Fault Status :=
  Status.ofRaw kind (Value.field row "status")

def ofRow (kind : Kind) (now : Moment) (row : Fields) : Except Fault Record := do
  let status ← statusOf kind row
  let time ← Timestamp.firstOf row (timeFields kind)
  .ok (ofTimedRow kind row status (time.getD now))

/-- The records of rows of any kinds. The clock is asked once for each row without a time. -/
def ofKindRows (clock : RowClock) : List (Kind × Fields) → Except Fault (List Record)
  | [] => .ok []
  | (kind, row) :: rest => do
    let status ← statusOf kind row
    let time ← Timestamp.firstOf row (timeFields kind)
    let records ← ofKindRows (if time.isSome then clock else clock.next) rest
    .ok (ofTimedRow kind row status (time.getD clock.now) :: records)

def ofRows (kind : Kind) (clock : RowClock) (rows : List Fields) : Except Fault (List Record) :=
  ofKindRows clock (rows.map fun row => (kind, row))

end Record

end GatewayLedger
