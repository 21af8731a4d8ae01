import GatewayLedger.Fault
import GatewayLedger.Value.Display

/-!
# Kinds and statuses

A record is of one of three kinds, and each kind reports its progress in a vocabulary of its own:
deposits and withdrawals by numbers, payments by words. `Status.ofRaw` maps them all to one list of
statuses, and what no table knows to `unknown`. A number is written out before it is looked up, which
fails for one that no memory can hold.
-/

namespace GatewayLedger

inductive Kind where
  | deposit
  | withdrawal
  | payment
deriving DecidableEq

namespace Kind

def all : List Kind := [deposit, withdrawal, payment]

def name : Kind → String
  | deposit => "Deposit"
  | withdrawal => "Withdrawal"
  | payment => "Payment"

theorem mem_all (k : Kind) : k ∈ all := by
  cases k <;> decide

end Kind

inductive Status where
  | pending
  | processing
  | completed
  | failed
  | rejected
  | expired
  | unknown
deriving DecidableEq

namespace Status

def all : List Status := [pending, processing, completed, failed, rejected, expired, unknown]

def name : Status → String
  | pending => "Pending"
  | processing => "Processing"
  | completed => "Completed"
  | failed => "Failed"
  | rejected => "Rejected"
  | expired => "Expired"
  | unknown => "Unknown"

theorem mem_all (s : Status) : s ∈ all := by
  cases s <;> decide

/-- A decimal written out as an integer, if it is one. -/
def codeOf (d : Decimal) : Except Fault (Option Int) :=
  if d.isInteger && d.exceedsMemory then .error .outOfMemory else .ok d.toInt?

/-- The number that a raw status denotes. A numeral of any spelling counts by its value. -/
def code? : Value → Except Fault (Option Int)
  | .null => .ok none
  | .bool _ => .ok none
  | .int n => .ok (some n)
  | v =>
    match Decimal.read? v.display with
    | none => .ok none
    | some d => codeOf d

def ofDepositCode (code : Int) : Status :=
  match code with
  | 0 => pending
  | 1 => completed
  | 2 => processing
  | 3 => failed
  | 4 => failed
  | _ => unknown

def ofWithdrawalCode (code : Int) : Status :=
  match code with
  | 0 => pending
  | 1 => failed
  | 2 => pending
  | 3 => rejected
  | 4 => processing
  | 5 => failed
  | 6 => completed
  | _ => unknown

/-- A word with no blanks around it, in lower case. All the words of the table are ASCII. -/
def foldWord (word : String) : String :=
  String.ofList ((Text.trim word.toList).map Char.toLower)

def ofPaymentWord (word : String) : Status :=
  match foldWord word with
  | "success" => completed
  | "completed" => completed
  | "confirmed" => completed
  | "pending" => pending
  | "processing" => pending
  | "failed" => failed
  | "rejected" => failed
  | "cancelled" => failed
  | "expired" => expired
  | _ => unknown

def ofRaw (kind : Kind) (raw : Value) : Except Fault Status :=
  match kind with
  | .deposit => (code? raw).map fun code => (code.map ofDepositCode).getD unknown
  | .withdrawal => (code? raw).map fun code => (code.map ofWithdrawalCode).getD unknown
  | .payment =>
    match raw with
    | .text word => .ok (ofPaymentWord word)
    | _ => .ok unknown

end Status

end GatewayLedger
