import GatewayLedger.Exchange.Error
import GatewayLedger.Number.Decimal.Printer
import GatewayLedger.Text.Blank
import GatewayLedger.Text.Uppercase

/-!
# Transfers

What a caller submits: a withdrawal to an address, or a request for a payment. Both are checked
before anything is sent. The networks with a known form of addresses are ETH, BSC, BTC and TRX; on
any other network an address has to have eleven characters.
-/

namespace GatewayLedger

structure Withdrawal where
  coin : String
  address : String
  amount : Decimal
  network : String
deriving DecidableEq

structure PaymentRequest where
  asset : String
  amount : Decimal
  customer : Option String
  description : Option String
deriving DecidableEq

inductive AddressForm where
  | hexadecimal
  | bitcoin
  | tron
  | other
deriving DecidableEq

namespace AddressForm

def ofNetwork (network : String) : AddressForm :=
  match Text.toUpper network with
  | "ETH" => hexadecimal
  | "BSC" => hexadecimal
  | "BTC" => bitcoin
  | "TRX" => tron
  | _ => other

def isHexDigit (c : Char) : Bool :=
  ('0' ≤ c && c ≤ '9') || ('a' ≤ c && c ≤ 'f') || ('A' ≤ c && c ≤ 'F')

/-- The address without one line break at its end, which is passed over. -/
def withoutLineBreak (address : List Char) : List Char :=
  match address.reverse with
  | '\n' :: rest => rest.reverse
  | _ => address

/-- What follows the mark of a bitcoin address. -/
def isBitcoinTail (tail : List Char) : Bool :=
  tail.all Char.isAlphanum && 25 ≤ tail.length && tail.length ≤ 42

def isBitcoin : List Char → Bool
  | '1' :: tail => isBitcoinTail tail
  | '3' :: tail => isBitcoinTail tail
  | 'b' :: 'c' :: '1' :: tail => isBitcoinTail tail
  | _ => false

def isHexadecimal : List Char → Bool
  | '0' :: 'x' :: digits => digits.all isHexDigit && digits.length == 40
  | _ => false

def isTron : List Char → Bool
  | 'T' :: tail => tail.all Char.isAlphanum && tail.length == 33
  | _ => false

def accepts (form : AddressForm) (address : String) : Bool :=
  let bare := withoutLineBreak address.toList
  match form with
  | hexadecimal => isHexadecimal bare
  | bitcoin => isBitcoin bare
  | tron => isTron bare
  | other => 11 ≤ address.length

end AddressForm

def requireText (field text : String) : Except Failure Unit :=
  if Text.allBlank text then Failure.invalid field "must not be empty" else .ok ()

def requirePositive (amount : Decimal) : Except Failure Unit :=
  if amount.isPositive then .ok ()
  else Failure.invalid "amount" ("must be positive, got " ++ amount.text)

/-- The fields of a transfer once it is checked. Its amount is written out without an exponent, which
takes memory for every zero. -/
def checkedBody (check : Except Failure Unit) (amount : Decimal) (body : List (String × String)) :
    Except Failure (List (String × String)) := do
  check
  if amount.exceedsText then .error (.ledger .outOfMemory) else .ok body

theorem checkedBody_eq_ok_iff {check : Except Failure Unit} {amount : Decimal}
    {body fields : List (String × String)} : checkedBody check amount body = .ok fields ↔
      check = .ok () ∧ amount.exceedsText = false ∧ fields = body := by
  cases check with
  | error failure => simp [checkedBody, bind, Except.bind]
  | ok u => cases h : amount.exceedsText <;> simp [checkedBody, bind, Except.bind, h, eq_comm]

theorem checkedBody_eq_error_iff {check : Except Failure Unit} {amount : Decimal}
    {body : List (String × String)} {failure : Failure} :
    checkedBody check amount body = .error failure ↔ check = .error failure ∨
      check = .ok () ∧ amount.exceedsText = true ∧ failure = .ledger .outOfMemory := by
  cases check with
  | error other => simp [checkedBody, bind, Except.bind]
  | ok u => cases h : amount.exceedsText <;> simp [checkedBody, bind, Except.bind, h, eq_comm]

def optionalField (name : String) : Option String → List (String × String)
  | none => []
  | some "" => []
  | some text => [(name, text)]

namespace Withdrawal

def checkAddress (w : Withdrawal) : Except Failure Unit :=
  if (AddressForm.ofNetwork w.network).accepts w.address then .ok ()
  else Failure.invalid "address" ("not a valid " ++ Text.toUpper w.network ++ " address")

def check (w : Withdrawal) : Except Failure Unit := do
  requireText "coin" w.coin
  requireText "address" w.address
  requirePositive w.amount
  requireText "network" w.network
  w.checkAddress

def body (w : Withdrawal) : List (String × String) :=
  [("coin", w.coin), ("address", w.address), ("amount", w.amount.plainText),
    ("network", w.network)]

end Withdrawal

namespace PaymentRequest

def check (p : PaymentRequest) : Except Failure Unit := do
  requireText "asset" p.asset
  requirePositive p.amount

def body (p : PaymentRequest) : List (String × String) :=
  [("asset", p.asset), ("amount", p.amount.plainText)] ++ optionalField "customer" p.customer ++
    optionalField "description" p.description

end PaymentRequest

end GatewayLedger
