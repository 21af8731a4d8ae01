import GatewayLedger.Command.Arguments
import GatewayLedger.Ledger.Period
import GatewayLedger.Number.Binary64.Reader

/-!
# Commands

The commands of the program with what a user can say to each of them. `Invocation.read?` reads the
words after the name of a command; words that do not fit are no invocation.
-/

namespace GatewayLedger

inductive Command where
  | balances (showAll : Bool)
  | ledger (limit : Option Int) (asset : Option String)
  | stats (granularity : Granularity) (asset : Option String)
  | accountStatus
  | withdraw (coin address amount network : String) (confirmed : Bool)
  | requestPayment (asset amount : String) (customer description : Option String)
  | watch (interval : Option Binary64) (ticks : Int)

inductive CommandName where
  | balances
  | ledger
  | stats
  | accountStatus
  | withdraw
  | requestPayment
  | watch
deriving DecidableEq

namespace CommandName

def all : List CommandName :=
  [balances, ledger, stats, accountStatus, withdraw, requestPayment, watch]

def text : CommandName → String
  | balances => "balances"
  | ledger => "ledger"
  | stats => "stats"
  | accountStatus => "account-status"
  | withdraw => "withdraw"
  | requestPayment => "request-payment"
  | watch => "watch"

def named? (word : String) : Option CommandName := all.find? fun c => c.text == word

/-- A switch with a value, known by its long name. -/
def valued (key : String) (short : Option Char) : Switch := ⟨key, some ("--" ++ key), short, true⟩

def flag (key : String) (short : Option Char) : Switch := ⟨key, some ("--" ++ key), short, false⟩

/-- The switches of a command. Every command takes an address of the exchange. -/
def switches (c : CommandName) : List Switch :=
  let own :=
    match c with
    | balances => [flag "all" none]
    | ledger => [valued "limit" (some 'n'), valued "asset" none]
    | stats => [valued "granularity" (some 'g'), valued "asset" none]
    | accountStatus => []
    | withdraw => [valued "network" none, flag "yes" (some 'y')]
    | requestPayment => [valued "customer" none, valued "description" none]
    | watch => [valued "interval" none, valued "ticks" none]
  own ++ [valued "base-url" none]

end CommandName

/-- A command and the address that stands in for the one that is set. -/
structure Invocation where
  command : Command
  baseUrl : Option String

namespace Invocation

/-- The value of a switch read as something else, or `fallback` where the switch is not given. -/
def valueOr {α : Type} (a : Arguments) (key : String) (read? : String → Option α) (fallback : α) :
    Option α :=
  match a.value? key with
  | none => some fallback
  | some text => read? text

def commandOf? (name : CommandName) (a : Arguments) : Option Command :=
  match name, a.words with
  | .balances, [] => some (.balances (a.has "all"))
  | .ledger, [] => do
    let limit ← valueOr a "limit" (fun t => (readInt? t).map some) none
    some (.ledger limit (a.value? "asset"))
  | .stats, [] => do
    let granularity ← valueOr a "granularity" Granularity.named? .day
    some (.stats granularity (a.value? "asset"))
  | .accountStatus, [] => some .accountStatus
  | .withdraw, [coin, address, amount] => do
    let network ← a.value? "network"
    some (.withdraw coin address amount network (a.has "yes"))
  | .requestPayment, [asset, amount] =>
    some (.requestPayment asset amount (a.value? "customer") (a.value? "description"))
  | .watch, [] => do
    let interval ← valueOr a "interval" (fun t => (Binary64.read? t).map some) none
    let ticks ← valueOr a "ticks" readInt? 3
    some (.watch interval ticks)
  | _, _ => none

def read? (name : CommandName) (words : List String) : Option Invocation := do
  let a ← Arguments.read true name.switches words
  let command ← commandOf? name a
  some ⟨command, a.value? "base-url"⟩

end Invocation

end GatewayLedger
