import GatewayLedger.Number.Binary64
import GatewayLedger.Number.Decimal.Reader
import GatewayLedger.Time.Moment

/-!
# Values

The dynamic values that an exchange sends: those of JSON, and besides them the decimals and moments
that a caller may put into a row. An object keeps its fields in order of first appearance.
-/

namespace GatewayLedger

inductive Value where
  | null
  | bool (b : Bool)
  | int (n : Int)
  | float (x : Binary64)
  | decimal (n : Numeral)
  | text (s : String)
  | moment (m : Moment)
  | list (items : List Value)
  | object (fields : List (String × Value))
deriving Inhabited

abbrev Fields := List (String × Value)

namespace Fields

variable {α : Type}

/-- Gives a name a value; a name that is there already keeps its place. -/
def insert (fields : List (String × α)) (name : String) (value : α) : List (String × α) :=
  match fields with
  | [] => [(name, value)]
  | (n, v) :: rest => if n = name then (n, value) :: rest else (n, v) :: insert rest name value

def get? (fields : List (String × α)) (name : String) : Option α :=
  (fields.find? fun f => f.1 = name).map (·.2)

/-- The fields with every name at its first place and with its last value. -/
def ofList (pairs : List (String × α)) : List (String × α) :=
  pairs.foldl (fun fields p => insert fields p.1 p.2) []

theorem get?_insert_self (fields : List (String × α)) (name : String) (value : α) :
    get? (insert fields name value) name = some value := by
  induction fields with
  | nil => simp [insert, get?]
  | cons f rest ih =>
    unfold insert
    split
    · next h => simp [get?, h]
    · next h => simpa [get?, h] using ih

theorem get?_insert_of_ne (fields : List (String × α)) {name other : String} (value : α)
    (h : other ≠ name) : get? (insert fields name value) other = get? fields other := by
  induction fields with
  | nil => simp [insert, get?, Ne.symm h]
  | cons f rest ih =>
    unfold insert
    split
    · next hn =>
      have : f.1 ≠ other := fun e => h (e.symm.trans hn)
      simp [get?, this]
    · by_cases ho : f.1 = other
      · simp [get?, ho]
      · simpa [get?, ho] using ih

end Fields

namespace Value

/-- The field of an object; a field that is missing is null. -/
def field (fields : Fields) (name : String) : Value := (Fields.get? fields name).getD null

/-- Whether a value counts as given. Null, false, zero and whatever is empty do not. -/
def isGiven : Value → Bool
  | null => false
  | bool b => b
  | int n => n != 0
  | float x => !x.isZero
  | decimal (.finite d) => !d.isZero
  | decimal _ => true
  | text s => s != ""
  | moment _ => true
  | list items => !items.isEmpty
  | object fields => !fields.isEmpty

def fields? : Value → Option Fields
  | object fields => some fields
  | _ => none

/-- The objects in a list, or in the list that an object holds under a name. Anything else holds
none. -/
def rowsUnder (name : String) (payload : Value) : List Fields :=
  let inner :=
    match payload with
    | object fields => field fields name
    | v => v
  match inner with
  | list items => items.filterMap fields?
  | _ => []

end Value

end GatewayLedger
