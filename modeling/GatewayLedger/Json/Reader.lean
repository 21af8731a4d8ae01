import GatewayLedger.Number.Binary64.Reader
import GatewayLedger.Text.Charset
import GatewayLedger.Text.Hexadecimal
import GatewayLedger.Value

/-!
# Reading JSON

`Json.read` reads one value with blanks around it. Beyond the standard it accepts the words NaN,
Infinity and -Infinity; of several fields with one name the last one counts. An integer of more than
4300 digits is refused with a cause of its own. So are lists and objects that are nested deeper than
the reader can follow, which `Json.readNested` is told. Of several causes the one that stands first in
the text is reported.
-/

namespace GatewayLedger.Json

inductive Fault where
  | malformed
  | integerTooLong
  | nestedTooDeep
deriving DecidableEq

open Text

def maxIntegerDigits : Nat := 4300

def isSpace (c : Char) : Bool := c == ' ' || c == '\t' || c == '\n' || c == '\r'

def skipSpace (cs : List Char) : List Char := cs.dropWhile isSpace

/-! ## Numbers -/

/-- A point with digits after it; without digits the point is not part of the number. -/
def readFraction : List Char → List Char × List Char
  | '.' :: r =>
    let ds := r.takeWhile isAsciiDigit
    if ds.isEmpty then ([], '.' :: r) else (ds, r.dropWhile isAsciiDigit)
  | r => ([], r)

/-- An exponent; without digits its letter is not part of the number. -/
def readExponent : List Char → Option Int × List Char
  | [] => (none, [])
  | c :: r =>
    if c == 'e' || c == 'E' then
      let (negative, ds) := Numeral.readSign r
      let digits := ds.takeWhile isAsciiDigit
      if digits.isEmpty then (none, c :: r)
      else
        let magnitude : Int := numberOfDigits digits
        (some (if negative then -magnitude else magnitude), ds.dropWhile isAsciiDigit)
    else (none, c :: r)

/-- The digits before the point: a zero stands alone. -/
def readWhole? : List Char → Option (List Char × List Char)
  | '0' :: r => some (['0'], r)
  | cs =>
    let ds := cs.takeWhile isAsciiDigit
    if ds.isEmpty then none else some (ds, cs.dropWhile isAsciiDigit)

def readUnsigned (negative : Bool) (cs : List Char) : Except Fault (Value × List Char) :=
  match readWhole? cs with
  | none => .error .malformed
  | some (whole, r) =>
    let (fraction, r) := readFraction r
    let (exponent, r) := readExponent r
    if fraction.isEmpty && exponent.isNone then
      if maxIntegerDigits < whole.length then .error .integerTooLong
      else
        let magnitude : Int := numberOfDigits whole
        .ok (.int (if negative then -magnitude else magnitude), r)
    else
      let d : Decimal :=
        ⟨negative, numberOfDigits (whole ++ fraction), exponent.getD 0 - fraction.length⟩
      .ok (.float (Binary64.ofDecimal d), r)

/-! ## Strings -/

def readUnit? : List Char → Option (Nat × List Char)
  | a :: b :: c :: d :: r => do
    let high := 16 * (← Hexadecimal.value? a) + (← Hexadecimal.value? b)
    let low := 16 * (← Hexadecimal.value? c) + (← Hexadecimal.value? d)
    some (256 * high + low, r)
  | _ => none

/-- The character of an escape after its backslash. Two escaped surrogates make one character. -/
def readEscape? : List Char → Option (Char × List Char)
  | '"' :: r => some ('"', r)
  | '\\' :: r => some ('\\', r)
  | '/' :: r => some ('/', r)
  | 'b' :: r => some (Char.ofNat 8, r)
  | 'f' :: r => some (Char.ofNat 12, r)
  | 'n' :: r => some ('\n', r)
  | 'r' :: r => some ('\r', r)
  | 't' :: r => some ('\t', r)
  | 'u' :: r => do
    let (u, r) ← readUnit? r
    if Charset.isHighSurrogate u then
      match r with
      | '\\' :: 'u' :: r' =>
        let (v, r'') ← readUnit? r'
        if Charset.isLowSurrogate v then some (Charset.joinSurrogates u v, r'')
        else some (replacement, r)
      | _ => some (replacement, r)
    else if Charset.isLowSurrogate u then some (replacement, r)
    else some (Char.ofNat u, r)
  | _ => none

/-- The characters up to the closing quote. No control character may stand among them. -/
def readString? : Nat → List Char → Option (List Char × List Char)
  | 0, _ => none
  | _ + 1, [] => none
  | fuel + 1, c :: r =>
    if c == '"' then some ([], r)
    else if c == '\\' then do
      let (e, r) ← readEscape? r
      let (cs, r) ← readString? fuel r
      some (e :: cs, r)
    else if c.toNat < 32 then none
    else do
      let (cs, r) ← readString? fuel r
      some (c :: cs, r)

/-- The name of a field, after its opening quote, and the colon behind it. -/
def readName? (cs : List Char) : Option (String × List Char) := do
  let (name, r) ← readString? (cs.length + 1) cs
  match skipSpace r with
  | ':' :: r => some (String.ofList name, skipSpace r)
  | _ => none

/-! ## Values -/

def malformed {α : Type} : Except Fault α := .error .malformed

def readWord? : List Char → Option (Value × List Char)
  | 'n' :: 'u' :: 'l' :: 'l' :: r => some (.null, r)
  | 't' :: 'r' :: 'u' :: 'e' :: r => some (.bool true, r)
  | 'f' :: 'a' :: 'l' :: 's' :: 'e' :: r => some (.bool false, r)
  | 'N' :: 'a' :: 'N' :: r => some (.float .notNumber, r)
  | 'I' :: 'n' :: 'f' :: 'i' :: 'n' :: 'i' :: 't' :: 'y' :: r => some (.float (.infinite false), r)
  | '-' :: 'I' :: 'n' :: 'f' :: 'i' :: 'n' :: 'i' :: 't' :: 'y' :: r =>
    some (.float (.infinite true), r)
  | _ => none

/-- A value that holds no other one. -/
def readScalar (cs : List Char) : Except Fault (Value × List Char) :=
  match readWord? cs with
  | some found => .ok found
  | none =>
    match cs with
    | '"' :: r =>
      match readString? (r.length + 1) r with
      | some (s, r) => .ok (.text (String.ofList s), r)
      | none => malformed
    | '-' :: r => readUnsigned true r
    | _ => readUnsigned false cs

mutual

/-- Reads a value in which lists and objects are nested no deeper than `depth`. -/
def readValue : Nat → Nat → List Char → Except Fault (Value × List Char)
  | 0, _, _ => malformed
  | fuel + 1, depth, cs =>
    match cs with
    | '[' :: r =>
      if depth = 0 then .error .nestedTooDeep
      else
        match skipSpace r with
        | ']' :: r => .ok (.list [], r)
        | r => do
          let (items, r) ← readItems fuel (depth - 1) r
          .ok (.list items, r)
    | '\x7b' :: r =>
      if depth = 0 then .error .nestedTooDeep
      else
        match skipSpace r with
        | '\x7d' :: r => .ok (.object [], r)
        | r => do
          let (members, r) ← readMembers fuel (depth - 1) r
          .ok (.object (Fields.ofList members), r)
    | cs => readScalar cs

/-- The items of a list, of which one has to follow, up to the closing bracket. -/
def readItems : Nat → Nat → List Char → Except Fault (List Value × List Char)
  | 0, _, _ => malformed
  | fuel + 1, depth, cs => do
    let (v, r) ← readValue fuel depth cs
    match skipSpace r with
    | ']' :: r => .ok ([v], r)
    | ',' :: r => do
      let (vs, r) ← readItems fuel depth (skipSpace r)
      .ok (v :: vs, r)
    | _ => malformed

/-- The fields of an object, of which one has to follow, up to the closing brace. -/
def readMembers : Nat → Nat → List Char → Except Fault (Fields × List Char)
  | 0, _, _ => malformed
  | fuel + 1, depth, cs =>
    match cs with
    | '"' :: r =>
      match readName? r with
      | none => malformed
      | some (name, r) => do
        let (v, r) ← readValue fuel depth r
        match skipSpace r with
        | '\x7d' :: r => .ok ([(name, v)], r)
        | ',' :: r => do
          let (members, r) ← readMembers fuel depth (skipSpace r)
          .ok ((name, v) :: members, r)
        | _ => malformed
    | _ => malformed

end

/-- Every step of a reader takes a character or enters a list or object that has been opened, so
twice the length of the text is fuel enough. -/
def readChars (depth : Nat) (cs : List Char) : Except Fault Value := do
  let (v, r) ← readValue (2 * cs.length + 2) depth (skipSpace cs)
  if (skipSpace r).isEmpty then .ok v else malformed

def readNested (depth : Nat) (text : String) : Except Fault Value := readChars depth text.toList

/-- No text is nested deeper than it is long. -/
def read (text : String) : Except Fault Value := readNested text.toList.length text

end GatewayLedger.Json
