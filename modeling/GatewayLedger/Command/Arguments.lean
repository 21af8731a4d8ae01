/-!
# Arguments

The words of a command line. A word that starts with a dash names a switch: two dashes before a long
name, and one dash before any number of letters. A switch takes its value from behind an equals sign,
from the rest of its word, or from the next word, whatever that is. After two dashes alone every
word is an argument.
-/

namespace GatewayLedger

structure Switch where
  /-- The name under which the switch is known to the program. -/
  key : String
  long : Option String
  short : Option Char
  takesValue : Bool

/-- The switches that were given, in their order, and the other words. -/
structure Arguments where
  switches : List (String × String)
  words : List String

namespace Arguments

def addSwitches (given : List (String × String)) (a : Arguments) : Arguments :=
  { a with switches := given ++ a.switches }

def addWord (word : String) (a : Arguments) : Arguments := { a with words := word :: a.words }

/-- The value of a switch that was given, the last one if there are several. -/
def value? (a : Arguments) (key : String) : Option String :=
  (a.switches.reverse.find? fun s => s.1 == key).map (·.2)

def has (a : Arguments) (key : String) : Bool := (a.value? key).isSome

def isSwitchWord (cs : List Char) : Bool := cs.head? == some '-' && 1 < cs.length

/-- What a word of switches says: switches with their values, and perhaps a last one that takes the
next word for its value. -/
structure Named where
  given : List (String × String)
  waiting : Option String

/-- The switches of a word of letters. -/
def readLetters (switches : List Switch) : List Char → Option Named
  | [] => some ⟨[], none⟩
  | c :: rest => do
    let s ← switches.find? fun s => s.short == some c
    if s.takesValue then
      if rest.isEmpty then some ⟨[], some s.key⟩
      else some ⟨[(s.key, String.ofList rest)], none⟩
    else
      let named ← readLetters switches rest
      some { named with given := (s.key, "") :: named.given }

/-- The switch with a long name, which may hold its value behind an equals sign. -/
def readLong (s : Switch) (explicit : Option String) : Option Named :=
  match s.takesValue, explicit with
  | true, some v => some ⟨[(s.key, v)], none⟩
  | true, none => some ⟨[], some s.key⟩
  | false, some _ => none
  | false, none => some ⟨[(s.key, "")], none⟩

def explicitValue (cs : List Char) : Option String :=
  match cs.dropWhile (· != '=') with
  | [] => none
  | _ :: v => some (String.ofList v)

def readSwitchWord (switches : List Switch) (cs : List Char) : Option Named :=
  let name := String.ofList (cs.takeWhile (· != '='))
  match switches.find? fun s => s.long == some name with
  | some s => readLong s (explicitValue cs)
  | none => if cs.take 2 == ['-', '-'] then none else readLetters switches (cs.drop 1)

/-- Reads the words; there is no reading if a switch is not known or lacks its value. Where switches
and arguments are not mixed, the first argument ends the switches. -/
def read (mixed : Bool) (switches : List Switch) : List String → Option Arguments
  | [] => some ⟨[], []⟩
  | word :: rest =>
    let cs := word.toList
    if word == "--" then some ⟨[], rest⟩
    else if isSwitchWord cs then
      match readSwitchWord switches cs with
      | none => none
      | some ⟨given, none⟩ => (read mixed switches rest).map (addSwitches given)
      | some ⟨given, some key⟩ =>
        match rest with
        | [] => none
        | value :: rest => (read mixed switches rest).map (addSwitches (given ++ [(key, value)]))
    else if mixed then (read mixed switches rest).map (addWord word)
    else some ⟨[], word :: rest⟩

end Arguments

end GatewayLedger
