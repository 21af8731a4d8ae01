import GatewayLedger.Text.Blank

/-!
# Confirmation

A question that is put to the user until an answer can be read: yes or no in any case, where an empty
line means no. The end of the input counts as a refusal.
-/

namespace GatewayLedger

/-- What became of a question, and what the user saw of it. -/
structure Confirmation where
  agreed : Bool
  shown : String

namespace Confirmation

inductive Reading where
  | yes
  | no
  | unclear
deriving DecidableEq

/-- The words for yes and no are ASCII. -/
def readingOf (line : String) : Reading :=
  match String.ofList (Text.trim (line.toList.map Char.toLower)) with
  | "y" => .yes
  | "yes" => .yes
  | "n" => .no
  | "no" => .no
  | "" => .no
  | _ => .unclear

/-- Asks for each line of the input in turn. -/
def ask (question : String) : List String → Confirmation
  | [] => ⟨false, question⟩
  | line :: rest =>
    let echoed := question ++ line ++ "\n"
    match readingOf line with
    | .yes => ⟨true, echoed⟩
    | .no => ⟨false, echoed⟩
    | .unclear =>
      let later := ask question rest
      ⟨later.agreed, echoed ++ "Error: invalid input\n" ++ later.shown⟩

/-- The lines of an input. A carriage return, alone or before a line feed, ends a line too. -/
def linesFrom (current : List Char) : List Char → List String
  | [] => if current.isEmpty then [] else [String.ofList current.reverse]
  | '\r' :: '\n' :: rest => String.ofList current.reverse :: linesFrom [] rest
  | c :: rest =>
    if c == '\n' || c == '\r' then String.ofList current.reverse :: linesFrom [] rest
    else linesFrom (c :: current) rest

def lines (input : String) : List String := linesFrom [] input.toList

end Confirmation

end GatewayLedger
