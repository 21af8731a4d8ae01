import GatewayLedger.Command.Run
import Std.Time.DateTime.Timestamp

/-!
# Program

Runs the command line of the process. Settings come from its environment and from the file `.env`,
and answers to a question from its standard input. No transport is attached to the program, so the
exchange cannot be reached.
-/

namespace GatewayLedger.Main

def unreachable : Script :=
  [Method.get, Method.post].map fun m =>
    ⟨m.name, "", [⟨0, .broken .connection "no transport is attached"⟩]⟩

def readEnvironment : IO Variables := do
  let found ← Settings.variableNames.mapM fun name => do
    let value ← IO.getEnv name
    pure (value.map fun v => (name, v)).toList
  pure found.flatten

def readFile : IO Variables := do
  try
    let text ← IO.FS.readFile ".env"
    pure (Variables.ofFile text)
  catch _ => pure []

/-- Microseconds since the start of 1970. -/
def readClock : IO Int := do
  let time ← Std.Time.Timestamp.now
  pure (time.toNanosecondsSinceUnixEpoch.val / 1000)

partial def readLines (input : IO.FS.Stream) : IO String := do
  let line ← input.getLine
  if line.isEmpty then pure "" else pure (line ++ (← readLines input))

def surroundings : IO (Option Surroundings) := do
  let micros ← readClock
  let source : Settings.Source := ⟨← readEnvironment, ← readFile⟩
  let seconds : Seconds := .fractional (Binary64.ofRatio false micros.toNat 1000000)
  pure ((Moment.ofReading? (Moment.epoch + micros) (some 0)).map fun now =>
    ⟨source, "", unreachable, [seconds], now, Platform.usual⟩)

def closing (r : Run) : String :=
  match r.ending with
  | .escaped (.settings fault) => "Setting " ++ fault.name ++ " is no number.\n"
  | .escaped (.failure _) => "The command failed.\n"
  | .misuse => "Usage: paydash [--verbose] COMMAND [ARGUMENTS]\n"
  | _ => ""

def present (r : Run) : IO UInt32 := do
  IO.print r.output
  IO.eprint (r.errors ++ closing r)
  pure (UInt32.ofNat r.ending.exitCode)

/-- A run that is refused without any input is tried again with what the user types. -/
def run (words : List String) : IO UInt32 := do
  match ← surroundings with
  | none => pure 1
  | some s =>
    let first := Run.ofWords s words
    if first.errors == Run.aborted then
      let input ← readLines (← IO.getStdin)
      present (Run.ofWords { s with input := input } words)
    else present first

end GatewayLedger.Main

def main (args : List String) : IO UInt32 := GatewayLedger.Main.run args
