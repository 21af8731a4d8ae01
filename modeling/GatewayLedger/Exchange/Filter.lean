import GatewayLedger.Exchange.Error
import GatewayLedger.Time.Epoch

/-!
# Filters

Which part of the history a request asks for. `Filter.params` checks a filter and lists the
parameters that it stands for. The two times of a filter may share one time zone, whose offset may
change between them. Times of one zone are compared by what its clock reads.
-/

namespace GatewayLedger

structure Filter where
  coin : Option String := none
  status : Option Int := none
  startTime : Option Moment := none
  endTime : Option Moment := none
  limit : Int := 20
  /-- Both times are given in one and the same zone. -/
  oneZone : Bool := false

namespace Filter

/-- The first time counts as after the second one. -/
def isAfter (f : Filter) (opening closing : Moment) : Bool :=
  if f.oneZone then closing.reading < opening.reading else closing.instant < opening.instant

/-- The limit is checked first, then the order of the two times. -/
def check (f : Filter) : Except Failure Unit :=
  if f.limit < 1 then Failure.invalid "limit" "must be at least 1"
  else
    match f.startTime, f.endTime with
    | some opening, some closing =>
      if !opening.comparable closing then .error (.ledger .mixedClocks)
      else if f.isAfter opening closing then
        Failure.invalid "start_time" "must not be after end_time"
      else .ok ()
    | _, _ => .ok ()

def coinParam (f : Filter) : List (String × Value) :=
  match f.coin with
  | none => []
  | some "" => []
  | some coin => [("coin", .text coin)]

def timeParam (name : String) : Option Moment → Except Failure (List (String × Value))
  | none => .ok []
  | some m =>
    match m.toMillis? with
    | some millis => .ok [(name, .int millis)]
    | none => .error .noMillisecond

def params (f : Filter) : Except Failure (List (String × Value)) := do
  f.check
  let opening ← timeParam "startTime" f.startTime
  let closing ← timeParam "endTime" f.endTime
  .ok (f.coinParam ++ (f.status.map fun s => ("status", Value.int s)).toList ++ opening ++
    closing ++ [("limit", .int f.limit)])

end Filter

end GatewayLedger
