import GatewayLedger.Number.Binary64

/-!
# Seconds of a clock

What a clock answers: seconds since the start of 1970, whole or with a fraction. The fraction of a
millisecond is dropped.
-/

namespace GatewayLedger

inductive Seconds where
  | whole (n : Int)
  | fractional (x : Binary64)

namespace Seconds

inductive Fault where
  | notNumber
  | unbounded
deriving DecidableEq

def millis : Seconds → Except Fault Int
  | whole n => .ok (n * 1000)
  | fractional .notNumber => .error .notNumber
  | fractional x =>
    match (x.mulNat 1000).truncate? with
    | some n => .ok n
    | none => .error .unbounded

theorem millis_whole (n : Int) : (whole n).millis = .ok (n * 1000) := rfl

end Seconds

end GatewayLedger
