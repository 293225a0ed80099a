import StockAnalysis.Book.Budget
import StockAnalysis.Book.FeePolicy

/-!
# Modeled fills

`trading/paper_book_v2_fill_model.rs`: when a persisted window is admissible, what a parent fills
against it, and the fee that is reserved for whatever is still unfilled.

The reserve is a per-lot ceiling times the number of whole lots. It covers every later fill: a
fill of `k` lots at any price up to the cap pays at most `k` times the per-lot ceiling, because a
half-up quotient of a `k`-fold amount is at most `k` times the rounded-up quotient of one part,
and the minimum commission is at most the commission of one lot.
-/

namespace StockAnalysis.Book

open StockAnalysis.Rounding
open StockAnalysis.Ledger (LedgerError Outcome Money nanosPerHour shanghai)

def modelVersion : String := "paper-parent-whole-lot-fill/v1"

/-- The last nanosecond of 262142-12-31, the end of the supported clock. -/
def latestInstant : Int := (95026236 + 1) * (24 * nanosPerHour) - 1

/-- Shanghai local time, where the clock supports it. -/
def checkedShanghaiLocal (at_ : Instant) (error : LedgerError) : Outcome Int := do
  require (shanghai at_ ≤ latestInstant) error
  pure (shanghai at_)

/-- The calendar date of a local time. -/
def localDay (local_ : Int) : Day :=
  local_ / (24 * nanosPerHour)

/-- `num_seconds_from_midnight`. -/
def localSeconds (local_ : Int) : Int :=
  local_ % (24 * nanosPerHour) / 1000000000

/-- The morning and the afternoon session, ends included. -/
def InSession (seconds : Int) : Prop :=
  (9 * 3600 + 30 * 60 ≤ seconds ∧ seconds ≤ 11 * 3600 + 30 * 60) ∨
    (13 * 3600 ≤ seconds ∧ seconds ≤ 15 * 3600)

instance (seconds : Int) : Decidable (InSession seconds) :=
  inferInstanceAs (Decidable (_ ∨ _))

/-- The recorded fact times are readable, ordered, and not after the observation. -/
def factsOrdered (host : Host) (window : WindowRecord) : Bool :=
  match host.parseRfc3339 window.factsSourceAt, host.parseRfc3339 window.factsObservedAt with
  | some sourceAt, some observedAt =>
    decide (sourceAt ≤ observedAt ∧ observedAt ≤ window.observedAt)
  | _, _ => false

def windowNotAdmissible : LedgerError :=
  .evidenceUnavailable "execution window is not admissible"

def WindowRecord.validate (host : Host) (window : WindowRecord) : Outcome Unit := do
  let local_ ← checkedShanghaiLocal window.observedAt
    (.evidenceUnavailable "execution window Shanghai clock exceeds supported range")
  require (window.version = modelVersion ∧ token window.observationId = true ∧
    token window.instrumentCode = true ∧ token window.sourceReference = true ∧
    token window.factsContract = true ∧ token window.factsBatchId = true ∧
    token window.factsSource = true ∧ token window.regimeVersion = true ∧
    (window.feeSegment = "ShanghaiMainA" ∨ window.feeSegment = "ShanghaiStarA") ∧
    factsOrdered host window = true ∧ window.sourceAt ≤ window.observedAt ∧
    window.observedAt ≤ window.freshThrough ∧ localDay local_ = window.sessionDate ∧
    InSession (localSeconds local_)) windowNotAdmissible
  let open_ ← host.calendarDay (localDay local_)
  require (open_ = true ∧ window.listed = true ∧ 0 < window.tickMicroCny.val ∧
    0 < window.lowerMicroCny.val ∧ window.lowerMicroCny.val ≤ window.upperMicroCny.val ∧
    window.lowerMicroCny.val.tmod window.tickMicroCny.val = 0 ∧
    window.upperMicroCny.val.tmod window.tickMicroCny.val = 0 ∧
    window.lowerMicroCny.val ≤ window.priceMicroCny.val ∧
    window.priceMicroCny.val ≤ window.upperMicroCny.val ∧
    window.priceMicroCny.val.tmod window.tickMicroCny.val = 0) windowNotAdmissible

variable {host : Host} {window : WindowRecord} {side : Side} {policy : AShareFeePolicyV2}
  {remaining : Nat} {limit feePriceCap : Money} {modeled : ModeledFill} {maxPrice amount lots : Int}

theorem WindowRecord.validate_price {done : Unit} (valid : window.validate host = .ok done) :
    0 < window.lowerMicroCny.val ∧ 0 < window.priceMicroCny.val := by
  simp only [WindowRecord.validate, bind_eq_ok, require_eq_ok] at valid
  obtain ⟨_, _, _, _, _, _, _, _, _, lower, _, _, _, price, _⟩ := valid
  exact ⟨lower, lt_of_lt_of_le lower price⟩

/-! ## The fill of one window -/

/-- The whole lots that a window offers to a remainder. -/
def modeledQuantity (remaining : Nat) (window : WindowRecord) : Nat :=
  min remaining (window.modeledAvailableQuantity / 100 * 100)

/-- The price of the window is on the wrong side of the limit. -/
def OutsideLimit (side : Side) (price limit : Int) : Prop :=
  (side = .buy ∧ limit < price) ∨ (side = .sell ∧ price < limit)

instance (side : Side) (price limit : Int) : Decidable (OutsideLimit side price limit) :=
  inferInstanceAs (Decidable (_ ∨ _))

/-- The fill of a positive whole-lot quantity. -/
def modelFill (host : Host) (side : Side) (quantity : Nat) (window : WindowRecord)
    (feePolicy : AShareFeePolicyV2) : Outcome ModelOutcome := do
  let value ← notional window.priceMicroCny quantity
  let fee ← feeEvidence (fillFee host feePolicy feePolicy.scope side.feeSide value
    window.sessionDate .modeledComponentsOnly)
  let sellableFrom ← host.calendarNext window.sessionDate
  pure (.fill
    { quantity := quantity
      priceMicroCny := window.priceMicroCny
      notionalMicroCny := value
      commissionMicroCny := fee.commissionMicroCny
      stampTaxMicroCny := fee.stampTaxMicroCny
      totalFeeMicroCny := fee.totalMicroCny
      feePolicyInstanceId := fee.policyInstanceId
      stampTaxBracket := fee.stampTaxBracket.id
      sellableFrom := sellableFrom })

/-- `model_with_work`: what a parent's remainder does against a window. -/
def model (host : Host) (side : Side) (remaining : Nat) (limit feePriceCap : Money)
    (window : WindowRecord) (feePolicy : AShareFeePolicyV2) : Outcome ModelOutcome := do
  window.validate host
  require (remaining ≠ 0 ∧ remaining % 100 = 0 ∧ 0 < limit.val ∧
    limit.val ≤ feePriceCap.val ∧ feePriceCap.val ≤ window.upperMicroCny.val ∧
    window.lowerMicroCny.val ≤ limit.val ∧ limit.val.tmod window.tickMicroCny.val = 0 ∧
    feePriceCap.val.tmod window.tickMicroCny.val = 0)
    (.invalidInput "parent whole-lot bounds invalid")
  if window.suspended then pure (.noFill .suspended)
  else if OutsideLimit side window.priceMicroCny.val limit.val then pure (.noFill .outsideLimit)
  else if feePriceCap.val < window.priceMicroCny.val then
    .error (.evidenceUnavailable "execution price exceeds frozen fee cap")
  else if modeledQuantity remaining window = 0 then pure (.noFill .lessThanWholeLot)
  else modelFill host side (modeledQuantity remaining window) window feePolicy

/-- What a modeled fill says. -/
structure Modeled (side : Side) (remaining : Nat) (limit feePriceCap : Money)
    (window : WindowRecord) (policy : AShareFeePolicyV2) (modeled : ModeledFill) : Prop where
  quantity : modeled.quantity = modeledQuantity remaining window
  positive : 0 < modeled.quantity
  wholeRemaining : remaining % 100 = 0
  price : modeled.priceMicroCny = window.priceMicroCny
  pricePositive : 0 < modeled.priceMicroCny.val
  inLimit : ¬ OutsideLimit side modeled.priceMicroCny.val limit.val
  capped : modeled.priceMicroCny.val ≤ feePriceCap.val
  notional : modeled.notionalMicroCny.val = modeled.priceMicroCny.val * modeled.quantity
  fee : modeled.totalFeeMicroCny.val =
    policy.commissionOn (modeled.priceMicroCny.val * modeled.quantity) +
      stampOn side.feeSide window.sessionDate (modeled.priceMicroCny.val * modeled.quantity)

variable {quantity : Nat}

theorem modelFill_eq_ok {outcome : ModelOutcome}
    (done : modelFill host side quantity window policy = .ok outcome) :
    ∃ modeled, outcome = .fill modeled ∧ modeled.quantity = quantity ∧
      modeled.priceMicroCny = window.priceMicroCny ∧ 0 < window.priceMicroCny.val ∧
      modeled.notionalMicroCny.val = window.priceMicroCny.val * quantity ∧
      modeled.totalFeeMicroCny.val =
        policy.commissionOn (window.priceMicroCny.val * quantity) +
          stampOn side.feeSide window.sessionDate (window.priceMicroCny.val * quantity) := by
  simp only [modelFill, bind_eq_ok, notional_eq_ok, feeEvidence_eq_ok, pure_eq_ok] at done
  obtain ⟨value, ⟨⟨positive, _⟩, valueEq⟩, fee, charged, sellableFrom, _, rfl⟩ := done
  have total := (fillFee_charged charged).total
  rw [valueEq] at total
  exact ⟨_, rfl, rfl, rfl, positive, valueEq, total⟩

/-- A model that fills does so within the limit, the cap and the offered whole lots. -/
theorem model_fill
    (done : model host side remaining limit feePriceCap window policy = .ok (.fill modeled)) :
    Modeled side remaining limit feePriceCap window policy modeled := by
  simp only [model, bind_eq_ok, require_eq_ok] at done
  obtain ⟨_, _, _, ⟨_, whole, _⟩, done⟩ := done
  split at done
  · cases done
  · split at done
    · cases done
    · rename_i inLimit
      split at done
      · cases done
      · rename_i capped
        split at done
        · cases done
        · rename_i some
          obtain ⟨found, same, quantity, price, pricePositive, notional, fee⟩ :=
            modelFill_eq_ok done
          obtain rfl := ModelOutcome.fill.inj same
          refine ⟨quantity, ?_, whole, price, ?_, ?_, ?_, ?_, ?_⟩
          · rw [quantity]
            exact Nat.pos_of_ne_zero some
          · rwa [price]
          · rwa [price]
          · rw [price]
            exact not_lt.mp capped
          · rw [price, quantity, notional]
          · rw [price, quantity, fee]

theorem Modeled.quantity_le (fills : Modeled side remaining limit feePriceCap window policy modeled)
    :
    modeled.quantity ≤ remaining ∧ modeled.quantity ≤ window.modeledAvailableQuantity := by
  rw [fills.quantity, modeledQuantity]
  omega

theorem Modeled.whole (fills : Modeled side remaining limit feePriceCap window policy modeled) :
    modeled.quantity % 100 = 0 := by
  have wholeRemaining := fills.wholeRemaining
  rw [fills.quantity, modeledQuantity]
  omega

/-! ## The reserved fee -/

/-- The stamp tax reserved for one lot. -/
def stampCeiling (side : Side) (value : Int) (bracket : StampTaxBracketV2) : Int :=
  match side with
  | .buy => 0
  | .sell => ceiling value bracket.denominator

/-- The fee reserved for a remainder that may fill at any price up to the maximum. -/
def worstCaseFee (host : Host) (side : Side) (remaining : Nat) (maxPrice : Money) (date : Day)
    (policy : AShareFeePolicyV2) : Outcome Money := do
  require (remaining % 100 = 0) (.evidenceUnavailable "odd lot model unavailable")
  if remaining = 0 then pure 0
  else do
    let value ← notional maxPrice 100
    let fee ← feeEvidence (fillFee host policy policy.scope side.feeSide value date
      .modeledComponentsOnly)
    let numerator ← feeRateInteger policy.canonicalText .numerator
    let denominator ← feeRateInteger policy.canonicalText .denominator
    require (0 ≤ numerator ∧ 0 < denominator) (.evidenceUnavailable "fee descriptor rate invalid")
    let commission := max (ceiling (fee.notionalMicroCny.val * numerator) denominator)
      fee.commissionMicroCny.val
    let stamp := stampCeiling side fee.notionalMicroCny.val fee.stampTaxBracket
    checked ((commission + stamp) * (remaining / 100 : Nat))

/-- The fee reserved for one lot at a price. -/
def AShareFeePolicyV2.perLotFee (policy : AShareFeePolicyV2) (side : Side) (maxPrice : Int)
    (date : Day) : Int :=
  max (ceiling (maxPrice * 100 * policy.commissionRate.numerator.val)
      policy.commissionRate.denominator.val) (policy.commissionOn (maxPrice * 100)) +
    stampCeiling side (maxPrice * 100) (stampTaxBracket date)

/-- The reserved fee is the per-lot fee times the number of lots. -/
theorem worstCaseFee_val {maxPrice total : Money} {date : Day}
    (done : worstCaseFee host side remaining maxPrice date policy = .ok total) :
    remaining % 100 = 0 ∧
      total.val = policy.perLotFee side maxPrice.val date * (remaining / 100 : Nat) := by
  unfold worstCaseFee at done
  obtain ⟨_, whole, done⟩ := bind_eq_ok.mp done
  refine ⟨require_eq_ok.mp whole, ?_⟩
  split at done
  · rename_i none
    obtain rfl := pure_eq_ok.mp done
    simp [none]
  · simp only [policy.feeRateInteger_canonicalText, bind_eq_ok, notional_eq_ok,
      feeEvidence_eq_ok, require_eq_ok, checked_eq_ok, Except.ok.injEq,
      FeeRateField.value] at done
    obtain ⟨value, ⟨_, valueEq⟩, fee, charged, _, rfl, _, rfl, _, _, totalEq⟩ := done
    have charge := fillFee_charged charged
    rw [totalEq, charge.amount, charge.commission, charge.bracket, valueEq]
    rfl

theorem stampCeiling_nonneg (side : Side) {value : Int} (nonneg : 0 ≤ value)
    (bracket : StampTaxBracketV2) : 0 ≤ stampCeiling side value bracket := by
  cases side with
  | buy => exact le_refl _
  | sell => exact ceiling_nonneg nonneg bracket.denominator_pos

theorem AShareFeePolicyV2.perLotFee_nonneg (policy : AShareFeePolicyV2) (side : Side)
    (nonneg : 0 ≤ maxPrice) (date : Day) :
    0 ≤ policy.perLotFee side maxPrice date := by
  have commission : 0 ≤ max (ceiling (maxPrice * 100 * policy.commissionRate.numerator.val)
      policy.commissionRate.denominator.val) (policy.commissionOn (maxPrice * 100)) :=
    le_max_of_le_right (policy.commissionOn_nonneg _)
  have stamp := stampCeiling_nonneg side (by omega : 0 ≤ maxPrice * 100) (stampTaxBracket date)
  unfold perLotFee
  omega

/-- A rounded quotient of `lots` equal parts, or of less, is at most `lots` rounded-up parts. -/
theorem halfUp_parts {part denominator : Int} (amountNonneg : 0 ≤ amount) (partNonneg : 0 ≤ part)
    (lotsNonneg : 0 ≤ lots) (positive : 0 < denominator) (within : amount ≤ part * lots) :
    halfUp amount denominator ≤ ceiling part denominator * lots := by
  refine halfUp_le amountNonneg positive ?_
  calc amount ≤ part * lots := within
    _ ≤ ceiling part denominator * denominator * lots :=
        Int.mul_le_mul_of_nonneg_right (le_ceiling_mul partNonneg positive) lotsNonneg
    _ = ceiling part denominator * lots * denominator := by ring

theorem AShareFeePolicyV2.commissionOn_le_lots (policy : AShareFeePolicyV2)
    (amountNonneg : 0 ≤ amount) (priceNonneg : 0 ≤ maxPrice) (some : 1 ≤ lots)
    (within : amount ≤ maxPrice * 100 * lots) :
    policy.commissionOn amount ≤
      max (ceiling (maxPrice * 100 * policy.commissionRate.numerator.val)
        policy.commissionRate.denominator.val) (policy.commissionOn (maxPrice * 100)) * lots := by
  have rate := policy.commissionRate.nonneg
  have positive := policy.commissionRate.positive
  have minimumNonneg := policy.minimumNonneg
  refine max_le ?_ ?_
  · calc halfUp (amount * policy.commissionRate.numerator.val)
          policy.commissionRate.denominator.val
        ≤ ceiling (maxPrice * 100 * policy.commissionRate.numerator.val)
            policy.commissionRate.denominator.val * lots := by
          refine halfUp_parts (Int.mul_nonneg amountNonneg rate)
            (Int.mul_nonneg (by omega) rate) (by omega) positive ?_
          calc amount * policy.commissionRate.numerator.val
              ≤ maxPrice * 100 * lots * policy.commissionRate.numerator.val :=
                Int.mul_le_mul_of_nonneg_right within rate
            _ = maxPrice * 100 * policy.commissionRate.numerator.val * lots := by ring
      _ ≤ _ := Int.mul_le_mul_of_nonneg_right (le_max_left _ _) (by omega)
  · calc policy.commissionMinimumMicroCny.val
        ≤ policy.commissionMinimumMicroCny.val * lots :=
          le_mul_of_one_le_right minimumNonneg some
      _ ≤ _ := Int.mul_le_mul_of_nonneg_right
          (le_max_of_le_right (le_max_right _ _)) (by omega)

theorem stampOn_le_lots (side : Side) (date : Day) (amountNonneg : 0 ≤ amount)
    (priceNonneg : 0 ≤ maxPrice) (lotsNonneg : 0 ≤ lots) (within : amount ≤ maxPrice * 100 * lots) :
    stampOn side.feeSide date amount ≤
      stampCeiling side (maxPrice * 100) (stampTaxBracket date) * lots := by
  cases side with
  | buy => simp [stampOn, stampCeiling, Side.feeSide]
  | sell =>
    exact halfUp_parts amountNonneg (by omega) lotsNonneg
      (StampTaxBracketV2.denominator_pos _) within

/-- The fee of any fill of whole lots at a price up to the maximum is within its lots' reserve. -/
theorem AShareFeePolicyV2.fee_le_perLotFee (policy : AShareFeePolicyV2) (side : Side) (date : Day)
    {price : Int} (pricePositive : 0 < price) (capped : price ≤ maxPrice) (positive : 0 < quantity)
    (whole : quantity % 100 = 0) :
    policy.commissionOn (price * quantity) + stampOn side.feeSide date (price * quantity) ≤
      policy.perLotFee side maxPrice date * (quantity / 100 : Nat) := by
  obtain ⟨lots, rfl⟩ : ∃ lots, quantity = 100 * lots := ⟨quantity / 100, by omega⟩
  have some : (1 : Int) ≤ (lots : Int) := by omega
  have amountNonneg : 0 ≤ price * ((100 * lots : Nat) : Int) :=
    Int.mul_nonneg pricePositive.le (Int.natCast_nonneg _)
  have within : price * ((100 * lots : Nat) : Int) ≤ maxPrice * 100 * lots := by
    calc price * ((100 * lots : Nat) : Int) = price * 100 * lots := by push_cast; ring
      _ ≤ maxPrice * 100 * lots :=
          Int.mul_le_mul_of_nonneg_right (by omega) (by omega)
  have commission := policy.commissionOn_le_lots amountNonneg (by omega) some within
  have stamp := stampOn_le_lots side date amountNonneg (by omega) (by omega) within
  rw [Nat.mul_div_cancel_left lots (by decide), perLotFee, Int.add_mul]
  omega

end StockAnalysis.Book
