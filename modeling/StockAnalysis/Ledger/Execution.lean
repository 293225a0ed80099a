import StockAnalysis.Ledger.Facts

/-!
# The locked financial decision

The part of `execute` and `mark_on` that computes: freshness and authority of the evidence,
the terms of an order (price, marks, fee, equity), the verdict on it, and the lots and amounts
a fill changes. Nothing here reads or writes the store.
-/

namespace StockAnalysis.Ledger

variable (host : Host) (lots : List Lot) (intent : ExecuteIntent)

/-- Evidence is neither from the future nor older than 300 seconds. -/
def fresh (at_ now : Instant) : Outcome Unit := do
  require (at_ ≤ now) (.evidenceUnavailable
    "realtime quote/mark timestamp is in the future after lock acquisition")
  require (now - at_ ≤ 300 * 1000000000) (.evidenceUnavailable
    "realtime quote/mark not fresh after lock acquisition")

def checkHead (view : PaperView) (version : Int) (fingerprint : String) : Outcome Unit := do
  require (view.version = version) .versionChanged
  require (host.inventoryHash view.projection.lots = fingerprint)
    (.evidenceUnavailable "inventory fingerprint mismatch")

def ratioExceeds (part whole : Money) (bps : Nat) : Bool :=
  decide (part.val * 10000 > whole.val * bps)

def priceBandRejection (text : String) : LedgerError :=
  .evidenceUnavailable ("independent execution price authority rejected: " ++ text)

def QualifiedPriceBand.validatePriceMicros (band : QualifiedPriceBand) (price : Money) :
    Outcome Unit := do
  require (band.lowerPriceMicros ≤ price.val ∧ price.val ≤ band.upperPriceMicros)
    (priceBandRejection ("price " ++ toString price.val ++ " is outside [" ++
      toString band.lowerPriceMicros ++ ", " ++ toString band.upperPriceMicros ++ "]"))
  require (price.val % band.tickMicros = 0)
    (priceBandRejection ("price " ++ toString price.val ++ " is not on tick grid " ++
      toString band.tickMicros))

def ExecutionPriceQualification.require (authority : ExecutionPriceQualification)
    (code : String) (effectiveOn : Day) (signal quote : Money) : Outcome Unit := do
  StockAnalysis.require (authority.code = code ∧ authority.effectiveOn = effectiveOn)
    (.evidenceUnavailable "independent price authority code/session mismatch")
  authority.band.validatePriceMicros signal
  authority.band.validatePriceMicros quote

/-- The price that is part of an intent's identity, under a fixed-price intent. -/
def semanticPrice (price : F64) : PriceIntent → Outcome (Option Money)
  | .fixedSignalPriceV1 => do
      let money ← host.fromCny price
      pure (some money)
  | .signalQuoteMarketV1 => pure none

def orderIntentHash (binding : AccountBinding) (signal : PaperSignal) (priceIntent : PriceIntent) :
    Outcome String := do
  StockAnalysis.require (startsWith signal.planId ("paper:" ++ binding.epochId ++ ":") = true)
    (.invalidInput "plan lacks active epoch namespace")
  let price ← semanticPrice host signal.price priceIntent
  pure (host.intentHash
    { manifestHash := binding.manifestHash
      priceIntent := priceIntent
      direction := signal.direction.asStr
      code := signal.code
      quantity := signal.quantity
      semanticPrice := price })

/-! ## Terms and verdict of an order -/

/-- What an order would trade at and cost, and the account value it is judged against. -/
structure OrderTerms where
  price : Money
  marks : OrdMap String Mark
  notional : Money
  commission : Money
  stamp : Money
  totalFee : Money
  equity : Money

variable (terms : OrderTerms) (now : Instant)

/-- Every admitted mark must be fresh. -/
def freshMarks (marks : OrdMap String Mark) : Outcome Unit :=
  each (fun _ mark => fresh mark.observedAt now) () marks.values

def orderTerms (view : PaperView) (intent : ExecuteIntent) (now : Instant) : Outcome OrderTerms := do
  checkHead host view intent.expectedVersion intent.inventoryFingerprint
  let price ← host.fromCny intent.signal.price
  StockAnalysis.require (0 < price.val ∧ 0 < intent.quotePrice.val ∧ intent.signal.quantity ≠ 0 ∧
    intent.signal.quantity % 100 = 0) (.invalidInput "invalid order price/quantity")
  fresh intent.signal.quoteObservedAt now
  intent.priceQualification.require intent.signal.code (day now) price intent.quotePrice
  StockAnalysis.require (view.projection.asOf ≤ now)
    (.evidenceUnavailable "execution before cutover/head")
  let marks ← admitMarks view.projection.lots intent.marks (some intent.signal.code)
  freshMarks now marks
  let notional ← price.mul intent.signal.quantity
  let commission ← commissionOf notional
  let stamp ← stampOf notional intent.signal.direction.asStr
  let totalFee ← commission.add stamp
  let equity ← { view.projection with marks := marks }.equity
  pure ⟨price, marks, notional, commission, stamp, totalFee, equity⟩

/-- A ledger error reported as a rejection reason. -/
def reasonOf {α : Type} (result : Outcome α) : Except String α :=
  result.mapError LedgerError.text

/-- The shares of a code that may be sold on a date. -/
def sellableQuantity (code : String) (date : Day) : Nat :=
  ((lots.filter fun lot => decide (lot.code = code ∧ lot.sellableFrom ≤ date)).map
    Lot.quantity).sum

/-- The market value already held in a code. -/
def existingPosition (marks : OrdMap String Mark) (lots : List Lot) (code : String) :
    Outcome Money :=
  each (Projection.addMarketValue marks) 0 (lots.filter fun lot => decide (lot.code = code))

def buyCheck (view : Projection) (terms : OrderTerms) (policy : RiskPolicyV1) (code : String) :
    Except String Unit := do
  let afterNotional ← reasonOf (view.cash.sub terms.notional)
  let afterCash ← reasonOf (afterNotional.sub terms.commission)
  let afterFeeEquity ← reasonOf (terms.equity.sub terms.commission)
  StockAnalysis.require (0 ≤ afterCash.val ∧ 0 < afterFeeEquity.val ∧
    afterFeeEquity.val * policy.cashFloorBps ≤ afterCash.val * 10000)
    "post-trade cash floor / insufficient cash"
  let existing ← reasonOf (existingPosition terms.marks view.lots code)
  let position ← reasonOf (existing.add terms.notional)
  StockAnalysis.require (ratioExceeds position terms.equity policy.maxPositionBps = false)
    "post-trade concentration exceeds pretrade-equity policy"

/-- `financial_check`. The account-mode gate of the source admits every action and is left
out. -/
def financialCheck (signal : PaperSignal) (view : Projection) (terms : OrderTerms)
    (policy : RiskPolicyV1) (now : Instant) : Except String Unit := do
  host.orderSafety
    { code := signal.code
      side := signal.direction
      orderPrice := signal.price
      quantity := signal.quantity
      availableCash := some (host.cny view.cash)
      limitDownPrice := signal.limitDownPrice
      limitUpPrice := signal.limitUpPrice
      secondaryConfirmed := signal.secondaryConfirmed }
  StockAnalysis.require (signal.dataMode ≠ .unsafeMode) "Unsafe 禁止成交"
  match signal.direction with
  | .sell =>
    StockAnalysis.require (signal.quantity ≤ sellableQuantity view.lots signal.code (day now))
      "insufficient sellable inventory / T+1"
  | .buy => buyCheck view terms policy signal.code

/-- Whether the quote is further from the price than the policy tolerates. -/
def slippageExceeds (quote price : Money) (policy : RiskPolicyV1) : Bool :=
  decide (((quote.val - price.val).natAbs : Int) * 10000 > price.val * policy.maxSlippageBps)

def orderVerdict (view : Projection) (terms : OrderTerms) (policy : RiskPolicyV1) (now : Instant) :
    LedgerStatus × Option String :=
  match financialCheck host intent.signal view terms policy now with
  | .error reason => (.rejected, some reason)
  | .ok _ =>
    if intent.signal.isSuspended then (.notFilled, some "停牌拒绝")
    else if (intent.signal.direction = .buy ∧ intent.signal.isLimitUp = true) ∨
        (intent.signal.direction = .sell ∧ intent.signal.isLimitDown = true) then
      (.notFilled, some "涨跌停不可成交")
    else if slippageExceeds intent.quotePrice terms.price policy then
      (.invalidated, some "滑点超限")
    else (.filled, none)

/-! ## The effect of a fill -/

/-- The lots after a fill, and the cash and realized amounts it moves. -/
structure FillEffect where
  lots : List Lot
  cashDelta : Money
  realizedDelta : Money

def noEffect : FillEffect :=
  ⟨lots, 0, 0⟩

/-- The lot a buy of an intent opens. -/
def openedLot (sellableFrom : Day) : Lot :=
  { lotId := "fill:" ++ intent.commandId
    code := intent.signal.code
    name := intent.signal.name
    quantity := intent.signal.quantity
    basisPrice := terms.price
    buyFeeRemaining := terms.commission
    acquiredOn := day now
    sellableFrom := sellableFrom
    reportedCost := none }

def buyEffect : Outcome FillEffect := do
  let spent ← terms.notional.add terms.totalFee
  let cashDelta ← Money.sub 0 spent
  let sellableFrom ← host.calendarNext (day now)
  pure ⟨lots ++ [openedLot intent terms now sellableFrom], cashDelta, 0⟩

def sellEffect : Outcome FillEffect := do
  let cashDelta ← terms.notional.sub terms.totalFee
  let (tally, left) ← sellFrom intent.signal.code (day now) (.start intent.signal.quantity) lots
  StockAnalysis.require (tally.left = 0)
    (.integrityFailure "inventory changed inside locked transaction")
  let realizedDelta ← realizedOf terms.notional tally terms.totalFee
  pure ⟨openLots left, cashDelta, realizedDelta⟩

def fillEffect (status : LedgerStatus) : Outcome FillEffect :=
  if status = .filled then
    match intent.signal.direction with
    | .buy => buyEffect host lots intent terms now
    | .sell => sellEffect lots intent terms now
  else pure (noEffect lots)

/-- `lot_changes`: the lots that an order changed, removed or added. -/
def lotChanges (before after : List Lot) : List LotChange :=
  KeyedPatch.diff Lot.lotId before after

def feeModel : String := "lot-rates-v1"

def decisionBasis (version : Int) : String :=
  intent.signal.virtualReason ++ " | PaperLedgerV1 account=" ++ intent.binding.accountId ++
    " epoch=" ++ intent.binding.epochId ++ " head=" ++ toString version ++ " inventory=" ++
    intent.inventoryFingerprint ++ " fee_model=" ++ feeModel

def sourceEvidence (signal : PaperSignal) : SourceEvidence :=
  { price := signal.price
    limitDownPrice := signal.limitDownPrice
    limitUpPrice := signal.limitUpPrice
    isLimitDown := signal.isLimitDown
    isLimitUp := signal.isLimitUp
    isSuspended := signal.isSuspended
    secondaryConfirmed := signal.secondaryConfirmed }

/-- The order fact of a decided intent. -/
def orderFact (view : PaperView) (intentHash : String) (terms : OrderTerms) (now : Instant)
    (status : LedgerStatus) (reason : Option String) (effect : FillEffect) (tradeId : Option Int)
    (audit : AuditLink) : OrderFact :=
  { planId := intent.signal.planId
    intentHash := intentHash
    code := intent.signal.code
    direction := intent.signal.direction.asStr
    requestedPrice := terms.price
    priceIntent := intent.priceIntent
    quantity := intent.signal.quantity
    quotePrice := intent.quotePrice
    quoteObservedAt := intent.signal.quoteObservedAt
    accountMode := intent.signal.accountMode.label
    dataMode := intent.signal.dataMode.label
    decisionBasis := decisionBasis intent view.version
    sourceEvidence := sourceEvidence intent.signal
    occurredAt := now
    status := status
    reason := reason
    cashDelta := effect.cashDelta
    commission := if status = .filled then terms.commission else 0
    stamp := if status = .filled then terms.stamp else 0
    realizedDelta := effect.realizedDelta
    lotChanges := lotChanges view.projection.lots effect.lots
    marks := terms.marks
    paperTradeId := tradeId
    audit := audit }

/-! ## What the decision guarantees -/

/-- The checked terms of an order. -/
structure Termed (view : PaperView) (intent : ExecuteIntent) (now : Instant) (terms : OrderTerms) :
    Prop where
  price : host.fromCny intent.signal.price = .ok terms.price
  positive : 0 < terms.price.val
  quantity : 0 < intent.signal.quantity
  boardLots : intent.signal.quantity % 100 = 0
  forward : view.projection.asOf ≤ now
  admitted : Admitted view.projection.lots intent.marks (some intent.signal.code) terms.marks
  notional : terms.notional.val = terms.price.val * intent.signal.quantity
  commission : commissionOf terms.notional = .ok terms.commission
  stamp : stampOf terms.notional intent.signal.direction.asStr = .ok terms.stamp
  totalFee : terms.totalFee.val = terms.commission.val + terms.stamp.val

variable {host : Host} {intent : ExecuteIntent} {now : Instant} {terms : OrderTerms}
  {lots : List Lot} {view : PaperView}

theorem orderTerms_termed (termed : orderTerms host view intent now = .ok terms) :
    Termed host view intent now terms := by
  simp only [orderTerms, bind_eq_ok, require_eq_ok, Money.mul_eq_ok, Money.add_eq_ok,
    pure_eq_ok] at termed
  obtain ⟨_, _, price, converted, _, ⟨positive, _, quantity, boardLots⟩, _, _, _, _, _, forward,
    marks, admits, _, _, notional, notionalEq, commission, commissionEq, stamp, stampEq, totalFee,
    totalFeeEq, equity, _, rfl⟩ := termed
  exact ⟨converted, positive, Nat.pos_of_ne_zero quantity, boardLots, forward,
    admitMarks_admitted admits, notionalEq, commissionEq, stampEq, totalFeeEq⟩

theorem Termed.fee_eq (termed : Termed host view intent now terms) :
    fee terms.price intent.signal.quantity intent.signal.direction.asStr = .ok terms.totalFee := by
  have notional : terms.price.mul intent.signal.quantity = .ok terms.notional :=
    Money.mul_eq_ok.mpr termed.notional
  have total : terms.commission.add terms.stamp = .ok terms.totalFee :=
    Money.add_eq_ok.mpr termed.totalFee
  simp only [fee, notional, termed.commission, termed.stamp, ok_bind, total]

theorem stampOf_buy {notional stamp : Money} (charged : stampOf notional "buy" = .ok stamp) :
    stamp = 0 := by
  simpa [stampOf, pure, Except.pure, eq_comm] using charged

variable {effect : FillEffect}

theorem fillEffect_buy (buying : intent.signal.direction = .buy)
    (effected : fillEffect host lots intent terms now .filled = .ok effect) :
    effect.cashDelta.val = -(terms.notional.val + terms.totalFee.val) ∧
      effect.realizedDelta = 0 ∧
      ∃ sellableFrom, host.calendarNext (day now) = .ok sellableFrom ∧
        effect.lots = lots ++ [openedLot intent terms now sellableFrom] := by
  simp only [fillEffect, buying, if_true, buyEffect, bind_eq_ok, Money.add_eq_ok,
    Money.sub_eq_ok, pure_eq_ok] at effected
  obtain ⟨spent, spentEq, cashDelta, cashEq, sellableFrom, next, rfl⟩ := effected
  refine ⟨?_, rfl, sellableFrom, next, rfl⟩
  rw [cashEq, spentEq, I64.val_zero]
  ring

theorem fillEffect_sell (selling : intent.signal.direction = .sell)
    (effected : fillEffect host lots intent terms now .filled = .ok effect) :
    effect.cashDelta.val = terms.notional.val - terms.totalFee.val ∧
      ∃ tally left, sellFrom intent.signal.code (day now) (.start intent.signal.quantity) lots =
          .ok (tally, left) ∧
        tally.left = 0 ∧ effect.lots = openLots left ∧
        realizedOf terms.notional tally terms.totalFee = .ok effect.realizedDelta := by
  simp only [fillEffect, selling, if_true, sellEffect, bind_eq_ok, Money.sub_eq_ok,
    require_eq_ok, pure_eq_ok, Prod.exists] at effected
  obtain ⟨cashDelta, cashEq, tally, left, sold, _, done, realizedDelta, realized, rfl⟩ := effected
  exact ⟨cashEq, tally, left, sold, done, rfl, realized⟩

theorem fillEffect_none {status : LedgerStatus} (unfilled : status ≠ .filled)
    (effected : fillEffect host lots intent terms now status = .ok effect) :
    effect = noEffect lots := by
  simpa [fillEffect, unfilled, pure, Except.pure, eq_comm] using effected

end StockAnalysis.Ledger
