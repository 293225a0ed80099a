import StockAnalysis.Book.Steps

/-!
# Reservations cover what they are held for

The free cash of a projection is its strategy cash less the reserves of the working parents. Each
reserve is the cash need of the parent's remainder: the notional amount at the fee price cap for a
buy, and the per-lot fee times the lots. The need is additive over whole lots and bounds what a
fill can cost, so a fill releases at least what it spends and free cash never falls, except by a
new submission.
-/

namespace StockAnalysis.Book

open StockAnalysis.Ledger (Money Projection)

/-! ## The cash need of a remainder -/

@[simp]
theorem IntentRecord.cashNeed_zero (intent : IntentRecord) (fee : AShareFeePolicyV2) :
    intent.cashNeed fee 0 = 0 := by
  unfold IntentRecord.cashNeed
  cases intent.side <;> simp

variable {intent : IntentRecord}

theorem IntentRecord.cashNeed_nonneg (sound : intent.Sound) (fee : AShareFeePolicyV2)
    (remaining : Nat) : 0 ≤ intent.cashNeed fee remaining := by
  have cap := sound.cap
  have fees : 0 ≤ fee.perLotFee intent.side intent.feePriceCapMicroCny.val intent.sessionDate *
      ((remaining / 100 : Nat) : Int) :=
    Int.mul_nonneg (fee.perLotFee_nonneg _ cap.le _) (Int.natCast_nonneg _)
  have value : 0 ≤ intent.feePriceCapMicroCny.val * (remaining : Int) :=
    Int.mul_nonneg cap.le (Int.natCast_nonneg _)
  unfold IntentRecord.cashNeed
  cases side : intent.side <;> rw [side] at fees <;> simp only <;> omega

variable {remaining : Nat}

/-- The need of whole lots is the sum of the needs of its parts. -/
theorem IntentRecord.cashNeed_sub (intent : IntentRecord) (fee : AShareFeePolicyV2) {quantity : Nat}
    (within : quantity ≤ remaining) (whole : quantity % 100 = 0) :
    intent.cashNeed fee remaining =
      intent.cashNeed fee (remaining - quantity) + intent.cashNeed fee quantity := by
  have lots : ((remaining / 100 : Nat) : Int) =
      ((remaining - quantity) / 100 : Nat) + (quantity / 100 : Nat) := by omega
  have shares : (remaining : Int) = (remaining - quantity : Nat) + (quantity : Nat) := by omega
  unfold IntentRecord.cashNeed
  rw [lots]
  cases intent.side with
  | buy =>
    simp only
    rw [shares]
    push_cast
    ring
  | sell =>
    simp only
    ring

variable {fee : AShareFeePolicyV2} {window : WindowRecord} {modeled : ModeledFill}

section Fills

section

variable
  (priced : Modeled intent.side remaining intent.limitMicroCny intent.feePriceCapMicroCny window
    fee modeled)
  (session : window.sessionDate = intent.sessionDate)

include priced session

theorem Modeled.fee_le :
    modeled.totalFeeMicroCny.val ≤
      fee.perLotFee intent.side intent.feePriceCapMicroCny.val intent.sessionDate *
        (modeled.quantity / 100 : Nat) := by
  rw [priced.fee, session]
  exact fee.fee_le_perLotFee intent.side intent.sessionDate priced.pricePositive priced.capped
    priced.positive priced.whole

/-- A buy fill costs at most the need of its shares. -/
theorem Modeled.buy_cost_le (side : intent.side = .buy) :
    modeled.notionalMicroCny.val + modeled.totalFeeMicroCny.val ≤
      intent.cashNeed fee modeled.quantity := by
  have fees := priced.fee_le session
  have value : modeled.notionalMicroCny.val ≤
      intent.feePriceCapMicroCny.val * (modeled.quantity : Int) := by
    rw [priced.notional]
    exact Int.mul_le_mul_of_nonneg_right priced.capped (Int.natCast_nonneg _)
  unfold IntentRecord.cashNeed
  simp only [side] at fees ⊢
  omega

/-- The fee of a sell fill is at most the need of its shares. -/
theorem Modeled.sell_cost_le (side : intent.side = .sell) :
    modeled.totalFeeMicroCny.val - modeled.notionalMicroCny.val ≤
      intent.cashNeed fee modeled.quantity := by
  have fees := priced.fee_le session
  have value : 0 ≤ modeled.notionalMicroCny.val := by
    rw [priced.notional]
    exact Int.mul_nonneg priced.pricePositive.le (Int.natCast_nonneg _)
  unfold IntentRecord.cashNeed
  simp only [side] at fees ⊢
  omega

end

end Fills

variable {state next : ExecutionProjection} {id parentId : String} {parent : ParentState}
  {host : Host} {manifest : ExecutionManifest} {trade : Trade} {reserve : WorkingReservation}
  {record : FillRecord}

namespace ExecutionProjection

/-! ## Free cash -/

/-- The strategy cash that no working parent reserves. -/
def free (state : ExecutionProjection) : Int :=
  state.cash.strategyCash.val - state.reserved

theorem Valid.free_nonneg (valid : state.Valid) : 0 ≤ state.free := by
  have covered := valid.covered
  unfold free
  omega

/-- Every working parent reserves the need of its remainder. -/
def Reserving (fee : AShareFeePolicyV2) (state : ExecutionProjection) : Prop :=
  ∀ id parent, state.parents.get? id = some parent → parent.status.isWorking = true →
    parent.reservation.cashReserve.val = parent.intent.cashNeed fee parent.remaining

section

variable (reserving : Reserving fee state)

include reserving

theorem Reserving.reserved (stored : state.parents.get? id = some parent)
    (working : parent.status.isWorking = true) :
    parent.reserved = parent.intent.cashNeed fee parent.remaining := by
  rw [ParentState.reserved, if_pos working]
  exact reserving id parent stored working

theorem Reserving.reserved_nonneg (valid : state.Valid)
    (stored : state.parents.get? id = some parent) : 0 ≤ parent.reserved := by
  by_cases working : parent.status.isWorking = true
  · rw [reserving.reserved stored working]
    exact IntentRecord.cashNeed_nonneg (valid.parents id parent stored).intent fee _
  · rw [ParentState.reserved, if_neg working]

theorem Reserving.reserved_le (valid : state.Valid) (stored : state.parents.get? id = some parent) :
    parent.reserved ≤ state.reserved := by
  refine List.single_le_sum ?_ parent.reserved
    (List.mem_map_of_mem (OrdMap.mem_values_iff.mpr ⟨id, stored⟩))
  intro amount member
  obtain ⟨other, inValues, rfl⟩ := List.mem_map.mp member
  obtain ⟨otherId, otherStored⟩ := OrdMap.mem_values_iff.mp inValues
  exact reserving.reserved_nonneg valid otherStored

/-- A stored parent keeps the invariant when it reserves its need or no longer works. -/
theorem Reserving.insert (parents : next.parents = state.parents.insert id parent)
    (need : parent.status.isWorking = true →
      parent.reservation.cashReserve.val = parent.intent.cashNeed fee parent.remaining) :
    Reserving fee next := by
  intro other found stored working
  rw [parents, OrdMap.get?_insert] at stored
  split at stored
  · obtain rfl := Option.some.inj stored
    exact need working
  · exact reserving other found stored working

end

theorem closedParent_terminal (closing : Closing) (parent : ParentState)
    (reserve : WorkingReservation) :
    (closedParent closing parent reserve).status.isWorking = false := by
  cases closing <;> rfl

variable {request : CommandRecord}

theorem Step.reserving (step : Step host manifest fee state next request)
    (reserving : Reserving fee state) :
    Reserving fee next := by
  cases step with
  | submit submitted =>
    exact reserving.insert submitted.parents fun _ => reservation_cash submitted.reserved
  | observe observed =>
    unfold Reserving
    rw [observed.parents]
    exact reserving
  | fill filled => exact reserving.insert filled.parents fun _ => reservation_cash filled.reserved
  | close closed =>
    refine reserving.insert closed.parents fun working => ?_
    rw [closedParent_terminal] at working
    cases working
  | marks remarked =>
    unfold Reserving
    rw [remarked.parents]
    exact reserving

/-- In every reachable projection each working parent reserves the need of its remainder. -/
theorem Reachable.reserving {genesis : Projection}
    (reachable : Reachable host manifest genesis state)
    (feeValid : manifest.validate host = .ok fee) :
    Reserving fee state := by
  refine reachable.invariant (Reserving fee) (fun start opened id parent stored => ?_)
    (fun before after request policy _ _ policyValid step reserving => ?_)
  · rw [opened.parents] at stored
    cases stored
  · obtain rfl := Except.ok.inj (policyValid.symm.trans feeValid)
    exact step.reserving reserving

/-! ## What a step does to free cash -/

/-- The strategy cash that the trade of a fill adds; a buy adds a negative amount. -/
def tradeDelta (side : Side) (modeled : ModeledFill) : Int :=
  match side with
  | .buy => -(modeled.notionalMicroCny.val + modeled.totalFeeMicroCny.val)
  | .sell => modeled.notionalMicroCny.val - modeled.totalFeeMicroCny.val

theorem tradeDelta_covered (priced : parent.Priced window fee modeled)
    (session : window.sessionDate = parent.intent.sessionDate) :
    0 ≤ tradeDelta parent.intent.side modeled + parent.intent.cashNeed fee modeled.quantity := by
  cases side : parent.intent.side with
  | buy =>
    have cost := priced.buy_cost_le session side
    simp only [tradeDelta]
    omega
  | sell =>
    have cost := priced.sell_cost_le session side
    simp only [tradeDelta]
    omega

/-- The strategy cash covers any fill of a working parent. -/
theorem Reserving.strategy_covers (reserving : Reserving fee state) (valid : state.Valid)
    (matched : Matches state parentId window parent) (priced : parent.Priced window fee modeled) :
    0 ≤ state.cash.strategyCash.val + tradeDelta parent.intent.side modeled := by
  have sound := (valid.parents parentId parent matched.stored).intent
  have held := reserving.reserved matched.stored matched.working
  have part := reserving.reserved_le valid matched.stored
  have covered := valid.covered
  have rest := IntentRecord.cashNeed_nonneg sound fee (parent.remaining - modeled.quantity)
  have split := parent.intent.cashNeed_sub fee priced.quantity_le.1 priced.whole
  have delta := tradeDelta_covered priced matched.session
  omega

section

variable
  (filled : Filled host manifest fee state next parentId window parent modeled trade reserve record)

include filled

theorem Filled.strategy : state.cash.Moved next.cash (tradeDelta parent.intent.side modeled) := by
  rw [filled.cash]
  rcases filled.traded with buy | ⟨consumed, rest, sell⟩
  · rw [buy.side]
    exact buy.cash
  · rw [sell.side]
    exact sell.cash

/-- The parent after a fill reserves the need of what remains. -/
theorem Filled.reserved_after :
    (filledParent parent (parent.filled + modeled.quantity) (parent.remaining - modeled.quantity)
      reserve trade.sellClaims).reserved =
      parent.intent.cashNeed fee (parent.remaining - modeled.quantity) := by
  have cash := reservation_cash filled.reserved
  by_cases done : parent.remaining - modeled.quantity = 0
  · simp [ParentState.reserved, filledParent, done, ParentStatus.isWorking]
  · simp [ParentState.reserved, filledParent, done, ParentStatus.isWorking, cash]

/-- A fill releases at least what it spends. -/
theorem Filled.free_le (reserving : Reserving fee state) : state.free ≤ next.free := by
  have total := OrdMap.total_insert_of_some
    (filledParent parent (parent.filled + modeled.quantity) (parent.remaining - modeled.quantity)
      reserve trade.sellClaims) filled.matched.stored ParentState.reserved
  rw [← filled.parents, filled.reserved_after,
    reserving.reserved filled.matched.stored filled.matched.working] at total
  have strategy := filled.strategy.strategy
  have split := parent.intent.cashNeed_sub fee filled.priced.quantity_le.1 filled.priced.whole
  have delta := tradeDelta_covered filled.priced filled.matched.session
  simp only [free, ExecutionProjection.reserved]
  omega

end

theorem Closed.free_le {closing : Closing}
    (closed : Closed host fee state next parentId closing parent reserve) (valid : state.Valid)
    (reserving : Reserving fee state) : state.free ≤ next.free := by
  have total := OrdMap.total_insert_of_some (closedParent closing parent reserve) closed.stored
    ParentState.reserved
  have released : (closedParent closing parent reserve).reserved = 0 := by
    simp [ParentState.reserved, closedParent_terminal]
  rw [← closed.parents, released] at total
  have held := reserving.reserved_nonneg valid closed.stored
  simp only [free, ExecutionProjection.reserved, closed.holdings.cash]
  omega

theorem free_eq (holdings : SameHoldings state next) (parents : next.parents = state.parents) :
    next.free = state.free := by
  simp only [free, reserved, holdings.cash, parents]

/-- Every request but a submission leaves free cash unchanged or larger. -/
theorem Step.free_le (step : Step host manifest fee state next request) (valid : state.Valid)
    (reserving : Reserving fee state) (other : ∀ expected intent, request ≠ .submit expected intent)
    : state.free ≤ next.free := by
  cases step with
  | @submit expected intent => exact absurd rfl (other expected intent)
  | observe observed => exact (free_eq observed.holdings observed.parents).ge
  | fill filled => exact filled.free_le reserving
  | close closed => exact closed.free_le valid reserving
  | marks remarked => exact (free_eq remarked.holdings remarked.parents).ge

end ExecutionProjection

end StockAnalysis.Book
