import StockAnalysis.Book.Steps

/-!
# The accounting identity of the book

Every fill moves value between the cash of the account and its lots, and whatever it does not move
it realizes. The book value of an account is its cash and the carrying value of its lots, less the
realized result; no request changes it. Fees and realized results are the sums over the recorded
fills, and only the strategy's part of the cash ever moves.
-/

namespace StockAnalysis.Book

open StockAnalysis.Ledger (Money Lot Projection openLots carryingValue carryingValue_append
  carryingValue_cons carryingValue_nil carryingValue_openLots openLots_positive)

variable (fills : List FillRecord)

/-- Cash and the carrying value of the lots, less the realized result. -/
def bookValue (account : Projection) : Int :=
  account.cash.val + carryingValue account.lots - account.realizedPnl.val

/-- The fees that the fills charged. -/
def feesOf : Int :=
  (fills.map fun fill => fill.model.totalFeeMicroCny.val).sum

/-- The results that the fills realized. -/
def realizedBy : Int :=
  (fills.map fun fill => fill.realizedPnlMicroCny.val).sum

theorem feesOf_append_one (fill : FillRecord) :
    feesOf (fills ++ [fill]) = feesOf fills + fill.model.totalFeeMicroCny.val := by
  simp [feesOf]

theorem realizedBy_append_one (fill : FillRecord) :
    realizedBy (fills ++ [fill]) = realizedBy fills + fill.realizedPnlMicroCny.val := by
  simp [realizedBy]

variable {genesis : Projection} {budget : BudgetRecord}

namespace ExecutionProjection

/-- What the account and the recorded fills say of each other. -/
structure Balanced (genesis : Projection) (budget : BudgetRecord) (state : ExecutionProjection) :
    Prop where
  value : bookValue state.account = bookValue genesis
  fees : state.account.fees.val = genesis.fees.val + feesOf state.fills
  realized : state.account.realizedPnl.val = genesis.realizedPnl.val + realizedBy state.fills
  unassigned : state.cash.unassignedCash.val =
    genesis.cash.val - budget.initialStrategyCashMicroCny.val
  positive : ∀ lot ∈ state.account.lots, 0 < lot.quantity

theorem Opened.balanced {start : ExecutionProjection} (opened : Opened genesis budget start) :
    Balanced genesis budget start := by
  have sum := opened.cash.sound.sum
  rw [opened.cash.account, opened.cash.strategy] at sum
  refine ⟨by rw [opened.account], ?_, ?_, by omega, ?_⟩
  · simp [opened.account, opened.fills, feesOf]
  · simp [opened.account, opened.fills, realizedBy]
  · rw [opened.account]
    exact opened.cash.positive

variable {state next : ExecutionProjection}

theorem Balanced.same_holdings (balanced : Balanced genesis budget state)
    (holdings : SameHoldings state next) :
    Balanced genesis budget next := by
  obtain ⟨value, fees, realized, unassigned, positive⟩ := balanced
  unfold bookValue at value
  refine ⟨?_, ?_, ?_, ?_, ?_⟩
  · rw [bookValue, holdings.accountCash, holdings.lots, holdings.realizedPnl, value, bookValue]
  · rw [holdings.fees, holdings.fills, fees]
  · rw [holdings.realizedPnl, holdings.fills, realized]
  · rw [holdings.cash, unassigned]
  · rw [holdings.lots]
    exact positive

variable {host : Host} {manifest : ExecutionManifest} {fee : AShareFeePolicyV2}

section Fill

variable {parentId : String} {window : WindowRecord} {parent : ParentState} {modeled : ModeledFill}
  {trade : Trade} {reserve : WorkingReservation} {record : FillRecord} {fillId : String}
  {consumed : Consumption} {rest : List LotClaim}

/-- A buy pays for the lot it opens, fee included. -/
theorem BuyTrade.carried (traded : BuyTrade state parent fillId window modeled trade)
    (notional : modeled.notionalMicroCny.val = modeled.priceMicroCny.val * modeled.quantity) :
    trade.cash.accountCash.val + carryingValue trade.lots =
      state.cash.accountCash.val + carryingValue state.account.lots := by
  have opened : carryingValue [boughtLot parent fillId window modeled] =
      modeled.priceMicroCny.val * modeled.quantity + modeled.totalFeeMicroCny.val := by
    simp [boughtLot, Ledger.Lot.carrying]
  rw [traded.cash.account, traded.lots, carryingValue_append, opened, notional]
  ring

/-- The claims of a stored parent are covered by the lots. -/
theorem Valid.covered_claims (valid : state.Valid)
    (stored : state.parents.get? parentId = some parent)
    (working : parent.status.isWorking = true) :
    Covered state.account.lots parent.sellClaims := by
  intro lot member
  have part : parent.claimed lot.lotId ≤ state.claimed lot.lotId :=
    List.single_le_sum (fun _ _ => Nat.zero_le _) _
      (List.mem_map_of_mem (OrdMap.mem_values_iff.mpr ⟨parentId, stored⟩))
  rw [ParentState.claimed, if_pos working] at part
  exact part.trans (valid.unbooked lot member)

/-- A sale realizes its proceeds less what the sold shares were carried at. -/
theorem SellTrade.carried (traded : SellTrade state parent window modeled trade consumed rest)
    (covered : Covered state.account.lots parent.sellClaims)
    (positive : ∀ lot ∈ state.account.lots, 0 < lot.quantity) {gain : Money}
    (realized : realizedResult .sell modeled trade = .ok gain) :
    trade.cash.accountCash.val + carryingValue trade.lots =
      state.cash.accountCash.val + carryingValue state.account.lots + gain.val := by
  have spent : Spent state.account.lots := by
    intro lot member empty
    have held := positive lot member
    omega
  have exactly_ := consumeClaims_exactly traded.loop covered spent
  have carried := exactly_.carried
  simp only [sub_zero] at carried
  have gained : gain.val = modeled.notionalMicroCny.val - modeled.totalFeeMicroCny.val -
      trade.basis - trade.inheritedFee := checked_eq_ok.mp realized
  rw [traded.cash.account, traded.lots, carryingValue_openLots exactly_.spent, gained,
    traded.basis, traded.inherited, carried]
  ring

section

variable
  (filled : Filled host manifest fee state next parentId window parent modeled trade reserve record)

include filled

theorem Filled.carried (valid : state.Valid)
    (positive : ∀ lot ∈ state.account.lots, 0 < lot.quantity) :
    trade.cash.accountCash.val + carryingValue trade.lots =
      state.cash.accountCash.val + carryingValue state.account.lots +
        record.realizedPnlMicroCny.val := by
  have realized := filled.realized
  rcases filled.traded with bought | ⟨consumed, rest, sold⟩
  · rw [bought.side] at realized
    have nothing : record.realizedPnlMicroCny = 0 := (pure_eq_ok.mp realized).symm
    rw [bought.carried filled.priced.notional, nothing]
    simp
  · rw [sold.side] at realized
    have covered := valid.covered_claims filled.matched.stored filled.matched.working
    exact sold.carried covered positive realized

theorem Filled.lots_positive (positive : ∀ lot ∈ state.account.lots, 0 < lot.quantity) :
    ∀ lot ∈ next.account.lots, 0 < lot.quantity := by
  intro lot member
  rw [filled.lots] at member
  rcases filled.traded with bought | ⟨consumed, rest, sold⟩
  · rw [bought.lots] at member
    rcases mem_concat.mp member with earlier | rfl
    · exact positive lot earlier
    · exact filled.priced.positive
  · rw [sold.lots] at member
    exact openLots_positive member

theorem Filled.unassigned : next.cash.unassignedCash = state.cash.unassignedCash := by
  rw [filled.cash]
  rcases filled.traded with bought | ⟨consumed, rest, sold⟩
  · exact bought.cash.unassigned
  · exact sold.cash.unassigned

end

theorem Balanced.filled (balanced : Balanced genesis budget state) (valid : state.Valid)
    (filled : Filled host manifest fee state next parentId window parent modeled trade reserve
      record) : Balanced genesis budget next := by
  have carried := filled.carried valid balanced.positive
  have value := balanced.value
  unfold bookValue at value
  refine ⟨?_, ?_, ?_, ?_, filled.lots_positive balanced.positive⟩
  · rw [valid.account] at value
    rw [bookValue, filled.accountCash, filled.lots, filled.realizedPnl, carried, bookValue]
    omega
  · rw [filled.fees, filled.fills, feesOf_append_one, filled.recordModel, balanced.fees]
    ring
  · rw [filled.realizedPnl, filled.fills, realizedBy_append_one, balanced.realized]
    ring
  · rw [filled.unassigned, balanced.unassigned]

end Fill

/-- A request keeps the balance: only a fill touches it. -/
theorem Step.balanced {request : CommandRecord} (step : Step host manifest fee state next request)
    (valid : state.Valid) (balanced : Balanced genesis budget state) :
    Balanced genesis budget next := by
  cases step with
  | submit submitted => exact balanced.same_holdings submitted.holdings
  | observe observed => exact balanced.same_holdings observed.holdings
  | fill filled => exact balanced.filled valid filled
  | close closed => exact balanced.same_holdings closed.holdings
  | marks remarked => exact balanced.same_holdings remarked.holdings

theorem Reachable.balanced (reachable : Reachable host manifest genesis state) :
    Balanced genesis manifest.budget state :=
  reachable.invariant (Balanced genesis manifest.budget) (fun _ opened => opened.balanced)
    fun _ _ _ _ valid _ _ step balanced => step.balanced valid balanced

/-- The accounting identity: the book value of the account is that of the genesis, its fees and its
realized result are those of the genesis and the fills, and its cash is the strategy's cash and an
unassigned part that never moves.

Proof: `Balanced` holds of the opening. A step without a fill keeps the holdings; a fill moves cash,
lots and result by amounts that cancel. -/
theorem book_accounting_identity {host : Host} {manifest : ExecutionManifest}
    {genesis : Projection} {start state : ExecutionProjection} {requests : List CommandRecord}
    (opened : initial host genesis manifest.budget = .ok start)
    (ran : run host manifest start requests = .ok state) :
    (state.account.cash.val + carryingValue state.account.lots - state.account.realizedPnl.val =
      genesis.cash.val + carryingValue genesis.lots - genesis.realizedPnl.val) ∧
    state.account.fees.val = genesis.fees.val +
      (state.fills.map fun fill => fill.model.totalFeeMicroCny.val).sum ∧
    state.account.realizedPnl.val = genesis.realizedPnl.val +
      (state.fills.map fun fill => fill.realizedPnlMicroCny.val).sum ∧
    state.account.cash.val = state.cash.strategyCash.val + state.cash.unassignedCash.val ∧
    state.cash.unassignedCash.val = start.cash.unassignedCash.val := by
  have reachable : Reachable host manifest genesis state := ⟨requests, start, opened, ran⟩
  have balanced := reachable.balanced
  have valid := reachable.valid
  refine ⟨balanced.value, balanced.fees, balanced.realized, ?_, ?_⟩
  · rw [valid.account, valid.cash.sum]
  · rw [balanced.unassigned, (initial_eq_ok opened).balanced.unassigned]

/-- The identity after two fills. -/
theorem book_accounting_identity_sample : ∃ start state,
    initial sampleHost sampleGenesis sampleManifest.budget = .ok start ∧
      run sampleHost sampleManifest start sampleRequests = .ok state ∧ state.fills.length = 2 ∧
      state.account.cash.val + carryingValue state.account.lots - state.account.realizedPnl.val =
        sampleGenesis.cash.val + carryingValue sampleGenesis.lots -
          sampleGenesis.realizedPnl.val := by
  obtain ⟨state, ⟨start, opened, ran⟩, _, fills⟩ := sampleBook_filled
  exact ⟨start, state, opened, ran, fills, (book_accounting_identity opened ran).1⟩

end ExecutionProjection

end StockAnalysis.Book
