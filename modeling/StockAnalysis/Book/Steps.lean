import StockAnalysis.Book.Consumption

/-!
# Runs of accepted requests

Everything an accepted request can do, one inversion for each kind, and the rule by which an
invariant of the book is proved: it holds of the opening projection and every accepted request
preserves it. Only a fill changes the holdings of the account; a submission, a cancellation and an
expiry change one parent; an observation without a fill and a set of marks change neither.
-/

namespace StockAnalysis.Book

open StockAnalysis.Ledger (LedgerError Outcome Money Lot Projection openLots)

variable {fee : AShareFeePolicyV2} {next : ExecutionProjection} {effect : Effect}
  {parentId : String} {window : WindowRecord} {parent : ParentState} {request : CommandRecord}

/-- The window fills what remains of the parent's order as modeled. -/
abbrev ParentState.Priced (parent : ParentState) (window : WindowRecord) (fee : AShareFeePolicyV2)
    (modeled : ModeledFill) : Prop :=
  Modeled parent.intent.side parent.remaining parent.intent.limitMicroCny
    parent.intent.feePriceCapMicroCny window fee modeled

namespace ExecutionProjection

/-- Two projections with the same holdings and the same fills. -/
structure SameHoldings (state next : ExecutionProjection) : Prop where
  lots : next.account.lots = state.account.lots
  accountCash : next.account.cash = state.account.cash
  fees : next.account.fees = state.account.fees
  realizedPnl : next.account.realizedPnl = state.account.realizedPnl
  cash : next.cash = state.cash
  assignments : next.lotAssignments = state.lotAssignments
  fills : next.fills = state.fills

/-! ## One inversion for each kind of request -/

/-- How the claims of a new parent came about. -/
inductive Admitted (state : ExecutionProjection) (intent : IntentRecord) :
    List LotClaim → Prop where
  | buy (side : intent.side = .buy) : Admitted state intent []
  | sell {claims : List LotClaim} (side : intent.side = .sell)
      (claimed : state.claimLots intent.quantity (state.claimableLots intent) =
        .ok (0, claims)) : Admitted state intent claims

/-- What an accepted submission does. -/
structure Submitted (host : Host) (fee : AShareFeePolicyV2) (state next : ExecutionProjection)
    (intent : IntentRecord) (reserve : WorkingReservation) (claims : List LotClaim) : Prop where
  sound : intent.Sound
  fresh : state.parents.get? intent.parentId = none
  decision : ∀ id parent, state.parents.get? id = some parent →
    parent.intent.investmentDecisionId ≠ intent.investmentDecisionId
  reserved : reservation host intent intent.quantity fee = .ok reserve
  admitted : Admitted (state.recordWindow intent.instrumentCode intent.sourceWindow) intent claims
  holdings : SameHoldings state next
  parents : next.parents = state.parents.insert intent.parentId (newParent intent reserve claims)
  used : next.usedWindows = state.usedWindows

variable {host : Host} {manifest : ExecutionManifest} {state : ExecutionProjection}
  {intent : IntentRecord}

theorem admitSide_eq_ok {reserve : WorkingReservation} {claims : List LotClaim}
    (done : state.admitSide host manifest intent reserve = .ok claims) :
    Admitted state intent claims := by
  unfold admitSide at done
  split at done
  · rename_i side
    simp only [admitBuy, bind_eq_ok, pure_eq_ok] at done
    obtain ⟨_, _, _, _, rfl⟩ := done
    exact .buy side
  · rename_i side
    simp only [admitSell, bind_eq_ok, require_eq_ok, pure_eq_ok, Prod.exists] at done
    obtain ⟨_, _, _, _, left, found, claimed, _, rfl, rfl⟩ := done
    exact .sell side claimed

theorem submit_eq_ok (done : state.submit host manifest fee intent = .ok (next, effect)) :
    ∃ reserve claims, Submitted host fee state next intent reserve claims := by
  simp only [submit, bind_eq_ok, require_eq_ok, pure_eq_ok, Prod.mk.injEq] at done
  obtain ⟨_, valid, _, _, _, ⟨fresh, decision⟩, _, _, _, _, _, _, reserve, reserved, claims,
    admitted, rfl, rfl⟩ := done
  refine ⟨reserve, claims, IntentRecord.validate_sound valid, fresh, ?_, reserved,
    admitSide_eq_ok admitted, ⟨rfl, rfl, rfl, rfl, rfl, rfl, rfl⟩, rfl, rfl⟩
  intro id parent stored
  exact decision parent (OrdMap.mem_values_iff.mpr ⟨id, stored⟩)

/-- A working parent and an unused window of its code and session. -/
structure Matches (state : ExecutionProjection) (parentId : String) (window : WindowRecord)
    (parent : ParentState) : Prop where
  stored : state.parents.get? parentId = some parent
  working : parent.status.isWorking = true
  code : window.instrumentCode = parent.intent.instrumentCode
  session : window.sessionDate = parent.intent.sessionDate
  unused : state.usedWindows.get? window.observationId = none

theorem admitWindow_eq_ok (done : state.admitWindow host fee parentId window = .ok parent) :
    Matches state parentId window parent := by
  simp only [admitWindow, bind_eq_ok, require_eq_ok, okOr_eq_ok, pure_eq_ok] at done
  obtain ⟨_, _, _, _, _, _, found, stored, _, ⟨working, code, session⟩, _, unused, rfl⟩ := done
  exact ⟨stored, working, code, session, unused⟩

/-- What the trade of a buy fill does. -/
structure BuyTrade (state : ExecutionProjection) (parent : ParentState) (fillId : String)
    (window : WindowRecord) (modeled : ModeledFill) (trade : Trade) : Prop where
  side : parent.intent.side = .buy
  cash : state.cash.Moved trade.cash
    (-(modeled.notionalMicroCny.val + modeled.totalFeeMicroCny.val))
  fresh : state.lotAssignments.get? fillId = none
  lots : trade.lots = state.account.lots ++ [boughtLot parent fillId window modeled]
  assignments : trade.lotAssignments =
    state.lotAssignments.insert fillId (some parent.intent.chainId)
  claims : trade.sellClaims = parent.sellClaims

/-- What the trade of a sell fill does. -/
structure SellTrade (state : ExecutionProjection) (parent : ParentState) (window : WindowRecord)
    (modeled : ModeledFill) (trade : Trade) (consumed : Consumption) (rest : List LotClaim) :
    Prop where
  side : parent.intent.side = .sell
  loop : consumeClaims state.lotAssignments parent.intent.chainId window.sessionDate
    ⟨state.account.lots, modeled.quantity, 0, 0⟩ parent.sellClaims = .ok (consumed, rest)
  taken : consumed.left = 0
  cash : state.cash.Moved trade.cash
    (modeled.notionalMicroCny.val - modeled.totalFeeMicroCny.val)
  lots : trade.lots = openLots consumed.lots
  assignments : trade.lotAssignments = dropEmptied consumed.lots state.lotAssignments
  claims : trade.sellClaims = rest.filter fun claim => 0 < claim.quantity
  inherited : trade.inheritedFee = consumed.inheritedFee
  basis : trade.basis = consumed.basis

variable {modeled : ModeledFill}

theorem trade_eq_ok {fillId : String} {result : Trade}
    (done : state.trade parent fillId window modeled = .ok result) :
    BuyTrade state parent fillId window modeled result ∨
      ∃ consumed rest, SellTrade state parent window modeled result consumed rest := by
  unfold trade at done
  split at done
  · rename_i side
    simp only [buyFill, bind_eq_ok, require_eq_ok, checked_eq_ok, pure_eq_ok] at done
    obtain ⟨debit, debitEq, delta, deltaEq, cash, moved, _, fresh, rfl⟩ := done
    have effect := (CashPartitions.applyStrategyDelta_eq_ok moved).1
    rw [deltaEq, debitEq] at effect
    exact Or.inl ⟨side, effect, fresh, rfl, rfl, rfl⟩
  · rename_i side
    simp only [sellFill, bind_eq_ok, require_eq_ok, checked_eq_ok, pure_eq_ok, Prod.exists] at done
    obtain ⟨consumed, rest, loop, _, taken, proceeds, proceedsEq, cash, moved, rfl⟩ := done
    have effect := (CashPartitions.applyStrategyDelta_eq_ok moved).1
    rw [proceedsEq] at effect
    exact Or.inr ⟨consumed, rest, side, loop, taken, effect, rfl, rfl, rfl, rfl, rfl⟩

/-- What an accepted fill does. -/
structure Filled (host : Host) (manifest : ExecutionManifest) (fee : AShareFeePolicyV2)
    (state next : ExecutionProjection) (parentId : String) (window : WindowRecord)
    (parent : ParentState) (modeled : ModeledFill) (trade : Trade) (reserve : WorkingReservation)
    (record : FillRecord) : Prop where
  matched : Matches state parentId window parent
  priced : parent.Priced window fee modeled
  traded : BuyTrade state parent (host.fillIdentity manifest.accountId parentId
      window.observationId) window modeled trade ∨
    ∃ consumed rest, SellTrade state parent window modeled trade consumed rest
  realized : realizedResult parent.intent.side modeled trade = .ok record.realizedPnlMicroCny
  reserved : reservation host parent.intent (parent.remaining - modeled.quantity) fee = .ok reserve
  lots : next.account.lots = trade.lots
  accountCash : next.account.cash = trade.cash.accountCash
  fees : next.account.fees.val = state.account.fees.val + modeled.totalFeeMicroCny.val
  realizedPnl : next.account.realizedPnl.val =
    state.account.realizedPnl.val + record.realizedPnlMicroCny.val
  cash : next.cash = trade.cash
  assignments : next.lotAssignments = trade.lotAssignments
  parents : next.parents = state.parents.insert parentId
    (filledParent parent (parent.filled + modeled.quantity) (parent.remaining - modeled.quantity)
      reserve trade.sellClaims)
  used : next.usedWindows =
    state.usedWindows.insert window.observationId (host.windowHash window)
  fills : next.fills = state.fills ++ [record]
  recordParent : record.parentId = parentId
  recordObservation : record.observationId = window.observationId
  recordSide : record.side = parent.intent.side
  recordModel : record.model = modeled

/-- What an accepted evaluation without a fill does. -/
structure Observed (host : Host) (state next : ExecutionProjection) (window : WindowRecord) :
    Prop where
  holdings : SameHoldings state next
  parents : next.parents = state.parents
  used : next.usedWindows =
    state.usedWindows.insert window.observationId (host.windowHash window)

theorem applyFill_eq_ok {record : FillRecord} (matched : Matches state parentId window parent)
    (fills : parent.Priced window fee modeled)
    (done : (state.observe host window).applyFill host manifest fee parent parentId window modeled =
      .ok (next, record)) :
    ∃ trade reserve, Filled host manifest fee state next parentId window parent modeled trade
      reserve record := by
  simp only [applyFill, bind_eq_ok, u32Add_eq_ok, u32Sub_eq_ok, checked_eq_ok, pure_eq_ok,
    Prod.mk.injEq] at done
  obtain ⟨_, ⟨_, rfl⟩, _, ⟨_, rfl⟩, trade, traded, realized, realizedDone, realizedPnl, realizedEq,
    fees, feesEq, reserve, reserved, inherited, _, rfl, rfl⟩ := done
  exact ⟨trade, reserve, matched, fills, trade_eq_ok traded, realizedDone, reserved, rfl, rfl,
    feesEq, realizedEq, rfl, rfl, rfl, rfl, rfl, rfl, rfl, rfl, rfl⟩

theorem evaluate_eq_ok
    (done : state.evaluate host manifest fee parentId window = .ok (next, effect)) :
    Observed host state next window ∨ ∃ parent modeled trade reserve record,
      Filled host manifest fee state next parentId window parent modeled trade reserve record := by
  simp only [evaluate, bind_eq_ok] at done
  obtain ⟨parent, admitted, outcome, modeled, done⟩ := done
  have matched := admitWindow_eq_ok admitted
  cases outcome with
  | noFill reason =>
    cases pure_eq_ok.mp done
    exact Or.inl ⟨⟨rfl, rfl, rfl, rfl, rfl, rfl, rfl⟩, rfl, rfl⟩
  | fill fill =>
    simp only [bind_eq_ok, pure_eq_ok, Prod.exists, Prod.mk.injEq] at done
    obtain ⟨_, record, applied, rfl, rfl⟩ := done
    obtain ⟨trade, reserve, filled⟩ := applyFill_eq_ok matched (model_fill modeled) applied
    exact Or.inr ⟨parent, fill, trade, reserve, record, filled⟩

/-- What an accepted cancellation or expiry does. -/
structure Closed (host : Host) (fee : AShareFeePolicyV2) (state next : ExecutionProjection)
    (parentId : String) (closing : Closing) (parent : ParentState)
    (reserve : WorkingReservation) : Prop where
  stored : state.parents.get? parentId = some parent
  working : parent.status.isWorking = true
  reserved : reservation host parent.intent 0 fee = .ok reserve
  holdings : SameHoldings state next
  parents : next.parents = state.parents.insert parentId (closedParent closing parent reserve)
  used : next.usedWindows = state.usedWindows

variable {at_ : Instant}

theorem close_eq_ok {closing : Closing}
    (done : state.close host fee parentId at_ closing = .ok (next, effect)) :
    ∃ parent reserve, Closed host fee state next parentId closing parent reserve := by
  simp only [close, bind_eq_ok, require_eq_ok, okOr_eq_ok, pure_eq_ok, Prod.mk.injEq] at done
  obtain ⟨parent, stored, _, ⟨working, _⟩, _, _, reserve, reserved, rfl, rfl⟩ := done
  exact ⟨parent, reserve, stored, working, reserved, ⟨rfl, rfl, rfl, rfl, rfl, rfl, rfl⟩, rfl, rfl⟩

/-- What an accepted set of marks does to the book: nothing. -/
structure Remarked (state next : ExecutionProjection) : Prop where
  holdings : SameHoldings state next
  parents : next.parents = state.parents
  used : next.usedWindows = state.usedWindows

theorem recordMark_remarked {progress next : ExecutionProjection × List String}
    (before : Remarked state progress.1) (done : recordMark host at_ progress window = .ok next) :
    Remarked state next.1 := by
  simp only [recordMark, bind_eq_ok, pure_eq_ok] at done
  obtain ⟨_, _, _, _, rfl⟩ := done
  obtain ⟨⟨lots, accountCash, fees, realizedPnl, cash, assignments, fills⟩, parents, used⟩ := before
  exact ⟨⟨lots, accountCash, fees, realizedPnl, cash, assignments, fills⟩, parents, used⟩

theorem qualifiedMarks_eq_ok {windows : List WindowRecord}
    (done : state.qualifiedMarks host windows = .ok (next, effect)) :
    Remarked state next := by
  simp only [qualifiedMarks, bind_eq_ok, pure_eq_ok, Prod.exists, Prod.mk.injEq] at done
  obtain ⟨first, _, _, _, marked, seen, recorded, _, _, rfl, rfl⟩ := done
  have start : Remarked state (state, ([] : List String)).1 :=
    ⟨⟨rfl, rfl, rfl, rfl, rfl, rfl, rfl⟩, rfl, rfl⟩
  have loop := each_induction (fun progress => Remarked state progress.1)
    (fun _ _ _ before step => recordMark_remarked before step) start recorded
  obtain ⟨⟨lots, accountCash, fees, realizedPnl, cash, assignments, fills⟩, parents, used⟩ := loop
  exact ⟨⟨lots, accountCash, fees, realizedPnl, cash, assignments, fills⟩, parents, used⟩

/-- Everything a request can do before its result is validated. -/
inductive Step (host : Host) (manifest : ExecutionManifest) (fee : AShareFeePolicyV2)
    (state next : ExecutionProjection) : CommandRecord → Prop where
  | submit {expected : HeadIdentity} {intent : IntentRecord} {reserve : WorkingReservation}
      {claims : List LotClaim} (submitted : Submitted host fee state next intent reserve claims) :
      Step host manifest fee state next (.submit expected intent)
  | observe {expected : HeadIdentity} {parentId : String} {window : WindowRecord}
      (observed : Observed host state next window) :
      Step host manifest fee state next (.evaluate expected parentId window)
  | fill {expected : HeadIdentity} {parentId : String} {window : WindowRecord}
      {parent : ParentState} {modeled : ModeledFill} {trade : Trade}
      {reserve : WorkingReservation} {record : FillRecord}
      (filled : Filled host manifest fee state next parentId window parent modeled trade reserve
        record) :
      Step host manifest fee state next (.evaluate expected parentId window)
  | close {request : CommandRecord} {parentId : String} {closing : Closing}
      {parent : ParentState} {reserve : WorkingReservation}
      (closed : Closed host fee state next parentId closing parent reserve) :
      Step host manifest fee state next request
  | marks {request : CommandRecord} (remarked : Remarked state next) :
      Step host manifest fee state next request

theorem requestBody_step (done : state.requestBody host manifest request = .ok (next, effect)) :
    ∃ fee, manifest.validate host = .ok fee ∧ Step host manifest fee state next request := by
  obtain ⟨fee, valid, done⟩ := bind_eq_ok.mp done
  refine ⟨fee, valid, ?_⟩
  cases request with
  | open_ manifest => cases done
  | submit expected intent =>
    obtain ⟨reserve, claims, submitted⟩ := submit_eq_ok done
    exact .submit submitted
  | evaluate expected parentId window =>
    rcases evaluate_eq_ok done with observed | ⟨parent, modeled, trade, reserve, record, filled⟩
    · exact .observe observed
    · exact .fill filled
  | cancel expected parentId at_ =>
    obtain ⟨parent, reserve, closed⟩ := close_eq_ok done
    exact .close closed
  | expire expected parentId at_ =>
    obtain ⟨parent, reserve, closed⟩ := close_eq_ok done
    exact .close closed
  | qualifiedMarks expected windows => exact .marks (qualifiedMarks_eq_ok done)

/-- An accepted request takes a step to a valid projection. -/
theorem applyRequest_step (done : state.applyRequest host manifest request = .ok (next, effect)) :
    next.Valid ∧ ∃ fee, manifest.validate host = .ok fee ∧
      Step host manifest fee state next request := by
  simp only [applyRequest, bind_eq_ok, pure_eq_ok] at done
  obtain ⟨_, body, _, valid, rfl⟩ := done
  exact ⟨validate_valid valid, requestBody_step body⟩

/-! ## Runs -/

/-- The projection after an accepted request. -/
def step (host : Host) (manifest : ExecutionManifest) (state : ExecutionProjection)
    (request : CommandRecord) : Outcome ExecutionProjection :=
  Prod.fst <$> state.applyRequest host manifest request

/-- The projection after a sequence of accepted requests. -/
def run (host : Host) (manifest : ExecutionManifest) :
    ExecutionProjection → List CommandRecord → Outcome ExecutionProjection :=
  each (step host manifest)

/-- The projection is reached from the opening one by accepting the requests in turn. -/
def Reached (host : Host) (manifest : ExecutionManifest) (genesis : Projection)
    (requests : List CommandRecord) (state : ExecutionProjection) : Prop :=
  ∃ start, initial host genesis manifest.budget = .ok start ∧
    run host manifest start requests = .ok state

/-- The projection is reached by some sequence of accepted requests. -/
def Reachable (host : Host) (manifest : ExecutionManifest) (genesis : Projection)
    (state : ExecutionProjection) : Prop :=
  ∃ requests, Reached host manifest genesis requests state

/-- What the opening projection is. -/
structure Opened (genesis : Projection) (budget : BudgetRecord) (start : ExecutionProjection) :
    Prop where
  account : start.account = genesis
  cash : InitialCash budget genesis start.cash
  assignments : start.lotAssignments = initialAssignments budget
  parents : start.parents = OrdMap.empty
  fills : start.fills = []
  valid : start.Valid

variable {genesis : Projection}

theorem initial_eq_ok {budget : BudgetRecord} {start : ExecutionProjection}
    (done : initial host genesis budget = .ok start) :
    Opened genesis budget start := by
  simp only [initial, bind_eq_ok, pure_eq_ok] at done
  obtain ⟨cash, cashDone, _, valid, rfl⟩ := done
  exact ⟨rfl, BudgetRecord.initialCash_eq_ok cashDone, rfl, rfl, rfl, validate_valid valid⟩

theorem step_eq_ok (done : step host manifest state request = .ok next) :
    ∃ effect, state.applyRequest host manifest request = .ok (next, effect) := by
  obtain ⟨result, applied, rfl⟩ := map_eq_ok.mp done
  exact ⟨result.2, applied⟩

variable {requests : List CommandRecord}

section Invariants

/-- The invariant rule: what holds of the opening projection and is preserved by every step
between valid projections holds, with validity, of every reached projection. -/
theorem Reached.invariant (reached : Reached host manifest genesis requests state)
    (holds : List CommandRecord → ExecutionProjection → Prop)
    (opened : ∀ start, Opened genesis manifest.budget start → holds [] start)
    (preserved : ∀ accepted before after request fee, before.Valid → after.Valid →
      manifest.validate host = .ok fee → Step host manifest fee before after request →
      holds accepted before → holds (accepted ++ [request]) after) :
    state.Valid ∧ holds requests state := by
  obtain ⟨start, openedBy, ran⟩ := reached
  have opening := initial_eq_ok openedBy
  have whole := each_trace (fun accepted state => state.Valid ∧ holds accepted state)
    (fun accepted before request after ⟨valid, held⟩ stepped => by
      obtain ⟨effect, applied⟩ := step_eq_ok stepped
      obtain ⟨afterValid, fee, feeValid, taken⟩ := applyRequest_step applied
      exact ⟨afterValid, preserved accepted before after request fee valid afterValid feeValid
        taken held⟩)
    ⟨opening.valid, opened start opening⟩ ran
  simpa using whole

theorem Reached.valid (reached : Reached host manifest genesis requests state) : state.Valid :=
  (reached.invariant (fun _ _ => True) (fun _ _ => trivial) (fun _ _ _ _ _ _ _ _ _ _ => trivial)).1

theorem Reachable.valid (reachable : Reachable host manifest genesis state) : state.Valid := by
  obtain ⟨requests, reached⟩ := reachable
  exact reached.valid

/-- The invariant rule without the requests. -/
theorem Reachable.invariant (reachable : Reachable host manifest genesis state)
    (holds : ExecutionProjection → Prop)
    (opened : ∀ start, Opened genesis manifest.budget start → holds start)
    (preserved : ∀ before after request fee, before.Valid → after.Valid →
      manifest.validate host = .ok fee → Step host manifest fee before after request →
      holds before → holds after) : holds state := by
  obtain ⟨requests, reached⟩ := reachable
  exact (reached.invariant (fun _ state => holds state) opened
    (fun _ before after request fee => preserved before after request fee)).2

end Invariants

/-! ## A sample book -/

def sampleHost : Host where
  tradingDay _ := .ok true
  nextTradingDay date := .ok (date + 1)
  parseRfc3339 _ := some 0
  descriptorDigest _ := "digest"
  manifestIdentity _ := "0123456789abcdef0123456789abcdef0123456789abcdef0123456789abcdef"
  windowHash window := window.observationId
  fillIdentity _ parentId observationId := parentId ++ "/" ++ observationId

/-- Three in ten thousand with a minimum of five yuan for each fill. -/
def samplePolicy : AShareFeePolicyV2 where
  scope := ⟨.shanghai, .aShareStock, .shanghaiMainA, by decide⟩
  commissionRate := ⟨I64.lit 3, I64.lit 10000, by decide, by decide, by decide⟩
  commissionMinimumMicroCny := I64.lit 5000000
  minimumNonneg := by decide
  coverage := ⟨.unmodeled, .unverified⟩
  sourceRevision := "review-1".toList
  revisionToken := by decide

def sampleBudget : BudgetRecord where
  version := policyVersion
  familyId := "family"
  effectiveFrom := 19000
  effectiveThrough := 20000
  authorizedBudgetMicroCny := I64.lit 900000000000
  initialStrategyCashMicroCny := I64.lit 500000000000
  concentrationBps := 10000
  chainExposureBps := 10000
  cashFloorBps := 0
  maxOrderExposureMicroCny := I64.lit 900000000000
  originalSeedReference := "seed"
  reviewReference := "review"
  profitPolicy := .reinvestWithinFixedAuthorizedBudget
  initialLots := [⟨"lot", 300, .allocatedToStrategy, some "chain"⟩]

def sampleManifest : ExecutionManifest where
  version := manifestVersion
  accountId := "account"
  epochId := "epoch"
  cutoverId := "cutover"
  genesisEventHash := "0123456789abcdef0123456789abcdef0123456789abcdef0123456789abcdef"
  genesisProjectionHash := "0123456789abcdef0123456789abcdef0123456789abcdef0123456789abcdef"
  feeDescriptor := some samplePolicy.canonicalText
  feePolicyInstanceId := samplePolicy.instanceId sampleHost
  budget := sampleBudget
  fillModelVersion := modelVersion
  approvedReference := "approval"

/-- Ten o'clock of the sample session and the minutes after it. -/
def sampleInstant (minutes : Int) : Instant :=
  19700 * (24 * Ledger.nanosPerHour) + 2 * Ledger.nanosPerHour + minutes * 60000000000

def sampleGenesis : Projection where
  cash := I64.lit 1000000000000
  lots := [⟨"lot", "600000", "sample", 300, I64.lit 9000000, I64.lit 5000000, 19600, 19601, none⟩]
  marks := OrdMap.empty.insert "600000" ⟨"600000", I64.lit 10000000, 0, "seed"⟩
  fees := 0
  realizedPnl := 0
  seedEquity := I64.lit 1002705000000
  asOf := 0
  closes := OrdMap.empty
  economicUnavailable := none

/-- A window of the sample session that offers 250 shares at ten yuan. -/
def sampleWindow (id : String) (minutes : Int) : WindowRecord where
  version := modelVersion
  observationId := id
  instrumentCode := "600000"
  sessionDate := 19700
  sourceAt := sampleInstant minutes
  observedAt := sampleInstant minutes
  freshThrough := sampleInstant (minutes + 10)
  sourceReference := "source"
  factsContract := "contract"
  factsBatchId := "batch"
  factsSource := "facts"
  factsSourceAt := "source time"
  factsObservedAt := "observation time"
  feeSegment := "ShanghaiMainA"
  listed := true
  suspended := false
  tickMicroCny := I64.lit 10000
  lowerMicroCny := I64.lit 9000000
  upperMicroCny := I64.lit 11000000
  regimeVersion := "regime"
  priceMicroCny := I64.lit 10000000
  modeledAvailableQuantity := 250

def sampleIntent (id : String) (side : Side) (quantity : Nat) (minutes : Int) : IntentRecord where
  version := intentVersion
  accountId := "account"
  epochId := "epoch"
  executionManifestHash := "0123456789abcdef0123456789abcdef0123456789abcdef0123456789abcdef"
  parentId := id
  investmentDecisionId := id
  familyId := "family"
  chainId := "chain"
  instrumentCode := "600000"
  instrumentName := "sample"
  side := side
  quantity := quantity
  limitMicroCny := I64.lit 10000000
  feePriceCapMicroCny := I64.lit 11000000
  sessionDate := 19700
  timeInForce := .daySession
  approvedAt := sampleInstant minutes
  approvalReference := "approval"
  sourceWindow := sampleWindow ("intent " ++ id) minutes

def sampleHead : HeadIdentity := ⟨1, "head"⟩

/-- A sell and a buy parent, both partially filled. -/
def sampleRequests : List CommandRecord :=
  [ .submit sampleHead (sampleIntent "sell" .sell 300 0)
  , .evaluate sampleHead "sell" (sampleWindow "first" 1)
  , .submit sampleHead (sampleIntent "buy" .buy 400 2)
  , .evaluate sampleHead "buy" (sampleWindow "second" 3) ]

/-- The sample book after some requests. -/
def sampleBook (requests : List CommandRecord) : Outcome ExecutionProjection := do
  let start ← initial sampleHost sampleGenesis sampleManifest.budget
  run sampleHost sampleManifest start requests

/-- A test that the sample book passes is passed by a reached projection. -/
theorem sampleBook_reached {test : ExecutionProjection → Bool}
    (passed : (sampleBook requests).toOption.any test = true) :
    ∃ state, Reached sampleHost sampleManifest sampleGenesis requests state ∧
      test state = true := by
  cases ran : sampleBook requests with
  | error reason =>
    rw [ran] at passed
    cases passed
  | ok state =>
    rw [ran] at passed
    obtain ⟨start, opened, rest⟩ := bind_eq_ok.mp ran
    exact ⟨state, ⟨start, opened, rest⟩, passed⟩

/-- The sample requests are accepted; both parents still work, each with one fill. -/
theorem sampleBook_filled : ∃ state,
    Reached sampleHost sampleManifest sampleGenesis sampleRequests state ∧
      state.working.length = 2 ∧ state.fills.length = 2 := by
  have passed : (sampleBook sampleRequests).toOption.any (fun state =>
      decide (state.working.length = 2 ∧ state.fills.length = 2)) = true := by decide +kernel
  obtain ⟨state, reached, counted⟩ := sampleBook_reached passed
  exact ⟨state, reached, of_decide_eq_true counted⟩

end ExecutionProjection

end StockAnalysis.Book
