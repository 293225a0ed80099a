import Mathlib.Data.List.Sort
import StockAnalysis.Book.Projection
import StockAnalysis.Ledger.Economics

/-!
# Requests

`apply_request_with_work`: what each request does to the execution projection. Every request
works on a copy, so a request that fails leaves the projection as it was, and every accepted one
passes `validate` last.

A sell parent claims sellable lots of its chain first in, first out, and its fills consume those
claims. The fill of a buy appends a lot under the digest of the fill.
-/

namespace StockAnalysis.Book

open StockAnalysis.Ledger (LedgerError Outcome Money Lot Mark Projection openLots allocatedBuyFee)

variable (host : Host) (manifest : ExecutionManifest) (state : ExecutionProjection)

/-- The board of the window is the one that the fee policy is for. -/
def requireFeeScope (policy : AShareFeePolicyV2) (window : WindowRecord) : Outcome Unit :=
  require (window.feeSegment = policy.scope.segment.token)
    (.integrityFailure "recorded admitted board differs from fee scope")

namespace ExecutionProjection

variable (intent : IntentRecord) (reserve : WorkingReservation) (parent : ParentState)
  (fee : AShareFeePolicyV2)

/-- Record a window as the mark and the valuation of a code. -/
def recordWindow (code : String) (window : WindowRecord) : ExecutionProjection :=
  { state with
    account := { state.account with
      marks := state.account.marks.insert code (markFromWindow window) }
    valuationWindows := state.valuationWindows.insert code window }

/-- Advance the time of the account. -/
def asOf (state : ExecutionProjection) (at_ : Instant) : ExecutionProjection :=
  { state with account := { state.account with asOf := at_ } }

/-- The parents that can still fill, in the order of their identities. -/
def working : List ParentState :=
  state.parents.values.filter fun parent => parent.status.isWorking

def reservations : List WorkingReservation :=
  state.working.map ParentState.reservation

/-- A lot is assigned to the chain. -/
def AssignedTo (assignments : OrdMap String (Option String)) (id chain : String) : Prop :=
  assignments.get? id = some (some chain)

instance (assignments : OrdMap String (Option String)) (id chain : String) :
    Decidable (AssignedTo assignments id chain) :=
  inferInstanceAs (Decidable (_ = _))

/-! ## Submit -/

def clockExceeded : LedgerError :=
  .evidenceUnavailable "paper execution Shanghai clock exceeds supported range"

/-- The current value of one lot that is assigned to a chain. -/
def markedLot (at_ : Instant) (today : Day) (allocations : List MarkedAllocation)
    (entry : Lot × String) : Outcome (List MarkedAllocation) := do
  let mark ← okOr (state.account.marks.get? entry.1.code)
    (.evidenceUnavailable "allocated holding mark absent")
  let observed ← checkedShanghaiLocal mark.observedAt clockExceeded
  require (localDay observed = today)
    (.integrityFailure "allocated holding mark is not current session")
  let window ← okOr (state.valuationWindows.get? entry.1.code)
    (.evidenceUnavailable "allocated holding qualified valuation window absent")
  window.validate host
  require (mark = markFromWindow window ∧ window.sessionDate = today ∧
    window.observedAt ≤ at_ ∧ at_ ≤ window.freshThrough)
    (.integrityFailure "allocated holding qualified valuation window expired or differs")
  let value ← notional mark.price entry.1.quantity
  pure (allocations ++ [⟨entry.1.code, entry.2, value⟩])

/-- The lots that are assigned to some chain, with the chain. -/
def assignedLots : List (Lot × String) :=
  state.account.lots.filterMap fun lot =>
    (state.lotAssignments.get? lot.lotId).join.map fun chain => (lot, chain)

def markedAt (at_ : Instant) : Outcome (List MarkedAllocation) := do
  let local_ ← checkedShanghaiLocal at_ clockExceeded
  each (markedLot host state at_ (localDay local_)) [] state.assignedLots

/-- The shares of a lot that working parents have claimed. -/
def claimedShares (id : String) : Outcome Nat :=
  each (fun sum claim => u32Add sum claim.quantity) 0
    ((state.working.flatMap ParentState.sellClaims).filter fun claim => claim.lotId = id)

/-- First in, first out: by acquisition day, then by identity. -/
def FifoBefore (first second : Lot) : Prop :=
  first.acquiredOn < second.acquiredOn ∨
    (first.acquiredOn = second.acquiredOn ∧ first.lotId ≤ second.lotId)

instance : DecidableRel FifoBefore := fun _ _ =>
  inferInstanceAs (Decidable (_ ∨ _))

/-- The lots that a sell parent may claim, first in, first out. -/
def claimableLots : List Lot :=
  (state.account.lots.filter fun lot =>
    lot.code = intent.instrumentCode ∧ lot.sellableFrom ≤ intent.sessionDate ∧
      AssignedTo state.lotAssignments lot.lotId intent.chainId).insertionSort FifoBefore

/-- The claim on one lot, if it takes anything. -/
def claimOf (id : String) (take : Nat) : List LotClaim :=
  if 0 < take then [⟨id, take⟩] else []

/-- Claim the unclaimed shares of the lots in their order until nothing is left to claim. -/
def claimLots (state : ExecutionProjection) : Nat → List Lot → Outcome (Nat × List LotClaim)
  | left, [] => pure (left, [])
  | left, lot :: lots => do
      let claimed ← state.claimedShares lot.lotId
      let available ← u32Sub lot.quantity claimed
      let take := min left available
      if left - take = 0 then pure (0, claimOf lot.lotId take)
      else do
        let (rest, claims) ← claimLots state (left - take) lots
        pure (rest, claimOf lot.lotId take ++ claims)

/-- A new sell parent: its fees are covered and its shares are claimed. -/
def admitSell : Outcome (List LotClaim) := do
  let existing := (state.reservations.map fun held => held.cashReserve.val).sum
  let total ← checked (existing + reserve.cashReserve.val)
  require (total.val ≤ state.cash.strategyCash.val)
    (.integrityFailure "strategy cash cannot reserve sell fees")
  let (left, claims) ← claimLots state intent.quantity (state.claimableLots intent)
  require (left = 0)
    (.integrityFailure "allocated FIFO sellable shares unavailable or already reserved")
  pure claims

/-- A new buy parent: the budget admits it, and it claims nothing. -/
def admitBuy : Outcome (List LotClaim) := do
  let marked ← state.markedAt host intent.approvedAt
  requireNewBuy manifest.budget state.cash marked state.reservations reserve
  pure []

def admitSide : Outcome (List LotClaim) :=
  match intent.side with
  | .buy => admitBuy host manifest state intent reserve
  | .sell => admitSell state intent reserve

/-- The parent of an admitted intent. -/
def newParent (claims : List LotClaim) : ParentState :=
  { intent := intent
    status := .working
    filled := 0
    remaining := intent.quantity
    cancelled := 0
    reservation := reserve
    sellClaims := claims }

/-- The projection with a parent stored. -/
def setParent (id : String) (parent : ParentState) : ExecutionProjection :=
  { state with parents := state.parents.insert id parent }

def submit (host : Host) (manifest : ExecutionManifest) (fee : AShareFeePolicyV2)
    (state : ExecutionProjection) (intent : IntentRecord) :
    Outcome (ExecutionProjection × Effect) := do
  intent.validate host
  require (intent.accountId = manifest.accountId ∧ intent.epochId = manifest.epochId ∧
    intent.executionManifestHash = host.manifestIdentity manifest ∧
    intent.familyId = manifest.budget.familyId)
    (.integrityFailure "submit manifest owner differs")
  require (state.parents.get? intent.parentId = none ∧ ∀ parent ∈ state.parents.values,
    parent.intent.investmentDecisionId ≠ intent.investmentDecisionId) .identityConflict
  require (manifest.budget.effectiveFrom ≤ intent.sessionDate ∧
    intent.sessionDate ≤ manifest.budget.effectiveThrough)
    (.integrityFailure "budget policy session not effective")
  requireFeeScope fee intent.sourceWindow
  require (state.account.asOf ≤ intent.approvedAt)
    (.integrityFailure "parent observation precedes prior financial fact")
  let observed := state.recordWindow intent.instrumentCode intent.sourceWindow
  let reserve ← reservation host intent intent.quantity fee
  let claims ← observed.admitSide host manifest intent reserve
  let parent := newParent intent reserve claims
  pure ((observed.setParent intent.parentId parent).asOf intent.approvedAt, .submitted parent)

/-! ## Evaluate -/

/-- The working parent that a window is evaluated for. -/
def admitWindow (state : ExecutionProjection) (parentId : String) (window : WindowRecord) :
    Outcome ParentState := do
  window.validate host
  requireFeeScope fee window
  require (state.account.asOf ≤ window.observedAt)
    (.integrityFailure "fill observation precedes prior financial fact")
  let parent ← okOr (state.parents.get? parentId) .identityConflict
  require (parent.status.isWorking = true ∧
    window.instrumentCode = parent.intent.instrumentCode ∧
    window.sessionDate = parent.intent.sessionDate)
    (.integrityFailure "window does not match working day parent")
  require (state.usedWindows.get? window.observationId = none) .identityConflict
  pure parent

/-- Record an evaluated window: it is used, it is the mark of its code, and time advances. -/
def observe (window : WindowRecord) : ExecutionProjection :=
  { (state.recordWindow window.instrumentCode window).asOf window.observedAt with
    usedWindows := state.usedWindows.insert window.observationId (host.windowHash window) }

/-- What the trade of a fill leaves. -/
structure Trade where
  cash : CashPartitions
  lots : List Lot
  lotAssignments : OrdMap String (Option String)
  sellClaims : List LotClaim
  inheritedFee : Int
  basis : Int

/-- The lot that a buy fill creates. -/
def boughtLot (fillId : String) (window : WindowRecord) (modeled : ModeledFill) : Lot :=
  { lotId := fillId
    code := parent.intent.instrumentCode
    name := parent.intent.instrumentName
    quantity := modeled.quantity
    basisPrice := modeled.priceMicroCny
    buyFeeRemaining := modeled.totalFeeMicroCny
    acquiredOn := window.sessionDate
    sellableFrom := modeled.sellableFrom
    reportedCost := none }

def buyFill (fillId : String) (window : WindowRecord) (modeled : ModeledFill) : Outcome Trade := do
  let debit ← checked (modeled.notionalMicroCny.val + modeled.totalFeeMicroCny.val)
  let delta ← checked (-debit.val)
  let cash ← state.cash.applyStrategyDelta delta
  require (state.lotAssignments.get? fillId = none) (.integrityFailure "duplicate fill lot")
  pure
    { cash := cash
      lots := state.account.lots ++ [boughtLot parent fillId window modeled]
      lotAssignments := state.lotAssignments.insert fillId (some parent.intent.chainId)
      sellClaims := parent.sellClaims
      inheritedFee := 0
      basis := 0 }

/-- The unchecked `u32` subtraction, which wraps around in a release build. -/
def wrappingSub (a b : Nat) : Nat :=
  if b ≤ a then a - b else a + (u32Max + 1) - b

/-- Store a lot in the place of the first one of its identity. -/
def putLot (lot : Lot) : List Lot → List Lot
  | [] => []
  | other :: lots => if other.lotId = lot.lotId then lot :: lots else other :: putLot lot lots

/-- A sell fill in progress: the lots, the shares still to take, and the sums over what was
taken. -/
structure Consumption where
  lots : List Lot
  left : Nat
  inheritedFee : Int
  basis : Int

def sellLotDisappeared : LedgerError :=
  .integrityFailure "reserved sell lot disappeared"

def sellLotUnassigned : LedgerError :=
  .integrityFailure "sell lot is not assigned/sellable"

def fillExceedsClaims : LedgerError :=
  .integrityFailure "fill exceeds reserved FIFO shares"

/-- Take shares of one claim from its lot. The source leaves the loop once nothing is left to
take and skips an empty claim; both leave the claim and the lots as they are. -/
def consumeClaim (assignments : OrdMap String (Option String)) (chain : String) (session : Day)
    (tally : Consumption) (claim : LotClaim) : Outcome (Consumption × LotClaim) :=
  if min tally.left claim.quantity = 0 then pure (tally, claim)
  else do
    let take := min tally.left claim.quantity
    let lot ← okOr (tally.lots.find? fun lot => lot.lotId = claim.lotId) sellLotDisappeared
    require (lot.sellableFrom ≤ session ∧ AssignedTo assignments lot.lotId chain)
      sellLotUnassigned
    let allocated ← allocatedBuyFee lot take
    let cost ← notional lot.basisPrice take
    let buyFeeRemaining ← Money.sub lot.buyFeeRemaining allocated
    pure
      (⟨putLot { lot with
            quantity := wrappingSub lot.quantity take
            buyFeeRemaining := buyFeeRemaining } tally.lots,
          tally.left - take, tally.inheritedFee + allocated.val, tally.basis + cost.val⟩,
        { claim with quantity := claim.quantity - take })

def consumeClaims (assignments : OrdMap String (Option String)) (chain : String)
    (session : Day) : Consumption → List LotClaim → Outcome (Consumption × List LotClaim)
  | tally, [] => pure (tally, [])
  | tally, claim :: claims => do
      let (next, left) ← consumeClaim assignments chain session tally claim
      let (final, rest) ← consumeClaims assignments chain session next claims
      pure (final, left :: rest)

/-- The assignments without those of the emptied lots. -/
def dropEmptied (lots : List Lot) (assignments : OrdMap String (Option String)) :
    OrdMap String (Option String) :=
  (lots.filter fun lot => lot.quantity = 0).foldl (fun kept lot => kept.erase lot.lotId)
    assignments

def sellFill (window : WindowRecord) (modeled : ModeledFill) : Outcome Trade := do
  let (consumed, claims) ← consumeClaims state.lotAssignments parent.intent.chainId
    window.sessionDate ⟨state.account.lots, modeled.quantity, 0, 0⟩ parent.sellClaims
  require (consumed.left = 0) fillExceedsClaims
  let proceeds ← checked (modeled.notionalMicroCny.val - modeled.totalFeeMicroCny.val)
  let cash ← state.cash.applyStrategyDelta proceeds
  pure
    { cash := cash
      lots := openLots consumed.lots
      lotAssignments := dropEmptied consumed.lots state.lotAssignments
      sellClaims := claims.filter fun claim => 0 < claim.quantity
      inheritedFee := consumed.inheritedFee
      basis := consumed.basis }

def trade (fillId : String) (window : WindowRecord) (modeled : ModeledFill) : Outcome Trade :=
  match parent.intent.side with
  | .buy => state.buyFill parent fillId window modeled
  | .sell => state.sellFill parent window modeled

/-- The realized result of a fill; a buy realizes nothing. -/
def realizedResult (side : Side) (modeled : ModeledFill) (trade : Trade) : Outcome Money :=
  match side with
  | .buy => pure 0
  | .sell => checked (modeled.notionalMicroCny.val - modeled.totalFeeMicroCny.val - trade.basis -
      trade.inheritedFee)

/-- The parent after a fill. -/
def filledParent (filled remaining : Nat) (reserve : WorkingReservation) (claims : List LotClaim) :
    ParentState :=
  { parent with
    filled := filled
    remaining := remaining
    reservation := reserve
    status := if remaining = 0 then .filled else .partiallyFilled
    sellClaims := claims }

/-- The projection after a fill. -/
def settle (parentId : String) (parent : ParentState) (trade : Trade) (realizedPnl fees : Money)
    (record : FillRecord) : ExecutionProjection :=
  { state with
    account := { state.account with
      cash := trade.cash.accountCash
      lots := trade.lots
      realizedPnl := realizedPnl
      fees := fees }
    cash := trade.cash
    lotAssignments := trade.lotAssignments
    parents := state.parents.insert parentId parent
    fills := state.fills ++ [record] }

def applyFill (state : ExecutionProjection) (parent : ParentState) (parentId : String)
    (window : WindowRecord) (modeled : ModeledFill) : Outcome (ExecutionProjection × FillRecord) := do
  let filled ← u32Add parent.filled modeled.quantity
  let remaining ← u32Sub parent.remaining modeled.quantity
  let fillId := host.fillIdentity manifest.accountId parentId window.observationId
  let trade ← state.trade parent fillId window modeled
  let realized ← realizedResult parent.intent.side modeled trade
  let realizedPnl ← checked (state.account.realizedPnl.val + realized.val)
  let fees ← checked (state.account.fees.val + modeled.totalFeeMicroCny.val)
  let reserve ← reservation host parent.intent remaining fee
  let inherited ← checked trade.inheritedFee
  let record : FillRecord :=
    { fillId := fillId
      parentId := parentId
      observationId := window.observationId
      executedAt := window.observedAt
      side := parent.intent.side
      model := modeled
      inheritedBuyFeeMicroCny := inherited
      realizedPnlMicroCny := realized }
  pure (state.settle parentId (filledParent parent filled remaining reserve trade.sellClaims) trade
    realizedPnl fees record, record)

def evaluate (state : ExecutionProjection) (parentId : String) (window : WindowRecord) :
    Outcome (ExecutionProjection × Effect) := do
  let parent ← state.admitWindow host fee parentId window
  let outcome ← model host parent.intent.side parent.remaining parent.intent.limitMicroCny
    parent.intent.feePriceCapMicroCny window fee
  match outcome with
  | .noFill reason => pure (state.observe host window, .observedNoFill reason)
  | .fill modeled => do
      let (next, record) ←
        (state.observe host window).applyFill host manifest fee parent parentId window modeled
      pure (next, .filled record)

/-! ## Cancel, expire, marks -/

/-- The day order has expired: its session is over on a verified trading day. -/
def requireExpired (at_ : Instant) : Outcome Unit := do
  let local_ ← checkedShanghaiLocal at_ clockExceeded
  require (intent.sessionDate < localDay local_ ∨
    (localDay local_ = intent.sessionDate ∧ 15 * 3600 ≤ localSeconds local_))
    (.integrityFailure "day order not yet expired on verified session")
  let open_ ← host.calendarDay (localDay local_)
  require (open_ = true) (.integrityFailure "day order not yet expired on verified session")

/-- How a parent is closed. -/
inductive Closing where
  | cancelled | expired

def Closing.status : Closing → ParentStatus
  | .cancelled => .cancelled
  | .expired => .expired

def Closing.effect : Closing → Effect
  | .cancelled => .cancelled
  | .expired => .expired

def requireClosing (closing : Closing) (intent : IntentRecord) (at_ : Instant) : Outcome Unit :=
  match closing with
  | .cancelled => pure ()
  | .expired => requireExpired host intent at_

/-- The parent after it is closed. -/
def closedParent (closing : Closing) (parent : ParentState) (reserve : WorkingReservation) :
    ParentState :=
  { parent with
    status := closing.status
    cancelled := parent.remaining
    remaining := 0
    reservation := reserve
    sellClaims := [] }

def close (state : ExecutionProjection) (parentId : String) (at_ : Instant) (closing : Closing) :
    Outcome (ExecutionProjection × Effect) := do
  let parent ← okOr (state.parents.get? parentId) .identityConflict
  require (parent.status.isWorking = true ∧ state.account.asOf ≤ at_)
    (.integrityFailure "cancel/expire not current working order")
  requireClosing host closing parent.intent at_
  let reserve ← reservation host parent.intent 0 fee
  pure ((state.setParent parentId (closedParent closing parent reserve)).asOf at_, closing.effect)

/-- Record one window of a set of marks, with the codes recorded so far. -/
def recordMark (at_ : Instant) (progress : ExecutionProjection × List String)
    (window : WindowRecord) : Outcome (ExecutionProjection × List String) := do
  window.validate host
  require (window.observedAt = at_ ∧ window.instrumentCode ∉ progress.2)
    (.integrityFailure "mark set date/code duplicate")
  pure (progress.1.recordWindow window.instrumentCode window,
    progress.2 ++ [window.instrumentCode])

def qualifiedMarks (windows : List WindowRecord) : Outcome (ExecutionProjection × Effect) := do
  let first ← okOr windows.head? (.integrityFailure "qualified mark set empty")
  require (state.account.asOf ≤ first.observedAt)
    (.integrityFailure "mark precedes prior financial fact")
  let (marked, seen) ← each (recordMark host first.observedAt) (state, []) windows
  require (∀ lot ∈ marked.account.lots, lot.code ∈ seen)
    (.integrityFailure "marks omit full account holding")
  pure (marked.asOf first.observedAt, .marks)

/-! ## All requests -/

/-- What a request does before the result is validated. -/
def requestBody (request : CommandRecord) : Outcome (ExecutionProjection × Effect) := do
  let fee ← manifest.validate host
  match request with
  | .open_ _ => .error .identityConflict
  | .submit _ intent => state.submit host manifest fee intent
  | .evaluate _ parentId window => state.evaluate host manifest fee parentId window
  | .cancel _ parentId at_ => state.close host fee parentId at_ .cancelled
  | .expire _ parentId at_ => state.close host fee parentId at_ .expired
  | .qualifiedMarks _ windows => state.qualifiedMarks host windows

/-- `apply_request`: the projection and the effect of an accepted request. -/
def applyRequest (request : CommandRecord) : Outcome (ExecutionProjection × Effect) := do
  let result ← state.requestBody host manifest request
  result.1.validate host
  pure result

end ExecutionProjection

end StockAnalysis.Book
