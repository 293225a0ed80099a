import StockAnalysis.Foundation.TextRecord
import StockAnalysis.Ledger.Types

/-!
# Data of the parent-order book

The records of the second paper book (`trading/paper_book_v2_*.rs`,
`decision/approved_paper_intent_v1.rs`, `performance/fee_policy.rs`): the fee policy, execution
windows, approved intents, the budget, parents with their reservations and lot claims, and the
execution projection that requests act on. The account inside the projection is the ledger's.

Share quantities are unsigned 32-bit integers in the source and natural numbers here; the checked
operations on them keep their bound explicitly. Exact 128-bit intermediates are integers.
-/

namespace StockAnalysis.Book

open StockAnalysis.Ledger (LedgerError Outcome Money Lot Mark Projection)

/-! ## Fee policy -/

inductive FeeMarket where
  | shanghai | shenzhen | beijing | unknown
deriving DecidableEq

inductive FeeSecurityKind where
  | aShareStock | bShareStock | fund | bond | unknown
deriving DecidableEq

inductive FeeListingSegment where
  | shanghaiMainA | shanghaiStarA | other
deriving DecidableEq

def FeeListingSegment.token : FeeListingSegment → String
  | .shanghaiMainA => "ShanghaiMainA"
  | .shanghaiStarA => "ShanghaiStarA"
  | .other => "Other"

/-- The segments the fee schedule supports. -/
def FeeListingSegment.Supported (segment : FeeListingSegment) : Prop :=
  segment = .shanghaiMainA ∨ segment = .shanghaiStarA

instance (segment : FeeListingSegment) : Decidable segment.Supported :=
  inferInstanceAs (Decidable (_ ∨ _))

/-- A scope assertion; only supported combinations exist. -/
structure QualifiedInstrument where
  market : FeeMarket
  securityKind : FeeSecurityKind
  segment : FeeListingSegment
  supported : market = .shanghai ∧ securityKind = .aShareStock ∧ segment.Supported
deriving DecidableEq

/-- A commission rate in lowest terms. -/
structure FeeRate where
  numerator : Money
  denominator : Money
  nonneg : 0 ≤ numerator.val
  positive : 0 < denominator.val
  reduced : Int.gcd numerator.val denominator.val = 1

inductive ExcludedFeeReason where
  | unmodeled | unverified
deriving DecidableEq

def ExcludedFeeReason.token : ExcludedFeeReason → String
  | .unmodeled => "excluded_unmodeled"
  | .unverified => "excluded_unverified"

structure FeeCoverage where
  transferFee : ExcludedFeeReason
  otherCharges : ExcludedFeeReason

inductive FeeCoverageRequirement where
  | modeledComponentsOnly | completeTradingCost
deriving DecidableEq

inductive AShareFeeV2Error where
  | unsupportedInstrument | scopeMismatch | unsupportedCoverage | invalidNotional
  | unsupportedTradeDate | invalidCommissionRate | invalidCommissionMinimum
  | invalidSourceRevision | overflow

def AShareFeeV2Error.text : AShareFeeV2Error → String
  | .unsupportedInstrument => "Shanghai A-share stock fee policy does not support this instrument"
  | .scopeMismatch => "fee instrument scope does not match policy scope"
  | .unsupportedCoverage =>
    "complete trading cost is unavailable: transfer and other charges are excluded"
  | .invalidNotional => "A-share fee schedule v2 requires positive micro-CNY notional"
  | .unsupportedTradeDate => "A-share fee schedule v2 has no authority before 2008-09-19"
  | .invalidCommissionRate => "commission rate must be nonnegative with a positive denominator"
  | .invalidCommissionMinimum => "commission minimum must be nonnegative"
  | .invalidSourceRevision => "source revision must be 1..128 ASCII token characters"
  | .overflow => "A-share fee schedule v2 amount overflow"

/-- A character of a source revision. -/
def isRevisionChar (c : Char) : Bool :=
  c.isAlphanum || c = '.' || c = '_' || c = '+' || c = '-'

/-- One to 128 ASCII token characters. -/
def RevisionToken (revision : List Char) : Prop :=
  revision ≠ [] ∧ revision.length ≤ 128 ∧ revision.all isRevisionChar = true

instance (revision : List Char) : Decidable (RevisionToken revision) :=
  inferInstanceAs (Decidable (_ ∧ _))

/-- The immutable policy; its checked parts are fields, so that no other policy exists. -/
structure AShareFeePolicyV2 where
  scope : QualifiedInstrument
  commissionRate : FeeRate
  commissionMinimumMicroCny : Money
  minimumNonneg : 0 ≤ commissionMinimumMicroCny.val
  coverage : FeeCoverage
  sourceRevision : List Char
  revisionToken : RevisionToken sourceRevision

inductive FillSide where
  | buy | sell

inductive StampTaxBracketV2 where
  | sellerOnePerThousand | sellerHalfPerThousand

def StampTaxBracketV2.id : StampTaxBracketV2 → String
  | .sellerOnePerThousand => "2008-09-19..2023-08-27:1/1000"
  | .sellerHalfPerThousand => "2023-08-28..:1/2000"

structure AShareFillFeeV2 where
  basisId : String
  policyInstanceId : String
  scope : QualifiedInstrument
  tradeDate : Day
  stampTaxBracket : StampTaxBracketV2
  side : FillSide
  notionalMicroCny : Money
  commissionMicroCny : Money
  stampTaxMicroCny : Money
  totalMicroCny : Money
  coverage : FeeCoverage

/-- The bytes of a stored descriptor: their text, or nothing when they are not UTF-8. -/
abbrev DescriptorBytes := Option (List Char)

/-! ## Execution windows and modeled fills -/

inductive Side where
  | buy | sell
deriving DecidableEq

def Side.feeSide : Side → FillSide
  | .buy => .buy
  | .sell => .sell

/-- A persisted observation of one instrument. -/
structure WindowRecord where
  version : String
  observationId : String
  instrumentCode : String
  sessionDate : Day
  sourceAt : Instant
  observedAt : Instant
  freshThrough : Instant
  sourceReference : String
  factsContract : String
  factsBatchId : String
  factsSource : String
  factsSourceAt : String
  factsObservedAt : String
  feeSegment : String
  listed : Bool
  suspended : Bool
  tickMicroCny : Money
  lowerMicroCny : Money
  upperMicroCny : Money
  regimeVersion : String
  priceMicroCny : Money
  modeledAvailableQuantity : Nat

inductive NoFillReason where
  | suspended | outsideLimit | lessThanWholeLot

structure ModeledFill where
  quantity : Nat
  priceMicroCny : Money
  notionalMicroCny : Money
  commissionMicroCny : Money
  stampTaxMicroCny : Money
  totalFeeMicroCny : Money
  feePolicyInstanceId : String
  stampTaxBracket : String
  sellableFrom : Day

inductive ModelOutcome where
  | noFill (reason : NoFillReason)
  | fill (modeled : ModeledFill)

/-! ## Intents and budget -/

inductive TimeInForce where
  | daySession

structure IntentRecord where
  version : String
  accountId : String
  epochId : String
  executionManifestHash : String
  parentId : String
  investmentDecisionId : String
  familyId : String
  chainId : String
  instrumentCode : String
  instrumentName : String
  side : Side
  quantity : Nat
  limitMicroCny : Money
  feePriceCapMicroCny : Money
  sessionDate : Day
  timeInForce : TimeInForce
  approvedAt : Instant
  approvalReference : String
  sourceWindow : WindowRecord

inductive ProfitPolicy where
  | reinvestWithinFixedAuthorizedBudget

inductive LotDisposition where
  | allocatedToStrategy | unassignedReadOnly
deriving DecidableEq

structure InitialLotAllocation where
  lotId : String
  originalQuantity : Nat
  disposition : LotDisposition
  chainId : Option String
deriving DecidableEq

structure BudgetRecord where
  version : String
  familyId : String
  effectiveFrom : Day
  effectiveThrough : Day
  authorizedBudgetMicroCny : Money
  initialStrategyCashMicroCny : Money
  concentrationBps : Nat
  chainExposureBps : Nat
  cashFloorBps : Nat
  maxOrderExposureMicroCny : Money
  originalSeedReference : String
  reviewReference : String
  profitPolicy : ProfitPolicy
  initialLots : List InitialLotAllocation

structure CashPartitions where
  accountCash : Money
  strategyCash : Money
  unassignedCash : Money

structure WorkingReservation where
  parentId : String
  code : String
  chainId : String
  buyMaxNotional : Money
  feeReserve : Money
  cashReserve : Money

structure MarkedAllocation where
  code : String
  chainId : String
  markedValue : Money

/-! ## The execution projection -/

structure ExecutionManifest where
  version : String
  accountId : String
  epochId : String
  cutoverId : String
  genesisEventHash : String
  genesisProjectionHash : String
  feeDescriptor : DescriptorBytes
  feePolicyInstanceId : String
  budget : BudgetRecord
  fillModelVersion : String
  approvedReference : String

inductive ParentStatus where
  | working | partiallyFilled | filled | cancelled | expired

/-- The statuses of an order that can still fill. -/
def ParentStatus.isWorking : ParentStatus → Bool
  | .working | .partiallyFilled => true
  | .filled | .cancelled | .expired => false

structure LotClaim where
  lotId : String
  quantity : Nat

structure ParentState where
  intent : IntentRecord
  status : ParentStatus
  filled : Nat
  remaining : Nat
  cancelled : Nat
  reservation : WorkingReservation
  sellClaims : List LotClaim

structure FillRecord where
  fillId : String
  parentId : String
  observationId : String
  executedAt : Instant
  side : Side
  model : ModeledFill
  inheritedBuyFeeMicroCny : Money
  realizedPnlMicroCny : Money

structure ExecutionProjection where
  version : String
  account : Projection
  cash : CashPartitions
  lotAssignments : OrdMap String (Option String)
  parents : OrdMap String ParentState
  usedWindows : OrdMap String String
  fills : List FillRecord
  valuationWindows : OrdMap String WindowRecord

structure HeadIdentity where
  version : Int
  eventHash : String

inductive CommandRecord where
  | open_ (manifest : ExecutionManifest)
  | submit (expected : HeadIdentity) (intent : IntentRecord)
  | evaluate (expected : HeadIdentity) (parentId : String) (window : WindowRecord)
  | cancel (expected : HeadIdentity) (parentId : String) (at_ : Instant)
  | expire (expected : HeadIdentity) (parentId : String) (at_ : Instant)
  | qualifiedMarks (expected : HeadIdentity) (windows : List WindowRecord)

inductive Effect where
  | opened
  | submitted (parent : ParentState)
  | observedNoFill (reason : NoFillReason)
  | filled (fill : FillRecord)
  | cancelled
  | expired
  | marks

/-- What the book takes from outside its own logic: the trading calendar, the reading of
timestamps, and the digests. Nothing is assumed about these functions. -/
structure Host where
  tradingDay : Day → Except String Bool
  nextTradingDay : Day → Except String Day
  parseRfc3339 : String → Option Instant
  descriptorDigest : List Char → String
  manifestIdentity : ExecutionManifest → String
  windowHash : WindowRecord → String
  fillIdentity : String → String → String → String

/-- The trading-calendar answers, with their errors reported as missing evidence. -/
def Host.calendarDay (host : Host) (date : Day) : Outcome Bool :=
  (host.tradingDay date).mapError .evidenceUnavailable

def Host.calendarNext (host : Host) (date : Day) : Outcome Day :=
  (host.nextTradingDay date).mapError .evidenceUnavailable

end StockAnalysis.Book
