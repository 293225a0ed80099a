import StockAnalysis.Foundation.KeyedPatch
import StockAnalysis.Foundation.Machine
import StockAnalysis.Foundation.OrdMap
import StockAnalysis.Foundation.Values

/-!
# Data of the paper ledger

The records of `trading/paper_ledger.rs` and its submodules: money, the seed manifest, lots,
the account projection, the facts an event may carry, and the commands that request them.

Persisted payloads are kept as values: the JSON codec is not part of the model.
-/

namespace StockAnalysis.Ledger

def nanosPerHour : Int := 3600000000000

/-- Nanoseconds of Shanghai local time (UTC+8). -/
def shanghai (at_ : Instant) : Int :=
  at_ + 8 * nanosPerHour

/-- The Shanghai calendar date of an instant. -/
def day (at_ : Instant) : Day :=
  shanghai at_ / (24 * nanosPerHour)

/-- The Shanghai hour of an instant. -/
def hour (at_ : Instant) : Int :=
  shanghai at_ % (24 * nanosPerHour) / nanosPerHour

/-- An ASCII hexadecimal digit. -/
def isHexDigit (c : Char) : Bool :=
  ('0' ≤ c && c ≤ '9') || ('a' ≤ c && c ≤ 'f') || ('A' ≤ c && c ≤ 'F')

inductive LedgerError where
  | notSeeded
  | inactiveEpoch
  | identityConflict
  | versionChanged
  | evidenceUnavailable (text : String)
  | invalidInput (text : String)
  | integrityFailure (text : String)
  | overflow
  | database (text : String)
deriving DecidableEq

abbrev Outcome := Except LedgerError

/-- The error's display text. -/
def LedgerError.text : LedgerError → String
  | .notSeeded => "paper account not explicitly seeded"
  | .inactiveEpoch => "inactive paper account/epoch/manifest binding"
  | .identityConflict => "paper command/business identity conflict"
  | .versionChanged => "paper head version changed; reread and explicitly retry"
  | .evidenceUnavailable text => "paper evidence unavailable: " ++ text
  | .invalidInput text => "invalid paper input: " ++ text
  | .integrityFailure text => "paper ledger integrity failure: " ++ text
  | .overflow => "paper money/quantity overflow"
  | .database text => "paper database error: " ++ text

/-! ## Money -/

/-- Signed micro-CNY. -/
abbrev Money := I64

variable {a c : Money}

namespace Money

def add (a b : Money) : Outcome Money :=
  okOr (a.checkedAdd b) .overflow

def sub (a b : Money) : Outcome Money :=
  okOr (a.checkedSub b) .overflow

def mul (a : Money) (quantity : Nat) : Outcome Money :=
  okOr (I64.ofInt? (a.val * quantity)) .overflow

/-- `i64::try_from` of an exact intermediate. -/
def exact (value : Int) : Outcome Money :=
  okOr (I64.ofInt? value) .overflow

variable {b : Money}

theorem add_eq_ok : a.add b = .ok c ↔ c.val = a.val + b.val := by
  rw [add, okOr_eq_ok, I64.checkedAdd, I64.ofInt?_eq_some]

theorem sub_eq_ok : a.sub b = .ok c ↔ c.val = a.val - b.val := by
  rw [sub, okOr_eq_ok, I64.checkedSub, I64.ofInt?_eq_some]

theorem mul_eq_ok {quantity : Nat} :
    a.mul quantity = .ok c ↔ c.val = a.val * quantity := by
  rw [mul, okOr_eq_ok, I64.ofInt?_eq_some]

theorem exact_eq_ok {value : Int} : exact value = .ok c ↔ c.val = value := by
  rw [exact, okOr_eq_ok, I64.ofInt?_eq_some]

end Money

/-! ## Seed, lots and projection -/

structure RiskPolicyV1 where
  maxPositionBps : Nat
  cashFloorBps : Nat
  maxSlippageBps : Nat
deriving DecidableEq

structure Mark where
  code : String
  price : Money
  observedAt : Instant
  source : String
deriving DecidableEq

structure SeedLot where
  code : String
  name : String
  quantity : Nat
  reportedCost : Option Money
  sellableFrom : Option Day
  sellabilityEvidence : Option String
deriving DecidableEq

structure SeedManifest where
  accountId : String
  epochId : String
  commandId : String
  cutoverAt : Instant
  accountEffectiveAt : Instant
  positionsEffectiveAt : Instant
  sourceReference : String
  sourceHash : String
  approvedBy : String
  cash : Money
  originalTotal : Money
  excludedResidual : Option Money
  lots : List SeedLot
  marks : List Mark
  policy : RiskPolicyV1
deriving DecidableEq

structure AccountBinding where
  accountId : String
  epochId : String
  manifestHash : String
deriving DecidableEq

structure Lot where
  lotId : String
  code : String
  name : String
  quantity : Nat
  basisPrice : Money
  buyFeeRemaining : Money
  acquiredOn : Day
  sellableFrom : Day
  reportedCost : Option Money
deriving DecidableEq

structure Projection where
  cash : Money
  lots : List Lot
  marks : OrdMap String Mark
  fees : Money
  realizedPnl : Money
  seedEquity : Money
  asOf : Instant
  closes : OrdMap Day Money
  economicUnavailable : Option String
deriving DecidableEq

/-! ## Facts and commands -/

inductive LedgerStatus where
  | seeded | marked | filled | notFilled | invalidated | rejected | adjudicated
  | snapshotRecorded
deriving DecidableEq

structure AuditLink where
  id : Int
  previousHash : String
  recordHash : String
  createdAt : String
deriving DecidableEq

inductive PriceIntent where
  | fixedSignalPriceV1 | signalQuoteMarketV1
deriving DecidableEq

inductive Direction where
  | buy | sell
deriving DecidableEq

def Direction.asStr : Direction → String
  | .buy => "buy"
  | .sell => "sell"

/-- A lot as an order found it and as it left it. -/
abbrev LotChange := KeyedPatch.Change Lot

/-- The evidence bytes of a signal, kept as the tuple that the source encodes. -/
structure SourceEvidence where
  price : F64
  limitDownPrice : Option F64
  limitUpPrice : Option F64
  isLimitDown : Bool
  isLimitUp : Bool
  isSuspended : Bool
  secondaryConfirmed : Bool
deriving DecidableEq

structure OrderFact where
  planId : String
  intentHash : String
  code : String
  direction : String
  requestedPrice : Money
  priceIntent : PriceIntent
  quantity : Nat
  quotePrice : Money
  quoteObservedAt : Instant
  accountMode : String
  dataMode : String
  decisionBasis : String
  sourceEvidence : SourceEvidence
  occurredAt : Instant
  status : LedgerStatus
  reason : Option String
  cashDelta : Money
  commission : Money
  stamp : Money
  realizedDelta : Money
  lotChanges : List LotChange
  marks : OrdMap String Mark
  paperTradeId : Option Int
  audit : AuditLink
deriving DecidableEq

structure ValuationBatch where
  binding : AccountBinding
  commandId : String
  expectedVersion : Int
  inventoryFingerprint : String
  asOf : Instant
  closing : Bool
  marks : List Mark
deriving DecidableEq

structure FillFingerprint where
  paperTradeId : Int
  planId : String
  eventHash : String
  rawTradeHash : String
  auditHash : String
  factAt : Instant
  legacyBeforeCutover : Bool
  legacyNoTerminal : Bool
deriving DecidableEq

inductive AdjudicationAction where
  | quarantine
  | correctionDeclared (price : Money) (quantity : Nat) (factAt : Instant)
deriving DecidableEq

structure Adjudication where
  binding : AccountBinding
  requestId : String
  expectedVersion : Int
  expectedHead : String
  expectedPredecessor : Option String
  original : FillFingerprint
  action : AdjudicationAction
  reason : String
  evidence : String
  operator : String
  source : String
  decisionAt : Instant
deriving DecidableEq

structure AdjudicatedFact where
  request : Adjudication
  projection : Projection
  historicalProjection : Option (String × Option String)
deriving DecidableEq

/-- A derived snapshot. The metrics and exclusions no ledger function reads are one opaque
text; `requestAsOf` and `metricsDate` are the two fields of them that validation compares. -/
structure SnapshotRevision where
  targetDate : Day
  algorithm : String
  requestAsOf : Day
  metricsDate : String
  body : String
  accountRealizedPnl : Money
  resultHash : String
deriving DecidableEq

inductive Fact where
  | seeded (manifest : SeedManifest) (legacyHighWaterId : Int) (legacyAuditHighWater : String)
  | order (order : OrderFact)
  | marked (batch : ValuationBatch)
  | adjudicatedV1 (ruling : AdjudicatedFact)
  | derivedSnapshotV1 (revision : SnapshotRevision)
deriving DecidableEq

inductive AccountMode where
  | normal | reduceOnly | frozen

def AccountMode.label : AccountMode → String
  | .normal => "Normal"
  | .reduceOnly => "ReduceOnly"
  | .frozen => "Frozen"

inductive DataMode where
  | full | degraded | unsafeMode
deriving DecidableEq

def DataMode.label : DataMode → String
  | .full => "Full"
  | .degraded => "Degraded"
  | .unsafeMode => "Unsafe"

structure PaperSignal where
  planId : String
  code : String
  name : String
  direction : Direction
  price : F64
  quantity : Nat
  virtualReason : String
  isLimitUp : Bool
  isLimitDown : Bool
  isSuspended : Bool
  limitUpPrice : Option F64
  limitDownPrice : Option F64
  secondaryConfirmed : Bool
  quoteObservedAt : Instant
  accountMode : AccountMode
  dataMode : DataMode

/-- The part of a qualified price band that price validation reads. -/
structure QualifiedPriceBand where
  tickMicros : Int
  lowerPriceMicros : Int
  upperPriceMicros : Int

structure ExecutionPriceQualification where
  code : String
  effectiveOn : Day
  band : QualifiedPriceBand

structure ExecuteIntent where
  binding : AccountBinding
  commandId : String
  expectedVersion : Int
  inventoryFingerprint : String
  signal : PaperSignal
  priceIntent : PriceIntent
  quotePrice : Money
  priceQualification : ExecutionPriceQualification
  marks : List Mark

inductive PaperCommand where
  | seed (manifest : SeedManifest)
  | execute (intent : ExecuteIntent)
  | mark (batch : ValuationBatch)
  | adjudicate (request : Adjudication)

structure PaperView where
  version : Int
  eventHash : String
  projection : Projection
deriving DecidableEq

structure PaperReceipt where
  version : Int
  eventHash : String
  alreadyApplied : Bool
  status : LedgerStatus
  reason : Option String
  paperTradeId : Option Int
  audit : Option AuditLink
  cashDelta : Money
  fee : Money
  fillPrice : Option Money
deriving DecidableEq

/-! ## Persisted rows -/

/-- One row of `paper_ledger_event`. -/
structure EventRow where
  seq : Int
  commandId : String
  previousHash : String
  eventHash : String
  payload : Fact
  businessPlanId : Option String
  intentHash : Option String
  isTerminal : Bool
  paperTradeId : Option Int
  orderAuditId : Option Int
deriving DecidableEq

/-- One row of `paper_trades`; the two timestamps are the local instant at millisecond
precision, as the insert statement formats it. -/
structure RawTrade where
  id : Int
  planId : String
  code : String
  name : String
  direction : String
  price : F64
  quantity : Nat
  status : String
  fillPrice : Option F64
  notFillReason : Option String
  virtualReason : String
  accountMode : String
  dataMode : String
  tsMillis : Int
deriving DecidableEq

/-- One row of `order_audit`. -/
structure AuditRecord where
  id : Int
  businessOrderId : String
  source : String
  decisionBasis : String
  side : String
  code : String
  requestedPrice : F64
  executionPrice : Option F64
  quantity : Nat
  quoteObservedAt : Option Instant
  outcome : String
  failureReason : Option String
  createdAt : String
deriving DecidableEq

/-- A row of `order_audit` with its row of `order_audit_chain`. -/
structure OrderAuditRow where
  record : AuditRecord
  previousHash : String
  recordHash : String
deriving DecidableEq

/-- A pre-cutover fill that the attribution epochs attest. -/
structure LegacyFill where
  planId : String
  occurredAt : Instant
  terminalAuditHash : Option String

structure OrderSafetyInput where
  code : String
  side : Direction
  orderPrice : F64
  quantity : Nat
  availableCash : Option F64
  limitDownPrice : Option F64
  limitUpPrice : Option F64
  secondaryConfirmed : Bool

/-- The fields that identify an order intent, as `order_intent_hash` encodes them. -/
structure IntentIdentity where
  manifestHash : String
  priceIntent : PriceIntent
  direction : String
  code : String
  quantity : Nat
  semanticPrice : Option Money

/-- What the ledger takes from outside its own logic: the trading calendar, floating-point
conversion, digests of encoded values, the shared order-safety check and table trigger, and the
attested pre-cutover history. Nothing is assumed about these functions. -/
structure Host where
  tradingDay : Day → Except String Bool
  nextTradingDay : Day → Except String Day
  fromCny : F64 → Outcome Money
  cny : Money → F64
  manifestHash : SeedManifest → String
  inventoryHash : List Lot → String
  intentHash : IntentIdentity → String
  eventHash : String → Int → String → String → Fact → String
  rawTradeHash : RawTrade → String
  auditHash : String → AuditRecord → String
  snapshotHash : SnapshotRevision → String
  dateText : Day → String
  orderSafety : OrderSafetyInput → Except String Unit
  tradeRowAllowed : RawTrade → Bool
  legacyFill : AccountBinding → Int → Outcome LegacyFill
  legacyResult : AccountBinding → List EventRow → Adjudication →
    Outcome (String × Option String)

/-- The trading-calendar answers, with their errors reported as missing evidence. -/
def Host.calendarDay (host : Host) (date : Day) : Outcome Bool :=
  (host.tradingDay date).mapError .evidenceUnavailable

def Host.calendarNext (host : Host) (date : Day) : Outcome Day :=
  (host.nextTradingDay date).mapError .evidenceUnavailable

end StockAnalysis.Ledger
