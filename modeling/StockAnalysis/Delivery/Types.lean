import StockAnalysis.Foundation.Outcome
import StockAnalysis.Foundation.Table
import StockAnalysis.Foundation.Values

/-!
# Data of the durable delivery store

The records of `durable_delivery/model.rs` and the tables of `durable_delivery/schema.rs`. An
envelope is a message frozen for delivery; a decision is its row with the state of the delivery;
budget slots and cooldowns are reserved for it, an attempt holds the fence under which the sink is
called, and every change is queued in an outbox of immutable audits.

Instants are nanoseconds; a stored timestamp has milliseconds. Canonical JSON is a list of fields,
and the digests over it are functions of the host. A table carries its primary key; the further
unique constraints are checked where a row is written.
-/

namespace StockAnalysis.Delivery

/-! ## Kinds and policies -/

inductive PushKind where
  | holdingPlan | holdingEvent | t0Advice | candidateTriggered | closeCall | forbiddenOps
  | paperTrade | reviewMarket | reviewLhb | reviewSignal | reviewFailure | tomorrowWatch
  | eventCalendar | dailyReport | reviewProviderTopN | sectorTop | sectorAnomaly | industryChain
  | positionReview | reviewBacktest | watchlistTracking | catalystReview | preopenNewsHot
  | stPriceLimitChanged | attributionDaily | g5bAttribution | intradayMarket | newsCatalyst
  | blockTradeIntradayConfirm | ipoCatalyst | snapshotStale | limitBoards | dataMode
  | auctionRepush | candidateInvalidated | announcement | analystUpgrade | newsToIdea
  | auctionVolume | industryChainIntraday | newsFlashAggregated | paperSell | marketActionAlert
  | accountMode | candidateBoard | newsAiAnalysis
deriving DecidableEq

def PushKind.asStr : PushKind → String
  | .holdingPlan => "HoldingPlan"
  | .holdingEvent => "HoldingEvent"
  | .t0Advice => "T0Advice"
  | .candidateTriggered => "CandidateTriggered"
  | .closeCall => "CloseCall"
  | .forbiddenOps => "ForbiddenOps"
  | .paperTrade => "PaperTrade"
  | .reviewMarket => "ReviewMarket"
  | .reviewLhb => "ReviewLhb"
  | .reviewSignal => "ReviewSignal"
  | .reviewFailure => "ReviewFailure"
  | .tomorrowWatch => "TomorrowWatch"
  | .eventCalendar => "EventCalendar"
  | .dailyReport => "DailyReport"
  | .reviewProviderTopN => "ReviewProviderTopN"
  | .sectorTop => "SectorTop"
  | .sectorAnomaly => "SectorAnomaly"
  | .industryChain => "IndustryChain"
  | .positionReview => "PositionReview"
  | .reviewBacktest => "ReviewBacktest"
  | .watchlistTracking => "WatchlistTracking"
  | .catalystReview => "CatalystReview"
  | .preopenNewsHot => "PreopenNewsHot"
  | .stPriceLimitChanged => "StPriceLimitChanged"
  | .attributionDaily => "AttributionDaily"
  | .g5bAttribution => "G5bAttribution"
  | .intradayMarket => "IntradayMarket"
  | .newsCatalyst => "NewsCatalyst"
  | .blockTradeIntradayConfirm => "BlockTradeIntradayConfirm"
  | .ipoCatalyst => "IpoCatalyst"
  | .snapshotStale => "SnapshotStale"
  | .limitBoards => "LimitBoards"
  | .dataMode => "DataMode"
  | .auctionRepush => "AuctionRepush"
  | .candidateInvalidated => "CandidateInvalidated"
  | .announcement => "Announcement"
  | .analystUpgrade => "AnalystUpgrade"
  | .newsToIdea => "NewsToIdea"
  | .auctionVolume => "AuctionVolume"
  | .industryChainIntraday => "IndustryChainIntraday"
  | .newsFlashAggregated => "NewsFlashAggregated"
  | .paperSell => "PaperSell"
  | .marketActionAlert => "MarketActionAlert"
  | .accountMode => "AccountMode"
  | .candidateBoard => "CandidateBoard"
  | .newsAiAnalysis => "NewsAiAnalysis"

def PushKind.stableTemplateId : PushKind → String
  | .holdingPlan => "holding_plan_v1"
  | .holdingEvent => "holding_event_v1"
  | .t0Advice => "t0_advice_v1"
  | .candidateTriggered => "candidate_triggered_v1"
  | .closeCall => "close_call_v1"
  | .forbiddenOps => "forbidden_ops_v1"
  | .paperTrade => "paper_trade_v1"
  | .reviewMarket => "review_market_v1"
  | .reviewLhb => "review_lhb_v1"
  | .reviewSignal => "review_signal_v1"
  | .reviewFailure => "review_failure_v1"
  | .tomorrowWatch => "tomorrow_watch_v1"
  | .eventCalendar => "event_calendar_v1"
  | .dailyReport => "daily_report_v1"
  | .reviewProviderTopN => "review_provider_top_n_v1"
  | .sectorTop => "sector_top_v1"
  | .sectorAnomaly => "sector_anomaly_v1"
  | .industryChain => "industry_chain_v1"
  | .positionReview => "position_review_v1"
  | .reviewBacktest => "review_backtest_v1"
  | .watchlistTracking => "watchlist_tracking_v1"
  | .catalystReview => "catalyst_review_v1"
  | .preopenNewsHot => "preopen_news_hot_v1"
  | .stPriceLimitChanged => "st_price_limit_changed_v1"
  | .attributionDaily => "attribution_daily_v1"
  | .g5bAttribution => "g5b_attribution_v1"
  | .intradayMarket => "intraday_market_v1"
  | .newsCatalyst => "news_catalyst_v1"
  | .blockTradeIntradayConfirm => "block_trade_intraday_confirm_v1"
  | .ipoCatalyst => "ipo_catalyst_v1"
  | .snapshotStale => "snapshot_stale_v1"
  | .limitBoards => "limit_boards_v1"
  | .dataMode => "data_mode_v1"
  | .auctionRepush => "auction_repush_v1"
  | .candidateInvalidated => "candidate_invalidated_v1"
  | .announcement => "announcement_v1"
  | .analystUpgrade => "analyst_upgrade_v1"
  | .newsToIdea => "news_to_idea_v1"
  | .auctionVolume => "auction_volume_v1"
  | .industryChainIntraday => "industry_chain_intraday_v1"
  | .newsFlashAggregated => "news_flash_aggregated_v1"
  | .paperSell => "paper_sell_v1"
  | .marketActionAlert => "market_action_alert_v1"
  | .accountMode => "account_mode_v1"
  | .candidateBoard => "candidate_board_v1"
  | .newsAiAnalysis => "news_ai_analysis_v1"

inductive DeliverySubKind where
  | none | factorIC | sectorTier | capitalVerify
deriving DecidableEq

def DeliverySubKind.asStr : DeliverySubKind → String
  | .none => "NONE"
  | .factorIC => "FactorIC"
  | .sectorTier => "SectorTier"
  | .capitalVerify => "CapitalVerify"

inductive CooldownScope where
  | global | perTicket
deriving DecidableEq

inductive WindowMode where
  | none | rolling | businessDateOnce
deriving DecidableEq

def WindowMode.asStr : WindowMode → String
  | .none => "None"
  | .rolling => "Rolling"
  | .businessDateOnce => "BusinessDateOnce"

structure PolicyRow where
  pushKind : PushKind
  subKind : DeliverySubKind
  cooldownScope : CooldownScope
  baseCooldownSecs : Option Int
  overrideCooldownSecs : Option Int
  windowMode : WindowMode
  countsAgainstDailyBudget : Bool
  policyVersion : Int
deriving DecidableEq

def PolicyRow.effectiveCooldownSecs (policy : PolicyRow) : Option Int :=
  policy.overrideCooldownSecs.or policy.baseCooldownSecs

/-! ## Envelopes -/

structure TaskBinding where
  taskIdentity : String
  transitionBasisCanonical : List UInt8
  transitionBasisSha256 : String
deriving DecidableEq

structure FoundationDeliveryBinding where
  schemaVersion : Int
  nameSpace : String
  applicationDecisionId : String
  intentId : String
  unitId : String
  occurrenceId : String
  businessDate : String
  subject : String
  deliverySubjectHash : String
  audience : String
  templateId : String
  templateVersion : String
  renderedSha256 : String
  sourceEvidenceFingerprint : String
  requiredChannel : String
deriving DecidableEq

structure DeliveryEnvelope where
  envelopeVersion : Int
  decisionIdentity : String
  businessDate : String
  pushKind : PushKind
  subKind : DeliverySubKind
  cooldownScope : CooldownScope
  scopeKey : String
  scheduleOccurrenceIdentity : String
  sourceEvidenceFingerprint : String
  sourceBindingCanonical : List UInt8
  sourceBindingSha256 : String
  deliverySubjectHash : String
  renderedContent : List UInt8
  renderedContentSha256 : String
  policyVersion : Int
  retryAuthorized : Bool
  providerObservedAt : Option String
  providerAsOf : Option String
  originalBatchIds : List String
  taskBinding : Option TaskBinding
  foundationBinding : Option FoundationDeliveryBinding
deriving DecidableEq

/-- What the decision identity of an unbound envelope is the digest of. -/
structure DecisionIdentityMaterial where
  policyVersion : Int
  businessDate : String
  pushKind : PushKind
  subKind : DeliverySubKind
  cooldownScope : CooldownScope
  scopeKey : String
  scheduleOccurrenceIdentity : String
  sourceEvidenceFingerprint : String
  deliverySubjectHash : String
  renderedContentSha256 : String

/-! ## Sink results -/

structure TypedReceipt where
  channel : String
  provider : String
  messageId : String
  platformMessageId : Option String
  acceptedAt : Instant
  latencyMs : Option Int
deriving DecidableEq

structure TypedRejection where
  reasonCode : String
  evidence : List UInt8
  retryAuthorized : Bool
  observedAt : Instant

structure TypedUncertainty where
  reasonCode : String
  evidence : List UInt8
  observedAt : Instant

inductive AuthoritativeSinkResult where
  | accepted (receipt : TypedReceipt)
  | rejected (rejection : TypedRejection)
  | uncertain (uncertainty : TypedUncertainty)

inductive SinkResultKind where
  | accepted | rejected | uncertain

def SinkResultKind.asStr : SinkResultKind → String
  | .accepted => "Accepted"
  | .rejected => "Rejected"
  | .uncertain => "Uncertain"

/-- `sink_result_kind`. -/
def AuthoritativeSinkResult.kind : AuthoritativeSinkResult → SinkResultKind
  | .accepted _ => .accepted
  | .rejected _ => .rejected
  | .uncertain _ => .uncertain

structure AuthoritativeDeliveryRequest where
  decisionIdentity : String
  attemptIdentity : String
  fenceToken : Nat
  pushKind : PushKind
  stableTemplateId : String
  renderedContent : List UInt8
  renderedContentSha256 : String

/-- The fence under which a sink is called, with what is sent to it. -/
structure AttemptLease where
  attemptIdentity : String
  fenceToken : Nat
  request : AuthoritativeDeliveryRequest

inductive ManualDisposition where
  | accepted (receipt : Option TypedReceipt)
  | rejected
deriving DecidableEq

structure ManualResolutionCommand where
  decisionIdentity : String
  disposition : ManualDisposition
  operatorIdentity : String
  reason : String
  externalEvidence : List UInt8
  resolvedAt : Instant

/-! ## States -/

inductive DecisionState where
  | reserved | attemptInFlight | acceptedAuditPending | acceptedTaskTransitionPending
  | delivered | rejectedAuditPending | rejectedTaskTransitionPending | rejectedDurable
  | uncertainAuditPending | uncertainTaskTransitionPending | uncertainManualReview
  | manualRejectedAuditPending | manualRejectedTaskTransitionPending | manualResolvedRejected
deriving DecidableEq

def DecisionState.asStr : DecisionState → String
  | .reserved => "Reserved"
  | .attemptInFlight => "AttemptInFlight"
  | .acceptedAuditPending => "AcceptedAuditPending"
  | .acceptedTaskTransitionPending => "AcceptedTaskTransitionPending"
  | .delivered => "Delivered"
  | .rejectedAuditPending => "RejectedAuditPending"
  | .rejectedTaskTransitionPending => "RejectedTaskTransitionPending"
  | .rejectedDurable => "RejectedDurable"
  | .uncertainAuditPending => "UncertainAuditPending"
  | .uncertainTaskTransitionPending => "UncertainTaskTransitionPending"
  | .uncertainManualReview => "UncertainManualReview"
  | .manualRejectedAuditPending => "ManualRejectedAuditPending"
  | .manualRejectedTaskTransitionPending => "ManualRejectedTaskTransitionPending"
  | .manualResolvedRejected => "ManualResolvedRejected"

/-- The states of a budget slot, a cooldown reservation and a cooldown head. -/
inductive ReservationState where
  | reserved | accepted | uncertain | released
deriving DecidableEq

def ReservationState.asStr : ReservationState → String
  | .reserved => "Reserved"
  | .accepted => "Accepted"
  | .uncertain => "Uncertain"
  | .released => "Released"

/-- A reservation counts until it is released. -/
def ReservationState.isActive : ReservationState → Bool
  | .reserved | .accepted | .uncertain => true
  | .released => false

inductive AttemptState where
  | attemptInFlight | accepted | rejected | uncertain
deriving DecidableEq

inductive AppendState where
  | pending | appended
deriving DecidableEq

inductive Disposition where
  | accepted | rejected | uncertain | manualAccepted | manualRejected
deriving DecidableEq

def Disposition.asStr : Disposition → String
  | .accepted => "Accepted"
  | .rejected => "Rejected"
  | .uncertain => "Uncertain"
  | .manualAccepted => "ManualAccepted"
  | .manualRejected => "ManualRejected"

/-- The audit kinds that the modelled transactions queue. -/
inductive AuditKind where
  | decisionStateChanged | leaseGranted | leaseHeartbeat | fenceRevoked | recoveryClassified
  | sinkResultAuthorityClassified | lateReceiptObserved | budgetReservationChanged
  | cooldownReservationChanged | businessDateOnceClaimed | decisionIdentityConflict

def AuditKind.asStr : AuditKind → String
  | .decisionStateChanged => "DecisionStateChanged"
  | .leaseGranted => "LeaseGranted"
  | .leaseHeartbeat => "LeaseHeartbeat"
  | .fenceRevoked => "FenceRevoked"
  | .recoveryClassified => "RecoveryClassified"
  | .sinkResultAuthorityClassified => "SinkResultAuthorityClassified"
  | .lateReceiptObserved => "LateReceiptObserved"
  | .budgetReservationChanged => "BudgetReservationChanged"
  | .cooldownReservationChanged => "CooldownReservationChanged"
  | .businessDateOnceClaimed => "BusinessDateOnceClaimed"
  | .decisionIdentityConflict => "DecisionIdentityConflict"

/-! ## Evidence -/

/-- A value of a canonical JSON object. Times are stored timestamps. -/
inductive Field where
  | text (value : String)
  | number (value : Int)
  | flag (value : Bool)
  | time (millis : Int)
  | null
  | receipt (value : TypedReceipt)
  | rejection (value : TypedRejection)
  | uncertainty (value : TypedUncertainty)

def Field.optional : Option String → Field
  | some value => .text value
  | none => .null

abbrev Canonical := List (String × Field)

/-- `timestamp`: the instant as it is stored, to the millisecond. -/
def timestamp (at_ : Instant) : Int :=
  at_ / 1000000

/-- `parse_timestamp`: the instant of a stored timestamp. -/
def parseTimestamp (millis : Int) : Instant :=
  millis * 1000000

/-- `value + Duration::seconds(seconds)`. -/
def addSeconds (at_ : Instant) (seconds : Int) : Instant :=
  at_ + seconds * 1000000000

inductive DeliveryError where
  | invalidEnvelope (reason : String)
  | policyMismatch (reason : String)
  | decisionIdentityConflict (decisionIdentity : String)
  | decisionNotFound (identity : String)
  | illegalTransition (source target : String)
  | invalidManualResolution (reason : String)
  | immutableAppendConflict (identity : String)
  | auditPredecessorBlocked
  | isolationViolation (reason : String)
  | invalidConfiguration (reason : String)
  /-- A primary key or unique constraint of the table. -/
  | constraint (table : String)
  | queryReturnedNoRows
deriving DecidableEq

abbrev Outcome (α : Type) := Except DeliveryError α

/-- Digests and readers outside the model. -/
structure Host where
  stableIdentity : String → List String → String
  /-- `sha256_hex` of canonical JSON. -/
  sha256 : Canonical → String
  sha256Bytes : List UInt8 → String
  /-- `sha256_hex` of the serialized envelope. -/
  envelopeSha256 : DeliveryEnvelope → String
  receiptSha256 : TypedReceipt → String
  /-- `sha256_hex` of the serialized material with the domain of decisions. -/
  decisionIdentity : DecisionIdentityMaterial → String
  validBusinessDate : String → Bool
  /-- `holding_plan::validate_fresh_envelope`. -/
  validateFreshEnvelope : DeliveryEnvelope → Except String Unit
  /-- `candidate_board::validate_candidate_board_source`. -/
  validateCandidateBoardSource : DeliveryEnvelope → Except String Unit

/-- An answer from outside the model; a refusal is a policy mismatch. -/
def passGate {α : Type} : Except String α → Outcome α
  | .ok value => .ok value
  | .error reason => .error (.policyMismatch reason)

/-- What the parts outside the model (mutation routes and date fences, the tables of P-05, G5b and
holding plans) answer to one transaction. -/
structure Gates where
  /-- The route and everything that is checked before the operation. -/
  routed : Except String Unit
  /-- `holding_plan::load_strict_owner`. -/
  strictOwner : Except String (Option String)
  /-- `validate_new_prepare`, and the restrictions of the retained schema. -/
  newPrepare : Except String Unit
  /-- `require_business_open_declared_tx`. -/
  businessOpen : Except String Unit
  /-- `validate_delivered_transition_evidence`. -/
  delivered : Except String Unit
  /-- Everything that is checked between the operation and the commit. -/
  committed : Except String Unit

/-- A transaction between the checks around it. -/
def Gates.around {α : Type} (gates : Gates) (operation : Outcome α) : Outcome α := do
  passGate gates.routed
  let result ← operation
  passGate gates.committed
  pure result

/-- Every gate is open, and no other decision owns the occurrence. -/
def Gates.open : Gates :=
  ⟨.ok (), .ok none, .ok (), .ok (), .ok (), .ok ()⟩

/-! ## Tables -/

structure Decision where
  envelope : DeliveryEnvelope
  envelopeSha256 : String
  state : DecisionState
  reservationGeneration : Nat
  currentBudgetReservation : Option String
  currentCooldownReservation : Option String
  currentAttempt : Option String
  currentDisposition : Option String
  fenceGeneration : Nat
  retryAuthorized : Bool

def Decision.identity (decision : Decision) : String :=
  decision.envelope.decisionIdentity

def Decision.taskBindingPresent (decision : Decision) : Bool :=
  decision.envelope.taskBinding.isSome

structure BudgetReservation where
  identity : String
  decision : String
  generation : Nat
  attempt : Option String
  businessDate : String
  slotNo : Nat
  reservedAt : Int
  acceptedAt : Option Int
  releasedAt : Option Int
  state : ReservationState

/-- What a rolling cooldown is counted for. -/
structure Scope where
  pushKind : PushKind
  subKind : DeliverySubKind
  cooldownScope : CooldownScope
  scopeKey : String
deriving DecidableEq

def DeliveryEnvelope.scope (envelope : DeliveryEnvelope) : Scope :=
  ⟨envelope.pushKind, envelope.subKind, envelope.cooldownScope, envelope.scopeKey⟩

structure CooldownReservation where
  identity : String
  decision : String
  generation : Nat
  attempt : Option String
  businessDate : String
  scope : Scope
  policyVersion : Int
  effectiveCooldownSecs : Option Int
  windowMode : WindowMode
  reservedAt : Int
  acceptedAt : Option Int
  blockedUntil : Option Int
  releasedAt : Option Int
  state : ReservationState

structure CooldownHead where
  scope : Scope
  currentReservation : String
  state : ReservationState
  blockedUntil : Option Int
  version : Nat

/-- What is claimed once for a business date. -/
structure ClaimKey where
  businessDate : String
  pushKind : PushKind
  subKind : DeliverySubKind
  scopeKey : String
deriving DecidableEq

def DeliveryEnvelope.claimKey (envelope : DeliveryEnvelope) : ClaimKey :=
  ⟨envelope.businessDate, envelope.pushKind, envelope.subKind, envelope.scopeKey⟩

structure BusinessDateClaim where
  key : ClaimKey
  decision : String
  policyVersion : Int
  claimedAt : Int
  auditIdentity : String

structure Attempt where
  identity : String
  decision : String
  attemptNo : Nat
  owner : String
  fenceToken : Nat
  leaseExpiresAt : Int
  leaseHeartbeatAt : Int
  fenceRevokedAt : Option Int
  state : AttemptState
  startedAt : Int

structure SinkResult where
  identity : String
  attempt : String
  decision : String
  kind : SinkResultKind
  observedAt : Int
  fenceToken : Nat
  authoritativeForState : Bool
  lateAfterFence : Bool
  authorityAudit : String
  lateReceiptAudit : Option String
  canonical : Canonical
  sha256 : String
  receipt : Option TypedReceipt
  frozenDeliveryAudit : Option Canonical
  frozenDeliveryAuditSha256 : Option String
  deliveryAuditRef : Option String

structure Audit where
  identity : String
  decision : String
  attempt : Option String
  kind : AuditKind
  predecessor : Option String
  canonical : Canonical
  sha256 : String
  appendState : AppendState
  immutableRef : Option String
  createdAt : Int

structure StateEvent where
  identity : String
  decision : String
  fromState : Option DecisionState
  toState : DecisionState
  actor : String
  operatorIdentity : Option String
  evidence : Canonical
  evidenceSha256 : String
  auditIdentity : String

structure AttemptEvent where
  identity : String
  attempt : String
  decision : String
  kind : AuditKind
  canonical : Canonical
  sha256 : String
  auditIdentity : String

/-- An event of a budget slot or a cooldown reservation. -/
structure ReservationEvent where
  identity : String
  reservation : String
  decision : String
  fromState : Option ReservationState
  toState : ReservationState
  canonical : Canonical
  sha256 : String
  auditIdentity : String

structure DispositionPayload where
  identity : String
  decision : String
  attempt : Option String
  resolution : Option String
  denial : Option String
  disposition : Disposition
  canonical : Canonical
  sha256 : String
  appendState : AppendState
  immutableRef : Option String
  createdAt : Int

structure TaskTransition where
  identity : String
  decision : String
  disposition : String
  taskBindingSha256 : String
  canonical : Canonical
  sha256 : String
  appendState : AppendState
  immutableRef : Option String

structure ManualResolution where
  identity : String
  decision : String
  attempt : String
  accepted : Bool
  operatorIdentity : String
  reason : String
  evidence : List UInt8
  evidenceSha256 : String
  receipt : Option TypedReceipt
  frozenDeliveryAudit : Option Canonical
  frozenDeliveryAuditSha256 : Option String
  immutableRef : String
  acceptedAuditIdentity : Option String
  acceptedAuditState : Option AppendState
  acceptedAuditRef : Option String
  resolvedAt : Int

/-- The reservations of all decisions. -/
structure Reservations where
  budgets : Table BudgetReservation.identity
  cooldowns : Table CooldownReservation.identity
  heads : Table CooldownHead.scope
  claims : Table BusinessDateClaim.key

/-- Audits, events and frozen payloads: what is written besides the state. -/
structure Journal where
  outbox : Table Audit.identity
  stateEvents : Table StateEvent.identity
  attemptEvents : Table AttemptEvent.identity
  budgetEvents : Table ReservationEvent.identity
  cooldownEvents : Table ReservationEvent.identity
  dispositions : Table DispositionPayload.identity
  transitions : Table TaskTransition.identity
  resolutions : Table ManualResolution.identity

structure Store where
  decisions : Table Decision.identity
  attempts : Table Attempt.identity
  sinkResults : Table SinkResult.identity
  reservations : Reservations
  journal : Journal

def Store.empty : Store where
  decisions := .empty
  attempts := .empty
  sinkResults := .empty
  reservations := ⟨.empty, .empty, .empty, .empty⟩
  journal := ⟨.empty, .empty, .empty, .empty, .empty, .empty, .empty, .empty⟩

end StockAnalysis.Delivery
