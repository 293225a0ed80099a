import StockAnalysis.Foundation.Outcome
import StockAnalysis.Foundation.Table
import StockAnalysis.Foundation.Values

/-!
# Data of the push intent store

The records of `push_foundation/intent_store.rs` and the two tables of
`push-system-foundation.v1.sql` that it writes. An intent is a message that a job decided to send,
or decided not to; its row is the head of a chain of transitions, each of which names the version
it replaces. A transition may also take, keep or give back the lease on the intent.

A column whose writers only store a value of an enumeration has that enumeration as its type.
Instants are microseconds. Digests are functions of the host, and so is the calendar.
-/

namespace StockAnalysis.Intents

inductive IntentStoreError where
  | invalidInitialIntent (check : String)
  | invalidTransition (check : String)
  | intentMissing
  | immutableConflict (intentId : String)
  | storageFailed (operation : String)
  | integrityFailed (check : String)

abbrev Outcome (α : Type) := Except IntentStoreError α

/-- `integrity`. -/
def integrity (check : String) : IntentStoreError :=
  .integrityFailed check

def i64Max : Nat := 9223372036854775807

def u64Max : Nat := 18446744073709551615

/-! ## Texts -/

/-- The rule of `validate_text`: one to 512 bytes, trimmed, no NUL. -/
def validText (value : String) : Bool :=
  value ≠ "" && value.utf8ByteSize ≤ 512 && !value.toList.contains (Char.ofNat 0) &&
    !value.toList.head?.any isWhitespace && !value.toList.getLast?.any isWhitespace

/-- A text that passed the rule: `TransitionActor`, `LeaseOwnerId` and the other text ids. -/
structure Text where
  value : String
  valid : validText value = true
deriving DecidableEq

@[ext]
theorem Text.ext {first second : Text} (same : first.value = second.value) : first = second := by
  cases first
  cases second
  simp_all

/-- The text id of a value, when the value passes the rule. -/
def Text.tryNew (value : String) (error : IntentStoreError) : Outcome Text :=
  if valid : validText value = true then .ok ⟨value, valid⟩ else .error error

theorem Text.tryNew_value (text : Text) (error : IntentStoreError) :
    Text.tryNew text.value error = .ok text := by
  simp [Text.tryNew, text.valid]

inductive Namespace where
  | production
  | test (runId : Text)
deriving DecidableEq

inductive SubjectId where
  | global
  | entity (value : Text)
deriving DecidableEq

/-! ## States and reasons -/

inductive InitialDecisionKind where
  | ready | noData | disabled
deriving DecidableEq

inductive IntentState where
  | pendingDispatch | awaitingAuthority | awaitingFinalizer | completed | notDelivered | noData
  | disabled | resolutionRequired
deriving DecidableEq

inductive ReasonCode where
  | scheduleNotTradingDay | scheduleWindowNotOpen | scheduleWindowExpired
  | scheduleOccurrenceClosed | scheduleOccurrenceConflict | scheduleWindowOpen | scheduleDeferred
  | inputSourceRecovered | activationReady | inputSourceUnavailable | inputSourceUnready
  | inputEvidenceInvalid | inputNoVerifiedBatch | inputAccountSnapshotMissing
  | inputNamespaceViolation | policyDisabled | policyStarved | policyOptInDisabled
  | policyCooldownActive | policyDailyBudgetFull | policySuppressed | intentPayloadConflict
  | intentExpectedVersionConflict | intentLeaseHeld | intentTransitionConflict
  | transportRejected | transportUncertain | transportNoChannelConfigured
  | transportAllChannelsFailed | transportPartiallyAccepted | finalizerTerminalRefInvalid
  | finalizerBindingMismatch | finalizerCasConflict | finalizerDeadlineExceeded
  | finalizerTransitionAppendFailed | activationManifestMismatch | activationGenerationConflict
  | activationOwnerConflict | activationCoreUnready | activationProducerUnready
  | shadowSemanticDiff | shadowSideEffectAttempted | operatorNotDelivered | operatorUnauthorized
  | operatorEvidenceInvalid | operatorResolutionConflict | intentCreated | intentNoData
  | intentDispatchClaimed | intentAuthorityVerified | finalizerCompleted | activationApplied
deriving DecidableEq

inductive TerminalDisposition where
  | accepted | rejected | uncertain | manualConfirmedAccepted | manualConfirmedNotDelivered
deriving DecidableEq

def InitialDecisionKind.initialState : InitialDecisionKind → IntentState
  | .ready => .pendingDispatch
  | .noData => .noData
  | .disabled => .disabled

def InitialDecisionKind.initialReason : InitialDecisionKind → ReasonCode
  | .ready => .intentCreated
  | .noData => .intentNoData
  | .disabled => .policyDisabled

def nonterminalEdgeAllowed (source target : IntentState) (reason : ReasonCode) : Bool :=
  if source = target then
    source ∈ [.pendingDispatch, .awaitingAuthority, .awaitingFinalizer, .resolutionRequired] &&
        reason ∈ [ReasonCode.intentLeaseHeld, .intentDispatchClaimed] ||
      source = .awaitingAuthority &&
        reason ∈ [ReasonCode.transportRejected, .finalizerTerminalRefInvalid] ||
      source = .awaitingFinalizer && reason = .finalizerTerminalRefInvalid
  else
    source = .pendingDispatch && target = .awaitingAuthority && reason = .intentDispatchClaimed ||
      source = .pendingDispatch && target = .noData && reason = .intentNoData ||
      source = .pendingDispatch && target = .disabled && reason = .policyDisabled ||
      source ∈ [.pendingDispatch, .awaitingAuthority, .awaitingFinalizer, .completed, .noData,
          .disabled] && target = .resolutionRequired &&
        reason ∈ [ReasonCode.intentPayloadConflict, .intentExpectedVersionConflict,
          .finalizerCasConflict] ||
      source ∈ [.awaitingAuthority, .awaitingFinalizer] && target = .resolutionRequired &&
        reason ∈ [ReasonCode.transportUncertain, .operatorResolutionConflict]

def persistedEdgeReasonAllowed (source target : IntentState) (reason : ReasonCode) : Bool :=
  nonterminalEdgeAllowed source target reason ||
    (source ∈ [.awaitingAuthority, .resolutionRequired] && target = .awaitingFinalizer &&
        reason = .intentAuthorityVerified ||
      source = .awaitingFinalizer && target = .completed && reason = .finalizerCompleted ||
      source ∈ [.awaitingAuthority, .resolutionRequired] && target = .notDelivered &&
        reason = .operatorNotDelivered)

/-! ## Transitions -/

structure TerminalTransitionFields where
  terminalDisposition : Option TerminalDisposition
  terminalDecisionId : Option String
  operatorAuditRef : Option String
  operatorAuditSha256 : Option String
  terminalRefId : Option String
  terminalBindingSha256 : Option String
deriving DecidableEq

/-- `TerminalTransitionFields::default`. -/
def TerminalTransitionFields.none : TerminalTransitionFields :=
  ⟨.none, .none, .none, .none, .none, .none⟩

inductive LeaseAction where
  | preserve
  | acquire (owner : Text) (until_ : Nat)
  | release (owner : Text)
deriving DecidableEq

structure ExpectedLeaseFence where
  owner : Text
  generation : Nat
  until_ : Nat

structure StoreTransitionCommand where
  intentId : String
  fromState : IntentState
  toState : IntentState
  expectedVersion : Nat
  actor : Text
  reason : ReasonCode
  occurredAt : Nat
  leaseAction : LeaseAction
  requiredFence : Option ExpectedLeaseFence
  terminal : TerminalTransitionFields

/-- A transition without the digest over it. -/
structure TransitionBody where
  eventId : String
  intentId : String
  fromState : IntentState
  toState : IntentState
  expectedVersion : Nat
  resultVersion : Nat
  previousSha256 : Option String
  actor : String
  reason : ReasonCode
  terminal : TerminalTransitionFields
  occurredAt : Nat
deriving DecidableEq

structure TransitionReceipt extends TransitionBody where
  canonicalSha256 : String
deriving DecidableEq

/-! ## Intents -/

structure OccurrenceIdentityMaterial where
  businessDate : String
  occurrenceFamily : Text
  occurrenceKey : Text

structure InitialIntentIdentity where
  namespace_ : Namespace
  unitId : Text
  occurrence : OccurrenceIdentityMaterial
  completionOwner : Text
  sourceContractId : Text
  subject : SubjectId
  audience : Text

structure IntentIdentityMaterial where
  namespace_ : Namespace
  unitId : Text
  completionOwner : Text
  sourceContractId : Text
  occurrence : String
  subject : SubjectId
  audience : Text

/-- What a prepared push contributes to its intent. -/
structure PreparedPush where
  intentId : String
  decisionId : String
  unitId : Text
  occurrence : String
  subject : SubjectId
  sourceContractId : Text
  evidenceFingerprint : String
  canonicalSnapshotBytes : List UInt8
  renderedBytes : List UInt8

/-- The columns of an intent that no transition changes. -/
structure IntentContent where
  intentId : String
  decisionKind : InitialDecisionKind
  namespace_ : String
  unitId : String
  occurrenceFamily : String
  occurrenceKey : String
  completionOwner : String
  sourceContractId : String
  subject : String
  audience : String
  durableDecisionId : String
  businessDate : String
  preparedPushBytes : Option (List UInt8)
  renderedBytes : Option (List UInt8)
  payloadSha256 : Option String
  renderedSha256 : Option String
  evidenceSha256 : String
  templateSha256 : String
  sourceContractSha256 : String
  createdAt : Nat
deriving DecidableEq

structure IntentSnapshot extends IntentContent where
  state : IntentState
  previousState : Option IntentState
  reason : ReasonCode
  leaseOwner : Option String
  leaseUntil : Option Nat
  leaseGeneration : Nat
  version : Nat
  updatedAt : Nat
deriving DecidableEq

/-- The immutable material of a new intent with the state in which it starts. -/
structure InitialIntentDraft extends IntentContent where
  state : IntentState
  reason : ReasonCode

inductive InitialIntentOutcome where
  | inserted (snapshot : IntentSnapshot)
  | existingIdentical (snapshot : IntentSnapshot)

inductive TransitionOutcome where
  | applied (receipt : TransitionReceipt)
  | alreadyCommitted (receipt : TransitionReceipt)
  | conflict (current : IntentSnapshot)

/-! ## Terminal authorities -/

inductive AuthorityClass where
  | genericCounted | p01Dedicated | n02Dedicated
deriving DecidableEq

inductive AuthorityAttemptBinding where
  | attempt (attemptId : Text)
  | validatedPreAttemptRejection
  | validatedManualWithoutAttempt

structure AuthorityTerminalRecord where
  refId : Text
  authorityClass : AuthorityClass
  namespace_ : Namespace
  decisionId : String
  attemptBinding : AuthorityAttemptBinding
  intentId : String
  unitId : Text
  occurrence : String
  businessDate : String
  subject : SubjectId
  audience : Text
  templateId : Text
  templateVersion : Text
  renderedSha256 : String
  terminalDisposition : TerminalDisposition
  evidenceBytes : List UInt8
  evidenceSha256 : String
  durableSchemaVersion : Text
  bindingSha256 : String

/-- Digests and calendar outside the model. -/
structure Host where
  deriveOccurrenceId : OccurrenceIdentityMaterial → String
  deriveIntentId : IntentIdentityMaterial → String
  deriveDecisionId : String → String
  digest : List UInt8 → String
  transitionEventId : String → Nat → Nat → String
  transitionCanonicalSha256 : TransitionBody → String
  terminalBindingSha256 : AuthorityTerminalRecord → String
  /-- `BusinessDate::parse` accepts the text. -/
  businessDate : String → Bool
  /-- The check of the column `business_date` accepts the text. -/
  storedBusinessDate : String → Bool

/-- The tables `push_intents` and `push_intent_transitions`. -/
structure Store where
  intents : Table (fun row : IntentSnapshot => row.intentId)
  transitions : Table (fun row : TransitionReceipt => row.eventId)

def Store.empty : Store :=
  ⟨.empty, .empty⟩

end StockAnalysis.Intents
