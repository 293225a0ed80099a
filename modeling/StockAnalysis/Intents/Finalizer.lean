import StockAnalysis.Intents.Steps

/-!
# The callers of the push intent store

The functions of `BusinessIntentStore` that build a transition, and what the reconciler and the
finalizer hand to them. A snapshot comes from an earlier look at the store. A terminal reference
comes from `verify_terminal`, which binds it to such a snapshot. A finalization as not delivered is
only asked for when `not_delivered_history_eligible` holds of a snapshot and a chain that was read
after it. Everything may change between the look and the call.
-/

namespace StockAnalysis.Intents

variable (host : Host) (snapshot : IntentSnapshot)

/-! ## Terminal references -/

/-- What an authority's record is compared with. -/
structure AttestedReadyIntent where
  identity : InitialIntentIdentity
  intentId : String
  decisionId : String
  occurrence : String
  templateSha256 : String
  renderedSha256 : String

/-- `IntentSnapshot::attested_ready_binding`. -/
def IntentSnapshot.attestedReadyBinding : Outcome AttestedReadyIntent := do
  verifySnapshot host snapshot
  require (snapshot.decisionKind = .ready) (integrity "terminal_binding_requires_ready")
  let identity ← snapshot.toIntentContent.identity host
  let renderedSha256 ← okOr snapshot.renderedSha256 (integrity "ready_rendered_sha256")
  let intentId := identity.intentId host
  pure
    { identity := identity
      intentId := intentId
      decisionId := host.deriveDecisionId intentId
      occurrence := host.deriveOccurrenceId identity.occurrence
      templateSha256 := snapshot.templateSha256
      renderedSha256 := renderedSha256 }

structure TerminalTemplateBinding where
  templateId : Text
  templateVersion : Text
  sha256 : String

/-- The part of a completion policy that the verification reads. -/
structure CompletionPolicy where
  unitId : Text
  completionOwner : Text
  allowsAuthority : AuthorityClass → Bool

inductive AuthorityQuery where
  | unavailable
  | missing
  | pendingSeal
  | terminal (record : AuthorityTerminalRecord)

structure TerminalAuthorityPort where
  authorityClass : AuthorityClass
  durableSchemaVersion : Text
  requeryTerminal : String → AuthorityQuery

inductive TerminalAuthorityError where
  | intentSnapshotInvalid
  | templateBindingMismatch
  | completionPolicyMismatch (field : String)
  | authorityNotAllowed
  | authorityUnavailable
  | terminalMissing
  | terminalPendingSeal
  | authorityDescriptorMismatch (field : String)
  | bindingMismatch (field : String)
  | evidenceHashMismatch
  | evidenceMissing
  | terminalBindingHashMismatch
  | dispositionAttemptMismatch

/-- The fields of `VerifiedTerminalRef` that the store writes. -/
structure VerifiedTerminalRef where
  refId : Text
  decisionId : String
  intentId : String
  terminalDisposition : TerminalDisposition
  bindingSha256 : String

variable (terminal : VerifiedTerminalRef)

/-- The record the authority holds for a decision, if it is sealed. -/
def AuthorityQuery.record : AuthorityQuery → Except TerminalAuthorityError AuthorityTerminalRecord
  | .unavailable => .error .authorityUnavailable
  | .missing => .error .terminalMissing
  | .pendingSeal => .error .terminalPendingSeal
  | .terminal record => .ok record

/-- `check_binding`. -/
def checkBinding {α : Type} [DecidableEq α] (field : String) (actual expected : α) :
    Except TerminalAuthorityError Unit :=
  require (actual = expected) (.bindingMismatch field)

/-- The disposition is one that an attempt, or its absence, can have. -/
def AuthorityTerminalRecord.attemptFits (record : AuthorityTerminalRecord) : Bool :=
  match record.attemptBinding with
  | .attempt _ => true
  | .validatedPreAttemptRejection => record.terminalDisposition = .rejected
  | .validatedManualWithoutAttempt => record.terminalDisposition ∈
      [TerminalDisposition.manualConfirmedAccepted, .manualConfirmedNotDelivered]

/-- The bindings of a record to the attested intent and to the template. -/
def checkBindings (record : AuthorityTerminalRecord) (expected : AttestedReadyIntent)
    (template : TerminalTemplateBinding) : Except TerminalAuthorityError Unit := do
  checkBinding "namespace" record.namespace_ expected.identity.namespace_
  checkBinding "decision_id" record.decisionId expected.decisionId
  checkBinding "intent_id" record.intentId expected.intentId
  checkBinding "unit_id" record.unitId expected.identity.unitId
  checkBinding "occurrence" record.occurrence expected.occurrence
  checkBinding "business_date" record.businessDate expected.identity.occurrence.businessDate
  checkBinding "subject" record.subject expected.identity.subject
  checkBinding "audience" record.audience expected.identity.audience
  checkBinding "template_id" record.templateId template.templateId
  checkBinding "template_version" record.templateVersion template.templateVersion
  checkBinding "rendered_sha256" record.renderedSha256 expected.renderedSha256

/-- The attested binding, with the error that the verification gives when there is none. -/
def attested : Except TerminalAuthorityError AttestedReadyIntent :=
  match snapshot.attestedReadyBinding host with
  | .ok expected => .ok expected
  | .error _ => .error .intentSnapshotInvalid

def verifyTerminal (template : TerminalTemplateBinding) (policy : CompletionPolicy)
    (authority : TerminalAuthorityPort) : Except TerminalAuthorityError VerifiedTerminalRef := do
  let expected ← attested host snapshot
  require (template.sha256 = expected.templateSha256) .templateBindingMismatch
  require (policy.unitId = expected.identity.unitId) (.completionPolicyMismatch "unit_id")
  require (policy.completionOwner = expected.identity.completionOwner)
    (.completionPolicyMismatch "completion_owner")
  require (policy.allowsAuthority authority.authorityClass = true) .authorityNotAllowed
  let record ← (authority.requeryTerminal expected.decisionId).record
  require (record.authorityClass = authority.authorityClass)
    (.authorityDescriptorMismatch "authority_class")
  require (record.durableSchemaVersion = authority.durableSchemaVersion)
    (.authorityDescriptorMismatch "durable_schema_version")
  checkBindings record expected template
  require (record.evidenceBytes ≠ []) .evidenceMissing
  require (host.digest record.evidenceBytes = record.evidenceSha256) .evidenceHashMismatch
  require (record.attemptFits = true) .dispositionAttemptMismatch
  require (host.terminalBindingSha256 record = record.bindingSha256) .terminalBindingHashMismatch
  pure
    { refId := record.refId
      decisionId := record.decisionId
      intentId := record.intentId
      terminalDisposition := record.terminalDisposition
      bindingSha256 := host.terminalBindingSha256 record }

/-! ## The functions that build a transition -/

/-- A call of the store that asks for a transition. -/
inductive Call where
  | nonterminal (request : IntentTransitionCommand)
  | claimRecoveryLease (current : IntentSnapshot) (owner : Text) (until_ : Nat) (actor : Text)
      (occurredAt : Nat)
  | recoveryObservation (current : IntentSnapshot) (toState : IntentState) (reason : ReasonCode)
      (actor : Text) (occurredAt : Nat) (fence : ExpectedLeaseFence)
  | authorityQualification (terminal : VerifiedTerminalRef) (fromState : IntentState)
      (expectedVersion : Nat) (actor : Text) (occurredAt : Nat) (fence : ExpectedLeaseFence)
  | terminalRefInvalid (intentId : String) (expectedVersion : Nat) (actor : Text)
      (occurredAt : Nat) (fence : ExpectedLeaseFence)
  | acceptedFinalization (terminal : VerifiedTerminalRef) (expectedVersion : Nat) (actor : Text)
      (occurredAt : Nat) (fence : ExpectedLeaseFence)
  | notDeliveredFinalization (terminal : VerifiedTerminalRef) (fromState : IntentState)
      (expectedVersion : Nat) (actor : Text) (occurredAt : Nat) (fence : ExpectedLeaseFence)
      (operatorAuditRef operatorAuditSha256 : String)
  | finalizerConflict (intentId : String) (current : IntentSnapshot) (actor : Text)
      (occurredAt : Nat)

/-- `claim_recovery_lease`. -/
def claimRecoveryLease (current : IntentSnapshot) (owner : Text) (until_ : Nat) (actor : Text)
    (occurredAt : Nat) : Outcome StoreTransitionCommand := do
  require (current.state ∈
      [IntentState.pendingDispatch, .awaitingAuthority, .awaitingFinalizer])
    (.invalidTransition "recovery_lease_state")
  require (occurredAt < until_) (.invalidTransition "recovery_lease_until")
  require (current.leaseUntil.all (· ≤ occurredAt) = true)
    (.invalidTransition "recovery_lease_not_expired")
  let intent ← current.attestedReadyBinding host
  pure
    { intentId := intent.intentId
      fromState := current.state
      toState := current.state
      expectedVersion := current.version
      actor := actor
      reason := .intentDispatchClaimed
      occurredAt := occurredAt
      leaseAction := .acquire owner until_
      requiredFence := none
      terminal := .none }

/-- The edges that `apply_recovery_observation` takes. -/
def recoveryObservationEdge (source target : IntentState) (reason : ReasonCode) : Bool :=
  source = .awaitingAuthority && target = .awaitingAuthority &&
      reason ∈ [ReasonCode.transportRejected, .finalizerTerminalRefInvalid] ||
    source = .awaitingFinalizer && target = .awaitingFinalizer &&
      reason = .finalizerTerminalRefInvalid ||
    source ∈ [IntentState.awaitingAuthority, .awaitingFinalizer] &&
      target = .resolutionRequired &&
      reason ∈ [ReasonCode.transportUncertain, .operatorResolutionConflict]

/-- `apply_recovery_observation`. -/
def recoveryObservation (current : IntentSnapshot) (toState : IntentState) (reason : ReasonCode)
    (actor : Text) (occurredAt : Nat) (fence : ExpectedLeaseFence) :
    Outcome StoreTransitionCommand := do
  require (recoveryObservationEdge current.state toState reason = true)
    (.invalidTransition "recovery_observation_edge")
  let intent ← current.attestedReadyBinding host
  pure
    { intentId := intent.intentId
      fromState := current.state
      toState := toState
      expectedVersion := current.version
      actor := actor
      reason := reason
      occurredAt := occurredAt
      leaseAction := .preserve
      requiredFence := some fence
      terminal := .none }

/-- `apply_authority_qualification`. -/
def authorityQualification (fromState : IntentState) (expectedVersion : Nat) (actor : Text)
    (occurredAt : Nat) (fence : ExpectedLeaseFence) : Outcome StoreTransitionCommand := do
  require (fromState ∈ [IntentState.awaitingAuthority, .resolutionRequired])
    (.invalidTransition "authority_qualification_source_state")
  pure
    { intentId := terminal.intentId
      fromState := fromState
      toState := .awaitingFinalizer
      expectedVersion := expectedVersion
      actor := actor
      reason := .intentAuthorityVerified
      occurredAt := occurredAt
      leaseAction := .preserve
      requiredFence := some fence
      terminal := .none }

/-- `apply_terminal_ref_invalid`. -/
def terminalRefInvalid (intentId : String) (expectedVersion : Nat) (actor : Text)
    (occurredAt : Nat) (fence : ExpectedLeaseFence) : StoreTransitionCommand :=
  { intentId := intentId
    fromState := .awaitingFinalizer
    toState := .awaitingFinalizer
    expectedVersion := expectedVersion
    actor := actor
    reason := .finalizerTerminalRefInvalid
    occurredAt := occurredAt
    leaseAction := .preserve
    requiredFence := some fence
    terminal := .none }

/-- `accepted_finalization_command`. -/
def acceptedFinalization (expectedVersion : Nat) (actor : Text) (occurredAt : Nat)
    (fence : ExpectedLeaseFence) : Outcome StoreTransitionCommand := do
  require (terminal.terminalDisposition ∈
      [TerminalDisposition.accepted, .manualConfirmedAccepted])
    (.invalidTransition "accepted_finalizer_disposition")
  pure
    { intentId := terminal.intentId
      fromState := .awaitingFinalizer
      toState := .completed
      expectedVersion := expectedVersion
      actor := actor
      reason := .finalizerCompleted
      occurredAt := occurredAt
      leaseAction := .release fence.owner
      requiredFence := some fence
      terminal :=
        { TerminalTransitionFields.none with
          terminalDisposition := some terminal.terminalDisposition
          terminalRefId := some terminal.refId.value
          terminalBindingSha256 := some terminal.bindingSha256 } }

/-- `apply_not_delivered_finalization`. -/
def notDeliveredFinalization (fromState : IntentState) (expectedVersion : Nat) (actor : Text)
    (occurredAt : Nat) (fence : ExpectedLeaseFence)
    (operatorAuditRef operatorAuditSha256 : String) : Outcome StoreTransitionCommand := do
  require (terminal.terminalDisposition = .manualConfirmedNotDelivered)
    (.invalidTransition "not_delivered_finalizer_disposition")
  require (fromState ∈ [IntentState.awaitingAuthority, .resolutionRequired])
    (.invalidTransition "not_delivered_finalizer_source_state")
  require (validText operatorAuditRef = true) (.invalidTransition "operator_audit_ref")
  pure
    { intentId := terminal.intentId
      fromState := fromState
      toState := .notDelivered
      expectedVersion := expectedVersion
      actor := actor
      reason := .operatorNotDelivered
      occurredAt := occurredAt
      leaseAction := .release fence.owner
      requiredFence := some fence
      terminal :=
        { terminalDisposition := some .manualConfirmedNotDelivered
          terminalDecisionId := some terminal.decisionId
          operatorAuditRef := some operatorAuditRef
          operatorAuditSha256 := some operatorAuditSha256
          terminalRefId := some terminal.refId.value
          terminalBindingSha256 := some terminal.bindingSha256 } }

/-- `apply_finalizer_conflict`. -/
def finalizerConflict (intentId : String) (current : IntentSnapshot) (actor : Text)
    (occurredAt : Nat) : Outcome StoreTransitionCommand := do
  require (current.state ∈
      [IntentState.awaitingAuthority, .awaitingFinalizer, .completed])
    (.invalidTransition "finalizer_conflict_source_state")
  require (current.intentId = intentId) (integrity "finalizer_conflict_intent_id")
  pure
    { intentId := intentId
      fromState := current.state
      toState := .resolutionRequired
      expectedVersion := current.version
      actor := actor
      reason := .finalizerCasConflict
      occurredAt := occurredAt
      leaseAction := .preserve
      requiredFence := none
      terminal := .none }

/-- The command that the store makes of a call. -/
def Call.command : Call → Outcome StoreTransitionCommand
  | .nonterminal request => request.tryNew
  | .claimRecoveryLease current owner until_ actor occurredAt =>
    Intents.claimRecoveryLease host current owner until_ actor occurredAt
  | .recoveryObservation current toState reason actor occurredAt fence =>
    Intents.recoveryObservation host current toState reason actor occurredAt fence
  | .authorityQualification terminal fromState expectedVersion actor occurredAt fence =>
    Intents.authorityQualification terminal fromState expectedVersion actor occurredAt fence
  | .terminalRefInvalid intentId expectedVersion actor occurredAt fence =>
    .ok (Intents.terminalRefInvalid intentId expectedVersion actor occurredAt fence)
  | .acceptedFinalization terminal expectedVersion actor occurredAt fence =>
    Intents.acceptedFinalization terminal expectedVersion actor occurredAt fence
  | .notDeliveredFinalization terminal fromState expectedVersion actor occurredAt fence auditRef
      auditSha256 =>
    Intents.notDeliveredFinalization terminal fromState expectedVersion actor occurredAt fence
      auditRef auditSha256
  | .finalizerConflict intentId current actor occurredAt =>
    Intents.finalizerConflict intentId current actor occurredAt

/-- The fence under which a call asks for its transition. -/
def Call.fence? : Call → Option ExpectedLeaseFence
  | .recoveryObservation _ _ _ _ _ fence => some fence
  | .authorityQualification _ _ _ _ _ fence => some fence
  | .terminalRefInvalid _ _ _ _ fence => some fence
  | .acceptedFinalization _ _ _ _ fence => some fence
  | .notDeliveredFinalization _ _ _ _ _ fence _ _ => some fence
  | .nonterminal _ | .claimRecoveryLease .. | .finalizerConflict .. => none

/-! ## What the callers have read -/

/-- A snapshot and its chain from one look at the store. -/
structure Reading where
  snapshot : IntentSnapshot
  chain : List TransitionReceipt

def notDeliveredHistoryEligible (current : IntentSnapshot) (chain : List TransitionReceipt) :
    Bool :=
  if chain.any TransitionReceipt.acceptance then false
  else
    match current.state with
    | .awaitingAuthority => true
    | .resolutionRequired => (lastResolution chain).any TransitionReceipt.uncertain
    | _ => false

theorem notDeliveredHistoryEligible_iff {current : IntentSnapshot}
    {chain : List TransitionReceipt} :
    notDeliveredHistoryEligible current chain = true ↔
      chain.any TransitionReceipt.acceptance = false ∧
        eligibleOrigin chain current.state = true := by
  unfold notDeliveredHistoryEligible eligibleOrigin
  cases chain.any TransitionReceipt.acceptance <;> cases current.state <;> simp

/-- The terminal reference was verified against a snapshot that was read. -/
def VerifiedFor : Prop :=
  ∃ template policy authority, verifyTerminal host snapshot template policy authority =
    .ok terminal

/-- The caller could hold what the call hands over, given what was read so far. -/
def Call.Grounded (readings : List Reading) : Call → Prop
  | .nonterminal _ | .terminalRefInvalid .. => True
  | .claimRecoveryLease current .. | .recoveryObservation current .. |
    .finalizerConflict _ current .. => ∃ reading ∈ readings, reading.snapshot = current
  | .authorityQualification terminal .. | .acceptedFinalization terminal .. =>
    ∃ reading ∈ readings, VerifiedFor host reading.snapshot terminal
  | .notDeliveredFinalization terminal fromState expectedVersion .. =>
    ∃ current ∈ readings, ∃ later ∈ readings,
      later.snapshot.intentId = current.snapshot.intentId ∧
      current.snapshot.version ≤ later.snapshot.version ∧
      notDeliveredHistoryEligible current.snapshot later.chain = true ∧
      VerifiedFor host current.snapshot terminal ∧
      fromState = current.snapshot.state ∧ expectedVersion = current.snapshot.version

/-- The store with everything that was submitted and read. -/
structure Session where
  world : World
  readings : List Reading

def Session.initial : Session :=
  ⟨.initial, []⟩

inductive SessionAction where
  | record (request : DraftRequest)
  | read (intentId : String)
  | submit (timing : Timing) (call : Call)

/-- A look at an intent, when both parts of it succeed. -/
def readingOf (store : Store) (intentId : String) : Outcome Reading := do
  let snapshot ← inspect host store intentId
  let chain ← queryTransitionChain host store snapshot
  pure ⟨snapshot, chain⟩

def Session.step (host : Host) (session : Session) : SessionAction → Session
  | .record request => { session with world := session.world.step host (.record request) }
  | .read intentId =>
    match readingOf host session.world.store intentId with
    | .ok reading => { session with readings := session.readings ++ [reading] }
    | .error _ => session
  | .submit timing call =>
    match call.command host with
    | .ok command => { session with world := session.world.step host (.submit timing command) }
    | .error _ => session

def SessionAction.Grounded (host : Host) (session : Session) : SessionAction → Prop
  | .record _ | .read _ => True
  | .submit _ call => call.Grounded host session.readings

/-- Sessions whose callers only hand over what they could hold. -/
inductive Served (host : Host) : Session → Prop
  | initial : Served host .initial
  | step {session : Session} (served : Served host session) (action : SessionAction)
      (grounded : action.Grounded host session) : Served host (session.step host action)

variable {host : Host} {session : Session}

theorem Session.step_reached (reached : Reached host session.world) (action : SessionAction) :
    Reached host (session.step host action).world := by
  cases action with
  | record request => exact .step reached (.record request)
  | read intentId =>
    simp only [Session.step]
    split <;> exact reached
  | submit timing call =>
    simp only [Session.step]
    cases call.command host with
    | ok command => exact .step reached (.submit timing command)
    | error error => exact reached

theorem Served.reached (served : Served host session) :
    Reached host session.world := by
  induction served with
  | initial => exact .initial
  | step _ action _ ih => exact Session.step_reached ih action

end StockAnalysis.Intents
