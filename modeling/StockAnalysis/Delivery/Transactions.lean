import StockAnalysis.Delivery.Reservations

/-!
# Transactions of the coordinator

Every operation of `coordinator.rs` that writes is one immediate transaction, here a function from
the store to the store after the commit; an error rolls everything back. What settles a decision
(a denial before the sink, a sink result, an expired lease, a manual resolution) always freezes a
disposition, moves the reservations and then the state, so these three are one function.

A reconciliation is a loop over small transactions with reads between them. The transactions are
modelled, with what was read before as their arguments.
-/

namespace StockAnalysis.Delivery

variable (host : Host) (gates : Gates) (store : Store) (attempt : Attempt)
  (command : ManualResolutionCommand) (decision : Decision) (envelope : DeliveryEnvelope)

/-- What differs between the instances that work on one store. -/
structure Config where
  ownerInstanceIdentity : String
  attemptLeaseSecs : Int

/-! ## Rows of decisions -/

/-- `load_decision`, where the decision must exist. -/
def loadDecision (identity : String) : Outcome Decision :=
  okOr (store.decisions.get? identity) (.decisionNotFound identity)

def newDecision (state : DecisionState) : Decision :=
  { envelope := envelope
    envelopeSha256 := host.envelopeSha256 envelope
    state := state
    reservationGeneration := 0
    currentBudgetReservation := none
    currentCooldownReservation := none
    currentAttempt := none
    currentDisposition := none
    fenceGeneration := 0
    retryAuthorized := envelope.retryAuthorized }

def Decision.moved (state : DecisionState) : Decision :=
  { decision with state := state }

def Decision.attempting (attempt : String) (fenceToken : Nat) : Decision :=
  { decision with
    state := .attemptInFlight
    currentAttempt := some attempt
    fenceGeneration := fenceToken }

def Decision.refenced (fenceGeneration : Nat) : Decision :=
  { decision with fenceGeneration := fenceGeneration }

def Decision.authorized : Decision :=
  { decision with retryAuthorized := true }

theorem Decision.disposed_identity (disposition : String) (retryAuthorized : Bool)
    (decision : Decision) : (decision.disposed disposition retryAuthorized).identity =
      decision.identity :=
  rfl

theorem Decision.reserving_identity (number : Nat) (generation : Generation)
    (decision : Decision) : (decision.reserving number generation).identity = decision.identity :=
  rfl

theorem Decision.moved_identity (state : DecisionState) (decision : Decision) :
    (decision.moved state).identity = decision.identity :=
  rfl

theorem Decision.attempting_identity (attempt : String) (fenceToken : Nat) (decision : Decision) :
    (decision.attempting attempt fenceToken).identity = decision.identity :=
  rfl

theorem Decision.refenced_identity (fenceGeneration : Nat) (decision : Decision) :
    (decision.refenced fenceGeneration).identity = decision.identity :=
  rfl

theorem Decision.authorized_identity : decision.authorized.identity = decision.identity :=
  rfl

/-- The update of one decision. -/
def Store.amend (identity : String) (change : Decision → Decision)
    (keeps : ∀ decision, (change decision).identity = decision.identity) : Store :=
  { store with
    decisions := store.decisions.update (fun decision => decision.identity = identity) change keeps }

def legalTransition : DecisionState → DecisionState → Bool
  | .reserved, .attemptInFlight | .reserved, .rejectedAuditPending
  | .attemptInFlight, .acceptedAuditPending | .attemptInFlight, .rejectedAuditPending
  | .attemptInFlight, .uncertainAuditPending
  | .acceptedAuditPending, .acceptedTaskTransitionPending | .acceptedAuditPending, .delivered
  | .acceptedTaskTransitionPending, .delivered
  | .rejectedAuditPending, .rejectedTaskTransitionPending
  | .rejectedAuditPending, .rejectedDurable | .rejectedTaskTransitionPending, .rejectedDurable
  | .uncertainAuditPending, .uncertainTaskTransitionPending
  | .uncertainAuditPending, .uncertainManualReview
  | .uncertainTaskTransitionPending, .uncertainManualReview
  | .uncertainManualReview, .acceptedAuditPending
  | .uncertainManualReview, .manualRejectedAuditPending
  | .manualRejectedAuditPending, .manualRejectedTaskTransitionPending
  | .manualRejectedAuditPending, .manualResolvedRejected
  | .manualRejectedTaskTransitionPending, .manualResolvedRejected
  | .rejectedDurable, .reserved => true
  | _, _ => false

/-- The update of a decision that must still be in the state it was read in. The identity is the
primary key, so that at most one row changes. -/
def casDecision (identity : String) (fromState toState : DecisionState)
    (change : Decision → Decision)
    (keeps : ∀ decision, (change decision).identity = decision.identity) : Outcome Store := do
  require (∃ decision ∈ store.decisions.rows,
      decision.identity = identity ∧ decision.state = fromState)
    (.illegalTransition fromState.asStr toState.asStr)
  pure { store with
    decisions := store.decisions.update
      (fun decision => decision.identity = identity ∧ decision.state = fromState) change keeps }

def transitionExistingState (stored : Decision) (toState : DecisionState) (actor : String)
    (operatorIdentity : Option String) (evidence : Canonical) (occurredAt : Instant) :
    Outcome Store := do
  require (legalTransition stored.state toState = true)
    (.illegalTransition stored.state.asStr toState.asStr)
  let store ← casDecision store stored.identity stored.state toState
    (fun decision => decision.moved toState) (Decision.moved_identity toState)
  let journal ← recordStateTransition host store.journal stored.identity (some stored.state)
    toState actor operatorIdentity evidence occurredAt
  pure { store with journal := journal }

/-! ## Settling a decision -/

/-- How a decision is settled. -/
structure Settlement where
  source : DispositionSource
  disposition : Disposition
  evidenceSha256 : String
  retryAuthorized : Bool
  settledAt : Instant
  reservation : ReservationState
  acceptedAt : Option Instant
  target : DecisionState
  actor : String
  operatorIdentity : Option String
  evidence : Canonical
  occurredAt : Instant

/-- `freeze_disposition`. -/
def dispose (source : DispositionSource) (disposition : Disposition) (evidenceSha256 : String)
    (retryAuthorized : Bool) (createdAt : Instant) : Outcome Store := do
  let (identity, journal) ← freezeDisposition host store.journal envelope source disposition
    evidenceSha256 retryAuthorized createdAt
  pure (Store.amend { store with journal := journal } envelope.decisionIdentity
    (fun decision => decision.disposed identity retryAuthorized)
    (Decision.disposed_identity identity retryAuthorized))

/-- Freeze the disposition, move the reservations, move the state. -/
def settle (stored : Decision) (settlement : Settlement) : Outcome Store := do
  let store ← dispose host store stored.envelope settlement.source settlement.disposition
    settlement.evidenceSha256 settlement.retryAuthorized settlement.settledAt
  let (reservations, journal) ← mutateReservations host store.reservations store.journal stored
    settlement.reservation settlement.settledAt settlement.acceptedAt
  transitionExistingState host { store with reservations := reservations, journal := journal }
    stored settlement.target settlement.actor settlement.operatorIdentity settlement.evidence
    settlement.occurredAt

/-! ## Denials before the sink -/

def denialIdentity (decision envelopeSha256 : String) (policyVersion : Int)
    (denial : PrepareDenial) : String :=
  host.stableIdentity "delivery-pre-sink-denial-v1"
    [decision, envelopeSha256, toString policyVersion, denial.reasonCode,
      host.sha256 denial.evidence]

/-- `freeze_pre_sink_denial`. -/
def freezePreSinkDenial (policy : PolicyRow) (denial : PrepareDenial) (deniedAt : Instant) :
    Outcome Store := do
  let envelopeSha256 ← envelope.canonicalSha256 host
  dispose host store envelope
    ⟨none, none, some (denialIdentity host envelope.decisionIdentity envelopeSha256
      policy.policyVersion denial)⟩ .rejected (host.sha256 denial.evidence) false deniedAt

/-! ## Preparing a decision -/

inductive PrepareTransactionOutcome where
  | existing (decision : Decision)
  | identityConflict
  | inserted

/-- The decisions of the occurrence that an envelope belongs to. -/
def candidateBoardOccurrenceOwners : List String :=
  (store.decisions.rows.filter fun decision =>
    decision.envelope.claimKey = envelope.claimKey ∧
      decision.envelope.scheduleOccurrenceIdentity = envelope.scheduleOccurrenceIdentity).map
    Decision.identity

/-- The checks of a candidate board, whose occurrence has the given owners. -/
def requireOwners (owners : List String) (complaint : String) : Outcome Unit :=
  if envelope.pushKind = .candidateBoard then do
    passGate (host.validateCandidateBoardSource envelope)
    require (candidateBoardOccurrenceOwners store envelope = owners) (.policyMismatch complaint)
  else pure ()

/-- The other decision that owns the occurrence of a holding plan. -/
def strictOwner (host : Host) (gates : Gates) (envelope : DeliveryEnvelope) :
    Outcome (Option String) :=
  if envelope.pushKind = .holdingPlan then do
    passGate (host.validateFreshEnvelope envelope)
    let owner ← passGate gates.strictOwner
    pure (owner.filter fun identity => identity ≠ envelope.decisionIdentity)
  else pure none

/-- The envelope of a decision that exists already. -/
def prepareExisting (existing : Decision) (envelope : DeliveryEnvelope) (admissionAt : Instant) :
    Outcome (PrepareTransactionOutcome × Store) :=
  if existing.envelope = envelope ∧ existing.envelopeSha256 = host.envelopeSha256 envelope then do
    envelope.validate host
    requireOwners host store envelope [envelope.decisionIdentity]
      "P-05 exact occurrence has ambiguous counted owners"
    pure (.existing existing, store)
  else do
    let (_, journal) ← enqueueAudit host store.journal envelope.decisionIdentity none
      .decisionIdentityConflict
      [("decision_identity", .text envelope.decisionIdentity),
        ("stored_envelope_sha256", .text existing.envelopeSha256),
        ("incoming_envelope_sha256", .text (host.envelopeSha256 envelope))] admissionAt
    pure (.identityConflict, { store with journal := journal })

/-- The state and the first generation of a decision that is denied or admitted. -/
def PrepareDenial.initialState : Option PrepareDenial → DecisionState
  | some _ => .rejectedAuditPending
  | none => .reserved

def PrepareDenial.initialGeneration : Option PrepareDenial → Int
  | some _ => 0
  | none => 1

/-- Reserve a generation and write it to the decision. -/
def reserveFor (policy : PolicyRow) (number : Nat) (reservedAt : Instant) : Outcome Store := do
  let generation ← reserveGeneration host store.reservations store.journal envelope policy number
    reservedAt
  pure (Store.amend { store with
      reservations := generation.reservations
      journal := generation.journal } envelope.decisionIdentity
    (fun decision => decision.reserving number generation)
    (Decision.reserving_identity number generation))

/-- The envelope of a new decision, admitted or denied. -/
def prepareNew (catalog : List PolicyRow) (gates : Gates) (store : Store)
    (envelope : DeliveryEnvelope) (sinkCount : Nat) (admissionAt : Instant) : Outcome Store := do
  passGate gates.newPrepare
  passGate gates.businessOpen
  envelope.validate host
  requireOwners host store envelope [] "P-05 exact occurrence already has a counted decision"
  let policy ← loadPolicy catalog envelope.pushKind envelope.subKind
  let denial :=
    evaluatePrepareDenial store.reservations envelope policy sinkCount admissionAt
  let decisions ← insertRow store.decisions
    (newDecision host envelope (PrepareDenial.initialState denial)) (fun _ => False)
    "delivery_decisions"
  let journal ← recordStateTransition host store.journal envelope.decisionIdentity none
    (PrepareDenial.initialState denial) "prepare" none
    [("envelope_sha256", .text (host.envelopeSha256 envelope)),
      ("reservation_generation", .number (PrepareDenial.initialGeneration denial))] admissionAt
  match denial with
  | some denial =>
    freezePreSinkDenial host { store with decisions := decisions, journal := journal } envelope
      policy denial admissionAt
  | none =>
    reserveFor host { store with decisions := decisions, journal := journal } envelope policy 1
      admissionAt

def prepareTransactionBody (catalog : List PolicyRow) (gates : Gates) (store : Store)
    (envelope : DeliveryEnvelope) (sinkCount : Nat) (admissionAt : Instant) :
    Outcome (PrepareTransactionOutcome × Store) := do
  match ← strictOwner host gates envelope with
  | some owner => do
      let decision ← loadDecision store owner
      pure (.existing decision, store)
  | none =>
    match store.decisions.get? envelope.decisionIdentity with
    | some existing => prepareExisting host store existing envelope admissionAt
    | none => do
        let store ← prepareNew host catalog gates store envelope sinkCount admissionAt
        pure (.inserted, store)

/-- The transaction of `prepare`. -/
def prepare (catalog : List PolicyRow) (gates : Gates) (store : Store) (envelope : DeliveryEnvelope)
    (sinkCount : Nat) (admissionAt : Instant) : Outcome (PrepareTransactionOutcome × Store) :=
  gates.around (prepareTransactionBody host catalog gates store envelope sinkCount admissionAt)

/-! ## Retrying a rejected decision -/

def authorizeRejectedRetry (identity : String) : Outcome Store :=
  gates.around do
    let stored ← loadDecision store identity
    require (stored.state = .rejectedDurable)
      (.illegalTransition stored.state.asStr "retry_authorized")
    if stored.retryAuthorized = true then pure store
    else do
      passGate gates.businessOpen
      pure (store.amend identity Decision.authorized Decision.authorized_identity)

/-- The generations that a kind may reserve. -/
def generationsSpent : Bool :=
  decision.envelope.pushKind = .newsAiAnalysis && decision.reservationGeneration ≥ 3

/-- The window of the policy still keeps a rejected decision out. -/
def windowOccupied (reservations : Reservations) (envelope : DeliveryEnvelope) (mode : WindowMode)
    (now : Instant) : Bool :=
  match mode with
  | .businessDateOnce =>
    (reservations.claims.get? envelope.claimKey).map BusinessDateClaim.decision ≠
      some envelope.decisionIdentity
  | .rolling => rollingHeadConflicts reservations.heads envelope now
  | .none => false

/-- The transaction of `reacquire_rejected`: whether the decision was reserved again. -/
def reacquireRejected (catalog : List PolicyRow) (gates : Gates) (store : Store) (identity : String)
    (now : Instant) : Outcome (Bool × Store) :=
  gates.around do
    let current ← loadDecision store identity
    let envelope ← parseEnvelope host current.envelope
    if current.state ≠ .rejectedDurable ∨ current.retryAuthorized = false then pure (false, store)
    else if generationsSpent current = true then pure (false, store)
    else do
      let policy ← loadPolicy catalog envelope.pushKind envelope.subKind
      if windowOccupied store.reservations envelope policy.windowMode now = true then
        pure (false, store)
      else if policy.countsAgainstDailyBudget = true ∧
          firstAvailableBudgetSlot store.reservations.budgets envelope.businessDate = none then
        pure (false, store)
      else do
        passGate gates.businessOpen
        let reserved ←
          reserveFor host store envelope policy (current.reservationGeneration + 1) now
        let moved ← transitionExistingState host reserved current .reserved "authorized-retry" none
          [("reservation_generation", .number (current.reservationGeneration + 1)),
            ("envelope_sha256", .text current.envelopeSha256)] now
        pure (true, moved)

/-! ## Beginning an attempt -/

/-- The settlement of a reserved decision that has no single sink. -/
def preflightDenial (stored : Decision) (sinkCount : Nat) (now : Instant) : Settlement :=
  let denial := PrepareDenial.invalidSinkCardinality sinkCount
  { source := ⟨none, none, some (denialIdentity host stored.identity stored.envelopeSha256
      stored.envelope.policyVersion denial)⟩
    disposition := .rejected
    evidenceSha256 := host.sha256 denial.evidence
    retryAuthorized := false
    settledAt := now
    reservation := .released
    acceptedAt := none
    target := .rejectedAuditPending
    actor := "attempt-preflight"
    operatorIdentity := none
    evidence := denial.evidence
    occurredAt := now }

/-- `COALESCE(MAX(attempt_no),0)+1`. -/
def nextAttemptNo (attempts : Table Attempt.identity) (decision : String) : Nat :=
  ((attempts.rows.filter fun attempt => attempt.decision = decision).map Attempt.attemptNo).foldr
    max 0 + 1

def newAttempt (config : Config) (store : Store) (stored : Decision) (now : Instant) : Attempt :=
  let attemptNo := nextAttemptNo store.attempts stored.identity
  let fenceToken := stored.fenceGeneration + 1
  { identity := host.stableIdentity "delivery-attempt-v1"
      [stored.identity, toString attemptNo, toString fenceToken]
    decision := stored.identity
    attemptNo := attemptNo
    owner := config.ownerInstanceIdentity
    fenceToken := fenceToken
    leaseExpiresAt := timestamp (addSeconds now config.attemptLeaseSecs)
    leaseHeartbeatAt := timestamp now
    fenceRevokedAt := none
    state := .attemptInFlight
    startedAt := timestamp now }

/-- What the sink is handed. -/
def Attempt.lease : AttemptLease :=
  { attemptIdentity := attempt.identity
    fenceToken := attempt.fenceToken
    request :=
      { decisionIdentity := attempt.decision
        attemptIdentity := attempt.identity
        fenceToken := attempt.fenceToken
        pushKind := envelope.pushKind
        stableTemplateId := (envelope.foundationBinding.map
          FoundationDeliveryBinding.templateId).getD envelope.pushKind.stableTemplateId
        renderedContent := envelope.renderedContent
        renderedContentSha256 := envelope.renderedContentSha256 } }

/-- An attempt with a new fence for a reserved decision. -/
def startAttempt (config : Config) (store : Store) (stored : Decision) (now : Instant) :
    Outcome (AttemptLease × Store) := do
  let attempt := newAttempt host config store stored now
  let attempts ← insertRow store.attempts attempt
    (fun old => old.decision = attempt.decision ∧
      (old.attemptNo = attempt.attemptNo ∨ old.fenceToken = attempt.fenceToken))
    "delivery_attempts"
  let (reservations, journal) ← attachAttemptToReservations host store.reservations store.journal
    stored attempt.identity attempt.attemptNo now
  let store ← casDecision
    { store with attempts := attempts, reservations := reservations, journal := journal }
    stored.identity .reserved .attemptInFlight
    (fun decision => decision.attempting attempt.identity attempt.fenceToken)
    (Decision.attempting_identity attempt.identity attempt.fenceToken)
  let journal ← recordStateTransition host store.journal stored.identity (some .reserved)
    .attemptInFlight "resume-deliverable" none
    [("attempt_identity", .text attempt.identity), ("attempt_no", .number attempt.attemptNo),
      ("fence_token", .number attempt.fenceToken)] now
  let journal ← recordAttemptEvent host journal attempt.identity stored.identity .leaseGranted
    [("owner_instance_identity_hash",
        .text (host.sha256Bytes config.ownerInstanceIdentity.toUTF8.toList)),
      ("fence_token", .number attempt.fenceToken),
      ("lease_expires_at", .time attempt.leaseExpiresAt)] now
  pure (attempt.lease stored.envelope, { store with journal := journal })

def beginAttempt (config : Config) (gates : Gates) (store : Store) (identity : String)
    (sinkCount : Nat) (now : Instant) : Outcome (Option AttemptLease × Store) :=
  gates.around do
    let stored ← loadDecision store identity
    if stored.state ≠ .reserved then pure (none, store)
    else do
      passGate gates.businessOpen
      let _ ← parseEnvelope host stored.envelope
      if sinkCount ≠ 1 then do
        let store ← settle host store stored (preflightDenial host stored sinkCount now)
        pure (none, store)
      else do
        let (lease, store) ← startAttempt host config store stored now
        pure (some lease, store)

/-! ## Recording a sink result -/

/-- The attempt still holds the fence of its decision. -/
def authoritative (stored : Decision) (attempt : Attempt) : Bool :=
  stored.state = .attemptInFlight && stored.currentAttempt = some attempt.identity &&
    stored.fenceGeneration = attempt.fenceToken && attempt.state = .attemptInFlight

/-- The evidence of a state that a sink result leads to. -/
def sinkEvidence (resultSha256 : String) : Canonical :=
  [("attempt_identity", .text attempt.identity), ("result_sha256", .text resultSha256),
    ("fence_token", .number attempt.fenceToken)]

/-- How an authoritative result settles the attempt and the decision. -/
def AuthoritativeSinkResult.settlement (resultSha256 : String) (recordedAt : Instant) :
    AuthoritativeSinkResult → AttemptState × Settlement
  | .accepted receipt => (.accepted,
      { source := ⟨some attempt.identity, none, none⟩
        disposition := .accepted
        evidenceSha256 := resultSha256
        retryAuthorized := false
        settledAt := receipt.acceptedAt
        reservation := .accepted
        acceptedAt := some receipt.acceptedAt
        target := .acceptedAuditPending
        actor := "sink-result"
        operatorIdentity := none
        evidence := sinkEvidence attempt resultSha256
        occurredAt := recordedAt })
  | .rejected rejection => (.rejected,
      { source := ⟨some attempt.identity, none, none⟩
        disposition := .rejected
        evidenceSha256 := resultSha256
        retryAuthorized := rejection.retryAuthorized
        settledAt := rejection.observedAt
        reservation := .released
        acceptedAt := none
        target := .rejectedAuditPending
        actor := "sink-result"
        operatorIdentity := none
        evidence := sinkEvidence attempt resultSha256
        occurredAt := recordedAt })
  | .uncertain uncertainty => (.uncertain,
      { source := ⟨some attempt.identity, none, none⟩
        disposition := .uncertain
        evidenceSha256 := resultSha256
        retryAuthorized := false
        settledAt := uncertainty.observedAt
        reservation := .uncertain
        acceptedAt := none
        target := .uncertainAuditPending
        actor := "sink-result"
        operatorIdentity := none
        evidence := sinkEvidence attempt resultSha256
        occurredAt := recordedAt })

def AuthoritativeSinkResult.receipt? : AuthoritativeSinkResult → Option TypedReceipt
  | .accepted receipt => some receipt
  | .rejected _ | .uncertain _ => none

/-- The audit of an attempt event and the event. -/
def classify (journal : Journal) (attempt : Attempt) (kind : AuditKind) (evidence : Canonical)
    (recordedAt : Instant) : Outcome (String × Journal) := do
  let (audit, journal) ← enqueueAudit host journal attempt.decision (some attempt.identity) kind
    evidence recordedAt
  let journal ← recordAttemptEventWithAudit host journal attempt.identity attempt.decision kind
    evidence audit
  pure (audit, journal)

/-- The observation of a result that came after the fence was lost. -/
def observeLate (journal : Journal) (attempt : Attempt) (late : Bool)
    (result : AuthoritativeSinkResult) (resultSha256 : String) (recordedAt : Instant) :
    Outcome (Option String × Journal) :=
  if late = true then do
    let (audit, journal) ← classify host journal attempt .lateReceiptObserved
      [("attempt_identity", .text attempt.identity), ("fence_token", .number attempt.fenceToken),
        ("result_kind", .text result.kind.asStr), ("result_sha256", .text resultSha256)] recordedAt
    pure (some audit, journal)
  else pure (none, journal)

/-- The audit of an accepted delivery, frozen for an authoritative receipt. -/
def frozenDeliveryAudit (resultSha256 : String) (holds : Bool) (receipt : Option TypedReceipt) :
    Option Canonical :=
  if holds = true then
    receipt.map fun value =>
      [("decision_identity", .text attempt.decision), ("attempt_identity", .text attempt.identity),
        ("fence_token", .number attempt.fenceToken), ("result_sha256", .text resultSha256),
        ("receipt", .receipt value)]
  else none

def newSinkResult (result : AuthoritativeSinkResult) (canonical : Canonical) (holds : Bool)
    (authorityAudit : String) (lateReceiptAudit : Option String) (recordedAt : Instant) :
    SinkResult :=
  let sha256 := host.sha256 canonical
  let frozen := frozenDeliveryAudit attempt sha256 holds result.receipt?
  { identity := host.stableIdentity "delivery-sink-result-v1"
      [attempt.identity, toString attempt.fenceToken, result.kind.asStr, sha256]
    attempt := attempt.identity
    decision := attempt.decision
    kind := result.kind
    observedAt := timestamp recordedAt
    fenceToken := attempt.fenceToken
    authoritativeForState := holds
    lateAfterFence := !holds
    authorityAudit := authorityAudit
    lateReceiptAudit := lateReceiptAudit
    canonical := canonical
    sha256 := sha256
    receipt := result.receipt?
    frozenDeliveryAudit := frozen
    frozenDeliveryAuditSha256 := frozen.map host.sha256
    deliveryAuditRef := none }

/-- The unique constraints of sink results besides the primary key. -/
def SinkResult.clashes (row old : SinkResult) : Prop :=
  (old.attempt = row.attempt ∧ old.sha256 = row.sha256) ∨
    old.authorityAudit = row.authorityAudit ∨
    (row.lateReceiptAudit.isSome = true ∧ old.lateReceiptAudit = row.lateReceiptAudit)

instance (row : SinkResult) : DecidablePred row.clashes :=
  fun _ => inferInstanceAs (Decidable (_ ∨ _))

def Attempt.ended (state : AttemptState) : Attempt :=
  { attempt with state := state }

theorem Attempt.ended_identity (state : AttemptState) (attempt : Attempt) :
    (attempt.ended state).identity = attempt.identity :=
  rfl

/-- The end of the attempts under an identity that are still in flight. -/
def endAttempt (attempts : Table Attempt.identity) (identity : String) (state : AttemptState) :
    Table Attempt.identity :=
  attempts.update (fun attempt => attempt.identity = identity ∧ attempt.state = .attemptInFlight)
    (fun attempt => attempt.ended state) (Attempt.ended_identity state)

/-- The row of a sink result with its audits and events. -/
def insertSinkResult (result : AuthoritativeSinkResult) (canonical : Canonical) (holds : Bool)
    (recordedAt : Instant) : Outcome Store := do
  let sha256 := host.sha256 canonical
  let (authorityAudit, journal) ← classify host store.journal attempt
    .sinkResultAuthorityClassified
    [("attempt_identity", .text attempt.identity), ("fence_token", .number attempt.fenceToken),
      ("result_sha256", .text sha256), ("authoritative_for_state", .flag holds)] recordedAt
  let (lateAudit, journal) ←
    observeLate host journal attempt (!holds) result sha256 recordedAt
  let row :=
    newSinkResult host attempt result canonical holds authorityAudit lateAudit recordedAt
  let sinkResults ← insertRow store.sinkResults row row.clashes "sink_results"
  pure { store with sinkResults := sinkResults, journal := journal }

def recordSinkResult (attemptIdentity : String) (fenceToken : Nat)
    (result : AuthoritativeSinkResult) (recordedAt : Instant) : Outcome Store :=
  gates.around do
    let attempt ← okOr ((store.attempts.get? attemptIdentity).filter fun row =>
        row.fenceToken = fenceToken)
      (.decisionNotFound ("attempt " ++ attemptIdentity ++ "/" ++ toString fenceToken))
    let stored ← loadDecision store attempt.decision
    let canonical ← canonicalSinkResult result
    let store ← insertSinkResult host store attempt result canonical
      (authoritative stored attempt) recordedAt
    if authoritative stored attempt = false then pure store
    else do
      let _ ← parseEnvelope host stored.envelope
      let settled := result.settlement attempt (host.sha256 canonical) recordedAt
      settle host { store with attempts := endAttempt store.attempts attemptIdentity settled.1 }
        stored settled.2

/-! ## Leases -/

def Attempt.beat (leaseExpiresAt leaseHeartbeatAt : Int) : Attempt :=
  { attempt with leaseExpiresAt := leaseExpiresAt, leaseHeartbeatAt := leaseHeartbeatAt }

theorem Attempt.beat_identity (leaseExpiresAt leaseHeartbeatAt : Int) (attempt : Attempt) :
    (attempt.beat leaseExpiresAt leaseHeartbeatAt).identity = attempt.identity :=
  rfl

/-- The attempt that an instance may extend. -/
def heldAttempt (config : Config) (store : Store) (decision attempt : String) (fenceToken : Nat) :
    Option Attempt :=
  (store.attempts.get? attempt).filter fun row =>
    row.decision = decision ∧ row.owner = config.ownerInstanceIdentity ∧
      row.fenceToken = fenceToken ∧ row.state = .attemptInFlight ∧
      ∃ stored ∈ store.decisions.rows, stored.identity = decision ∧
        stored.state = .attemptInFlight ∧ stored.currentAttempt = some attempt ∧
        stored.fenceGeneration = fenceToken

def heartbeatAttempt (config : Config) (gates : Gates) (store : Store) (decision attempt : String)
    (fenceToken : Nat) (heartbeatAt : Instant) : Outcome (Bool × Store) :=
  gates.around do
    let leaseExpiresAt := timestamp (addSeconds heartbeatAt config.attemptLeaseSecs)
    match heldAttempt config store decision attempt fenceToken with
    | none => pure (false, store)
    | some row =>
      if row.leaseExpiresAt = leaseExpiresAt ∧ row.leaseHeartbeatAt = timestamp heartbeatAt then
        pure (true, store)
      else do
        passGate gates.businessOpen
        let attempts := store.attempts.update (fun old => old.identity = attempt)
          (fun old => old.beat leaseExpiresAt (timestamp heartbeatAt))
          (Attempt.beat_identity leaseExpiresAt (timestamp heartbeatAt))
        let journal ← recordAttemptEvent host store.journal attempt decision .leaseHeartbeat
          [("lease_expires_at", .time leaseExpiresAt), ("fence_token", .number fenceToken)]
          heartbeatAt
        pure (true, { store with attempts := attempts, journal := journal })

/-- The attempt that a recovery selected before its transaction. -/
structure RecoveryCandidate where
  attempt : String
  decision : String
  fenceToken : Nat
  leaseExpiresAt : Int
  decisionFence : Nat

def Attempt.revoked (revokedAt : Int) : Attempt :=
  { attempt with state := .uncertain, fenceRevokedAt := some revokedAt }

theorem Attempt.revoked_identity (revokedAt : Int) (attempt : Attempt) :
    (attempt.revoked revokedAt).identity = attempt.identity :=
  rfl

/-- The attempt is still the one that was selected. -/
def stillCurrent (stored : Decision) (candidate : RecoveryCandidate) (now : Instant) : Prop :=
  stored.state = .attemptInFlight ∧ stored.currentAttempt = some candidate.attempt ∧
    stored.fenceGeneration = candidate.decisionFence ∧
    ∃ row ∈ store.attempts.rows, row.identity = candidate.attempt ∧
      row.decision = candidate.decision ∧ row.fenceToken = candidate.fenceToken ∧
      row.leaseExpiresAt = candidate.leaseExpiresAt ∧ row.leaseExpiresAt ≤ timestamp now ∧
      row.state = .attemptInFlight

instance (store : Store) (stored : Decision) (candidate : RecoveryCandidate) (now : Instant) :
    Decidable (stillCurrent store stored candidate now) :=
  inferInstanceAs (Decidable (_ ∧ _))

def recoverySettlement (candidate : RecoveryCandidate) (fenceEvidenceSha256 : String)
    (now : Instant) : Settlement where
  source := ⟨some candidate.attempt, none, none⟩
  disposition := .uncertain
  evidenceSha256 := fenceEvidenceSha256
  retryAuthorized := false
  settledAt := now
  reservation := .uncertain
  acceptedAt := none
  target := .uncertainAuditPending
  actor := "expired-attempt-recovery"
  operatorIdentity := none
  evidence :=
    [("attempt_identity", .text candidate.attempt),
      ("revoked_fence_token", .number candidate.fenceToken), ("persisted_receipt", .flag false)]
  occurredAt := now

/-- The store in which the fence of the selected attempt is revoked. -/
def revokeFence (stored : Decision) (candidate : RecoveryCandidate) (now : Instant) : Store :=
  { store with
    attempts := store.attempts.update
      (fun row => row.identity = candidate.attempt ∧ row.decision = candidate.decision ∧
        row.fenceToken = candidate.fenceToken ∧ row.state = .attemptInFlight ∧
        row.leaseExpiresAt ≤ timestamp now)
      (fun row => row.revoked (timestamp now)) (Attempt.revoked_identity (timestamp now))
    decisions := store.decisions.update
      (fun row => row.identity = candidate.decision ∧ row.state = .attemptInFlight ∧
        row.currentAttempt = some candidate.attempt ∧ row.fenceGeneration = candidate.fenceToken)
      (fun row => row.refenced (stored.fenceGeneration + 1))
      (Decision.refenced_identity (stored.fenceGeneration + 1)) }

def recoverExpiredAttempt (candidate : RecoveryCandidate) (now : Instant) :
    Outcome (Bool × Store) :=
  gates.around do
    match store.decisions.get? candidate.decision with
    | none => pure (false, store)
    | some stored =>
      if ¬ stillCurrent store stored candidate now then pure (false, store)
      else do
        let fenceEvidence : Canonical :=
          [("attempt_identity", .text candidate.attempt),
            ("revoked_fence_token", .number candidate.fenceToken),
            ("replacement_fence_generation", .number (stored.fenceGeneration + 1)),
            ("lease_expires_at", .time candidate.leaseExpiresAt)]
        let journal ← recordAttemptEvent host store.journal candidate.attempt candidate.decision
          .fenceRevoked fenceEvidence now
        let journal ← recordAttemptEvent host journal candidate.attempt candidate.decision
          .recoveryClassified
          [("classification", .text "Uncertain"), ("automatic_resend", .flag false),
            ("persisted_receipt", .flag false),
            ("fence_evidence_sha256", .text (host.sha256 fenceEvidence))] now
        let _ ← parseEnvelope host stored.envelope
        let store ← settle host { revokeFence store stored candidate now with journal := journal }
          stored (recoverySettlement candidate (host.sha256 fenceEvidence) now)
        pure (true, store)

/-! ## Reconciliation -/

def Audit.appended (audit : Audit) (immutableRef : String) : Audit :=
  { audit with appendState := .appended, immutableRef := some immutableRef }

theorem Audit.appended_identity (immutableRef : String) (audit : Audit) :
    (audit.appended immutableRef).identity = audit.identity :=
  rfl

def DispositionPayload.appended (payload : DispositionPayload) (immutableRef : String) :
    DispositionPayload :=
  { payload with appendState := .appended, immutableRef := some immutableRef }

theorem DispositionPayload.appended_identity (immutableRef : String)
    (payload : DispositionPayload) :
    (payload.appended immutableRef).identity = payload.identity :=
  rfl

def TaskTransition.appended (transition : TaskTransition) (immutableRef : String) :
    TaskTransition :=
  { transition with appendState := .appended, immutableRef := some immutableRef }

theorem TaskTransition.appended_identity (immutableRef : String) (transition : TaskTransition) :
    (transition.appended immutableRef).identity = transition.identity :=
  rfl

def SinkResult.audited (result : SinkResult) (immutableRef : String) : SinkResult :=
  { result with deliveryAuditRef := some immutableRef }

theorem SinkResult.audited_identity (immutableRef : String) (result : SinkResult) :
    (result.audited immutableRef).identity = result.identity :=
  rfl

def ManualResolution.audited (resolution : ManualResolution) (immutableRef : String) :
    ManualResolution :=
  { resolution with
    acceptedAuditState := some .appended
    acceptedAuditRef := some immutableRef }

theorem ManualResolution.audited_identity (immutableRef : String)
    (resolution : ManualResolution) :
    (resolution.audited immutableRef).identity = resolution.identity :=
  rfl

/-- Acknowledge an append: one update that must change exactly one row. -/
def acknowledge {R K : Type} [DecidableEq K] {key : R → K} (table : Table key)
    (selects : R → Prop) [DecidablePred selects] (change : R → R)
    (keeps : ∀ row, key (change row) = key row) (operation : String) : Outcome (Table key) := do
  requireSingleCasUpdate (table.rows.countP fun row => selects row) operation
  pure (table.update selects change keeps)

def acknowledgeAudit (identity decision sha256 immutableRef : String) : Outcome Store :=
  gates.around do
    let outbox ← acknowledge store.journal.outbox
      (fun audit => audit.identity = identity ∧ audit.decision = decision ∧
        audit.appendState = .pending ∧ audit.sha256 = sha256)
      (fun audit => audit.appended immutableRef) (Audit.appended_identity immutableRef)
      "immutable audit append acknowledgement"
    pure { store with journal := { store.journal with outbox := outbox } }

def acknowledgeDisposition (identity sha256 immutableRef : String) : Outcome Store :=
  gates.around do
    let dispositions ← acknowledge store.journal.dispositions
      (fun payload => payload.identity = identity ∧ payload.appendState = .pending ∧
        payload.sha256 = sha256)
      (fun payload => payload.appended immutableRef)
      (DispositionPayload.appended_identity immutableRef)
      "delivery disposition append acknowledgement"
    pure { store with journal := { store.journal with dispositions := dispositions } }

def acknowledgeDeliveryAudit (identity sha256 immutableRef : String) : Outcome Store :=
  gates.around do
    let sinkResults ← acknowledge store.sinkResults
      (fun result => result.identity = identity ∧ result.deliveryAuditRef = none ∧
        result.frozenDeliveryAuditSha256 = some sha256)
      (fun result => result.audited immutableRef) (SinkResult.audited_identity immutableRef)
      "accepted delivery audit acknowledgement"
    pure { store with sinkResults := sinkResults }

def acknowledgeManualAudit (auditIdentity decision sha256 immutableRef : String) : Outcome Store :=
  gates.around do
    let resolutions ← acknowledge store.journal.resolutions
      (fun resolution => resolution.acceptedAuditIdentity = some auditIdentity ∧
        resolution.decision = decision ∧ resolution.acceptedAuditState = some .pending ∧
        resolution.acceptedAuditRef = none ∧ resolution.frozenDeliveryAuditSha256 = some sha256)
      (fun resolution => resolution.audited immutableRef)
      (ManualResolution.audited_identity immutableRef)
      "manual accepted delivery audit acknowledgement"
    pure { store with journal := { store.journal with resolutions := resolutions } }

def acknowledgeTransition (identity sha256 immutableRef : String) : Outcome Store :=
  gates.around do
    let transitions ← acknowledge store.journal.transitions
      (fun transition => transition.identity = identity ∧ transition.appendState = .pending ∧
        transition.sha256 = sha256)
      (fun transition => transition.appended immutableRef)
      (TaskTransition.appended_identity immutableRef) "task transition append acknowledgement"
    pure { store with journal := { store.journal with transitions := transitions } }

/-- Where a pending decision goes once everything it waits for is appended. -/
def reconcileTarget : DecisionState → Bool → Option DecisionState
  | .acceptedAuditPending, true => some .acceptedTaskTransitionPending
  | .acceptedAuditPending, false | .acceptedTaskTransitionPending, _ => some .delivered
  | .rejectedAuditPending, true => some .rejectedTaskTransitionPending
  | .rejectedAuditPending, false | .rejectedTaskTransitionPending, _ => some .rejectedDurable
  | .uncertainAuditPending, true => some .uncertainTaskTransitionPending
  | .uncertainAuditPending, false | .uncertainTaskTransitionPending, _ =>
    some .uncertainManualReview
  | .manualRejectedAuditPending, true => some .manualRejectedTaskTransitionPending
  | .manualRejectedAuditPending, false | .manualRejectedTaskTransitionPending, _ =>
    some .manualResolvedRejected
  | _, _ => none

/-- The evidence check that guards the way to `Delivered`. -/
def requireDelivered (target : DecisionState) : Outcome Unit :=
  if target = .delivered then passGate gates.delivered else pure ()

/-- `transition_for_reconcile` of a decision that was read in a state. -/
def transitionForReconcile (identity : String) (readState target : DecisionState) (now : Instant) :
    Outcome Store :=
  gates.around do
    let current ← loadDecision store identity
    if current.state = target ∨ current.state ≠ readState then pure store
    else do
      requireDelivered gates target
      transitionExistingState host store current target "reconcile" none
        [("current_disposition_identity", Field.optional current.currentDisposition),
          ("task_binding_present", .flag current.taskBindingPresent)] now

/-! ## Manual resolution -/

def validateManualCommand : Outcome Unit := do
  require (blank command.decisionIdentity = false ∧ blank command.operatorIdentity = false ∧
      blank command.reason = false ∧ command.externalEvidence ≠ [])
    (.invalidManualResolution
      "decision/operator/reason/canonical external evidence are mandatory")
  match command.disposition with
  | .accepted (some receipt) => receipt.validate
  | .accepted none | .rejected => pure ()

def ManualDisposition.asStr : ManualDisposition → String
  | .accepted _ => "Accepted"
  | .rejected => "Rejected"

def ManualDisposition.receipt? : ManualDisposition → Option TypedReceipt
  | .accepted receipt => receipt
  | .rejected => none

def ManualResolutionCommand.evidenceSha256 : String :=
  host.sha256Bytes command.externalEvidence

def ManualResolutionCommand.resolutionIdentity : String :=
  host.stableIdentity "delivery-manual-resolution-v1"
    [command.decisionIdentity, command.disposition.asStr, command.operatorIdentity,
      command.evidenceSha256 host]

/-- What the append port is asked to authorize. -/
def ManualResolutionCommand.authorization : Canonical :=
  [("resolution_identity", .text (command.resolutionIdentity host)),
    ("decision_identity", .text command.decisionIdentity),
    ("disposition", .text command.disposition.asStr),
    ("operator_identity", .text command.operatorIdentity), ("reason", .text command.reason),
    ("evidence_sha256", .text (command.evidenceSha256 host)),
    ("resolved_at", .time (timestamp command.resolvedAt))]

/-- The audit that a manual acceptance freezes. -/
def ManualResolutionCommand.frozenAudit (attempt authorizationRef : String) : Option Canonical :=
  match command.disposition with
  | .rejected => none
  | .accepted receipt => some
      [("decision_identity", .text command.decisionIdentity),
        ("resolution_identity", .text (command.resolutionIdentity host)),
        ("attempt_identity", .text attempt), ("operator_identity", .text command.operatorIdentity),
        ("reason", .text command.reason),
        ("acceptance_evidence_sha256", .text (command.evidenceSha256 host)),
        ("authorization_sha256", .text (host.sha256 (command.authorization host))),
        ("authorization_ref", .text authorizationRef),
        ("receipt_sha256", Field.optional (receipt.map host.receiptSha256)),
        ("resolved_at", .time (timestamp command.resolvedAt))]

def newResolution (attempt authorizationRef : String) : ManualResolution :=
  let frozen := command.frozenAudit host attempt authorizationRef
  let frozenSha256 := frozen.map host.sha256
  { identity := command.resolutionIdentity host
    decision := command.decisionIdentity
    attempt := attempt
    accepted := command.disposition ≠ .rejected
    operatorIdentity := command.operatorIdentity
    reason := command.reason
    evidence := command.externalEvidence
    evidenceSha256 := command.evidenceSha256 host
    receipt := command.disposition.receipt?
    frozenDeliveryAudit := frozen
    frozenDeliveryAuditSha256 := frozenSha256
    immutableRef := authorizationRef
    acceptedAuditIdentity := frozenSha256.map fun sha256 =>
      host.stableIdentity "manual-delivery-accepted-audit-v1"
        [command.resolutionIdentity host, sha256]
    acceptedAuditState := frozenSha256.map fun _ => .pending
    acceptedAuditRef := none
    resolvedAt := timestamp command.resolvedAt }

def ManualResolutionCommand.settlement (authorizationRef : String) : Settlement :=
  let accepted : Bool := command.disposition ≠ .rejected
  { source := ⟨none, some (command.resolutionIdentity host), none⟩
    disposition := if accepted then .manualAccepted else .manualRejected
    evidenceSha256 := command.evidenceSha256 host
    retryAuthorized := false
    settledAt := command.resolvedAt
    reservation := if accepted then .accepted else .released
    acceptedAt := if accepted then some command.resolvedAt else none
    target := if accepted then .acceptedAuditPending else .manualRejectedAuditPending
    actor := "manual-resolution"
    operatorIdentity := some command.operatorIdentity
    evidence :=
      [("resolution_identity", .text (command.resolutionIdentity host)),
        ("authorization_ref", .text authorizationRef)]
    occurredAt := command.resolvedAt }

/-- `resolve_uncertain` under an authorization that the append port has returned. -/
def resolveUncertain (authorizationRef : String) : Outcome Store := do
  validateManualCommand command
  gates.around do
    let stored ← loadDecision store command.decisionIdentity
    require (stored.state = .uncertainManualReview)
      (.invalidManualResolution
        ("decision state is " ++ stored.state.asStr ++ ", expected UncertainManualReview"))
    passGate gates.businessOpen
    let attempt ← okOr stored.currentAttempt
      (.invalidManualResolution "uncertain decision has no original attempt")
    let resolution := newResolution host command attempt authorizationRef
    let resolutions ← insertRow store.journal.resolutions resolution
      (fun old => old.decision = resolution.decision ∨
        (resolution.acceptedAuditIdentity.isSome = true ∧
          old.acceptedAuditIdentity = resolution.acceptedAuditIdentity)) "manual_resolutions"
    let _ ← parseEnvelope host stored.envelope
    settle host { store with journal := { store.journal with resolutions := resolutions } } stored
      (command.settlement host authorizationRef)

end StockAnalysis.Delivery
