import StockAnalysis.Delivery.Envelope

/-!
# Audits, events and dispositions

What a transaction writes besides the state it changes. Every event is queued in the outbox of
immutable audits, behind the audit that was queued last for the same decision. A disposition
freezes how a decision was settled; for a decision that is bound to a task it also freezes the
transition of the task.

The functions take and return the journal alone, so that they cannot touch anything else.
-/

namespace StockAnalysis.Delivery

variable (host : Host) (journal : Journal)

/-- Insert a row, or fail on the primary key or on a further unique constraint. -/
def insertRow {R K : Type} [DecidableEq K] {key : R → K} (table : Table key) (row : R)
    (clashes : R → Prop) [DecidablePred clashes] (name : String) : Outcome (Table key) := do
  require (∀ old ∈ table.rows, ¬ clashes old) (.constraint name)
  okOr (table.insert? row) (.constraint name)

theorem insertRow_eq_ok {R K : Type} [DecidableEq K] {key : R → K} {table next : Table key}
    {row : R} {clashes : R → Prop} [DecidablePred clashes] {name : String}
    (done : insertRow table row clashes name = .ok next) :
    table.insert? row = some next ∧ ∀ old ∈ table.rows, ¬ clashes old := by
  obtain ⟨_, checked, inserted⟩ := bind_eq_ok.mp done
  exact ⟨okOr_eq_ok.mp inserted, require_eq_ok.mp checked⟩

/-- `require_single_cas_update`. -/
def requireSingleCasUpdate (changed : Nat) (operation : String) : Outcome Unit :=
  require (changed = 1) (.policyMismatch (operation ++ " compare-and-set affected " ++
    toString changed ++ " rows; expected exactly one"))

/-! ## The outbox -/

/-- The audit that was queued last for a decision. -/
def lastAudit (decision : String) : Option String :=
  (journal.outbox.rows.filter fun audit => audit.decision = decision).getLast?.map Audit.identity

def enqueueAudit (decision : String) (attempt : Option String) (kind : AuditKind)
    (canonical : Canonical) (createdAt : Instant) : Outcome (String × Journal) := do
  let sha256 := host.sha256 canonical
  let identity := host.stableIdentity "delivery-critical-audit-v1"
    [decision, attempt.getD "NONE", kind.asStr, sha256]
  let audit : Audit :=
    { identity := identity
      decision := decision
      attempt := attempt
      kind := kind
      predecessor := lastAudit journal decision
      canonical := canonical
      sha256 := sha256
      appendState := .pending
      immutableRef := none
      createdAt := timestamp createdAt }
  let outbox ← insertRow journal.outbox audit (fun _ => False) "immutable_audit_outbox"
  pure (identity, { journal with outbox := outbox })

/-! ## Events -/

def recordAttemptEventWithAudit (attempt decision : String) (kind : AuditKind)
    (canonical : Canonical) (auditIdentity : String) : Outcome Journal := do
  let sha256 := host.sha256 canonical
  let event : AttemptEvent :=
    { identity := host.stableIdentity "delivery-attempt-event-v1"
        [attempt, kind.asStr, sha256, auditIdentity]
      attempt := attempt
      decision := decision
      kind := kind
      canonical := canonical
      sha256 := sha256
      auditIdentity := auditIdentity }
  let attemptEvents ← insertRow journal.attemptEvents event
    (fun old => old.auditIdentity = auditIdentity) "delivery_attempt_events"
  pure { journal with attemptEvents := attemptEvents }

def recordAttemptEvent (attempt decision : String) (kind : AuditKind) (canonical : Canonical)
    (occurredAt : Instant) : Outcome Journal := do
  let (auditIdentity, journal) ←
    enqueueAudit host journal decision (some attempt) kind canonical occurredAt
  recordAttemptEventWithAudit host journal attempt decision kind canonical auditIdentity

/-- The state as evidence, `NONE` before the first one. -/
def stateText (state : Option ReservationState) : String :=
  (state.map ReservationState.asStr).getD "NONE"

/-- The event of a reservation under a domain, and the audit that announces it. -/
def reservationEvent (domain identityField : String) (kind : AuditKind)
    (reservation decision : String) (fromState : Option ReservationState)
    (toState : ReservationState) (canonical : Canonical) (occurredAt : Instant) :
    Outcome (ReservationEvent × Journal) := do
  let sha256 := host.sha256 canonical
  let (auditIdentity, journal) ← enqueueAudit host journal decision none kind
    [(identityField, .text reservation),
      ("from_state", Field.optional (fromState.map ReservationState.asStr)),
      ("to_state", .text toState.asStr), ("event_sha256", .text sha256),
      ("occurred_at", .time (timestamp occurredAt))] occurredAt
  pure (
    { identity := host.stableIdentity domain
        [reservation, stateText fromState, toState.asStr, sha256]
      reservation := reservation
      decision := decision
      fromState := fromState
      toState := toState
      canonical := canonical
      sha256 := sha256
      auditIdentity := auditIdentity }, journal)

def recordBudgetEvent (reservation decision : String) (fromState : Option ReservationState)
    (toState : ReservationState) (canonical : Canonical) (occurredAt : Instant) : Outcome Journal := do
  let (event, journal) ← reservationEvent host journal "delivery-budget-event-v1"
    "budget_reservation_identity" .budgetReservationChanged reservation decision fromState toState
    canonical occurredAt
  let budgetEvents ← insertRow journal.budgetEvents event
    (fun old => old.auditIdentity = event.auditIdentity) "daily_budget_reservation_events"
  pure { journal with budgetEvents := budgetEvents }

def recordCooldownEvent (reservation decision : String) (fromState : Option ReservationState)
    (toState : ReservationState) (canonical : Canonical) (occurredAt : Instant) : Outcome Journal := do
  let (event, journal) ← reservationEvent host journal "delivery-cooldown-event-v1"
    "cooldown_reservation_identity" .cooldownReservationChanged reservation decision fromState
    toState canonical occurredAt
  let cooldownEvents ← insertRow journal.cooldownEvents event
    (fun old => old.auditIdentity = event.auditIdentity) "cooldown_reservation_events"
  pure { journal with cooldownEvents := cooldownEvents }

/-- `record_state_transition`. -/
def recordStateTransition (decision : String) (fromState : Option DecisionState)
    (toState : DecisionState) (actor : String) (operatorIdentity : Option String)
    (evidence : Canonical) (occurredAt : Instant) : Outcome Journal := do
  let evidenceSha256 := host.sha256 evidence
  let identity := host.stableIdentity "delivery-state-event-v1"
    [decision, (fromState.map DecisionState.asStr).getD "NONE", toState.asStr, actor,
      evidenceSha256]
  let (auditIdentity, journal) ← enqueueAudit host journal decision none .decisionStateChanged
    [("state_event_identity", .text identity), ("decision_identity", .text decision),
      ("from_state", Field.optional (fromState.map DecisionState.asStr)),
      ("to_state", .text toState.asStr), ("actor", .text actor),
      ("operator_identity_hash",
        Field.optional (operatorIdentity.map fun value => host.sha256Bytes value.toUTF8.toList)),
      ("evidence_sha256", .text evidenceSha256),
      ("occurred_at", .time (timestamp occurredAt))] occurredAt
  let event : StateEvent :=
    { identity := identity
      decision := decision
      fromState := fromState
      toState := toState
      actor := actor
      operatorIdentity := operatorIdentity
      evidence := evidence
      evidenceSha256 := evidenceSha256
      auditIdentity := auditIdentity }
  let stateEvents ← insertRow journal.stateEvents event
    (fun old => old.auditIdentity = auditIdentity) "delivery_state_events"
  pure { journal with stateEvents := stateEvents }

/-! ## Dispositions -/

/-- What settled a decision. -/
structure DispositionSource where
  attempt : Option String
  resolution : Option String
  denial : Option String

def DispositionSource.identity (source : DispositionSource) : Option String :=
  (source.attempt.or source.denial).or source.resolution

/-- The word of a disposition in the transition of a task. -/
def Disposition.taskWord : Disposition → String
  | .manualAccepted => "Accepted"
  | other => other.asStr

/-- The transition that a disposition freezes for the task of an envelope. -/
def freezeTransition (envelope : DeliveryEnvelope) (sourceIdentity : String)
    (disposition : Disposition) (dispositionIdentity dispositionSha256 : String) :
    Outcome Journal :=
  match envelope.taskBinding with
  | none => pure journal
  | some binding => do
      let identity := host.stableIdentity "BR-140-disposition-v1"
        [binding.taskIdentity, envelope.decisionIdentity, sourceIdentity, disposition.taskWord]
      let canonical : Canonical :=
        [("schema_version", .number 1), ("transition_identity", .text identity),
          ("task_identity", .text binding.taskIdentity),
          ("decision_identity", .text envelope.decisionIdentity),
          ("source_identity", .text sourceIdentity),
          ("task_disposition", .text disposition.taskWord),
          ("task_binding_sha256", .text binding.transitionBasisSha256),
          ("generic_disposition_identity", .text dispositionIdentity),
          ("generic_disposition_sha256", .text dispositionSha256)]
      let transition : TaskTransition :=
        { identity := identity
          decision := envelope.decisionIdentity
          disposition := dispositionIdentity
          taskBindingSha256 := binding.transitionBasisSha256
          canonical := canonical
          sha256 := host.sha256 canonical
          appendState := .pending
          immutableRef := none }
      let transitions ← insertRow journal.transitions transition (fun _ => False)
        "task_transition_payloads"
      pure { journal with transitions := transitions }

/-- `freeze_disposition` without the update of the decision, which the caller makes. -/
def freezeDisposition (envelope : DeliveryEnvelope) (source : DispositionSource)
    (disposition : Disposition) (evidenceSha256 : String) (retryAuthorized : Bool)
    (createdAt : Instant) : Outcome (String × Journal) := do
  let sourceIdentity ← okOr source.identity (.policyMismatch
    "generic disposition requires attempt, denial or resolution identity")
  let identity := host.stableIdentity "delivery-disposition-v1"
    [envelope.decisionIdentity, sourceIdentity, disposition.asStr, evidenceSha256]
  let envelopeSha256 ← envelope.canonicalSha256 host
  let canonical : Canonical :=
    [("schema_version", .number 1), ("disposition_identity", .text identity),
      ("decision_identity", .text envelope.decisionIdentity),
      ("envelope_sha256", .text envelopeSha256),
      ("attempt_identity", Field.optional source.attempt),
      ("denial_identity", Field.optional source.denial),
      ("resolution_identity", Field.optional source.resolution),
      ("disposition", .text disposition.asStr), ("evidence_sha256", .text evidenceSha256),
      ("retry_authorized", .flag retryAuthorized),
      ("manual_action_required", .flag (disposition = .uncertain)),
      ("created_at", .time (timestamp createdAt))]
  let payload : DispositionPayload :=
    { identity := identity
      decision := envelope.decisionIdentity
      attempt := source.attempt
      resolution := source.resolution
      denial := source.denial
      disposition := disposition
      canonical := canonical
      sha256 := host.sha256 canonical
      appendState := .pending
      immutableRef := none
      createdAt := timestamp createdAt }
  let dispositions ← insertRow journal.dispositions payload (fun _ => False)
    "delivery_disposition_payloads"
  let journal ← freezeTransition host { journal with dispositions := dispositions } envelope
    sourceIdentity disposition identity payload.sha256
  pure (identity, journal)

/-- The decision under a new disposition. -/
def Decision.disposed (decision : Decision) (disposition : String) (retryAuthorized : Bool) :
    Decision :=
  { decision with currentDisposition := some disposition, retryAuthorized := retryAuthorized }

end StockAnalysis.Delivery
