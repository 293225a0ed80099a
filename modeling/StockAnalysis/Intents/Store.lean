import Mathlib.Data.List.Sort
import StockAnalysis.Intents.Types

/-!
# The push intent store

`record_initial` and `apply_transition_inner` of `BusinessIntentStore`, the readers they rely on,
and the checks and triggers of the two tables. A statement that a check or a trigger rejects fails
with the operation it belongs to, and its transaction is rolled back.

Before it opens its transaction, `apply_transition_inner` looks for an event that already has its
version. Other writers may commit between the two, so a submission is either `fresh`, when nothing
was committed in between, or `raced`, when the look found nothing but the transaction comes later.
-/

namespace StockAnalysis.Intents

variable (host : Host) (store : Store) (command : StoreTransitionCommand) (current : IntentSnapshot)
  (chain : List TransitionReceipt)

/-! ## Stored forms -/

/-- `text.strip_prefix(head)`. -/
def stripHead (head text : String) : Option String :=
  if startsWith text head then some (String.ofList (text.toList.drop head.toList.length)) else none

def namespaceStorage : Namespace → String
  | .production => "Production"
  | .test runId => "Test:" ++ runId.value

def subjectStorage : SubjectId → String
  | .global => "Global"
  | .entity value => "Entity:" ++ value.value

def parseNamespace (value : String) : Outcome Namespace :=
  if value = "Production" then .ok .production
  else do
    let runId ← okOr (stripHead "Test:" value) (integrity "namespace")
    let text ← Text.tryNew runId (integrity "namespace")
    pure (.test text)

def parseSubject (value : String) : Outcome SubjectId :=
  if value = "Global" then .ok .global
  else do
    let subject ← okOr (stripHead "Entity:" value) (integrity "subject")
    let text ← Text.tryNew subject (integrity "subject")
    pure (.entity text)

/-! ## Drafts -/

def InitialIntentIdentity.material (identity : InitialIntentIdentity) : IntentIdentityMaterial :=
  { namespace_ := identity.namespace_
    unitId := identity.unitId
    completionOwner := identity.completionOwner
    sourceContractId := identity.sourceContractId
    occurrence := host.deriveOccurrenceId identity.occurrence
    subject := identity.subject
    audience := identity.audience }

/-- `InitialIntentIdentity::intent_id`. -/
def InitialIntentIdentity.intentId (identity : InitialIntentIdentity) : String :=
  host.deriveIntentId (identity.material host)

/-- What a draft holds of the message itself. -/
structure DraftPayload where
  preparedPushBytes : Option (List UInt8)
  renderedBytes : Option (List UInt8)
  payloadSha256 : Option String
  renderedSha256 : Option String
  evidenceSha256 : String
  templateSha256 : String
  sourceContractSha256 : String

/-- `InitialIntentDraft::from_identity`; every caller passes the state and reason of the kind. -/
def InitialIntentDraft.fromIdentity (identity : InitialIntentIdentity) (kind : InitialDecisionKind)
    (payload : DraftPayload) (createdAt : Nat) : InitialIntentDraft :=
  let intentId := identity.intentId host
  { intentId := intentId
    decisionKind := kind
    namespace_ := namespaceStorage identity.namespace_
    unitId := identity.unitId.value
    occurrenceFamily := identity.occurrence.occurrenceFamily.value
    occurrenceKey := identity.occurrence.occurrenceKey.value
    completionOwner := identity.completionOwner.value
    sourceContractId := identity.sourceContractId.value
    subject := subjectStorage identity.subject
    audience := identity.audience.value
    durableDecisionId := host.deriveDecisionId intentId
    businessDate := identity.occurrence.businessDate
    preparedPushBytes := payload.preparedPushBytes
    renderedBytes := payload.renderedBytes
    payloadSha256 := payload.payloadSha256
    renderedSha256 := payload.renderedSha256
    evidenceSha256 := payload.evidenceSha256
    templateSha256 := payload.templateSha256
    sourceContractSha256 := payload.sourceContractSha256
    createdAt := createdAt
    state := kind.initialState
    reason := kind.initialReason }

/-- The date of an identity was parsed before the identity was built. -/
def InitialIntentIdentity.dated (identity : InitialIntentIdentity) : Outcome Unit :=
  require (host.businessDate identity.occurrence.businessDate = true)
    (.invalidInitialIntent "business_date")

def InitialIntentDraft.ready (host : Host) (identity : InitialIntentIdentity)
    (prepared : PreparedPush) (templateSha256 sourceContractSha256 : String) (createdAt : Nat) :
    Outcome InitialIntentDraft := do
  identity.dated host
  let intentId := identity.intentId host
  require (prepared.intentId = intentId ∧ prepared.decisionId = host.deriveDecisionId intentId ∧
      prepared.unitId = identity.unitId ∧
      prepared.occurrence = host.deriveOccurrenceId identity.occurrence ∧
      prepared.subject = identity.subject ∧
      prepared.sourceContractId = identity.sourceContractId)
    (.invalidInitialIntent "prepared_push_identity_binding")
  require (prepared.renderedBytes ≠ []) (.invalidInitialIntent "rendered_bytes_non_empty")
  pure (.fromIdentity host identity .ready
    { preparedPushBytes := some prepared.canonicalSnapshotBytes
      renderedBytes := some prepared.renderedBytes
      payloadSha256 := some (host.digest prepared.canonicalSnapshotBytes)
      renderedSha256 := some (host.digest prepared.renderedBytes)
      evidenceSha256 := prepared.evidenceFingerprint
      templateSha256 := templateSha256
      sourceContractSha256 := sourceContractSha256 } createdAt)

/-- A draft that sends nothing. -/
def InitialIntentDraft.nonSend (kind : InitialDecisionKind) (identity : InitialIntentIdentity)
    (evidenceSha256 templateSha256 sourceContractSha256 : String) (createdAt : Nat) :
    Outcome InitialIntentDraft := do
  identity.dated host
  pure (.fromIdentity host identity kind
    { preparedPushBytes := none
      renderedBytes := none
      payloadSha256 := none
      renderedSha256 := none
      evidenceSha256 := evidenceSha256
      templateSha256 := templateSha256
      sourceContractSha256 := sourceContractSha256 } createdAt)

def InitialIntentDraft.noData (host : Host) :=
  InitialIntentDraft.nonSend host .noData

def InitialIntentDraft.disabled (host : Host) :=
  InitialIntentDraft.nonSend host .disabled

/-- The row of a new intent. -/
def InitialIntentDraft.row (draft : InitialIntentDraft) : IntentSnapshot :=
  { draft.toIntentContent with
    state := draft.state
    previousState := none
    reason := draft.reason
    leaseOwner := none
    leaseUntil := none
    leaseGeneration := 0
    version := 0
    updatedAt := draft.createdAt }

/-! ## Readers of an intent -/

/-- The identity that the columns of an intent spell. -/
def IntentContent.identity (content : IntentContent) : Outcome InitialIntentIdentity := do
  let namespace_ ← parseNamespace content.namespace_
  let subject ← parseSubject content.subject
  require (host.businessDate content.businessDate = true) (integrity "business_date")
  let occurrenceFamily ← Text.tryNew content.occurrenceFamily (integrity "occurrence_family")
  let occurrenceKey ← Text.tryNew content.occurrenceKey (integrity "occurrence_key")
  let unitId ← Text.tryNew content.unitId (integrity "unit_id")
  let completionOwner ← Text.tryNew content.completionOwner (integrity "completion_owner")
  let sourceContractId ← Text.tryNew content.sourceContractId (integrity "source_contract_id")
  let audience ← Text.tryNew content.audience (integrity "audience")
  pure
    { namespace_ := namespace_
      unitId := unitId
      occurrence := ⟨content.businessDate, occurrenceFamily, occurrenceKey⟩
      completionOwner := completionOwner
      sourceContractId := sourceContractId
      subject := subject
      audience := audience }

/-- The payload columns agree with the kind of the decision. -/
def IntentContent.verifyPayload (content : IntentContent) : Outcome Unit :=
  match content.decisionKind with
  | .ready => do
      let prepared ← okOr content.preparedPushBytes (integrity "ready_payload_group")
      let rendered ← okOr content.renderedBytes (integrity "ready_payload_group")
      require (prepared ≠ [] ∧ rendered ≠ [] ∧
          content.payloadSha256 = some (host.digest prepared) ∧
          content.renderedSha256 = some (host.digest rendered))
        (integrity "ready_payload_binding")
  | .noData | .disabled =>
    require (content.preparedPushBytes = none ∧ content.renderedBytes = none ∧
        content.payloadSha256 = none ∧ content.renderedSha256 = none)
      (integrity "non_send_payload_group")

/-- The part of `verify_snapshot` that reads only what no transition changes. -/
def IntentContent.verify (content : IntentContent) : Outcome Unit := do
  let identity ← content.identity host
  require (identity.intentId host = content.intentId ∧
      host.deriveDecisionId (identity.intentId host) = content.durableDecisionId)
    (integrity "intent_identity_binding")
  content.verifyPayload host

/-- The state of an intent that no transition has touched, or the state it came from. -/
def IntentSnapshot.verifyOrigin (snapshot : IntentSnapshot) : Outcome Unit :=
  if snapshot.version = 0 then
    require (snapshot.state = snapshot.decisionKind.initialState ∧
        snapshot.reason = snapshot.decisionKind.initialReason ∧ snapshot.previousState = none ∧
        snapshot.leaseOwner = none ∧ snapshot.leaseGeneration = 0 ∧
        snapshot.updatedAt = snapshot.createdAt)
      (integrity "initial_intent_state")
  else require (snapshot.previousState.isSome = true) (integrity "transitioned_previous_state")

def verifySnapshot (snapshot : IntentSnapshot) : Outcome Unit := do
  snapshot.toIntentContent.verify host
  require (snapshot.createdAt ≤ snapshot.updatedAt) (integrity "intent_time_order")
  require (snapshot.leaseOwner.isSome = snapshot.leaseUntil.isSome)
    (integrity "intent_lease_pair")
  require (snapshot.leaseGeneration ≤ snapshot.version) (integrity "intent_lease_generation")
  snapshot.verifyOrigin

def queryIntent (intentId : String) : Outcome (Option IntentSnapshot) :=
  match store.intents.get? intentId with
  | none => .ok none
  | some snapshot => do
      verifySnapshot host snapshot
      pure (some snapshot)

/-- `inspect`, with `IntentMissing` for an intent that is not there. -/
def inspect (intentId : String) : Outcome IntentSnapshot := do
  let found ← queryIntent host store intentId
  okOr found .intentMissing

/-! ## Readers of the chain -/

/-- The terminal columns agree with the state that the transition enters. -/
def TransitionReceipt.verifyTerminal (receipt : TransitionReceipt) : Outcome Unit :=
  if receipt.toState = .completed then
    require (receipt.terminal.terminalDisposition ∈
          [some .accepted, some .manualConfirmedAccepted] ∧
        receipt.terminal.terminalDecisionId = none ∧ receipt.terminal.operatorAuditRef = none ∧
        receipt.terminal.operatorAuditSha256 = none)
      (integrity "completed_terminal_group")
  else if receipt.toState = .notDelivered then
    require (receipt.terminal.terminalDisposition = some .manualConfirmedNotDelivered ∧
        receipt.reason = .operatorNotDelivered ∧
        receipt.terminal.terminalDecisionId.isSome = true ∧
        receipt.terminal.operatorAuditRef.isSome = true ∧
        receipt.terminal.operatorAuditSha256.isSome = true)
      (integrity "not_delivered_terminal_group")
  else
    require (receipt.terminal.terminalDecisionId = none ∧
        receipt.terminal.operatorAuditRef = none ∧ receipt.terminal.operatorAuditSha256 = none)
      (integrity "nonterminal_terminal_group")

def IntentState.terminal (state : IntentState) : Bool :=
  state ∈ [IntentState.completed, .notDelivered]

def verifyTransition (receipt : TransitionReceipt) : Outcome Unit := do
  require (receipt.resultVersion = receipt.expectedVersion + 1)
    (integrity "transition_version_step")
  require (decide (receipt.resultVersion = 1) = receipt.previousSha256.isNone)
    (integrity "transition_first_predecessor")
  require (host.transitionEventId receipt.intentId receipt.expectedVersion
      receipt.resultVersion = receipt.eventId) (integrity "transition_event_id")
  require (host.transitionCanonicalSha256 receipt.toTransitionBody = receipt.canonicalSha256)
    (integrity "transition_canonical_sha256")
  require (persistedEdgeReasonAllowed receipt.fromState receipt.toState receipt.reason = true)
    (integrity "transition_edge_reason")
  require (receipt.toState.terminal = receipt.terminal.terminalRefId.isSome ∧
      receipt.toState.terminal = receipt.terminal.terminalBindingSha256.isSome ∧
      receipt.toState.terminal = receipt.terminal.terminalDisposition.isSome)
    (integrity "transition_terminal_group")
  receipt.verifyTerminal

def queryTransition (eventId : String) : Outcome (Option TransitionReceipt) :=
  match store.transitions.get? eventId with
  | none => .ok none
  | some receipt => do
      require (validText receipt.actor = true) (integrity "persisted_transition_actor")
      verifyTransition host receipt
      pure (some receipt)

/-- The transition enters a state only an authority's acceptance leads to. -/
def TransitionReceipt.acceptance (event : TransitionReceipt) : Bool :=
  event.toState ∈ [IntentState.awaitingFinalizer, .completed]

/-- The transition enters `ResolutionRequired` from another state. -/
def TransitionReceipt.entersResolution (event : TransitionReceipt) : Bool :=
  event.toState = .resolutionRequired && event.fromState ≠ .resolutionRequired

/-- The transition left `AwaitingAuthority` because the transport's answer was uncertain. -/
def TransitionReceipt.uncertain (event : TransitionReceipt) : Bool :=
  event.fromState = .awaitingAuthority && event.reason = .transportUncertain

/-- The last transition that entered `ResolutionRequired` from another state. -/
def lastResolution : Option TransitionReceipt :=
  chain.reverse.find? TransitionReceipt.entersResolution

/-- `eligible_origin`: an intent may be settled as not delivered from this state. -/
def eligibleOrigin (source : IntentState) : Bool :=
  source = .awaitingAuthority ||
    source = .resolutionRequired && (lastResolution chain).any TransitionReceipt.uncertain

/-- The event continues the chain that was read so far. -/
def continues (event : TransitionReceipt) : Bool :=
  event.resultVersion = chain.length + 1 && event.expectedVersion + 1 = event.resultVersion &&
    event.previousSha256 = chain.getLast?.map TransitionReceipt.canonicalSha256 &&
    !chain.getLast?.any (fun previous => event.occurredAt < previous.occurredAt) &&
    !chain.getLast?.any (fun previous => previous.toState ≠ event.fromState)

/-- The history allows the event, which matters only when it settles as not delivered. -/
def historyAllows (event : TransitionReceipt) : Bool :=
  event.toState ≠ .notDelivered ||
    !chain.any TransitionReceipt.acceptance && eligibleOrigin chain event.fromState

def chainStep (eventId : String) : Outcome (List TransitionReceipt) := do
  let found ← queryTransition host store eventId
  let event ← okOr found (integrity "transition_chain_member_missing")
  require (continues chain event = true) (integrity "transition_chain_continuity")
  require (historyAllows chain event = true) (integrity "not_delivered_history")
  pure (chain ++ [event])

/-- The event ids of an intent, ordered by version. -/
def chainIds (intentId : String) : List String :=
  ((store.transitions.rows.filter fun row => row.intentId = intentId).insertionSort
    fun first second => first.resultVersion ≤ second.resultVersion).map (·.eventId)

/-- The head is what the last event of the chain made it. -/
def IntentSnapshot.boundTo : Outcome Unit :=
  match chain.getLast? with
  | some last =>
    require (last.toState = current.state ∧ some last.fromState = current.previousState ∧
      last.reason = current.reason ∧ last.occurredAt = current.updatedAt)
      (integrity "intent_transition_head_binding")
  | none => require (current.previousState = none) (integrity "initial_previous_state")

def queryTransitionChain : Outcome (List TransitionReceipt) := do
  let chain ← each (chainStep host store) [] (chainIds store current.intentId)
  require (chain.length = current.version) (integrity "intent_version_transition_count")
  require (chain.head?.all (fun first => first.fromState = current.decisionKind.initialState))
    (integrity "transition_chain_initial_state")
  current.boundTo chain
  pure chain

/-! ## The statements that write -/

/-- A text column of one to 512 characters. -/
def columnText (value : String) : Bool :=
  1 ≤ value.length && value.length ≤ 512

/-- The table checks of `push_intents` that concern columns a transition may change. -/
def headChecks (row : IntentSnapshot) : Bool :=
  row.leaseOwner.all columnText && row.createdAt ≤ row.updatedAt &&
    (row.decisionKind = .ready ||
      row.state ∈ [IntentState.noData, .disabled, .resolutionRequired]) &&
    row.leaseOwner.isNone = row.leaseUntil.isNone

/-- The table checks of `push_intents` on the immutable columns. -/
def contentChecks (row : IntentContent) : Bool :=
  columnText row.namespace_ && columnText row.unitId && columnText row.occurrenceFamily &&
    columnText row.occurrenceKey && columnText row.completionOwner &&
    columnText row.sourceContractId && columnText row.subject && columnText row.audience &&
    columnText row.durableDecisionId && host.storedBusinessDate row.businessDate &&
    row.preparedPushBytes.all (· ≠ []) && row.renderedBytes.all (· ≠ []) &&
    (row.decisionKind = .ready && row.preparedPushBytes.isSome && row.renderedBytes.isSome &&
        row.payloadSha256.isSome && row.renderedSha256.isSome ||
      row.decisionKind ≠ .ready && row.preparedPushBytes.isNone && row.renderedBytes.isNone &&
        row.payloadSha256.isNone && row.renderedSha256.isNone)

/-- The two further unique constraints of `push_intents`. -/
def IntentContent.clashes (row old : IntentContent) : Bool :=
  row.namespace_ = old.namespace_ && row.unitId = old.unitId &&
      row.completionOwner = old.completionOwner &&
      row.sourceContractId = old.sourceContractId && row.businessDate = old.businessDate &&
      row.occurrenceFamily = old.occurrenceFamily && row.occurrenceKey = old.occurrenceKey &&
      row.subject = old.subject && row.audience = old.audience ||
    row.namespace_ = old.namespace_ && row.durableDecisionId = old.durableDecisionId

/-- Trigger `push_intents_insert_guard`, without its test for the primary key. -/
def insertGuard (row : IntentSnapshot) : Bool :=
  row.version = 0 && row.previousState = none && row.leaseGeneration = 0 &&
    row.leaseOwner = none && row.state = row.decisionKind.initialState &&
    row.reason = row.decisionKind.initialReason

def insertIntent (row : IntentSnapshot) : Outcome Store := do
  require (insertGuard row = true ∧ headChecks row = true ∧
      contentChecks host row.toIntentContent = true ∧
      ∀ old ∈ store.intents.rows, row.toIntentContent.clashes old.toIntentContent = false)
    (.storageFailed "insert_initial")
  let intents ← okOr (store.intents.insert? row) (.storageFailed "insert_initial")
  pure { store with intents := intents }

/-- The lease columns that a transition writes. -/
structure Lease where
  owner : Option String
  until_ : Option Nat
  generation : Nat
deriving DecidableEq

def IntentSnapshot.lease (row : IntentSnapshot) : Lease :=
  ⟨row.leaseOwner, row.leaseUntil, row.leaseGeneration⟩

/-- The row after a transition. -/
def IntentSnapshot.advanced (row : IntentSnapshot) (command : StoreTransitionCommand)
    (lease : Lease) : IntentSnapshot :=
  { row with
    state := command.toState
    previousState := some row.state
    reason := command.reason
    leaseOwner := lease.owner
    leaseUntil := lease.until_
    leaseGeneration := lease.generation
    version := command.expectedVersion + 1
    updatedAt := command.occurredAt }

theorem IntentSnapshot.advanced_intentId (row : IntentSnapshot)
    (command : StoreTransitionCommand) (lease : Lease) :
    (row.advanced command lease).intentId = row.intentId :=
  rfl

/-- The version that last entered `ResolutionRequired` from another state. -/
def lastResolutionVersion (transitions : List TransitionReceipt) : Option Nat :=
  ((transitions.filter TransitionReceipt.entersResolution).map (·.resultVersion)).max?

/-- The edges that the trigger `push_intents_cas` lets through. -/
def casEdge (transitions : List TransitionReceipt) (old new : IntentSnapshot) : Bool :=
  new.state = old.state &&
      old.state ∈ [.pendingDispatch, .awaitingAuthority, .awaitingFinalizer,
        .resolutionRequired] &&
      new.reason ∈ [ReasonCode.intentLeaseHeld, .intentDispatchClaimed] ||
    new.state = old.state && old.state = .awaitingAuthority &&
      new.reason ∈ [ReasonCode.transportRejected, .finalizerTerminalRefInvalid] ||
    new.state = old.state && old.state = .awaitingFinalizer &&
      new.reason = .finalizerTerminalRefInvalid ||
    old.state = .pendingDispatch && new.state = .awaitingAuthority &&
      new.reason = .intentDispatchClaimed ||
    old.state = .pendingDispatch && new.state = .noData && new.reason = .intentNoData ||
    old.state = .pendingDispatch && new.state = .disabled && new.reason = .policyDisabled ||
    old.state ∈ [.awaitingAuthority, .resolutionRequired] && new.decisionKind = .ready &&
      new.state = .awaitingFinalizer && new.reason = .intentAuthorityVerified ||
    old.state = .awaitingFinalizer && new.state = .completed &&
      new.reason = .finalizerCompleted ||
    new.state = .notDelivered && new.decisionKind = .ready &&
      new.reason = .operatorNotDelivered && !transitions.any TransitionReceipt.acceptance &&
      (old.state = .awaitingAuthority ||
        old.state = .resolutionRequired && transitions.any (fun event =>
          event.toState = .resolutionRequired && event.uncertain &&
            some event.resultVersion = lastResolutionVersion transitions)) ||
    old.state ∈ [.pendingDispatch, .awaitingAuthority, .awaitingFinalizer, .completed, .noData,
        .disabled] && new.state = .resolutionRequired &&
      new.reason ∈ [ReasonCode.intentPayloadConflict, .intentExpectedVersionConflict,
        .finalizerCasConflict] ||
    old.state ∈ [.awaitingAuthority, .awaitingFinalizer] && new.state = .resolutionRequired &&
      new.reason ∈ [ReasonCode.transportUncertain, .operatorResolutionConflict]

/-- What the trigger `push_intents_cas` demands of the lease columns. -/
def casLease (old new : IntentSnapshot) : Bool :=
  old.leaseGeneration ≤ new.leaseGeneration && new.leaseGeneration ≤ old.leaseGeneration + 1 &&
    (new.leaseOwner = old.leaseOwner || new.leaseOwner = none ||
      new.leaseGeneration = old.leaseGeneration + 1) &&
    (new.leaseOwner = old.leaseOwner || new.leaseOwner = none || old.leaseOwner = none ||
      old.leaseUntil.all (· ≤ new.updatedAt))

/-- Triggers `push_intents_immutable` and `push_intents_cas`, and the table checks. -/
def casAllowed (old new : IntentSnapshot) : Bool :=
  new.toIntentContent = old.toIntentContent && new.version = old.version + 1 &&
    new.previousState = some old.state && old.updatedAt ≤ new.updatedAt && casLease old new &&
    casEdge (store.transitions.rows.filter fun row => row.intentId = old.intentId) old new &&
    headChecks new

/-- The row that the compare-and-set of a transition selects. -/
def casSelects (current row : IntentSnapshot) : Bool :=
  row.intentId = command.intentId && row.state = command.fromState &&
    row.version = command.expectedVersion && row.lease = current.lease

/-- The compare-and-set, with the number of rows it changed. -/
def casTransition (lease : Lease) : Outcome (Nat × Store) := do
  require (∀ row ∈ store.intents.rows, casSelects command current row = true →
      casAllowed store row (row.advanced command lease) = true)
    (.storageFailed "cas_transition")
  pure ((store.intents.rows.filter (casSelects command current)).length,
    { store with
      intents := store.intents.update (fun row => casSelects command current row = true)
        (fun row => row.advanced command lease)
        (fun row => row.advanced_intentId command lease) })

/-- The table checks of `push_intent_transitions`. -/
def transitionChecks (row : TransitionReceipt) : Bool :=
  row.resultVersion = row.expectedVersion + 1 && columnText row.actor &&
    row.terminal.terminalDisposition.all (· ∈ [TerminalDisposition.accepted,
      .manualConfirmedAccepted, .manualConfirmedNotDelivered]) &&
    row.terminal.terminalDecisionId.all columnText &&
    row.terminal.operatorAuditRef.all columnText && row.terminal.terminalRefId.all columnText &&
    row.terminal.terminalRefId.isNone = row.terminal.terminalBindingSha256.isNone &&
    row.toState.terminal = row.terminal.terminalRefId.isSome &&
    row.toState.terminal = row.terminal.terminalDisposition.isSome &&
    (row.toState ≠ .completed || row.terminal.terminalDisposition ∈
      [some TerminalDisposition.accepted, some .manualConfirmedAccepted]) &&
    decide (row.toState = .notDelivered) = row.terminal.terminalDecisionId.isSome &&
    decide (row.toState = .notDelivered) = row.terminal.operatorAuditRef.isSome &&
    decide (row.toState = .notDelivered) = row.terminal.operatorAuditSha256.isSome &&
    (row.toState ≠ .notDelivered ||
      row.terminal.terminalDisposition = some .manualConfirmedNotDelivered &&
        row.reason = .operatorNotDelivered) &&
    decide (row.resultVersion = 1) = row.previousSha256.isNone

/-- Trigger `push_intent_transitions_binding`, without its test for the primary key. -/
def transitionBinding (row : TransitionReceipt) : Bool :=
  store.intents.rows.any (fun head => head.intentId = row.intentId && head.state = row.toState &&
      head.previousState = some row.fromState && head.version = row.resultVersion &&
      head.reason = row.reason && head.updatedAt ≤ row.occurredAt) &&
    (row.toState ≠ .notDelivered || store.intents.rows.any (fun head =>
      head.intentId = row.intentId &&
        some head.durableDecisionId = row.terminal.terminalDecisionId)) &&
    (row.resultVersion ≤ 1 || store.transitions.rows.any (fun previous =>
      previous.intentId = row.intentId && previous.resultVersion = row.expectedVersion &&
        previous.toState = row.fromState &&
        some previous.canonicalSha256 = row.previousSha256))

def insertTransition (row : TransitionReceipt) : Outcome Store := do
  require (transitionBinding store row = true ∧ transitionChecks row = true ∧
      ∀ old ∈ store.transitions.rows,
        ¬ (old.intentId = row.intentId ∧ old.resultVersion = row.resultVersion))
    (.storageFailed "append_transition")
  let transitions ← okOr (store.transitions.insert? row) (.storageFailed "append_transition")
  pure { store with transitions := transitions }

/-! ## A new intent -/

/-- The answer to a draft, after its row is committed or found. -/
def initialAnswer (draft : InitialIntentDraft) : Outcome InitialIntentOutcome := do
  let persisted ← inspect host store draft.intentId
  require (persisted.toIntentContent = draft.toIntentContent)
    (integrity "initial_post_commit_mismatch")
  let _ ← queryTransitionChain host store persisted
  pure (.inserted persisted)

def existingAnswer (existing : IntentSnapshot) (draft : InitialIntentDraft) :
    Outcome InitialIntentOutcome := do
  let _ ← queryTransitionChain host store existing
  require (existing.toIntentContent = draft.toIntentContent) (.immutableConflict draft.intentId)
  pure (.existingIdentical existing)

/-- `record_initial`: the store afterwards, and the answer. -/
def recordInitial (draft : InitialIntentDraft) : Store × Outcome InitialIntentOutcome :=
  match queryIntent host store draft.intentId with
  | .error error => (store, .error error)
  | .ok (some existing) => (store, existingAnswer host store existing draft)
  | .ok none =>
    match insertIntent host store draft.row with
    | .error error => (store, .error error)
    | .ok next => (next, initialAnswer host next draft)

/-! ## A transition -/

structure IntentTransitionCommand where
  intentId : String
  fromState : IntentState
  toState : IntentState
  expectedVersion : Nat
  actor : Text
  reason : ReasonCode
  occurredAt : Nat
  leaseAction : LeaseAction

/-- A lease is taken for a time that is still to come. -/
def LeaseAction.runsPast (action : LeaseAction) (occurredAt : Nat) : Bool :=
  match action with
  | .acquire _ until_ => occurredAt < until_
  | .preserve | .release _ => true

/-- `IntentTransitionCommand::try_new`, with the command that the store makes of it. -/
def IntentTransitionCommand.tryNew (request : IntentTransitionCommand) :
    Outcome StoreTransitionCommand := do
  require (request.expectedVersion < i64Max) (.invalidTransition "version_overflow")
  require (nonterminalEdgeAllowed request.fromState request.toState request.reason = true)
    (.invalidTransition "edge_reason_not_allowed")
  require (request.leaseAction.runsPast request.occurredAt = true)
    (.invalidTransition "lease_until_not_future")
  pure
    { intentId := request.intentId
      fromState := request.fromState
      toState := request.toState
      expectedVersion := request.expectedVersion
      actor := request.actor
      reason := request.reason
      occurredAt := request.occurredAt
      leaseAction := request.leaseAction
      requiredFence := none
      terminal := .none }

/-- `ExpectedLeaseFence::matches`. -/
def ExpectedLeaseFence.holds (fence : ExpectedLeaseFence) (snapshot : IntentSnapshot)
    (occurredAt : Nat) : Bool :=
  snapshot.leaseOwner = some fence.owner.value && snapshot.leaseGeneration = fence.generation &&
    snapshot.leaseUntil = some fence.until_ && occurredAt < fence.until_

def applyLeaseAction (command : StoreTransitionCommand) : Outcome Lease :=
  match command.leaseAction with
  | .preserve => .ok current.lease
  | .acquire owner until_ => do
      require (current.leaseOwner = some owner.value ∨ current.leaseOwner = none ∨
          current.leaseUntil.all (· ≤ command.occurredAt) = true)
        (.invalidTransition "foreign_lease_not_expired")
      require (current.leaseGeneration + 1 ≤ u64Max)
        (.invalidTransition "lease_generation_overflow")
      pure ⟨some owner.value, some until_, current.leaseGeneration + 1⟩
  | .release owner => do
      require (current.leaseOwner = some owner.value)
        (.invalidTransition "lease_release_owner_mismatch")
      pure ⟨none, none, current.leaseGeneration⟩

/-- `TransitionReceipt::from_command`. -/
def TransitionReceipt.fromCommand (previousSha256 : Option String) : TransitionReceipt :=
  let resultVersion := command.expectedVersion + 1
  let body : TransitionBody :=
    { eventId := host.transitionEventId command.intentId command.expectedVersion resultVersion
      intentId := command.intentId
      fromState := command.fromState
      toState := command.toState
      expectedVersion := command.expectedVersion
      resultVersion := resultVersion
      previousSha256 := previousSha256
      actor := command.actor.value
      reason := command.reason
      terminal := command.terminal
      occurredAt := command.occurredAt }
  { body with canonicalSha256 := host.transitionCanonicalSha256 body }

/-- The fields of a command that its event records. -/
def TransitionReceipt.records (receipt : TransitionReceipt) (command : StoreTransitionCommand) :
    Bool :=
  receipt.intentId = command.intentId && receipt.fromState = command.fromState &&
    receipt.toState = command.toState && receipt.expectedVersion = command.expectedVersion &&
    receipt.resultVersion = command.expectedVersion + 1 &&
    receipt.actor = command.actor.value && receipt.reason = command.reason &&
    receipt.occurredAt = command.occurredAt && receipt.terminal = command.terminal

/-- The lease of the head fits what the command would have done to it. -/
def LeaseAction.fits (action : LeaseAction) (current : IntentSnapshot) : Bool :=
  match action with
  | .preserve => true
  | .acquire owner until_ =>
    current.leaseOwner = some owner.value && current.leaseUntil = some until_
  | .release _ => current.leaseOwner = none && current.leaseUntil = none

def TransitionReceipt.matchesCommand (receipt : TransitionReceipt)
    (command : StoreTransitionCommand) (current : IntentSnapshot) : Bool :=
  if receipt.records command = false ∨ current.version ≠ receipt.resultVersion then
    receipt.records command
  else command.leaseAction.fits current

/-- The claim of an authority's attention needs a lease that has not run out. -/
def dispatchLeased (lease : Lease) : Bool :=
  !(command.toState = .awaitingAuthority && command.reason = .intentDispatchClaimed) ||
    lease.owner.isSome && lease.until_.any (command.occurredAt < ·)

/-- The command's version, state or fence is not that of the head. -/
def stale : Bool :=
  current.state ≠ command.fromState || current.version ≠ command.expectedVersion ||
    command.requiredFence.any fun fence => !fence.holds current command.occurredAt

/-- The writing part of the transaction. -/
def appendTransition : Outcome (TransitionOutcome × Store) := do
  require (current.updatedAt ≤ command.occurredAt)
    (.invalidTransition "occurred_at_before_current_update")
  let proposed := TransitionReceipt.fromCommand host command
    (chain.getLast?.map TransitionReceipt.canonicalSha256)
  let lease ← applyLeaseAction current command
  require (dispatchLeased command lease = true)
    (.invalidTransition "dispatch_requires_active_lease")
  require (lease.generation ≤ i64Max) (.invalidTransition "lease_generation")
  require (current.leaseGeneration ≤ i64Max) (.invalidTransition "current_lease_generation")
  let (affected, cas) ← casTransition store command current lease
  if affected = 1 then do
    let next ← insertTransition cas proposed
    pure (.applied proposed, next)
  else do
    let current ← inspect host store command.intentId
    pure (.conflict current, store)

/-- The transaction of `apply_transition_inner`. -/
def transitionTransaction : Outcome (TransitionOutcome × Store) := do
  let current ← inspect host store command.intentId
  let chain ← queryTransitionChain host store current
  if stale command current then pure (.conflict current, store)
  else appendTransition host store command current chain

/-- What is read back once the transition is committed. -/
def committedAnswer (proposed : TransitionReceipt) : Outcome TransitionOutcome := do
  let found ← queryTransition host store (host.transitionEventId command.intentId
    command.expectedVersion (command.expectedVersion + 1))
  let persisted ← okOr found (integrity "transition_post_commit_missing")
  require (persisted = proposed) (integrity "transition_post_commit_mismatch")
  let current ← inspect host store command.intentId
  let _ ← queryTransitionChain host store current
  pure (.applied persisted)

/-- The answer to a command whose version already has an event. -/
def retryAnswer (existing : TransitionReceipt) : Outcome TransitionOutcome := do
  let current ← inspect host store command.intentId
  let _ ← queryTransitionChain host store current
  if existing.matchesCommand command current then pure (.alreadyCommitted existing)
  else pure (.conflict current)

/-- The transaction, and the answer that is read back after it. -/
def transact : Store × Outcome TransitionOutcome :=
  match transitionTransaction host store command with
  | .error error => (store, .error error)
  | .ok (.applied proposed, next) => (next, committedAnswer host next command proposed)
  | .ok (outcome, next) => (next, .ok outcome)

/-- Whether other writers committed between the look for an event and the transaction. -/
inductive Timing where
  | fresh | raced

/-- `apply_transition_inner`: the store afterwards, and the answer. -/
def applyTransitionInner (timing : Timing) (command : StoreTransitionCommand) :
    Store × Outcome TransitionOutcome :=
  if i64Max < command.expectedVersion + 1 then
    (store, .error (.invalidTransition "version_overflow"))
  else
    match timing with
    | .raced => transact host store command
    | .fresh =>
      match queryTransition host store (host.transitionEventId command.intentId
          command.expectedVersion (command.expectedVersion + 1)) with
      | .error error => (store, .error error)
      | .ok (some existing) => (store, retryAnswer host store command existing)
      | .ok none => transact host store command

end StockAnalysis.Intents
