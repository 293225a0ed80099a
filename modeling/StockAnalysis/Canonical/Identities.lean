import Mathlib.Data.List.GetD
import StockAnalysis.Canonical.Encoding
import StockAnalysis.Intents.Types

/-!
# The digests of requests, intents and transitions

The field maps of `EffectRequest::canonical_bytes`, `derive_intent_id`, `transition_event_id` and
`transition_canonical_sha256`, each with its domain. No two things of these four kinds have the
same preimage, although the two digests of a transition share their domain.
-/

namespace StockAnalysis.Canonical

open StockAnalysis.Intents (IntentState ReasonCode TerminalDisposition Namespace SubjectId Text
  IntentIdentityMaterial TransitionBody)

structure Scope where
  namespace_ : String
  unit : String
  generation : Nat
  manifest : String
  physicalOwner : String
  deployment : String
  incarnation : String

inductive WorkClass where
  | newWork | recovery

structure EffectRequest where
  scope : Scope
  brokerEpoch : String
  client : String
  clientIncarnation : String
  actor : String
  action : String
  workClass : WorkClass
  operationId : String
  effectId : String
  effectSha256 : String

/-! ## Texts of the enumerations -/

def WorkClass.asStr : WorkClass → String
  | .newWork => "NewWork"
  | .recovery => "Recovery"

def intentStateTexts : List String :=
  ["PendingDispatch", "AwaitingAuthority", "AwaitingFinalizer", "Completed", "NotDelivered",
    "NoData", "Disabled", "ResolutionRequired"]

/-- `IntentState::as_str`; the texts stand in the order of the states. -/
def stateText (state : IntentState) : String :=
  intentStateTexts.getD state.ctorIdx ""

def terminalDispositionTexts : List String :=
  ["Accepted", "Rejected", "Uncertain", "ManualConfirmedAccepted", "ManualConfirmedNotDelivered"]

def terminalDispositionName (disposition : TerminalDisposition) : String :=
  terminalDispositionTexts.getD disposition.ctorIdx ""

/-- The texts of `reason_codes!`, in its order. -/
def reasonTexts : List String :=
  ["schedule.not_trading_day", "schedule.window_not_open", "schedule.window_expired",
    "schedule.occurrence_closed", "schedule.occurrence_conflict", "schedule.window_open",
    "schedule.deferred", "input.source_recovered", "activation.ready", "input.source_unavailable",
    "input.source_unready", "input.evidence_invalid", "input.no_verified_batch",
    "input.account_snapshot_missing", "input.namespace_violation", "policy.disabled",
    "policy.starved", "policy.opt_in_disabled", "policy.cooldown_active",
    "policy.daily_budget_full", "policy.suppressed", "intent.payload_conflict",
    "intent.expected_version_conflict", "intent.lease_held", "intent.transition_conflict",
    "transport.rejected", "transport.uncertain", "transport.no_channel_configured",
    "transport.all_channels_failed", "transport.partially_accepted",
    "finalizer.terminal_ref_invalid", "finalizer.binding_mismatch", "finalizer.cas_conflict",
    "finalizer.deadline_exceeded", "finalizer.transition_append_failed",
    "activation.manifest_mismatch", "activation.generation_conflict", "activation.owner_conflict",
    "activation.core_unready", "activation.producer_unready", "shadow.semantic_diff",
    "shadow.side_effect_attempted", "operator.not_delivered", "operator.unauthorized",
    "operator.evidence_invalid", "operator.resolution_conflict", "intent.created",
    "intent.no_data", "intent.dispatch_claimed", "intent.authority_verified",
    "finalizer.completed", "activation.applied"]

def reasonText (reason : ReasonCode) : String :=
  reasonTexts.getD reason.ctorIdx ""

/-- Texts in a list without repetitions tell the constructors apart. -/
theorem texts_injective {texts : List String} (distinct : texts.Nodup) {first second : Nat}
    (firstBound : first < texts.length) (secondBound : second < texts.length)
    (same : texts.getD first "" = texts.getD second "") : first = second := by
  rw [List.getD_eq_getElem _ _ firstBound, List.getD_eq_getElem _ _ secondBound] at same
  exact (List.Nodup.getElem_inj_iff distinct).mp same

theorem stateText_injective : Function.Injective stateText := by
  intro first second same
  have index := texts_injective (by decide +kernel) (by cases first <;> decide)
    (by cases second <;> decide) same
  rw [← IntentState.ofNat_ctorIdx first, index, IntentState.ofNat_ctorIdx]

theorem terminalDispositionName_injective : Function.Injective terminalDispositionName := by
  intro first second same
  have index := texts_injective (by decide +kernel) (by cases first <;> decide)
    (by cases second <;> decide) same
  rw [← TerminalDisposition.ofNat_ctorIdx first, index, TerminalDisposition.ofNat_ctorIdx]

theorem reasonText_injective : Function.Injective reasonText := by
  intro first second same
  have index := texts_injective (by decide +kernel) (by cases first <;> decide)
    (by cases second <;> decide) same
  rw [← ReasonCode.ofNat_ctorIdx first, index, ReasonCode.ofNat_ctorIdx]

/-! ## Fields -/

def optionalStringValue (value : Option String) : CanonicalValue :=
  value.elim .null .string

def namespaceValue : Namespace → CanonicalValue
  | .production => .object [("kind", .string "Production"), ("run_id", .null)]
  | .test runId => .object [("kind", .string "Test"), ("run_id", .string runId.value)]

def subjectValue : SubjectId → CanonicalValue
  | .global => .object [("kind", .string "Global"), ("value", .null)]
  | .entity value => .object [("kind", .string "Entity"), ("value", .string value.value)]

/-- What a digest is taken over. -/
inductive Identified where
  | request (effect : EffectRequest)
  | intent (material : IntentIdentityMaterial)
  | event (intentId : String) (expectedVersion resultVersion : Nat)
  | transition (receipt : TransitionBody)

def Identified.domain : Identified → String
  | .request _ => "ActivationEffectOperation/v1"
  | .intent _ => "PreparedPushIntent/v1"
  | .event _ _ _ | .transition _ => "IntentTransitionV1"

def Identified.fields : Identified → Fields
  | .request effect =>
    [("action", .string effect.action), ("actor", .string effect.actor),
      ("broker_epoch", .string effect.brokerEpoch), ("client", .string effect.client),
      ("client_incarnation", .string effect.clientIncarnation),
      ("deployment", .string effect.scope.deployment), ("effect_id", .string effect.effectId),
      ("effect_sha256", .string effect.effectSha256),
      ("generation", .unsigned effect.scope.generation),
      ("incarnation", .string effect.scope.incarnation),
      ("manifest", .string effect.scope.manifest),
      ("namespace", .string effect.scope.namespace_),
      ("operation_id", .string effect.operationId),
      ("physical_owner", .string effect.scope.physicalOwner),
      ("unit", .string effect.scope.unit), ("work_class", .string effect.workClass.asStr)]
  | .intent material =>
    [("audience", .string material.audience.value),
      ("completion_owner", .string material.completionOwner.value),
      ("namespace", namespaceValue material.namespace_),
      ("occurrence", .string material.occurrence),
      ("source_contract_id", .string material.sourceContractId.value),
      ("subject", subjectValue material.subject), ("unit_id", .string material.unitId.value)]
  | .event intentId expectedVersion resultVersion =>
    [("expected_version", .unsigned expectedVersion), ("intent_id", .string intentId),
      ("result_version", .unsigned resultVersion)]
  | .transition receipt =>
    [("actor", .string receipt.actor), ("event_id", .string receipt.eventId),
      ("expected_version", .unsigned receipt.expectedVersion),
      ("from_state", .string (stateText receipt.fromState)),
      ("intent_id", .string receipt.intentId), ("occurred_at", .unsigned receipt.occurredAt),
      ("operator_audit_ref", optionalStringValue receipt.terminal.operatorAuditRef),
      ("operator_audit_sha256", optionalStringValue receipt.terminal.operatorAuditSha256),
      ("previous_sha256", optionalStringValue receipt.previousSha256),
      ("reason", .string (reasonText receipt.reason)),
      ("result_version", .unsigned receipt.resultVersion),
      ("terminal_binding_sha256", optionalStringValue receipt.terminal.terminalBindingSha256),
      ("terminal_decision_id", optionalStringValue receipt.terminal.terminalDecisionId),
      ("terminal_disposition", optionalStringValue
        (receipt.terminal.terminalDisposition.map terminalDispositionName)),
      ("terminal_ref_id", optionalStringValue receipt.terminal.terminalRefId),
      ("to_state", .string (stateText receipt.toState))]

/-- The digest over the preimage; the hash function is a parameter. -/
def Identified.digest (rawDigest : List UInt8 → String) (subject : Identified) : String :=
  rawDigest (canonicalPreimage subject.domain subject.fields)

/-! ## Distinct things have distinct digests -/

theorem WorkClass.asStr_injective : Function.Injective WorkClass.asStr := by
  intro first second same
  cases first <;> cases second <;> first | rfl | exact absurd same (by decide)

theorem optionalStringValue_injective : Function.Injective optionalStringValue := by
  rintro (_ | first) (_ | second) same
  · rfl
  · cases same
  · cases same
  · rw [CanonicalValue.string.inj same]

theorem namespaceValue_injective : Function.Injective namespaceValue := by
  rintro (_ | first) (_ | second) same
  · rfl
  · simp [namespaceValue] at same
  · simp [namespaceValue] at same
  · have values : first.value = second.value := by simpa [namespaceValue] using same
    rw [Text.ext values]

theorem subjectValue_injective : Function.Injective subjectValue := by
  rintro (_ | first) (_ | second) same
  · rfl
  · simp [subjectValue] at same
  · simp [subjectValue] at same
  · have values : first.value = second.value := by simpa [subjectValue] using same
    rw [Text.ext values]

theorem request_fields_injective {first second : EffectRequest}
    (same : (Identified.request first).fields = (Identified.request second).fields) :
    first = second := by
  obtain ⟨⟨⟩⟩ := first
  obtain ⟨⟨⟩⟩ := second
  simp only [Identified.fields, List.cons.injEq, Prod.mk.injEq, true_and,
    CanonicalValue.string.injEq, CanonicalValue.unsigned.injEq, and_true,
    WorkClass.asStr_injective.eq_iff] at same
  simp only [same]

theorem intent_fields_injective {first second : IntentIdentityMaterial}
    (same : (Identified.intent first).fields = (Identified.intent second).fields) :
    first = second := by
  obtain ⟨⟩ := first
  obtain ⟨⟩ := second
  simp only [Identified.fields, List.cons.injEq, Prod.mk.injEq, true_and,
    CanonicalValue.string.injEq, and_true, namespaceValue_injective.eq_iff,
    subjectValue_injective.eq_iff, ← Text.ext_iff] at same
  simp only [same]

theorem transition_fields_injective {first second : TransitionBody}
    (same : (Identified.transition first).fields = (Identified.transition second).fields) :
    first = second := by
  obtain ⟨_, _, _, _, _, _, _, _, _, ⟨⟩, _⟩ := first
  obtain ⟨_, _, _, _, _, _, _, _, _, ⟨⟩, _⟩ := second
  simp only [Identified.fields, List.cons.injEq, Prod.mk.injEq, true_and,
    CanonicalValue.string.injEq, CanonicalValue.unsigned.injEq, and_true,
    optionalStringValue_injective.eq_iff, stateText_injective.eq_iff, reasonText_injective.eq_iff,
    (Option.map_injective terminalDispositionName_injective).eq_iff] at same
  simp only [same]

theorem domain_free (subject : Identified) : Char.ofNat 0 ∉ subject.domain.toList := by
  cases subject <;> rw [Identified.domain] <;> decide

theorem identified_injective {first second : Identified} (domains : first.domain = second.domain)
    (fields : first.fields = second.fields) : first = second := by
  cases first <;> cases second <;> try exact absurd domains (of_decide_eq_true rfl)
  case request.request => rw [request_fields_injective fields]
  case intent.intent => rw [intent_fields_injective fields]
  case event.event =>
      simp only [Identified.fields, List.cons.injEq, Prod.mk.injEq, true_and, and_true,
        CanonicalValue.string.injEq, CanonicalValue.unsigned.injEq] at fields
      simp only [fields]
  case event.transition => cases congrArg List.length fields
  case transition.event => cases congrArg List.length fields
  case transition.transition => rw [transition_fields_injective fields]

/-- Preimages determine their domain and fields, so requests, intents and transitions that differ
have different digests when the hash function has no collisions.

Proof: the domain ends at its zero byte, and of each value the bytes say where it ends, so equal
preimages are equal part by part. -/
theorem preimages_injective {rawDigest : List UInt8 → String}
    (collisionFree : Function.Injective rawDigest) :
    (∀ domain other fields others, Char.ofNat 0 ∉ domain.toList → Char.ofNat 0 ∉ other.toList →
      canonicalPreimage domain fields = canonicalPreimage other others →
      domain = other ∧ fields = others) ∧
    ∀ first second : Identified, first ≠ second →
      first.digest rawDigest ≠ second.digest rawDigest := by
  constructor
  · intro domain other fields others free otherFree same
    exact canonicalPreimage_injective free otherFree same
  · intro first second different same
    obtain ⟨domains, fields⟩ := canonicalPreimage_injective (domain_free first)
      (domain_free second) (collisionFree same)
    exact different (identified_injective domains fields)

/-- A hash function without collisions: each byte as a character. -/
def sampleDigest (bytes : List UInt8) : String :=
  String.ofList (bytes.map fun byte => Char.ofNat byte.toNat)

theorem sampleDigest_injective : Function.Injective sampleDigest := by
  intro first second same
  refine List.map_injective_iff.mpr (fun one other equal => ?_) (String.ofList_injective same)
  have valid (byte : UInt8) : (Char.ofNat byte.toNat).toNat = byte.toNat := by
    have bounded : byte.toNat < 55296 := Nat.lt_trans byte.toNat_lt (by decide)
    rw [Char.ofNat, dif_pos (Or.inl bounded)]
    rfl
  apply UInt8.toNat.inj
  rw [← valid one, equal, valid other]

/-- Two transitions of one intent that differ in their versions. -/
theorem preimages_injective_sample :
    (Identified.event "a" 1 2).digest sampleDigest ≠ (Identified.event "a" 1 3).digest sampleDigest :=
  (preimages_injective sampleDigest_injective).2 _ _ (by simp)

end StockAnalysis.Canonical
