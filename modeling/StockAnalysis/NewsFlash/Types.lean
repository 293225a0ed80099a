import StockAnalysis.Foundation.OrdMap
import StockAnalysis.Foundation.Outcome
import StockAnalysis.Foundation.Values

/-!
# Records of the NewsFlash delivery audit

Every NewsFlash push leaves a trace in the yearly delivery audit: an attempt is appended before the
sink is called, and one terminal record that binds it when the sink has answered. An envelope of the
audit holds JSON; the model keeps the two members of the payload that the readers look at before
they parse it, and the outcome of the parse. A parsed record has the schema version of its payload.

The records are those of `event/push_record.rs` and `event/envelope.rs`, with the members that the
readers of `event/mod.rs` use. Instants are nanoseconds, and a calendar date is a day number.
-/

namespace StockAnalysis.NewsFlash

/-! ## Stages and windows -/

inductive NewsFlashTransactionStage where
  | sinkAttempt | accepted | definitivelyRejected | uncertain
deriving DecidableEq

/-- The stage of a record that ends an attempt. -/
inductive TerminalState where
  | accepted | definitivelyRejected | uncertain
deriving DecidableEq

namespace NewsFlashTransactionStage

def asStr : NewsFlashTransactionStage → String
  | .sinkAttempt => "SinkAttempt"
  | .accepted => "Accepted"
  | .definitivelyRejected => "DefinitivelyRejected"
  | .uncertain => "Uncertain"

def parse (value : String) : Option NewsFlashTransactionStage :=
  if value = "SinkAttempt" then some .sinkAttempt
  else if value = "Accepted" then some .accepted
  else if value = "DefinitivelyRejected" then some .definitivelyRejected
  else if value = "Uncertain" then some .uncertain
  else none

@[simp]
theorem parse_asStr (stage : NewsFlashTransactionStage) : parse stage.asStr = some stage := by
  cases stage <;> decide

/-- Both readers split the stages into the attempt and the terminals. -/
def terminal : NewsFlashTransactionStage → Option TerminalState
  | .sinkAttempt => none
  | .accepted => some .accepted
  | .definitivelyRejected => some .definitivelyRejected
  | .uncertain => some .uncertain

end NewsFlashTransactionStage

def TerminalState.stage : TerminalState → NewsFlashTransactionStage
  | .accepted => .accepted
  | .definitivelyRejected => .definitivelyRejected
  | .uncertain => .uncertain

@[simp]
theorem TerminalState.terminal_stage (state : TerminalState) :
    state.stage.terminal = some state := by
  cases state <;> rfl

theorem NewsFlashTransactionStage.terminal_eq_none {stage : NewsFlashTransactionStage} :
    stage.terminal = none ↔ stage = .sinkAttempt := by
  cases stage <;> simp [terminal]

theorem NewsFlashTransactionStage.terminal_eq_some {stage : NewsFlashTransactionStage}
    {state : TerminalState} : stage.terminal = some state ↔ stage = state.stage := by
  cases stage <;> cases state <;> simp [terminal, TerminalState.stage]

theorem TerminalState.stage_injective {first second : TerminalState}
    (same : first.stage = second.stage) : first = second := by
  cases first <;> cases second <;> first | rfl | cases same

inductive NewsFlashReconcileError where
  | authorityUnavailable (reason : String)
  | invalidChain (reason : String)
  | recordConflict (reason : String)
deriving DecidableEq

abbrev Outcome (α : Type) := Except NewsFlashReconcileError α

/-- The four aggregate windows of a business day. -/
inductive NewsFlashWindow where
  | h0930 | h1130 | h1300 | h1500
deriving DecidableEq

namespace NewsFlashWindow

def parse (label : String) : Outcome NewsFlashWindow :=
  if label = "09:30" then .ok .h0930
  else if label = "11:30" then .ok .h1130
  else if label = "13:00" then .ok .h1300
  else if label = "15:00" then .ok .h1500
  else .error (.recordConflict ("unsupported aggregate window " ++ label))

def label : NewsFlashWindow → String
  | .h0930 => "09:30"
  | .h1130 => "11:30"
  | .h1300 => "13:00"
  | .h1500 => "15:00"

def decisionKey (window : NewsFlashWindow) : String :=
  "window:" ++ window.label

instance {property : NewsFlashWindow → Prop} [DecidablePred property] :
    Decidable (∀ window, property window) :=
  decidable_of_iff (property .h0930 ∧ property .h1130 ∧ property .h1300 ∧ property .h1500)
    ⟨fun ⟨first, second, third, fourth⟩ window => match window with
      | .h0930 => first
      | .h1130 => second
      | .h1300 => third
      | .h1500 => fourth,
    fun all => ⟨all _, all _, all _, all _⟩⟩

theorem label_injective {first second : NewsFlashWindow} (same : first.label = second.label) :
    first = second := by
  revert same
  cases first <;> cases second <;> decide

theorem decisionKey_injective {first second : NewsFlashWindow}
    (same : first.decisionKey = second.decisionKey) : first = second := by
  revert same
  cases first <;> cases second <;> decide +kernel

end NewsFlashWindow

/-! ## Records -/

/-- One provider record shown by a push. -/
structure NewsFlashAuditSource where
  eventId : String
  provider : String
  source : String
  publishedAt : Instant
  observedAt : Instant
  batchId : String
deriving DecidableEq

/-- The members of a delivery record that the readers use. -/
structure PushRecord where
  kind : String
  ts : Instant
  channel : String
  renderedLen : Nat
  auditSchemaVersion : Option Nat
  newsFlashSources : Option (List NewsFlashAuditSource)
  newsFlashReservationSha256 : Option String
  newsFlashEvidenceSha256 : Option String
  newsFlashRenderSha256 : Option String
  newsFlashBusinessDate : Option Day
  newsFlashDecisionKey : Option String
  newsFlashTransactionStage : Option String
  newsFlashAttemptOrdinal : Option Nat
  newsFlashAttemptObservedAt : Option Instant
  newsFlashSinkAttemptIdentity : Option String
  newsFlashSinkAttemptSha256 : Option String
  newsFlashAttemptEnvelopeId : Option String

inductive PushRecordError where
  | eventTypeMismatch (text : String)
  | missingField (text : String)
  | invalidFieldType (text : String)
  | invalidFieldValue (text : String)

/-- The text of an error, as the readers repeat it. -/
def PushRecordError.display : PushRecordError → String
  | .eventTypeMismatch text =>
    "event_type mismatch: expected 'push.delivery.audit', got '" ++ text ++ "'"
  | .missingField text => "missing required field: " ++ text
  | .invalidFieldType text => "invalid field type: " ++ text
  | .invalidFieldValue text => "invalid field value: " ++ text

/-- One envelope of the audit: its id, the schema version and the kind that its payload names, and
what `PushRecord::try_from` makes of it. -/
structure EventEnvelope where
  id : String
  schemaVersion : Option Nat
  kind : Option String
  parsed : Except PushRecordError PushRecord
  /-- The parser takes the version of a record from the payload. -/
  versioned : ∀ record, parsed = .ok record → record.auditSchemaVersion = schemaVersion

def newsFlashDeliveryAuditSchemaVersion : Nat := 5

def newsFlashCriticalAuditSchemaVersion : Nat := 7

def newsFlashGlobalCriticalAuditSchemaVersion : Nat := 8

/-- One of the three versions under which NewsFlash transactions are written. -/
def newsFlashVersion (version : Option Nat) : Bool :=
  version = some newsFlashDeliveryAuditSchemaVersion ||
    version = some newsFlashCriticalAuditSchemaVersion ||
    version = some newsFlashGlobalCriticalAuditSchemaVersion

def aggregatedKind : String := "news_flash_aggregated_v1"

def criticalKind : String := "news_flash_critical_v1"

variable {envelope : EventEnvelope} {record : PushRecord}

namespace PushRecord

/-- `PushRecord::try_from_authoritative`. -/
def tryFromAuthoritative (envelope : EventEnvelope) : Except PushRecordError PushRecord := do
  let record ← envelope.parsed
  require (record.auditSchemaVersion.any (· ∈ [2, 3, 4, 5, 7, 8, 6]) = true)
    (.invalidFieldValue
      "authoritative delivery audit requires schema v2, v3, v4, v5, v6 or v7 or v8")
  pure record

theorem tryFromAuthoritative_version (read : tryFromAuthoritative envelope = .ok record) :
    record.auditSchemaVersion = envelope.schemaVersion := by
  simp only [tryFromAuthoritative, bind_eq_ok, pure_eq_ok] at read
  obtain ⟨_, parsed, _, _, rfl⟩ := read
  exact envelope.versioned _ parsed

/-- The stage of a record, when it names one. -/
def stage (record : PushRecord) : Option NewsFlashTransactionStage :=
  record.newsFlashTransactionStage.bind NewsFlashTransactionStage.parse

end PushRecord

/-- A record of a window's transaction on a business day, in the given stage. -/
def PushRecord.Of (record : PushRecord) (day : Day) (window : NewsFlashWindow)
    (stage : NewsFlashTransactionStage) : Prop :=
  record.kind = aggregatedKind ∧ record.newsFlashBusinessDate = some day ∧
    record.newsFlashDecisionKey = some window.decisionKey ∧ record.stage = some stage

instance (record : PushRecord) (day : Day) (window : NewsFlashWindow)
    (stage : NewsFlashTransactionStage) : Decidable (record.Of day window stage) :=
  inferInstanceAs (Decidable (_ ∧ _))

/-- The envelope is read as the record. -/
abbrev EventEnvelope.Reads (envelope : EventEnvelope) (record : PushRecord) : Prop :=
  PushRecord.tryFromAuthoritative envelope = .ok record

/-- The envelope holds a record with the property. -/
def EventEnvelope.holds (envelope : EventEnvelope) (property : PushRecord → Bool) : Bool :=
  match PushRecord.tryFromAuthoritative envelope with
  | .ok record => property record
  | .error _ => false

theorem EventEnvelope.holds_iff {property : PushRecord → Bool} :
    envelope.holds property = true ↔ ∃ record, envelope.Reads record ∧ property record = true := by
  unfold EventEnvelope.holds EventEnvelope.Reads
  cases PushRecord.tryFromAuthoritative envelope <;> simp

/-- The envelope records an attempt of the window. -/
def attemptOf (day : Day) (window : NewsFlashWindow) (envelope : EventEnvelope) : Bool :=
  envelope.holds fun record => record.Of day window .sinkAttempt

/-- The envelope records a terminal of the window's attempt with the given envelope id. -/
def terminalOf (day : Day) (window : NewsFlashWindow) (attemptId : String)
    (envelope : EventEnvelope) : Bool :=
  envelope.holds fun record => record.newsFlashAttemptEnvelopeId = some attemptId ∧
    (record.Of day window .accepted ∨ record.Of day window .definitivelyRejected ∨
      record.Of day window .uncertain)

variable {day : Day} {window : NewsFlashWindow}

theorem attemptOf_iff :
    attemptOf day window envelope = true ↔ ∃ record,
      envelope.Reads record ∧ record.Of day window .sinkAttempt := by
  simp [attemptOf, EventEnvelope.holds_iff]

theorem terminalOf_iff {attemptId : String} :
    terminalOf day window attemptId envelope = true ↔ ∃ record state, envelope.Reads record ∧
      record.newsFlashAttemptEnvelopeId = some attemptId ∧
      record.Of day window (TerminalState.stage state) := by
  simp only [terminalOf, EventEnvelope.holds_iff, decide_eq_true_eq]
  constructor
  · rintro ⟨record, read, named, stage | stage | stage⟩
    · exact ⟨record, .accepted, read, named, stage⟩
    · exact ⟨record, .definitivelyRejected, read, named, stage⟩
    · exact ⟨record, .uncertain, read, named, stage⟩
  · rintro ⟨record, state, read, named, stage⟩
    refine ⟨record, read, named, ?_⟩
    cases state with
    | accepted => exact Or.inl stage
    | definitivelyRejected => exact Or.inr (Or.inl stage)
    | uncertain => exact Or.inr (Or.inr stage)

theorem attemptOf_eq_false (other : ∀ record, envelope.Reads record →
      ¬ record.Of day window .sinkAttempt) : attemptOf day window envelope = false := by
  rw [Bool.eq_false_iff]
  intro found
  obtain ⟨record, read, isOf⟩ := attemptOf_iff.mp found
  exact other record read isOf

theorem terminalOf_eq_false (other : ∀ record state, envelope.Reads record →
      ¬ record.Of day window (TerminalState.stage state)) (attemptId : String) :
    terminalOf day window attemptId envelope = false := by
  rw [Bool.eq_false_iff]
  intro found
  obtain ⟨record, state, read, _, isOf⟩ := terminalOf_iff.mp found
  exact other record state read isOf

/-- An aggregate record of the day in the envelope carries the delivery schema version. -/
def EventEnvelope.Delivered (envelope : EventEnvelope) (day : Day) : Prop :=
  ∀ record, PushRecord.tryFromAuthoritative envelope = .ok record →
    record.kind = aggregatedKind → record.newsFlashBusinessDate = some day →
    envelope.schemaVersion = some newsFlashDeliveryAuditSchemaVersion

/-- The envelope of a record that was serialized and appended as it is. -/
def EventEnvelope.ofRecord (id : String) (record : PushRecord) : EventEnvelope where
  id := id
  schemaVersion := record.auditSchemaVersion
  kind := some record.kind
  parsed := .ok record
  versioned := by
    rintro _ ⟨⟩
    rfl

/-! ## Decision keys -/

/-- `text.strip_prefix(head)`. -/
def stripHead (head text : String) : Option String :=
  if startsWith text head then some (String.ofList (text.toList.drop head.toList.length)) else none

/-- `accepted_window_label`. -/
def acceptedWindowLabel (decisionKey : String) : Outcome String := do
  let label ← okOr (stripHead "window:" decisionKey)
    (.recordConflict "aggregate decision key must use window:<label>")
  let window ← NewsFlashWindow.parse label
  pure window.label

@[simp]
theorem acceptedWindowLabel_decisionKey (window : NewsFlashWindow) :
    acceptedWindowLabel window.decisionKey = .ok window.label := by
  cases window <;> decide +kernel

inductive AcceptedDecisionIdentity where
  | event (eventId : String)
  | window (label : String)

/-- `accepted_decision_identity`: what the acceptance of a record would accept. -/
def acceptedDecisionIdentity (record : PushRecord) : Outcome AcceptedDecisionIdentity := do
  let decisionKey ← okOr record.newsFlashDecisionKey (.recordConflict "decision key missing")
  if record.kind = criticalKind then
    require (startsWith decisionKey "window:" = false)
      (.recordConflict "critical decision key must be an event id")
    pure (.event decisionKey)
  else if record.kind = aggregatedKind then
    let label ← acceptedWindowLabel decisionKey
    pure (.window label)
  else .error (.recordConflict ("unsupported NewsFlash push kind " ++ record.kind))

/-- A record under the key of a window is an aggregate of that window. -/
theorem acceptedDecisionIdentity_window {identity : AcceptedDecisionIdentity}
    (keyed : record.newsFlashDecisionKey = some window.decisionKey)
    (valid : acceptedDecisionIdentity record = .ok identity) :
    record.kind = aggregatedKind ∧ identity = .window window.label := by
  have headed : startsWith window.decisionKey "window:" = true := by
    cases window <;> decide +kernel
  simp only [acceptedDecisionIdentity, keyed, okOr, ok_bind] at valid
  split at valid
  · simp [require, headed] at valid
  · split at valid
    · rename_i aggregated
      simp only [acceptedWindowLabel_decisionKey, ok_bind, pure_eq_ok] at valid
      exact ⟨aggregated, valid.symm⟩
    · cases valid

/-- An aggregate record under the key of a window accepts the window. -/
theorem acceptedDecisionIdentity_eq (keyed : record.newsFlashDecisionKey = some window.decisionKey)
    (aggregated : record.kind = aggregatedKind) :
    acceptedDecisionIdentity record = .ok (.window window.label) := by
  have different : aggregatedKind ≠ criticalKind := by decide
  simp [acceptedDecisionIdentity, keyed, okOr, aggregated, different, pure, Except.pure]

/-! ## Binding -/

/-- The members in which a terminal record repeats its attempt. -/
def PushRecord.Binds (attempt terminal : PushRecord) : Prop :=
  attempt.auditSchemaVersion = terminal.auditSchemaVersion ∧
  attempt.kind = terminal.kind ∧
  attempt.channel = terminal.channel ∧
  attempt.renderedLen = terminal.renderedLen ∧
  attempt.newsFlashBusinessDate = terminal.newsFlashBusinessDate ∧
  attempt.newsFlashDecisionKey = terminal.newsFlashDecisionKey ∧
  attempt.newsFlashReservationSha256 = terminal.newsFlashReservationSha256 ∧
  attempt.newsFlashSources = terminal.newsFlashSources ∧
  attempt.newsFlashEvidenceSha256 = terminal.newsFlashEvidenceSha256 ∧
  attempt.newsFlashRenderSha256 = terminal.newsFlashRenderSha256 ∧
  attempt.newsFlashAttemptOrdinal = terminal.newsFlashAttemptOrdinal ∧
  attempt.newsFlashAttemptObservedAt = terminal.newsFlashAttemptObservedAt ∧
  attempt.newsFlashSinkAttemptIdentity = terminal.newsFlashSinkAttemptIdentity ∧
  attempt.newsFlashSinkAttemptSha256 = terminal.newsFlashSinkAttemptSha256

instance (attempt terminal : PushRecord) : Decidable (attempt.Binds terminal) :=
  inferInstanceAs (Decidable (_ ∧ _))

namespace PushRecord.Binds

variable {attempt terminal : PushRecord} (binds : attempt.Binds terminal)
include binds

theorem kind : attempt.kind = terminal.kind :=
  binds.2.1

theorem date : attempt.newsFlashBusinessDate = terminal.newsFlashBusinessDate :=
  binds.2.2.2.2.1

theorem key : attempt.newsFlashDecisionKey = terminal.newsFlashDecisionKey :=
  binds.2.2.2.2.2.1

theorem reservation :
    attempt.newsFlashReservationSha256 = terminal.newsFlashReservationSha256 :=
  binds.2.2.2.2.2.2.1

end PushRecord.Binds

/-- A terminal that repeats an attempt of a window is a record of the window. -/
theorem PushRecord.Binds.isOf {attempt terminal : PushRecord} (binds : attempt.Binds terminal)
    {stage other : NewsFlashTransactionStage} (isOf : attempt.Of day window stage)
    (inStage : terminal.stage = some other) :
    terminal.Of day window other :=
  ⟨binds.kind.symm.trans isOf.1, binds.date.symm.trans isOf.2.1,
    binds.key.symm.trans isOf.2.2.1, inStage⟩

/-- `validate_terminal_attempt_binding`. -/
def validateTerminalAttemptBinding (attempt terminal : PushRecord) : Outcome PUnit :=
  require (attempt.Binds terminal)
    (.recordConflict "terminal does not exactly bind its sink attempt")

end StockAnalysis.NewsFlash
