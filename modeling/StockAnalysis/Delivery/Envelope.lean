import StockAnalysis.Delivery.Types

/-!
# Envelopes and policies

What makes an envelope, a receipt and a sink result well formed, and the policy catalog. The
catalog that a store is seeded with is compiled into the program; the transactions look a policy
up by kind and sub-kind and take the catalog as a parameter.
-/

namespace StockAnalysis.Delivery

variable (host : Host) (envelope : DeliveryEnvelope) (value : String)

/-! ## Policies -/

def policyVersion : Int := 7

def dailyBudgetLimit : Nat := 30

/-- The kinds that do not compete for the daily budget. -/
def PushKind.exempt : PushKind → Bool
  | .reviewMarket | .reviewLhb | .reviewSignal | .reviewFailure | .tomorrowWatch
  | .industryChain | .positionReview | .reviewBacktest | .watchlistTracking | .catalystReview
  | .preopenNewsHot | .attributionDaily | .g5bAttribution | .blockTradeIntradayConfirm
  | .ipoCatalyst | .snapshotStale | .dataMode | .marketActionAlert | .accountMode | .paperSell
  | .paperTrade | .newsAiAnalysis => true
  | _ => false

/-- Scope, cooldown and window of the kinds without sub-kinds. -/
def plainPolicies : List (PushKind × CooldownScope × Option Int × WindowMode) :=
  [ (.holdingPlan, .perTicket, some 1800, .rolling),
    (.holdingEvent, .global, none, .none),
    (.t0Advice, .perTicket, some 1800, .rolling),
    (.candidateTriggered, .perTicket, some 86400, .rolling),
    (.closeCall, .perTicket, some 86400, .rolling),
    (.forbiddenOps, .perTicket, some 3600, .rolling),
    (.stPriceLimitChanged, .perTicket, some 86400, .rolling),
    (.attributionDaily, .global, some 86400, .businessDateOnce),
    (.g5bAttribution, .global, none, .none),
    (.intradayMarket, .global, some 900, .rolling),
    (.newsCatalyst, .global, some 600, .rolling),
    (.blockTradeIntradayConfirm, .perTicket, some 86400, .businessDateOnce),
    (.ipoCatalyst, .global, some 86400, .businessDateOnce),
    (.snapshotStale, .global, some 86400, .businessDateOnce),
    (.limitBoards, .global, some 1800, .rolling),
    (.dataMode, .global, none, .none),
    (.auctionRepush, .global, some 600, .rolling),
    (.candidateInvalidated, .perTicket, some 1800, .rolling),
    (.announcement, .global, none, .none),
    (.analystUpgrade, .global, some 86400, .rolling),
    (.newsToIdea, .perTicket, some 1200, .rolling),
    (.auctionVolume, .global, some 600, .rolling),
    (.industryChainIntraday, .perTicket, some 1800, .rolling),
    (.newsFlashAggregated, .global, some 3600, .rolling),
    (.paperSell, .perTicket, some 300, .rolling),
    (.marketActionAlert, .perTicket, some 60, .rolling),
    (.accountMode, .global, none, .none),
    (.candidateBoard, .global, some 1800, .rolling),
    (.paperTrade, .perTicket, some 300, .rolling),
    (.reviewMarket, .global, some 86400, .businessDateOnce),
    (.reviewLhb, .global, some 86400, .businessDateOnce),
    (.reviewSignal, .global, some 86400, .businessDateOnce),
    (.reviewFailure, .global, some 86400, .businessDateOnce),
    (.tomorrowWatch, .global, some 86400, .businessDateOnce),
    (.eventCalendar, .global, some 86400, .rolling),
    (.sectorTop, .global, some 86400, .businessDateOnce),
    (.sectorAnomaly, .global, some 86400, .businessDateOnce),
    (.industryChain, .global, some 86400, .businessDateOnce),
    (.positionReview, .global, some 86400, .businessDateOnce),
    (.reviewBacktest, .global, some 86400, .businessDateOnce),
    (.watchlistTracking, .global, some 86400, .businessDateOnce),
    (.catalystReview, .global, some 86400, .businessDateOnce),
    (.preopenNewsHot, .global, some 86400, .businessDateOnce),
    (.newsAiAnalysis, .perTicket, some 1200, .rolling) ]

def plainPolicy : PushKind × CooldownScope × Option Int × WindowMode → PolicyRow
  | (pushKind, cooldownScope, baseCooldownSecs, windowMode) =>
    { pushKind := pushKind
      subKind := .none
      cooldownScope := cooldownScope
      baseCooldownSecs := baseCooldownSecs
      overrideCooldownSecs := none
      windowMode := windowMode
      countsAgainstDailyBudget := !pushKind.exempt
      policyVersion := policyVersion }

def dailyReportPolicy (subKind : DeliverySubKind) (overrideCooldownSecs : Option Int) : PolicyRow :=
  { pushKind := .dailyReport
    subKind := subKind
    cooldownScope := .global
    baseCooldownSecs := some 86400
    overrideCooldownSecs := overrideCooldownSecs
    windowMode := .rolling
    countsAgainstDailyBudget := true
    policyVersion := policyVersion }

def reviewProviderTopNPolicy : PolicyRow :=
  { pushKind := .reviewProviderTopN
    subKind := .none
    cooldownScope := .global
    baseCooldownSecs := some 86400
    overrideCooldownSecs := none
    windowMode := .businessDateOnce
    countsAgainstDailyBudget := false
    policyVersion := policyVersion }

def compiledPolicyCatalog : List PolicyRow :=
  plainPolicies.map plainPolicy ++
    [dailyReportPolicy .none none, dailyReportPolicy .factorIC none,
      dailyReportPolicy .sectorTier (some 1800), dailyReportPolicy .capitalVerify (some 1800),
      reviewProviderTopNPolicy]

def loadPolicy (catalog : List PolicyRow) (pushKind : PushKind) (subKind : DeliverySubKind) :
    Outcome PolicyRow :=
  okOr (catalog.find? fun row => row.pushKind = pushKind ∧ row.subKind = subKind)
    (.policyMismatch
      ("missing registered policy for " ++ pushKind.asStr ++ "/" ++ subKind.asStr))

/-! ## Envelopes -/

def currentEnvelopeVersion : Int := 1

/-- `text.trim() == text`. -/
def isTrimmed (text : String) : Bool :=
  !(text.toList.head?.any isWhitespace) && !(text.toList.getLast?.any isWhitespace)

def validFoundationText : Bool :=
  value ≠ "" && value.utf8ByteSize ≤ 512 && isTrimmed value && !value.toList.contains '\x00'

def isLowerSha256Hex : Bool :=
  value.utf8ByteSize = 64 && value.toList.all fun c => c.isDigit || ('a' ≤ c && c ≤ 'f')

/-- The text is the word, or the head followed by a valid text. -/
def wordOrTagged (word head value : String) : Bool :=
  value = word ||
    (head.toList.isPrefixOf value.toList &&
      validFoundationText (String.ofList (value.toList.drop head.toList.length)))

def validateBusinessDate : Outcome Unit :=
  require (host.validBusinessDate value = true)
    (.invalidEnvelope "business_date must be YYYY-MM-DD")

def validateScopeKey (scope : CooldownScope) (scopeKey : String) : Outcome Unit :=
  match scope with
  | .global => require (scopeKey = "GLOBAL")
      (.invalidEnvelope "Global cooldown scope requires scope_key=GLOBAL")
  | .perTicket => require (blank scopeKey = false ∧ scopeKey ≠ "GLOBAL")
      (.invalidEnvelope "PerTicket cooldown scope requires a canonical typed instrument key")

/-- One entry of a table of field checks. -/
def validateField (valid : String → Bool) (complaint : String) (entry : String × String) :
    Outcome Unit :=
  require (valid entry.2 = true)
    (.invalidEnvelope ("foundation delivery binding field " ++ entry.1 ++ complaint))

def FoundationDeliveryBinding.validate (binding : FoundationDeliveryBinding) : Outcome Unit := do
  require (binding.schemaVersion = 1)
    (.invalidEnvelope "foundation delivery binding schema version is invalid")
  each (fun _ entry => validateField validFoundationText " is invalid" entry) ()
    [("namespace", binding.nameSpace), ("unit_id", binding.unitId), ("subject", binding.subject),
      ("audience", binding.audience), ("template_id", binding.templateId),
      ("template_version", binding.templateVersion),
      ("required_channel", binding.requiredChannel)]
  validateBusinessDate host binding.businessDate
  each (fun _ entry => validateField isLowerSha256Hex " is not lowercase SHA-256" entry) ()
    [("application_decision_id", binding.applicationDecisionId), ("intent_id", binding.intentId),
      ("occurrence_id", binding.occurrenceId),
      ("delivery_subject_hash", binding.deliverySubjectHash),
      ("rendered_sha256", binding.renderedSha256),
      ("source_evidence_fingerprint", binding.sourceEvidenceFingerprint)]
  require (wordOrTagged "Production" "Test:" binding.nameSpace = true)
    (.invalidEnvelope "foundation delivery binding namespace is invalid")
  require (wordOrTagged "Global" "Entity:" binding.subject = true)
    (.invalidEnvelope "foundation delivery binding subject is invalid")

def DeliveryEnvelope.material : DecisionIdentityMaterial :=
  { policyVersion := envelope.policyVersion
    businessDate := envelope.businessDate
    pushKind := envelope.pushKind
    subKind := envelope.subKind
    cooldownScope := envelope.cooldownScope
    scopeKey := envelope.scopeKey
    scheduleOccurrenceIdentity := envelope.scheduleOccurrenceIdentity
    sourceEvidenceFingerprint := envelope.sourceEvidenceFingerprint
    deliverySubjectHash := envelope.deliverySubjectHash
    renderedContentSha256 := envelope.renderedContentSha256 }

/-- The decision identity that the canonical evidence of the envelope gives. -/
def DeliveryEnvelope.expectedIdentity : Outcome String :=
  match envelope.foundationBinding with
  | some binding => do
      binding.validate host
      require (binding.businessDate = envelope.businessDate ∧
          binding.occurrenceId = envelope.scheduleOccurrenceIdentity ∧
          binding.deliverySubjectHash = envelope.deliverySubjectHash ∧
          binding.renderedSha256 = envelope.renderedContentSha256 ∧
          binding.sourceEvidenceFingerprint = envelope.sourceEvidenceFingerprint)
        (.invalidEnvelope "foundation delivery binding does not match envelope fields")
      pure binding.applicationDecisionId
  | none => pure (host.decisionIdentity envelope.material)

/-- Bytes are present and have the recorded digest. -/
def digestMatches (bytes : List UInt8) (sha256 : String) : Prop :=
  bytes ≠ [] ∧ host.sha256Bytes bytes = sha256

instance (host : Host) (bytes : List UInt8) (sha256 : String) :
    Decidable (digestMatches host bytes sha256) :=
  inferInstanceAs (Decidable (_ ∧ _))

def validateTaskBinding : Option TaskBinding → Outcome Unit
  | some binding => require
      (digestMatches host binding.transitionBasisCanonical binding.transitionBasisSha256)
      (.invalidEnvelope "task transition basis hash mismatch")
  | none => pure ()

def DeliveryEnvelope.validate : Outcome Unit := do
  validateBusinessDate host envelope.businessDate
  validateScopeKey envelope.cooldownScope envelope.scopeKey
  require (envelope.envelopeVersion = currentEnvelopeVersion)
    (.invalidEnvelope ("unsupported envelope version " ++ toString envelope.envelopeVersion))
  require (digestMatches host envelope.renderedContent envelope.renderedContentSha256)
    (.invalidEnvelope "rendered content hash mismatch")
  require (digestMatches host envelope.sourceBindingCanonical envelope.sourceBindingSha256)
    (.invalidEnvelope "source binding hash mismatch")
  require (envelope.providerObservedAt.all (fun value => !blank value) = true ∧
      envelope.providerAsOf.all (fun value => !blank value) = true ∧
      envelope.originalBatchIds.all (fun value => !blank value) = true)
    (.invalidEnvelope "provider evidence metadata must not contain empty values")
  validateTaskBinding host envelope.taskBinding
  let expected ← envelope.expectedIdentity host
  require (expected = envelope.decisionIdentity)
    (.invalidEnvelope "decision identity does not match canonical evidence")

/-- `parse_envelope`: a stored envelope is validated whenever it is read back. -/
def parseEnvelope : Outcome DeliveryEnvelope := do
  envelope.validate host
  pure envelope

/-- `canonical_sha256`. -/
def DeliveryEnvelope.canonicalSha256 : Outcome String := do
  envelope.validate host
  pure (host.envelopeSha256 envelope)

/-! ## Sink results -/

def TypedReceipt.validate (receipt : TypedReceipt) : Outcome Unit :=
  require (blank receipt.channel = false ∧ blank receipt.provider = false ∧
      blank receipt.messageId = false ∧
      receipt.platformMessageId.all (fun value => !blank value) = true ∧
      receipt.latencyMs.all (fun value => 0 ≤ value) = true)
    (.invalidEnvelope "accepted receipt requires non-blank identities and non-negative latency")

def canonicalSinkResult : AuthoritativeSinkResult → Outcome Canonical
  | .accepted receipt => do
      receipt.validate
      pure [("kind", .text "Accepted"), ("receipt", .receipt receipt)]
  | .rejected rejection => do
      require (blank rejection.reasonCode = false ∧ rejection.evidence ≠ [])
        (.invalidEnvelope "typed rejection requires reason and evidence")
      pure [("kind", .text "Rejected"), ("rejection", .rejection rejection)]
  | .uncertain uncertainty => do
      require (blank uncertainty.reasonCode = false ∧ uncertainty.evidence ≠ [])
        (.invalidEnvelope "typed uncertainty requires reason and evidence")
      pure [("kind", .text "Uncertain"), ("uncertainty", .uncertainty uncertainty)]

end StockAnalysis.Delivery
