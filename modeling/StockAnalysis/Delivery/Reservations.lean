import StockAnalysis.Delivery.Journal

/-!
# Budget slots, cooldowns and business-date claims

A decision that is admitted reserves a generation: a slot of the daily budget when its policy
counts against it, a cooldown reservation when its policy has a window, the head of a rolling
scope, and once for all the claim of a business date. An attempt attaches itself to the
reservations, and the settlement of a decision moves both to the same state.
-/

namespace StockAnalysis.Delivery

variable (host : Host) (reservations : Reservations) (journal : Journal)
  (envelope : DeliveryEnvelope) (decision : Decision) (toState : ReservationState)
  (policy : PolicyRow)

/-! ## Admission -/

/-- The budget slots in use on a business date. -/
def occupiedSlots (budgets : Table BudgetReservation.identity) (businessDate : String) : List Nat :=
  (budgets.rows.filter fun row => row.businessDate = businessDate ∧ row.state.isActive = true).map
    BudgetReservation.slotNo

def firstAvailableBudgetSlot (budgets : Table BudgetReservation.identity) (businessDate : String) :
    Option Nat :=
  (List.range' 1 dailyBudgetLimit).find? fun slot => slot ∉ occupiedSlots budgets businessDate

/-- An undecided reservation blocks its scope, an accepted one until its recorded time. -/
def CooldownHead.conflicts (head : CooldownHead) (admissionAt : Instant) : Bool :=
  match head.state with
  | .reserved | .uncertain => true
  | .accepted => head.blockedUntil.all fun until_ => admissionAt < parseTimestamp until_
  | .released => false

def rollingHeadConflicts (heads : Table CooldownHead.scope) (envelope : DeliveryEnvelope)
    (admissionAt : Instant) : Bool :=
  (heads.get? envelope.scope).any fun head => head.conflicts admissionAt

inductive PrepareDenial where
  | invalidPolicy (reason : String)
  | invalidSinkCardinality (count : Nat)
  | cooldownConflict (reason : String)
  | businessDateClaimed (original : String)
  | dailyBudgetFull

def PrepareDenial.reasonCode : PrepareDenial → String
  | .invalidPolicy _ => "invalid_registered_policy_projection"
  | .invalidSinkCardinality _ => "authoritative_sink_cardinality"
  | .cooldownConflict _ => "cooldown_conflict"
  | .businessDateClaimed _ => "business_date_once_claimed"
  | .dailyBudgetFull => "daily_budget_full"

def PrepareDenial.evidence : PrepareDenial → Canonical
  | .invalidPolicy reason | .cooldownConflict reason => [("reason", .text reason)]
  | .invalidSinkCardinality count => [("authoritative_sink_count", .number count)]
  | .businessDateClaimed original => [("original_decision_identity", .text original)]
  | .dailyBudgetFull => [("daily_budget_limit", .number dailyBudgetLimit)]

/-- The denial by the window of the policy. -/
def windowDenial (mode : WindowMode) (admissionAt : Instant) : Option PrepareDenial :=
  match mode with
  | .none => none
  | .rolling =>
    ((reservations.heads.get? envelope.scope).filter fun head => head.conflicts admissionAt).map
      fun head => .cooldownConflict ("active " ++ head.state.asStr ++ " cooldown head")
  | .businessDateOnce =>
    (reservations.claims.get? envelope.claimKey).map fun claim =>
      .businessDateClaimed claim.decision

def evaluatePrepareDenial (sinkCount : Nat) (admissionAt : Instant) : Option PrepareDenial :=
  if envelope.policyVersion ≠ policy.policyVersion ∨
      envelope.cooldownScope ≠ policy.cooldownScope then
    some (.invalidPolicy ("envelope policy/version differs from registered " ++
      policy.pushKind.asStr ++ "/" ++ policy.subKind.asStr ++ " policy"))
  else if sinkCount ≠ 1 then some (.invalidSinkCardinality sinkCount)
  else match windowDenial reservations envelope policy.windowMode admissionAt with
    | some denial => some denial
    | none =>
      if policy.countsAgainstDailyBudget = true ∧
          firstAvailableBudgetSlot reservations.budgets envelope.businessDate = none then
        some .dailyBudgetFull
      else none

/-! ## Reserving a generation -/

/-- A new claim of a business date. -/
def insertClaim (reservedAt : Instant) : Outcome (Reservations × Journal) := do
  let (auditIdentity, journal) ← enqueueAudit host journal envelope.decisionIdentity none
    .businessDateOnceClaimed
    [("business_date", .text envelope.businessDate), ("push_kind", .text envelope.pushKind.asStr),
      ("sub_kind", .text envelope.subKind.asStr), ("scope_key", .text envelope.scopeKey),
      ("decision_identity", .text envelope.decisionIdentity),
      ("policy_version", .number policy.policyVersion)] reservedAt
  let claim : BusinessDateClaim :=
    { key := envelope.claimKey
      decision := envelope.decisionIdentity
      policyVersion := policy.policyVersion
      claimedAt := timestamp reservedAt
      auditIdentity := auditIdentity }
  let claims ← insertRow reservations.claims claim
    (fun old => old.decision = envelope.decisionIdentity ∨ old.auditIdentity = auditIdentity)
    "business_date_once_claims"
  pure ({ reservations with claims := claims }, journal)

/-- The claim of the business date, made at most once and never by another decision. -/
def claimBusinessDate (reservedAt : Instant) : Outcome (Reservations × Journal) :=
  if policy.windowMode = .businessDateOnce then
    match reservations.claims.get? envelope.claimKey with
    | some claim => do
        require (claim.decision = envelope.decisionIdentity)
          (.policyMismatch ("BusinessDateOnce claim belongs to " ++ claim.decision))
        pure (reservations, journal)
    | none => insertClaim host reservations journal envelope policy reservedAt
  else pure (reservations, journal)

def cooldownIdentity (decision : String) (generation : Nat) : String :=
  host.stableIdentity "delivery-cooldown-reservation-v1" [decision, toString generation]

def newCooldown (generation : Nat) (reservedAt : Instant) : CooldownReservation :=
  { identity := cooldownIdentity host envelope.decisionIdentity generation
    decision := envelope.decisionIdentity
    generation := generation
    attempt := none
    businessDate := envelope.businessDate
    scope := envelope.scope
    policyVersion := policy.policyVersion
    effectiveCooldownSecs := policy.effectiveCooldownSecs
    windowMode := policy.windowMode
    reservedAt := timestamp reservedAt
    acceptedAt := none
    blockedUntil := none
    releasedAt := none
    state := .reserved }

def CooldownHead.taken (head : CooldownHead) (reservation : String) : CooldownHead :=
  { head with
    currentReservation := reservation
    state := .reserved
    blockedUntil := none
    version := head.version + 1 }

theorem CooldownHead.taken_scope (reservation : String) (head : CooldownHead) :
    (head.taken reservation).scope = head.scope :=
  rfl

/-- The head of a scope moves to a new reservation. -/
def takeHead (heads : Table CooldownHead.scope) (scope : Scope) (reservation : String) :
    Outcome (Table CooldownHead.scope) :=
  match heads.get? scope with
  | some _ => pure (heads.update (fun head => head.scope = scope)
      (fun head => head.taken reservation) (CooldownHead.taken_scope reservation))
  | none => okOr (heads.insert? ⟨scope, reservation, .reserved, none, 1⟩)
      (.constraint "cooldown_heads")

/-- The heads after a reservation: only a rolling window has one. -/
def takeHeadIn (mode : WindowMode) (heads : Table CooldownHead.scope) (scope : Scope)
    (reservation : String) : Outcome (Table CooldownHead.scope) :=
  if mode = .rolling then takeHead heads scope reservation else pure heads

def reserveCooldown (generation : Nat) (reservedAt : Instant) :
    Outcome (Option String × Reservations × Journal) :=
  if policy.windowMode = .none then pure (none, reservations, journal)
  else do
    let row := newCooldown host envelope policy generation reservedAt
    let cooldowns ← insertRow reservations.cooldowns row
      (fun old => old.decision = row.decision ∧ old.generation = generation)
      "cooldown_reservations"
    let journal ← recordCooldownEvent host journal row.identity row.decision none .reserved
      [("reservation_generation", .number generation),
        ("window_mode", .text policy.windowMode.asStr)] reservedAt
    let heads ← takeHeadIn policy.windowMode reservations.heads row.scope row.identity
    pure (some row.identity,
      { reservations with cooldowns := cooldowns, heads := heads }, journal)

def newBudget (generation slotNo : Nat) (reservedAt : Instant) : BudgetReservation :=
  { identity := host.stableIdentity "delivery-budget-reservation-v1"
      [envelope.decisionIdentity, toString generation]
    decision := envelope.decisionIdentity
    generation := generation
    attempt := none
    businessDate := envelope.businessDate
    slotNo := slotNo
    reservedAt := timestamp reservedAt
    acceptedAt := none
    releasedAt := none
    state := .reserved }

/-- The unique constraints of budget slots: one row for a generation of a decision, one active row
for a decision, and one active row for a slot of a date. -/
def BudgetReservation.clashes (row old : BudgetReservation) : Prop :=
  (old.decision = row.decision ∧ old.generation = row.generation) ∨
    (old.state.isActive = true ∧ old.decision = row.decision) ∨
    (old.state.isActive = true ∧ old.businessDate = row.businessDate ∧ old.slotNo = row.slotNo)

instance (row : BudgetReservation) : DecidablePred row.clashes :=
  fun _ => inferInstanceAs (Decidable (_ ∨ _))

def reserveBudget (generation : Nat) (reservedAt : Instant) :
    Outcome (Option String × Reservations × Journal) :=
  if policy.countsAgainstDailyBudget = true then do
    let slotNo ← okOr (firstAvailableBudgetSlot reservations.budgets envelope.businessDate)
      (.policyMismatch "daily budget became full inside reservation transaction")
    let row := newBudget host envelope generation slotNo reservedAt
    let budgets ← insertRow reservations.budgets row row.clashes "daily_budget_reservations"
    let journal ← recordBudgetEvent host journal row.identity row.decision none .reserved
      [("reservation_generation", .number generation), ("slot_no", .number slotNo)] reservedAt
    pure (some row.identity, { reservations with budgets := budgets }, journal)
  else pure (none, reservations, journal)

/-- What a generation reserves. -/
structure Generation where
  budget : Option String
  cooldown : Option String
  reservations : Reservations
  journal : Journal

/-- `reserve_generation` without the update of the decision, which the caller makes. -/
def reserveGeneration (generation : Nat) (reservedAt : Instant) : Outcome Generation := do
  require (0 < generation) (.policyMismatch "reservation generation must be positive")
  let (reservations, journal) ←
    claimBusinessDate host reservations journal envelope policy reservedAt
  let (cooldown, reservations, journal) ←
    reserveCooldown host reservations journal envelope policy generation reservedAt
  let (budget, reservations, journal) ←
    reserveBudget host reservations journal envelope policy generation reservedAt
  pure ⟨budget, cooldown, reservations, journal⟩

/-- The decision with a new generation. -/
def Decision.reserving (number : Nat) (generation : Generation) : Decision :=
  { decision with
    reservationGeneration := number
    currentBudgetReservation := generation.budget
    currentCooldownReservation := generation.cooldown }

/-! ## Attaching an attempt -/

/-- The evidence of an attachment. -/
def attachment (attempt : String) (attemptNo generation : Nat) : Canonical :=
  [("attempt_identity", .text attempt), ("attempt_no", .number attemptNo),
    ("reservation_generation", .number generation)]

def BudgetReservation.attached (row : BudgetReservation) (attempt : String) : BudgetReservation :=
  { row with attempt := some attempt }

theorem BudgetReservation.attached_identity (attempt : String) (row : BudgetReservation) :
    (row.attached attempt).identity = row.identity :=
  rfl

def CooldownReservation.attached (row : CooldownReservation) (attempt : String) :
    CooldownReservation :=
  { row with attempt := some attempt }

theorem CooldownReservation.attached_identity (attempt : String) (row : CooldownReservation) :
    (row.attached attempt).identity = row.identity :=
  rfl

def attachBudget (attempt : String) (attemptNo : Nat) (occurredAt : Instant) :
    Outcome (Reservations × Journal) :=
  match decision.currentBudgetReservation with
  | none => pure (reservations, journal)
  | some identity => do
      let _ ← okOr ((reservations.budgets.get? identity).filter fun row =>
          row.decision = decision.identity ∧ row.generation = decision.reservationGeneration ∧
            row.attempt = none ∧ row.state = .reserved)
        (.policyMismatch "budget attempt compare-and-set failed")
      require (∀ old ∈ reservations.budgets.rows, old.attempt ≠ some attempt)
        (.constraint "uq_budget_attempt")
      let budgets := reservations.budgets.update (fun row => row.identity = identity)
        (fun row => row.attached attempt) (BudgetReservation.attached_identity attempt)
      let journal ← recordBudgetEvent host journal identity decision.identity (some .reserved)
        .reserved (attachment attempt attemptNo decision.reservationGeneration) occurredAt
      pure ({ reservations with budgets := budgets }, journal)

def attachCooldown (attempt : String) (attemptNo : Nat) (occurredAt : Instant) :
    Outcome (Reservations × Journal) :=
  match decision.currentCooldownReservation with
  | none => pure (reservations, journal)
  | some identity => do
      let _ ← okOr ((reservations.cooldowns.get? identity).filter fun row =>
          row.decision = decision.identity ∧ row.generation = decision.reservationGeneration ∧
            row.attempt = none ∧ row.state = .reserved)
        (.policyMismatch "cooldown attempt compare-and-set failed")
      let cooldowns := reservations.cooldowns.update (fun row => row.identity = identity)
        (fun row => row.attached attempt) (CooldownReservation.attached_identity attempt)
      let journal ← recordCooldownEvent host journal identity decision.identity (some .reserved)
        .reserved (attachment attempt attemptNo decision.reservationGeneration) occurredAt
      pure ({ reservations with cooldowns := cooldowns }, journal)

def attachAttemptToReservations (attempt : String) (attemptNo : Nat) (occurredAt : Instant) :
    Outcome (Reservations × Journal) := do
  let (reservations, journal) ←
    attachBudget host reservations journal decision attempt attemptNo occurredAt
  attachCooldown host reservations journal decision attempt attemptNo occurredAt

/-! ## Settling reservations -/

/-- A reservation that is not yet decided. -/
def ReservationState.isPending : ReservationState → Bool
  | .reserved | .uncertain => true
  | .accepted | .released => false

def cannotMove (name identity : String) (fromState toState : ReservationState) : DeliveryError :=
  .policyMismatch (name ++ " reservation " ++ identity ++ " cannot move " ++ fromState.asStr ++
    "->" ++ toState.asStr)

def BudgetReservation.moved (row : BudgetReservation) (toState : ReservationState)
    (occurredAt : Instant) (acceptedAt : Option Instant) : BudgetReservation :=
  { row with
    state := toState
    acceptedAt := if toState = .accepted then acceptedAt.map timestamp else row.acceptedAt
    releasedAt := if toState = .released then some (timestamp occurredAt) else row.releasedAt }

theorem BudgetReservation.moved_identity (occurredAt : Instant) (acceptedAt : Option Instant)
    (row : BudgetReservation) : (row.moved toState occurredAt acceptedAt).identity = row.identity :=
  rfl

/-- `mutate_reservations`, the budget. -/
def mutateBudget (occurredAt : Instant) (acceptedAt : Option Instant) :
    Outcome (Reservations × Journal) :=
  match decision.currentBudgetReservation with
  | none => pure (reservations, journal)
  | some identity => do
      let row ← okOr (reservations.budgets.get? identity) .queryReturnedNoRows
      if row.state = toState then pure (reservations, journal)
      else do
        require (row.state.isPending = true) (cannotMove "budget" identity row.state toState)
        let budgets := reservations.budgets.update (fun row => row.identity = identity)
          (fun row => row.moved toState occurredAt acceptedAt)
          (BudgetReservation.moved_identity toState occurredAt acceptedAt)
        let journal ← recordBudgetEvent host journal identity decision.identity (some row.state)
          toState [("reservation_generation", .number decision.reservationGeneration),
            ("occurred_at", .time (timestamp occurredAt))] occurredAt
        pure ({ reservations with budgets := budgets }, journal)

/-- Until when an accepted reservation blocks its scope. -/
def CooldownReservation.blockedAfter (row : CooldownReservation) (toState : ReservationState)
    (occurredAt : Instant) (acceptedAt : Option Instant) : Option Int :=
  if toState = .accepted then
    row.effectiveCooldownSecs.map fun seconds =>
      timestamp (addSeconds (acceptedAt.getD occurredAt) seconds)
  else none

def CooldownReservation.moved (row : CooldownReservation) (toState : ReservationState)
    (occurredAt : Instant) (acceptedAt : Option Instant) : CooldownReservation :=
  { row with
    state := toState
    acceptedAt := if toState = .accepted then acceptedAt.map timestamp else row.acceptedAt
    blockedUntil := row.blockedAfter toState occurredAt acceptedAt
    releasedAt := if toState = .released then some (timestamp occurredAt) else row.releasedAt }

theorem CooldownReservation.moved_identity (occurredAt : Instant) (acceptedAt : Option Instant)
    (row : CooldownReservation) :
    (row.moved toState occurredAt acceptedAt).identity = row.identity :=
  rfl

def CooldownHead.moved (head : CooldownHead) (toState : ReservationState)
    (blockedUntil : Option Int) : CooldownHead :=
  { head with
    state := toState
    blockedUntil := blockedUntil
    version := head.version + 1 }

theorem CooldownHead.moved_scope (blockedUntil : Option Int) (head : CooldownHead) :
    (head.moved toState blockedUntil).scope = head.scope :=
  rfl

/-- The heads after a reservation moved: the head that is at it follows. -/
def moveHead (mode : WindowMode) (heads : Table CooldownHead.scope) (reservation : String)
    (toState : ReservationState) (blockedUntil : Option Int) : Table CooldownHead.scope :=
  if mode = .rolling then
    heads.update (fun head => head.currentReservation = reservation)
      (fun head => head.moved toState blockedUntil) (CooldownHead.moved_scope toState blockedUntil)
  else heads

/-- A stored timestamp as evidence. -/
def Field.optionalTime : Option Int → Field
  | some millis => .time millis
  | none => .null

/-- `mutate_reservations`, the cooldown. -/
def mutateCooldown (occurredAt : Instant) (acceptedAt : Option Instant) :
    Outcome (Reservations × Journal) :=
  match decision.currentCooldownReservation with
  | none => pure (reservations, journal)
  | some identity => do
      let row ← okOr (reservations.cooldowns.get? identity) .queryReturnedNoRows
      if row.state = toState then pure (reservations, journal)
      else do
        let blockedUntil := row.blockedAfter toState occurredAt acceptedAt
        require (row.state.isPending = true) (cannotMove "cooldown" identity row.state toState)
        let cooldowns := reservations.cooldowns.update (fun row => row.identity = identity)
          (fun row => row.moved toState occurredAt acceptedAt)
          (CooldownReservation.moved_identity toState occurredAt acceptedAt)
        let journal ← recordCooldownEvent host journal identity decision.identity
          (some row.state) toState
          [("reservation_generation", .number decision.reservationGeneration),
            ("blocked_until", Field.optionalTime blockedUntil)] occurredAt
        let heads := moveHead row.windowMode reservations.heads identity toState blockedUntil
        pure ({ reservations with cooldowns := cooldowns, heads := heads }, journal)

def mutateReservations (occurredAt : Instant) (acceptedAt : Option Instant) :
    Outcome (Reservations × Journal) := do
  require (toState ≠ .reserved)
    (.policyMismatch ("unsupported reservation state " ++ toState.asStr))
  let (reservations, journal) ←
    mutateBudget host reservations journal decision toState occurredAt acceptedAt
  mutateCooldown host reservations journal decision toState occurredAt acceptedAt

end StockAnalysis.Delivery
