import StockAnalysis.Delivery.Transactions

/-!
# What a transaction changes

Every committed transaction is one of a few changes of the store. `Step` lists them with the guards
under which they happen and leaves out what is journaled; the invariants over runs are proved by
cases on it.
-/

namespace StockAnalysis.Delivery

/-! ## Inversion -/

theorem passGate_eq_ok {α : Type} {gate : Except String α} {value : α} :
    passGate gate = .ok value ↔ gate = .ok value := by
  cases gate <;> simp [passGate]

variable {gates : Gates}

theorem around_eq_ok {α : Type} {operation : Outcome α} {result : α} :
    gates.around operation = .ok result ↔
      gates.routed = .ok () ∧ operation = .ok result ∧ gates.committed = .ok () := by
  simp only [Gates.around, bind_eq_ok, passGate_eq_ok, pure_eq_ok]
  constructor
  · rintro ⟨_, routed, _, done, _, committed, rfl⟩
    exact ⟨routed, done, committed⟩
  · rintro ⟨routed, done, committed⟩
    exact ⟨_, routed, _, done, _, committed, rfl⟩

variable {identity : String} {envelope : DeliveryEnvelope} {row stored : Decision} {store : Store}

theorem loadDecision_eq_ok {decision : Decision} :
    loadDecision store identity = .ok decision ↔
      decision ∈ store.decisions.rows ∧ decision.identity = identity := by
  rw [loadDecision, okOr_eq_ok, Table.get?_eq_some_iff]

variable {host : Host}

theorem parseEnvelope_eq_ok {parsed : DeliveryEnvelope}
    (done : parseEnvelope host envelope = .ok parsed) : parsed = envelope := by
  obtain ⟨_, _, same⟩ := bind_eq_ok.mp done
  exact (pure_eq_ok.mp same).symm

variable {change : Decision → Decision} {toState : DecisionState}
  {keeps : ∀ decision, (change decision).identity = decision.identity}

theorem amend_eq (member : row ∈ store.decisions.rows) (found : row.identity = identity) :
    store.amend identity change keeps =
      { store with decisions := store.decisions.set (change row) } := by
  rw [Store.amend, Table.update_eq_set member found fun other selected => selected.trans found.symm]

variable {next : Store}

theorem casDecision_eq_ok {fromState : DecisionState}
    (done : casDecision store identity fromState toState change keeps = .ok next)
    (member : row ∈ store.decisions.rows) (found : row.identity = identity) :
    row.state = fromState ∧
      next = { store with decisions := store.decisions.set (change row) } := by
  simp only [casDecision, bind_eq_ok, require_eq_ok, pure_eq_ok] at done
  obtain ⟨_, ⟨other, listed, isOther, inState⟩, rfl⟩ := done
  obtain rfl := Table.eq_of_key listed member (isOther.trans found.symm)
  refine ⟨inState, ?_⟩
  rw [Table.update_eq_set member ⟨found, inState⟩ fun _ selected => selected.1.trans found.symm]

theorem transitionExistingState_eq_ok {actor : String} {operatorIdentity : Option String}
    {evidence : Canonical} {occurredAt : Instant}
    (done : transitionExistingState host store stored toState actor operatorIdentity evidence
      occurredAt = .ok next) (member : row ∈ store.decisions.rows)
    (found : row.identity = stored.identity) :
    ∃ journal, next = { store with
      decisions := store.decisions.set (row.moved toState)
      journal := journal } := by
  simp only [transitionExistingState, bind_eq_ok, pure_eq_ok] at done
  obtain ⟨_, _, _, cas, journal, _, rfl⟩ := done
  obtain ⟨_, rfl⟩ := casDecision_eq_ok cas member found
  exact ⟨journal, rfl⟩

theorem dispose_eq_ok {source : DispositionSource} {disposition : Disposition}
    {evidenceSha256 : String} {retryAuthorized : Bool} {createdAt : Instant}
    (done : dispose host store envelope source disposition evidenceSha256 retryAuthorized
      createdAt = .ok next) (member : row ∈ store.decisions.rows)
    (found : row.identity = envelope.decisionIdentity) :
    ∃ identity journal, next = { store with
      decisions := store.decisions.set (row.disposed identity retryAuthorized)
      journal := journal } := by
  simp only [dispose, bind_eq_ok, pure_eq_ok, Prod.exists] at done
  obtain ⟨identity, journal, _, rfl⟩ := done
  exact ⟨identity, journal, amend_eq member found⟩

/-- The decision after a settlement under the disposition. -/
def Decision.settled (row : Decision) (settlement : Settlement) (disposition : String) : Decision :=
  (row.disposed disposition settlement.retryAuthorized).moved settlement.target

theorem Decision.settled_identity (settlement : Settlement) (disposition : String)
    (row : Decision) : (row.settled settlement disposition).identity = row.identity :=
  rfl

/-- What a settlement changes. -/
def Settles (host : Host) (store : Store) (stored row : Decision) (settlement : Settlement)
    (next : Store) : Prop :=
  ∃ disposition frozen moved reservations journal,
    mutateReservations host store.reservations frozen stored settlement.reservation
        settlement.settledAt settlement.acceptedAt = .ok (reservations, moved) ∧
    next = { store with
      decisions := store.decisions.set (row.settled settlement disposition)
      reservations := reservations
      journal := journal }

theorem settle_eq_ok {settlement : Settlement}
    (done : settle host store stored settlement = .ok next) (member : row ∈ store.decisions.rows)
    (found : row.identity = stored.identity) :
    Settles host store stored row settlement next := by
  simp only [settle, bind_eq_ok, Prod.exists] at done
  obtain ⟨_, disposed, reservations, moved, mutated, transition⟩ := done
  obtain ⟨disposition, frozen, rfl⟩ := dispose_eq_ok disposed member found
  have same := Decision.disposed_identity disposition settlement.retryAuthorized row
  obtain ⟨journal, rfl⟩ :=
    transitionExistingState_eq_ok transition (Table.mem_set_self member same) (same.trans found)
  refine ⟨disposition, frozen, moved, reservations, journal, mutated, ?_⟩
  rw [Table.set_set (Decision.moved_identity settlement.target _)]
  rfl

theorem reserveFor_eq_ok {policy : PolicyRow} {number : Nat} {reservedAt : Instant}
    (done : reserveFor host store envelope policy number reservedAt = .ok next)
    (member : row ∈ store.decisions.rows) (found : row.identity = envelope.decisionIdentity) :
    ∃ generation, reserveGeneration host store.reservations store.journal envelope policy number
        reservedAt = .ok generation ∧
      next = { store with
        decisions := store.decisions.set (row.reserving number generation)
        reservations := generation.reservations
        journal := generation.journal } := by
  simp only [reserveFor, bind_eq_ok, pure_eq_ok] at done
  obtain ⟨generation, reserved, rfl⟩ := done
  exact ⟨generation, reserved, amend_eq member found⟩

/-! ## The changes -/

/-- The changes by `prepare`, with its outcome. -/
inductive Prepares (host : Host) (catalog : List PolicyRow) (store : Store)
    (envelope : DeliveryEnvelope) (sinkCount : Nat) (admissionAt : Instant) :
    PrepareTransactionOutcome → Store → Prop
  | existing (row : Decision) :
      Prepares host catalog store envelope sinkCount admissionAt (.existing row) store
  | conflicted (journal : Journal) :
      Prepares host catalog store envelope sinkCount admissionAt .identityConflict
        { store with journal := journal }
  | denied (policy : PolicyRow) (disposition : String) (decisions : Table Decision.identity)
      (journal : Journal)
      (registered : loadPolicy catalog envelope.pushKind envelope.subKind = .ok policy)
      (inserted : store.decisions.insert?
        ((newDecision host envelope .rejectedAuditPending).disposed disposition false) =
          some decisions)
      (valid : envelope.validate host = .ok ()) :
      Prepares host catalog store envelope sinkCount admissionAt .inserted
        { store with decisions := decisions, journal := journal }
  | admitted (policy : PolicyRow) (opened : Journal) (generation : Generation)
      (decisions : Table Decision.identity)
      (registered : loadPolicy catalog envelope.pushKind envelope.subKind = .ok policy)
      (admissible : evaluatePrepareDenial store.reservations envelope policy sinkCount
        admissionAt = none)
      (reserved : reserveGeneration host store.reservations opened envelope policy 1 admissionAt =
        .ok generation)
      (inserted : store.decisions.insert?
        ((newDecision host envelope .reserved).reserving 1 generation) = some decisions)
      (valid : envelope.validate host = .ok ()) :
      Prepares host catalog store envelope sinkCount admissionAt .inserted { store with
        decisions := decisions
        reservations := generation.reservations
        journal := generation.journal }

/-- The changes by `begin_attempt`, with the lease it returns. -/
inductive Begins (host : Host) (config : Config) (store : Store) (identity : String)
    (sinkCount : Nat) (now : Instant) : Option AttemptLease → Store → Prop
  | idle : Begins host config store identity sinkCount now none store
  | refused (row : Decision) (next : Store) (member : row ∈ store.decisions.rows)
      (inState : row.state = .reserved)
      (settles : Settles host store row row (preflightDenial host row sinkCount now) next) :
      Begins host config store identity sinkCount now none next
  | started (row : Decision) (attempts : Table Attempt.identity) (reservations : Reservations)
      (attached journal : Journal) (member : row ∈ store.decisions.rows)
      (inState : row.state = .reserved)
      (inserted : store.attempts.insert? (newAttempt host config store row now) = some attempts)
      (attaches : attachAttemptToReservations host store.reservations store.journal row
        (newAttempt host config store row now).identity
        (newAttempt host config store row now).attemptNo now = .ok (reservations, attached)) :
      Begins host config store identity sinkCount now
        (some ((newAttempt host config store row now).lease row.envelope)) { store with
          decisions := store.decisions.set
            (row.attempting (newAttempt host config store row now).identity
              (newAttempt host config store row now).fenceToken)
          attempts := attempts
          reservations := reservations
          journal := journal }

/-- The row of a sink result. -/
structure Results (store : Store) (attempt : Attempt) (answer : AuthoritativeSinkResult)
    (holds : Bool) (result : SinkResult) (sinkResults : Table SinkResult.identity) : Prop where
  inserted : store.sinkResults.insert? result = some sinkResults
  fields : result.attempt = attempt.identity ∧ result.decision = attempt.decision ∧
    result.kind = answer.kind ∧ result.authoritativeForState = holds

/-- The changes of a store, apart from the end of an attempt. -/
inductive Step (host : Host) (catalog : List PolicyRow) (store : Store) : Store → Prop
  | acknowledged (journal : Journal) :
      Step host catalog store { store with journal := journal }
  | audited (result : SinkResult) (member : result ∈ store.sinkResults.rows)
      (immutableRef : String) :
      Step host catalog store
        { store with sinkResults := store.sinkResults.set (result.audited immutableRef) }
  | prepared (envelope : DeliveryEnvelope) (sinkCount : Nat) (admissionAt : Instant)
      (outcome : PrepareTransactionOutcome) (next : Store)
      (prepares : Prepares host catalog store envelope sinkCount admissionAt outcome next) :
      Step host catalog store next
  | authorized (row : Decision) (member : row ∈ store.decisions.rows)
      (inState : row.state = .rejectedDurable) :
      Step host catalog store { store with decisions := store.decisions.set row.authorized }
  | reacquired (row : Decision) (policy : PolicyRow) (now : Instant) (generation : Generation)
      (journal : Journal) (member : row ∈ store.decisions.rows)
      (inState : row.state = .rejectedDurable)
      (registered : loadPolicy catalog row.envelope.pushKind row.envelope.subKind = .ok policy)
      (free : windowOccupied store.reservations row.envelope policy.windowMode now = false)
      (reserved : reserveGeneration host store.reservations store.journal row.envelope policy
        (row.reservationGeneration + 1) now = .ok generation) :
      Step host catalog store { store with
        decisions := store.decisions.set
          ((row.reserving (row.reservationGeneration + 1) generation).moved .reserved)
        reservations := generation.reservations
        journal := journal }
  | began (config : Config) (identity : String) (sinkCount : Nat) (now : Instant)
      (lease : Option AttemptLease) (next : Store)
      (begins : Begins host config store identity sinkCount now lease next) :
      Step host catalog store next
  | recorded (attempt : Attempt) (result : SinkResult) (sinkResults : Table SinkResult.identity)
      (journal : Journal) (answer : AuthoritativeSinkResult)
      (results : Results store attempt answer false result sinkResults) :
      Step host catalog store { store with sinkResults := sinkResults, journal := journal }
  | beat (attempt : Attempt) (leaseExpiresAt leaseHeartbeatAt : Int) (journal : Journal)
      (member : attempt ∈ store.attempts.rows) :
      Step host catalog store { store with
        attempts := store.attempts.set (attempt.beat leaseExpiresAt leaseHeartbeatAt)
        journal := journal }
  | recovered (attempt : Attempt) (row : Decision) (candidate : RecoveryCandidate)
      (now : Instant) (journal : Journal) (fence : Nat) (sha256 : String) (next : Store)
      (isAttempt : attempt ∈ store.attempts.rows) (member : row ∈ store.decisions.rows)
      (owner : attempt.decision = row.identity) (inState : row.state = .attemptInFlight)
      (current : row.currentAttempt = some attempt.identity)
      (inFlight : attempt.state = .attemptInFlight)
      (settles : Settles host
        { store with
          attempts := store.attempts.set (attempt.revoked (timestamp now))
          decisions := store.decisions.set (row.refenced fence)
          journal := journal } row (row.refenced fence) (recoverySettlement candidate sha256 now)
            next) :
      Step host catalog store next
  | transitioned (row : Decision) (target : DecisionState) (journal : Journal)
      (member : row ∈ store.decisions.rows)
      (isTarget : reconcileTarget row.state row.taskBindingPresent = some target) :
      Step host catalog store { store with
        decisions := store.decisions.set (row.moved target)
        journal := journal }
  | resolved (row : Decision) (command : ManualResolutionCommand) (authorizationRef : String)
      (resolutions : Table ManualResolution.identity) (next : Store)
      (member : row ∈ store.decisions.rows) (inState : row.state = .uncertainManualReview)
      (settles : Settles host
        { store with journal := { store.journal with resolutions := resolutions } } row row
        (command.settlement host authorizationRef) next) :
      Step host catalog store next

/-- The change by a result that an attempt records while it holds the fence. -/
structure Ended (host : Host) (store : Store) (attempt : Attempt) (row : Decision)
    (answer : AuthoritativeSinkResult) (next : Store) : Prop where
  isAttempt : attempt ∈ store.attempts.rows
  member : row ∈ store.decisions.rows
  owner : attempt.decision = row.identity
  holds : authoritative row attempt = true
  settles : ∃ (result : SinkResult) (sinkResults : Table SinkResult.identity) (journal : Journal)
    (canonical : Canonical) (recordedAt : Instant),
    Results store attempt answer true result sinkResults ∧
      Settles host
        { store with
          attempts := store.attempts.set
            (attempt.ended (answer.settlement attempt (host.sha256 canonical) recordedAt).1)
          sinkResults := sinkResults
          journal := journal } row row
            (answer.settlement attempt (host.sha256 canonical) recordedAt).2 next

/-! ## Every transaction is one of them -/

variable {sha256 decision immutableRef : String} {sinkCount : Nat}
  {admissionAt now recordedAt : Instant} {config : Config} {attempt : Attempt}
  {outcome : PrepareTransactionOutcome} {answer : AuthoritativeSinkResult} {canonical : Canonical}
  {holds : Bool} {fenceToken : Nat} {candidate : RecoveryCandidate} {operation : String}

section Transactions

variable {catalog : List PolicyRow}

theorem Step.refl (host : Host) (catalog : List PolicyRow) (store : Store) :
    Step host catalog store store :=
  .acknowledged store.journal

theorem prepareExisting_prepares {existing : Decision}
    (done : prepareExisting host store existing envelope admissionAt = .ok (outcome, next)) :
    Prepares host catalog store envelope sinkCount admissionAt outcome next := by
  unfold prepareExisting at done
  split at done
  · obtain ⟨_, _, done⟩ := bind_eq_ok.mp done
    obtain ⟨_, _, done⟩ := bind_eq_ok.mp done
    cases pure_eq_ok.mp done
    exact .existing existing
  · obtain ⟨⟨_, journal⟩, _, done⟩ := bind_eq_ok.mp done
    cases pure_eq_ok.mp done
    exact .conflicted journal

theorem prepareNew_prepares
    (done : prepareNew host catalog gates store envelope sinkCount admissionAt = .ok next) :
    Prepares host catalog store envelope sinkCount admissionAt .inserted next := by
  simp only [prepareNew, bind_eq_ok] at done
  obtain ⟨_, _, _, _, _, valid, _, _, policy, registered, decisions, stored, opened, _, done⟩ := done
  have inserted := (insertRow_eq_ok stored).1
  generalize isDenial : evaluatePrepareDenial store.reservations envelope policy sinkCount
    admissionAt = denial at done inserted
  have member : newDecision host envelope (PrepareDenial.initialState denial) ∈ decisions.rows :=
    (Table.mem_of_insert inserted).mpr (.inr rfl)
  cases denial with
  | some denial =>
    obtain ⟨_, _, done⟩ := bind_eq_ok.mp done
    obtain ⟨disposition, journal, rfl⟩ := dispose_eq_ok done member rfl
    exact .denied policy disposition _ journal registered (Table.set_of_insert inserted rfl) valid
  | none =>
    obtain ⟨generation, reserved, rfl⟩ := reserveFor_eq_ok done member rfl
    exact .admitted policy opened generation _ registered isDenial reserved
      (Table.set_of_insert inserted rfl) valid

theorem prepare_prepares (done : prepare host catalog gates store envelope sinkCount admissionAt =
      .ok (outcome, next)) :
    Prepares host catalog store envelope sinkCount admissionAt outcome next := by
  obtain ⟨_, done, _⟩ := around_eq_ok.mp done
  obtain ⟨owner, _, done⟩ := bind_eq_ok.mp done
  cases owner with
  | some owner =>
    obtain ⟨row, _, done⟩ := bind_eq_ok.mp done
    cases pure_eq_ok.mp done
    exact .existing row
  | none =>
    cases found : store.decisions.get? envelope.decisionIdentity with
    | some existing =>
      simp only [found] at done
      exact prepareExisting_prepares done
    | none =>
      simp only [found] at done
      obtain ⟨_, prepared, done⟩ := bind_eq_ok.mp done
      cases pure_eq_ok.mp done
      exact prepareNew_prepares prepared

theorem authorize_step (done : authorizeRejectedRetry gates store identity = .ok next) :
    Step host catalog store next := by
  obtain ⟨_, done, _⟩ := around_eq_ok.mp done
  obtain ⟨row, loaded, done⟩ := bind_eq_ok.mp done
  obtain ⟨member, found⟩ := loadDecision_eq_ok.mp loaded
  obtain ⟨_, inState, done⟩ := bind_eq_ok.mp done
  split at done
  · cases pure_eq_ok.mp done
    exact .refl host catalog store
  · obtain ⟨_, _, done⟩ := bind_eq_ok.mp done
    cases pure_eq_ok.mp done
    rw [amend_eq member found]
    exact .authorized row member (require_eq_ok.mp inState)

theorem reacquire_step {reserved : Bool}
    (done : reacquireRejected host catalog gates store identity now = .ok (reserved, next)) :
    Step host catalog store next := by
  obtain ⟨_, done, _⟩ := around_eq_ok.mp done
  obtain ⟨row, loaded, done⟩ := bind_eq_ok.mp done
  obtain ⟨member, _⟩ := loadDecision_eq_ok.mp loaded
  obtain ⟨_, parsed, done⟩ := bind_eq_ok.mp done
  obtain rfl := parseEnvelope_eq_ok parsed
  have refused (answer : (pure (false, store) : Outcome (Bool × Store)) = .ok (reserved, next)) :
      Step host catalog store next := by
    cases pure_eq_ok.mp answer
    exact .refl host catalog store
  split at done
  · exact refused done
  · rename_i retried
    split at done
    · exact refused done
    · obtain ⟨policy, registered, done⟩ := bind_eq_ok.mp done
      split at done
      · exact refused done
      · rename_i free
        split at done
        · exact refused done
        · obtain ⟨_, _, done⟩ := bind_eq_ok.mp done
          obtain ⟨_, taken, done⟩ := bind_eq_ok.mp done
          obtain ⟨generation, reserved, rfl⟩ := reserveFor_eq_ok taken member rfl
          obtain ⟨_, moved, done⟩ := bind_eq_ok.mp done
          have same := Decision.reserving_identity (row.reservationGeneration + 1) generation row
          obtain ⟨journal, rfl⟩ :=
            transitionExistingState_eq_ok moved (Table.mem_set_self member same) same
          cases pure_eq_ok.mp done
          rw [Table.set_set (Decision.moved_identity .reserved _)]
          have inState : row.state = .rejectedDurable := by
            by_contra other
            exact retried (.inl other)
          exact .reacquired row policy now generation journal member inState registered
            (by simpa using free) reserved

theorem startAttempt_begins {lease : AttemptLease} (member : row ∈ store.decisions.rows)
    (inState : row.state = .reserved)
    (done : startAttempt host config store row now = .ok (lease, next)) :
    Begins host config store identity sinkCount now (some lease) next := by
  simp only [startAttempt, bind_eq_ok, Prod.exists] at done
  obtain ⟨attempts, stored, reservations, attached, attaches, _, cas, _, _, journal, _, done⟩ := done
  obtain ⟨_, rfl⟩ := casDecision_eq_ok cas member rfl
  cases pure_eq_ok.mp done
  exact .started row attempts reservations attached journal member inState
    (insertRow_eq_ok stored).1 attaches

theorem begin_begins {lease : Option AttemptLease}
    (done : beginAttempt host config gates store identity sinkCount now = .ok (lease, next)) :
    Begins host config store identity sinkCount now lease next := by
  obtain ⟨_, done, _⟩ := around_eq_ok.mp done
  obtain ⟨row, loaded, done⟩ := bind_eq_ok.mp done
  obtain ⟨member, _⟩ := loadDecision_eq_ok.mp loaded
  split at done
  · cases pure_eq_ok.mp done
    exact .idle
  · rename_i inState
    obtain ⟨_, _, done⟩ := bind_eq_ok.mp done
    obtain ⟨_, _, done⟩ := bind_eq_ok.mp done
    split at done
    · obtain ⟨_, settled, done⟩ := bind_eq_ok.mp done
      cases pure_eq_ok.mp done
      exact .refused row _ member (not_not.mp inState) (settle_eq_ok settled member rfl)
    · obtain ⟨⟨_, _⟩, started, done⟩ := bind_eq_ok.mp done
      cases pure_eq_ok.mp done
      exact startAttempt_begins member (not_not.mp inState) started

theorem Begins.lease {lease : AttemptLease}
    (begins : Begins host config store identity sinkCount now (some lease) next) :
    (∀ old ∈ store.attempts.rows, old.identity ≠ lease.attemptIdentity) ∧
      ∃ attempt ∈ next.attempts.rows, attempt.identity = lease.attemptIdentity ∧
        attempt.decision = lease.request.decisionIdentity := by
  cases begins with
  | started row attempts reservations attached journal member inState inserted =>
    exact ⟨Table.get?_eq_none_iff.mp (Table.rows_of_insert inserted).2, _,
      (Table.mem_of_insert inserted).mpr (.inr rfl), rfl, rfl⟩

/-- The row that a recorded result adds. -/
theorem insertSinkResult_eq_ok
    (done : insertSinkResult host store attempt answer canonical holds recordedAt = .ok next) :
    ∃ result sinkResults journal, Results store attempt answer holds result sinkResults ∧
      next = { store with sinkResults := sinkResults, journal := journal } := by
  simp only [insertSinkResult, bind_eq_ok, Prod.exists] at done
  obtain ⟨_, _, _, _, journal, _, sinkResults, inserted, done⟩ := done
  cases pure_eq_ok.mp done
  exact ⟨_, sinkResults, journal, ⟨(insertRow_eq_ok inserted).1, rfl, rfl, rfl, rfl⟩, rfl⟩

theorem authoritative_iff :
    authoritative stored attempt = true ↔
      stored.state = .attemptInFlight ∧ stored.currentAttempt = some attempt.identity ∧
        stored.fenceGeneration = attempt.fenceToken ∧ attempt.state = .attemptInFlight := by
  simp only [authoritative, Bool.and_eq_true, decide_eq_true_eq, and_assoc]

theorem endAttempt_eq {attempts : Table Attempt.identity} {state : AttemptState}
    (member : attempt ∈ attempts.rows) (inFlight : attempt.state = .attemptInFlight) :
    endAttempt attempts attempt.identity state = attempts.set (attempt.ended state) :=
  Table.update_eq_set member ⟨rfl, inFlight⟩ fun _ selected => selected.1

/-- A result is recorded late, or it ends the attempt. -/
theorem record_step {attemptIdentity : String} {result : AuthoritativeSinkResult}
    (done : recordSinkResult host gates store attemptIdentity fenceToken result recordedAt =
      .ok next) :
    ∃ attempt ∈ store.attempts.rows, attempt.identity = attemptIdentity ∧
      ∃ row ∈ store.decisions.rows, row.identity = attempt.decision ∧
        (authoritative row attempt = false ∧ Step host catalog store next ∨
          Ended host store attempt row result next) := by
  obtain ⟨_, done, _⟩ := around_eq_ok.mp done
  obtain ⟨attempt, selected, done⟩ := bind_eq_ok.mp done
  obtain ⟨found, _⟩ := Option.filter_eq_some_iff.mp (okOr_eq_ok.mp selected)
  obtain ⟨isAttempt, rfl⟩ := Table.get?_eq_some_iff.mp found
  obtain ⟨row, loaded, done⟩ := bind_eq_ok.mp done
  obtain ⟨member, owner⟩ := loadDecision_eq_ok.mp loaded
  obtain ⟨canonical, _, done⟩ := bind_eq_ok.mp done
  obtain ⟨_, stored, done⟩ := bind_eq_ok.mp done
  obtain ⟨added, sinkResults, journal, results, rfl⟩ := insertSinkResult_eq_ok stored
  refine ⟨attempt, isAttempt, rfl, row, member, owner, ?_⟩
  split at done
  · rename_i late
    cases pure_eq_ok.mp done
    rw [late] at results
    exact .inl ⟨late, .recorded attempt added sinkResults journal result results⟩
  · rename_i holds
    obtain ⟨_, _, done⟩ := bind_eq_ok.mp done
    have isHolder : authoritative row attempt = true := by simpa using holds
    simp only [endAttempt_eq isAttempt (authoritative_iff.mp isHolder).2.2.2] at done
    rw [isHolder] at results
    exact .inr ⟨isAttempt, member, owner.symm, isHolder, added, sinkResults, journal, canonical,
      recordedAt, results, settle_eq_ok done member rfl⟩

theorem heartbeat_step {attempt : String} {heartbeatAt : Instant} {held : Bool}
    (done : heartbeatAttempt host config gates store decision attempt fenceToken heartbeatAt =
      .ok (held, next)) : Step host catalog store next := by
  obtain ⟨_, done, _⟩ := around_eq_ok.mp done
  cases holder : heldAttempt config store decision attempt fenceToken with
  | none =>
    simp only [holder] at done
    cases pure_eq_ok.mp done
    exact .refl host catalog store
  | some row =>
    simp only [holder] at done
    obtain ⟨found, isHolder⟩ := Option.filter_eq_some_iff.mp holder
    obtain ⟨rfl, _, rfl, _⟩ := of_decide_eq_true isHolder
    obtain ⟨member, rfl⟩ := Table.get?_eq_some_iff.mp found
    split at done
    · cases pure_eq_ok.mp done
      exact .refl host catalog store
    · obtain ⟨_, _, done⟩ := bind_eq_ok.mp done
      obtain ⟨journal, _, done⟩ := bind_eq_ok.mp done
      cases pure_eq_ok.mp done
      have beaten (expiresAt beatAt : Int) :
          store.attempts.update (fun old => old.identity = row.identity)
              (fun old => old.beat expiresAt beatAt) (Attempt.beat_identity expiresAt beatAt) =
            store.attempts.set (row.beat expiresAt beatAt) :=
        Table.update_eq_set member rfl fun _ selected => selected
      rw [beaten]
      exact .beat row _ _ journal member

/-- The revocation ends the attempt and counts the fence up, if the decision is at it. -/
theorem revokeFence_eq (isAttempt : attempt ∈ store.attempts.rows)
    (member : row ∈ store.decisions.rows) (isRow : row.identity = candidate.decision)
    (isSelected : attempt.identity = candidate.attempt)
    (owner : attempt.decision = candidate.decision)
    (token : attempt.fenceToken = candidate.fenceToken)
    (expired : attempt.leaseExpiresAt ≤ timestamp now) (inFlight : attempt.state = .attemptInFlight)
    :
    ∃ fence, revokeFence store row candidate now = { store with
      attempts := store.attempts.set (attempt.revoked (timestamp now))
      decisions := store.decisions.set (row.refenced fence) } := by
  have only {other : Decision} (selected : other.identity = candidate.decision ∧
      other.state = .attemptInFlight ∧ other.currentAttempt = some candidate.attempt ∧
        other.fenceGeneration = candidate.fenceToken) : other.identity = row.identity :=
    selected.1.trans isRow.symm
  have ends : store.attempts.update
      (fun old => old.identity = candidate.attempt ∧ old.decision = candidate.decision ∧
        old.fenceToken = candidate.fenceToken ∧ old.state = .attemptInFlight ∧
        old.leaseExpiresAt ≤ timestamp now)
      (fun old => old.revoked (timestamp now)) (Attempt.revoked_identity (timestamp now)) =
      store.attempts.set (attempt.revoked (timestamp now)) :=
    Table.update_eq_set isAttempt ⟨isSelected, owner, token, inFlight, expired⟩
      fun _ selected => selected.1.trans isSelected.symm
  unfold revokeFence
  rw [ends]
  by_cases holder : row.state = .attemptInFlight ∧ row.currentAttempt = some candidate.attempt ∧
      row.fenceGeneration = candidate.fenceToken
  · refine ⟨row.fenceGeneration + 1, ?_⟩
    rw [Table.update_eq_set member ⟨isRow, holder⟩ fun _ selected => only selected]
  · refine ⟨row.fenceGeneration, ?_⟩
    have kept : row.refenced row.fenceGeneration = row := rfl
    rw [kept, Table.set_self member, Table.update_eq_self]
    intro other listed selected
    obtain rfl := Table.eq_of_key listed member (only selected)
    exact holder selected.2

theorem recover_step {progressed : Bool}
    (done : recoverExpiredAttempt host gates store candidate now = .ok (progressed, next)) :
    Step host catalog store next := by
  obtain ⟨_, done, _⟩ := around_eq_ok.mp done
  cases found : store.decisions.get? candidate.decision with
  | none =>
    simp only [found] at done
    cases pure_eq_ok.mp done
    exact .refl host catalog store
  | some row =>
    simp only [found] at done
    obtain ⟨member, isRow⟩ := Table.get?_eq_some_iff.mp found
    split at done
    · cases pure_eq_ok.mp done
      exact .refl host catalog store
    · rename_i selected
      obtain ⟨inState, current, _, attempt, isAttempt, isSelected, owner, token, _, expired,
        inFlight⟩ := not_not.mp selected
      obtain ⟨_, _, done⟩ := bind_eq_ok.mp done
      obtain ⟨journal, _, done⟩ := bind_eq_ok.mp done
      obtain ⟨_, _, done⟩ := bind_eq_ok.mp done
      obtain ⟨_, settled, done⟩ := bind_eq_ok.mp done
      cases pure_eq_ok.mp done
      obtain ⟨fence, isRevoked⟩ := revokeFence_eq isAttempt member isRow isSelected owner token
        expired inFlight
      simp only [isRevoked] at settled
      have same := Decision.refenced_identity fence row
      exact .recovered attempt row candidate now journal fence _ _ isAttempt member
        (owner.trans isRow.symm) inState (isSelected ▸ current) inFlight
        (settle_eq_ok settled (Table.mem_set_self member same) same)

theorem acknowledge_eq_ok {R K : Type} [DecidableEq K] {key : R → K} {table after : Table key}
    {selects : R → Prop} [DecidablePred selects] {change : R → R}
    {keeps : ∀ row, key (change row) = key row}
    (done : acknowledge table selects change keeps operation = .ok after) :
    after = table.update selects change keeps := by
  obtain ⟨_, _, done⟩ := bind_eq_ok.mp done
  exact (pure_eq_ok.mp done).symm

/-- An acknowledgement of an audit, a payload or a transition changes the journal alone. -/
theorem acknowledgeJournal_step {T : Type} {acknowledged : Outcome T} {journal : T → Journal}
    (done : (gates.around do
      let table ← acknowledged
      pure { store with journal := journal table }) = .ok next) :
    Step host catalog store next := by
  obtain ⟨_, done, _⟩ := around_eq_ok.mp done
  obtain ⟨table, _, done⟩ := bind_eq_ok.mp done
  cases pure_eq_ok.mp done
  exact .acknowledged (journal table)

theorem acknowledgeDeliveryAudit_step
    (done : acknowledgeDeliveryAudit gates store identity sha256 immutableRef = .ok next) :
    Step host catalog store next := by
  obtain ⟨_, done, _⟩ := around_eq_ok.mp done
  obtain ⟨_, acknowledged, done⟩ := bind_eq_ok.mp done
  cases pure_eq_ok.mp done
  obtain ⟨_, single, _⟩ := bind_eq_ok.mp acknowledged
  have positive : 0 < store.sinkResults.rows.countP fun result =>
      decide (result.identity = identity ∧ result.deliveryAuditRef = none ∧
        result.frozenDeliveryAuditSha256 = some sha256) := by
    rw [require_eq_ok.mp single]
    decide
  obtain ⟨result, member, selected⟩ := List.countP_pos_iff.mp positive
  have isSelected := of_decide_eq_true selected
  rw [acknowledge_eq_ok acknowledged, Table.update_eq_set member isSelected
    fun _ other => other.1.trans isSelected.1.symm]
  exact .audited result member immutableRef

theorem reconcile_step {readState target : DecisionState}
    (isTarget : ∀ row ∈ store.decisions.rows, row.identity = identity →
      reconcileTarget readState row.taskBindingPresent = some target)
    (done : transitionForReconcile host gates store identity readState target now = .ok next) :
    Step host catalog store next := by
  obtain ⟨_, done, _⟩ := around_eq_ok.mp done
  obtain ⟨row, loaded, done⟩ := bind_eq_ok.mp done
  obtain ⟨member, found⟩ := loadDecision_eq_ok.mp loaded
  split at done
  · cases pure_eq_ok.mp done
    exact .refl host catalog store
  · rename_i current
    obtain ⟨_, _, done⟩ := bind_eq_ok.mp done
    obtain ⟨journal, rfl⟩ := transitionExistingState_eq_ok done member rfl
    have inState : row.state = readState := by
      by_contra other
      exact current (.inr other)
    exact .transitioned row target journal member (inState ▸ isTarget row member found)

theorem resolve_step {command : ManualResolutionCommand} {authorizationRef : String}
    (done : resolveUncertain host gates store command authorizationRef = .ok next) :
    Step host catalog store next := by
  obtain ⟨_, _, done⟩ := bind_eq_ok.mp done
  obtain ⟨_, done, _⟩ := around_eq_ok.mp done
  obtain ⟨row, loaded, done⟩ := bind_eq_ok.mp done
  obtain ⟨member, _⟩ := loadDecision_eq_ok.mp loaded
  obtain ⟨_, inState, done⟩ := bind_eq_ok.mp done
  obtain ⟨_, _, done⟩ := bind_eq_ok.mp done
  obtain ⟨_, _, done⟩ := bind_eq_ok.mp done
  obtain ⟨_, _, done⟩ := bind_eq_ok.mp done
  obtain ⟨_, _, done⟩ := bind_eq_ok.mp done
  exact .resolved row command authorizationRef _ next member (require_eq_ok.mp inState)
    (settle_eq_ok done member rfl)

end Transactions

end StockAnalysis.Delivery
