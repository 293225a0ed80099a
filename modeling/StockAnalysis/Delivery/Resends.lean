import StockAnalysis.Delivery.World
import StockAnalysis.Foundation.History

/-!
# A message that may have been delivered is not sent again

Only the current attempt of a decision can be undecided: every other attempt was rejected, and
while a decision may be reserved again the current one was rejected too. The histories of the sink
calls follow from this.
-/

namespace StockAnalysis.Delivery

/-! ## Attempts of a store -/

/-- The states from which another attempt can come. -/
def DecisionState.isOpen : DecisionState → Bool
  | .reserved | .rejectedAuditPending | .rejectedTaskTransitionPending | .rejectedDurable => true
  | _ => false

/-- The attempt was rejected, or it is the last one that its decision will have. -/
def Confined (attempt : Attempt) (row : Decision) : Prop :=
  attempt.state = .rejected ∨
    row.currentAttempt = some attempt.identity ∧ row.state.isOpen = false

variable {attempt : Attempt} {row : Decision} {store next : Store} {sinkCount position : Nat}
  {answer : AuthoritativeSinkResult} {phase : Phase} {event : Event} {lease : AttemptLease}
  {events : List Event}

theorem Confined.rejected (confined : Confined attempt row) (isOpen : row.state.isOpen = true) :
    attempt.state = .rejected := by
  rcases confined with rejected | ⟨_, closed⟩
  · exact rejected
  · simp [isOpen] at closed

/-- A change of the decision that keeps the attempt and does not open it again. -/
theorem Confined.keep {next : Decision} (confined : Confined attempt row)
    (current : next.currentAttempt = row.currentAttempt)
    (closed : row.state.isOpen = false → next.state.isOpen = false) : Confined attempt next := by
  rcases confined with rejected | ⟨isCurrent, isClosed⟩
  · exact .inl rejected
  · exact .inr ⟨current.trans isCurrent, closed isClosed⟩

/-- An authoritative result belongs to an attempt that it ended. -/
structure Ending (attempts : Table Attempt.identity) (result : SinkResult) (attempt : Attempt) :
    Prop where
  member : attempt ∈ attempts.rows
  isAttempt : attempt.identity = result.attempt
  owner : attempt.decision = result.decision
  ended : attempt.state ≠ .attemptInFlight
  accepted : result.kind = .accepted → attempt.state = .accepted

/-- What the tables say of attempts: an attempt that was not rejected is the current one of its
decision, and an attempt has one authoritative result. -/
structure Sole (store : Store) : Prop where
  confined : ∀ attempt ∈ store.attempts.rows, ∃ row ∈ store.decisions.rows,
    row.identity = attempt.decision ∧ Confined attempt row
  endings : ∀ result ∈ store.sinkResults.rows, result.authoritativeForState = true →
    ∃ attempt, Ending store.attempts result attempt
  single : ∀ first ∈ store.sinkResults.rows, ∀ second ∈ store.sinkResults.rows,
    first.authoritativeForState = true → second.authoritativeForState = true →
    first.attempt = second.attempt → first = second

/-- All attempts of an open decision were rejected. -/
theorem Sole.all_rejected (sole : Sole store) (member : row ∈ store.decisions.rows)
    (isOpen : row.state.isOpen = true) (listed : attempt ∈ store.attempts.rows)
    (owner : attempt.decision = row.identity) :
    attempt.state = .rejected := by
  obtain ⟨other, isRow, found, confined⟩ := sole.confined attempt listed
  obtain rfl := Table.eq_of_key isRow member (found.trans owner)
  exact confined.rejected isOpen

variable {decisions : Table Decision.identity} {old : Decision} {reservations : Reservations}
  {journal : Journal} {result : SinkResult} {config : Config} {identity : String} {now : Instant}

theorem confined_set
    (there : ∃ row ∈ decisions.rows, row.identity = attempt.decision ∧ Confined attempt row)
    (member : old ∈ decisions.rows) (same : row.identity = old.identity)
    (kept : attempt.decision = old.identity → Confined attempt old → Confined attempt row) :
    ∃ found ∈ (decisions.set row).rows, found.identity = attempt.decision ∧
      Confined attempt found := by
  obtain ⟨other, listed, found, confined⟩ := there
  by_cases isOld : other.identity = row.identity
  · obtain rfl := Table.eq_of_key listed member (isOld.trans same)
    exact ⟨row, Table.mem_set_self member same, same.trans found, kept found.symm confined⟩
  · exact ⟨other, (Table.mem_set member same).mpr (.inl ⟨listed, isOld⟩), found, confined⟩

/-- A change of one decision keeps the attempts confined. -/
theorem Sole.set_decision (sole : Sole store) (member : old ∈ store.decisions.rows)
    (same : row.identity = old.identity)
    (kept : ∀ attempt ∈ store.attempts.rows, attempt.decision = old.identity →
      Confined attempt old → Confined attempt row) :
    Sole { store with
      decisions := store.decisions.set row
      reservations := reservations
      journal := journal } where
  confined attempt listed :=
    confined_set (sole.confined attempt listed) member same (kept attempt listed)
  endings := sole.endings
  single := sole.single

theorem Sole.insert_decision (sole : Sole store)
    (inserted : store.decisions.insert? row = some decisions) :
    Sole { store with
      decisions := decisions
      reservations := reservations
      journal := journal } where
  confined attempt listed := by
    obtain ⟨other, isRow, found, confined⟩ := sole.confined attempt listed
    exact ⟨other, (Table.mem_of_insert inserted).mpr (.inl isRow), found, confined⟩
  endings := sole.endings
  single := sole.single

/-- A change of one attempt that ends it at most keeps the endings. -/
theorem endings_set {attempts : Table Attempt.identity} {old : Attempt}
    (there : ∃ attempt, Ending attempts result attempt) (member : old ∈ attempts.rows)
    (same : attempt.identity = old.identity)
    (kept : Ending attempts result old → Ending (attempts.set attempt) result attempt) :
    ∃ ender, Ending (attempts.set attempt) result ender := by
  obtain ⟨other, ending⟩ := there
  by_cases isOld : other.identity = attempt.identity
  · obtain rfl := Table.eq_of_key ending.member member (isOld.trans same)
    exact ⟨attempt, kept ending⟩
  · exact ⟨other, (Table.mem_set member same).mpr (.inl ⟨ending.member, isOld⟩), ending.isAttempt,
      ending.owner, ending.ended, ending.accepted⟩

theorem reconcileTarget_isOpen {state target : DecisionState} {bound : Bool}
    (isTarget : reconcileTarget state bound = some target) : target.isOpen = state.isOpen := by
  revert isTarget
  cases state <;> cases bound <;> simp only [reconcileTarget, Option.some.injEq, reduceCtorEq,
    false_implies] <;> rintro rfl <;> rfl

theorem resolution_isOpen (host : Host) (command : ManualResolutionCommand)
    (authorizationRef : String) :
    (command.settlement host authorizationRef).target.isOpen = false := by
  simp only [ManualResolutionCommand.settlement]
  split <;> rfl

variable {host : Host}

/-- What a settlement leaves of the decisions. -/
theorem Settles.shape {stored : Decision} {settlement : Settlement}
    (settles : Settles host store stored row settlement next) :
    ∃ disposition reservations journal, next = { store with
      decisions := store.decisions.set (row.settled settlement disposition)
      reservations := reservations
      journal := journal } := by
  obtain ⟨disposition, _, _, reservations, journal, _, shape⟩ := settles
  exact ⟨disposition, reservations, journal, shape⟩

/-- The attempt that holds the fence ends, and its decision with it. -/
theorem Sole.end_attempt (sole : Sole store) (reservations : Reservations) (journal : Journal)
    {ended : Attempt} {settled : Decision} (isAttempt : attempt ∈ store.attempts.rows)
    (member : row ∈ store.decisions.rows) (owner : attempt.decision = row.identity)
    (current : row.currentAttempt = some attempt.identity)
    (inFlight : attempt.state = .attemptInFlight) (sameAttempt : ended.identity = attempt.identity)
    (sameOwner : ended.decision = attempt.decision) (sameRow : settled.identity = row.identity)
    (confined : Confined ended settled) :
    Sole { store with
      attempts := store.attempts.set ended
      decisions := store.decisions.set settled
      reservations := reservations
      journal := journal } := by
  refine ⟨fun other listed => ?_, fun result listed holds => ?_, sole.single⟩
  · rcases (Table.mem_set isAttempt sameAttempt).mp listed with ⟨old, different⟩ | rfl
    · refine confined_set (sole.confined other old) member sameRow fun _ confined => ?_
      rcases confined with rejected | ⟨isCurrent, _⟩
      · exact .inl rejected
      · exact absurd (Option.some.inj (isCurrent.symm.trans current))
          (fun equal => different (equal.trans sameAttempt.symm))
    · exact ⟨settled, Table.mem_set_self member sameRow,
        sameRow.trans (owner.symm.trans sameOwner.symm), confined⟩
  · exact endings_set (sole.endings result listed holds) isAttempt sameAttempt fun ending =>
      absurd inFlight ending.ended

theorem Sole.insert_result (sole : Sole store) {sinkResults : Table SinkResult.identity}
    (inserted : store.sinkResults.insert? result = some sinkResults)
    (ending : ∃ attempt, Ending store.attempts result attempt)
    (first : ∀ other ∈ store.sinkResults.rows, other.authoritativeForState = true →
      other.attempt ≠ result.attempt) :
    Sole { store with sinkResults := sinkResults } := by
  have mem {other : SinkResult} : other ∈ sinkResults.rows ↔ _ := Table.mem_of_insert inserted
  refine ⟨sole.confined, fun other listed holds => ?_, fun one inOne two inTwo oneHolds twoHolds
    same => ?_⟩
  · rcases mem.mp listed with old | rfl
    · exact sole.endings other old holds
    · exact ending
  · rcases mem.mp inOne with oldOne | rfl <;> rcases mem.mp inTwo with oldTwo | rfl
    · exact sole.single one oldOne two oldTwo oneHolds twoHolds same
    · exact absurd same (first one oldOne oneHolds)
    · exact absurd same.symm (first two oldTwo twoHolds)
    · rfl

variable {catalog : List PolicyRow}

theorem Prepares.sole {envelope : DeliveryEnvelope} {admissionAt : Instant}
    {outcome : PrepareTransactionOutcome}
    (prepares : Prepares host catalog store envelope sinkCount admissionAt outcome next)
    (sole : Sole store) : Sole next := by
  cases prepares with
  | existing row => exact sole
  | conflicted => exact ⟨sole.confined, sole.endings, sole.single⟩
  | denied policy disposition decisions journal registered inserted =>
    exact sole.insert_decision inserted
  | admitted policy opened generation decisions registered admissible reserved inserted =>
    exact sole.insert_decision inserted

theorem Begins.sole {lease : Option AttemptLease}
    (begins : Begins host config store identity sinkCount now lease next) (sole : Sole store) :
    Sole next := by
  cases begins with
  | idle => exact sole
  | refused row next member inState settles =>
    obtain ⟨disposition, reservations, journal, rfl⟩ := settles.shape
    refine sole.set_decision member rfl fun attempt listed owner _ => .inl ?_
    exact sole.all_rejected member (by rw [inState]; rfl) listed owner
  | started row attempts reservations attached journal member inState inserted =>
    have mem {other : Attempt} : other ∈ attempts.rows ↔ _ := Table.mem_of_insert inserted
    refine ⟨fun other listed => ?_, fun result listed holds => ?_, sole.single⟩
    · rcases mem.mp listed with old | rfl
      · refine confined_set (sole.confined other old) member
          (Decision.attempting_identity _ _ row) fun isOwner _ => .inl ?_
        exact sole.all_rejected member (by rw [inState]; rfl) old isOwner
      · exact ⟨_, Table.mem_set_self member (Decision.attempting_identity _ _ row), rfl,
          .inr ⟨rfl, rfl⟩⟩
    · obtain ⟨ender, ending⟩ := sole.endings result listed holds
      exact ⟨ender, mem.mpr (.inl ending.member), ending.isAttempt, ending.owner, ending.ended,
        ending.accepted⟩

theorem Step.sole (step : Step host catalog store next) (sole : Sole store) : Sole next := by
  cases step with
  | acknowledged journal => exact ⟨sole.confined, sole.endings, sole.single⟩
  | audited result member immutableRef =>
    have same := SinkResult.audited_identity immutableRef result
    have back {other : SinkResult}
        (listed : other ∈ (store.sinkResults.set (result.audited immutableRef)).rows) :
        ∃ old ∈ store.sinkResults.rows, old.identity = other.identity ∧
          old.attempt = other.attempt ∧ old.decision = other.decision ∧ old.kind = other.kind ∧
          old.authoritativeForState = other.authoritativeForState := by
      rcases (Table.mem_set member same).mp listed with ⟨old, _⟩ | rfl
      · exact ⟨other, old, rfl, rfl, rfl, rfl, rfl⟩
      · exact ⟨result, member, rfl, rfl, rfl, rfl, rfl⟩
    refine ⟨sole.confined, fun other listed holds => ?_, fun first inFirst second inSecond
      firstHolds secondHolds sameAttempt => ?_⟩
    · obtain ⟨old, isOld, _, attempt, decision, kind, auth⟩ := back listed
      obtain ⟨ender, ending⟩ := sole.endings old isOld (auth.trans holds)
      exact ⟨ender, ending.member, ending.isAttempt.trans attempt, ending.owner.trans decision,
        ending.ended, fun isAccepted => ending.accepted (kind.trans isAccepted)⟩
    · obtain ⟨one, isOne, oneId, oneAttempt, _, _, oneAuth⟩ := back inFirst
      obtain ⟨two, isTwo, twoId, twoAttempt, _, _, twoAuth⟩ := back inSecond
      have equal := sole.single one isOne two isTwo (oneAuth.trans firstHolds)
        (twoAuth.trans secondHolds) (oneAttempt.trans (sameAttempt.trans twoAttempt.symm))
      exact Table.eq_of_key inFirst inSecond (oneId.symm.trans ((congrArg _ equal).trans twoId))
  | prepared envelope sinkCount admissionAt outcome next prepares => exact prepares.sole sole
  | authorized row member inState =>
    exact sole.set_decision member (Decision.authorized_identity row) fun _ _ _ confined =>
      confined.keep rfl id
  | reacquired row policy now generation journal member inState =>
    refine sole.set_decision member rfl fun attempt listed owner _ => .inl ?_
    exact sole.all_rejected member (by rw [inState]; rfl) listed owner
  | began config identity sinkCount now lease next begins => exact begins.sole sole
  | transitioned row target journal member isTarget =>
    refine sole.set_decision member (Decision.moved_identity target row)
      fun _ _ _ confined => confined.keep rfl fun closed => ?_
    exact (reconcileTarget_isOpen isTarget).trans closed
  | resolved row command authorizationRef resolutions next member inState settles =>
    obtain ⟨disposition, reservations, journal, rfl⟩ := settles.shape
    exact sole.set_decision member rfl fun _ _ _ confined =>
      confined.keep rfl fun _ => resolution_isOpen host command authorizationRef
  | recorded attempt result sinkResults journal answer results =>
    have old {other : SinkResult} (listed : other ∈ sinkResults.rows)
        (holds : other.authoritativeForState = true) : other ∈ store.sinkResults.rows := by
      rcases (Table.mem_of_insert results.inserted).mp listed with old | rfl
      · exact old
      · simp [results.fields.2.2.2] at holds
    refine ⟨sole.confined, fun other listed holds => ?_, fun first inFirst second inSecond
      firstHolds secondHolds => ?_⟩
    · exact sole.endings other (old listed holds) holds
    · exact sole.single first (old inFirst firstHolds) second (old inSecond secondHolds)
        firstHolds secondHolds
  | beat attempt leaseExpiresAt leaseHeartbeatAt journal member =>
    have same := Attempt.beat_identity leaseExpiresAt leaseHeartbeatAt attempt
    refine ⟨fun other listed => ?_, fun result listed holds => ?_, sole.single⟩
    · rcases (Table.mem_set member same).mp listed with ⟨old, _⟩ | rfl
      · exact sole.confined other old
      · exact sole.confined attempt member
    · refine endings_set (sole.endings result listed holds) member same fun ending => ?_
      exact ⟨Table.mem_set_self member same, ending.isAttempt, ending.owner, ending.ended,
        ending.accepted⟩
  | recovered attempt row candidate now journal fence sha256 next isAttempt member owner inState
      current inFlight settles =>
    obtain ⟨disposition, reservations, journal, rfl⟩ := settles.shape
    dsimp only
    rw [Table.set_set (Decision.settled_identity _ disposition (row.refenced fence))]
    exact sole.end_attempt reservations journal isAttempt member owner current inFlight
      (Attempt.revoked_identity _ attempt) rfl rfl (.inr ⟨current, rfl⟩)

/-- How an answer leaves the attempt and the decision. -/
theorem settlement_confined (current : row.currentAttempt = some attempt.identity)
    (answer : AuthoritativeSinkResult) (sha256 disposition : String) (recordedAt : Instant) :
    Confined (attempt.ended (answer.settlement attempt sha256 recordedAt).1)
      (row.settled (answer.settlement attempt sha256 recordedAt).2 disposition) := by
  cases answer with
  | accepted receipt => exact .inr ⟨current, rfl⟩
  | rejected rejection => exact .inl rfl
  | uncertain uncertainty => exact .inr ⟨current, rfl⟩

theorem settlement_ended (attempt : Attempt) (answer : AuthoritativeSinkResult) (sha256 : String)
    (recordedAt : Instant) :
    (answer.settlement attempt sha256 recordedAt).1 ≠ .attemptInFlight ∧
      (answer.kind = .accepted → (answer.settlement attempt sha256 recordedAt).1 = .accepted) := by
  cases answer <;> simp [AuthoritativeSinkResult.settlement, AuthoritativeSinkResult.kind]

theorem Ended.sole (ended : Ended host store attempt row answer next) (sole : Sole store) :
    Sole next := by
  obtain ⟨_, current, _, inFlight⟩ := authoritative_iff.mp ended.holds
  obtain ⟨result, sinkResults, _, canonical, recordedAt, results, settles⟩ := ended.settles
  obtain ⟨disposition, reservations, journal, rfl⟩ := settles.shape
  obtain ⟨ofAttempt, ofDecision, kind, _⟩ := results.fields
  obtain ⟨isEnded, isAccepted⟩ :=
    settlement_ended attempt answer (host.sha256 canonical) recordedAt
  have same := Attempt.ended_identity
    (answer.settlement attempt (host.sha256 canonical) recordedAt).1 attempt
  have settled := sole.end_attempt reservations journal ended.isAttempt ended.member ended.owner
    current inFlight same rfl (Decision.settled_identity _ disposition row)
    (settlement_confined current answer (host.sha256 canonical) disposition recordedAt)
  refine settled.insert_result results.inserted ⟨_, Table.mem_set_self ended.isAttempt same,
    ofAttempt.symm, ofDecision.symm, isEnded,
    fun accepted => isAccepted (kind.symm.trans accepted)⟩ fun other listed holds sameAttempt => ?_
  obtain ⟨ender, ending⟩ := sole.endings other listed holds
  obtain rfl := Table.eq_of_key ending.member ended.isAttempt
    (ending.isAttempt.trans (sameAttempt.trans ofAttempt))
  exact ending.ended inFlight

/-! ## Attempts over a step -/

/-- The attempts are kept under their identity and their decision. -/
def AttemptsKept (store next : Store) : Prop :=
  ∀ attempt ∈ store.attempts.rows, ∃ kept ∈ next.attempts.rows,
    kept.identity = attempt.identity ∧ kept.decision = attempt.decision

theorem attempts_set {changed : Attempt} (isAttempt : attempt ∈ store.attempts.rows)
    (same : changed.identity = attempt.identity) (owner : changed.decision = attempt.decision)
    (shape : next.attempts = store.attempts.set changed) : AttemptsKept store next := by
  intro other listed
  rw [shape]
  by_cases isChanged : other.identity = changed.identity
  · obtain rfl := Table.eq_of_key listed isAttempt (isChanged.trans same)
    exact ⟨changed, Table.mem_set_self isAttempt same, same, owner⟩
  · exact ⟨other, (Table.mem_set isAttempt same).mpr (.inl ⟨listed, isChanged⟩), rfl, rfl⟩

theorem attempts_same (same : next.attempts = store.attempts) :
    AttemptsKept store next ∧ ∀ attempt ∈ next.attempts.rows, attempt.state = .rejected →
      ∃ old ∈ store.attempts.rows, old.identity = attempt.identity ∧ old.state = .rejected := by
  rw [AttemptsKept, same]
  exact ⟨fun attempt listed => ⟨attempt, listed, rfl, rfl⟩,
    fun attempt listed rejected => ⟨attempt, listed, rfl, rejected⟩⟩

theorem Begins.attempts {lease : Option AttemptLease}
    (begins : Begins host config store identity sinkCount now lease next) :
    AttemptsKept store next ∧ ∀ attempt ∈ next.attempts.rows, attempt.state = .rejected →
      ∃ old ∈ store.attempts.rows, old.identity = attempt.identity ∧ old.state = .rejected := by
  cases begins with
  | idle => exact attempts_same rfl
  | refused row next member inState settles =>
    obtain ⟨_, _, _, rfl⟩ := settles.shape
    exact attempts_same rfl
  | started row attempts reservations attached journal member inState inserted =>
    have mem {other : Attempt} : other ∈ attempts.rows ↔ _ := Table.mem_of_insert inserted
    refine ⟨fun other listed => ⟨other, mem.mpr (.inl listed), rfl, rfl⟩, ?_⟩
    intro other listed rejected
    rcases mem.mp listed with old | rfl
    · exact ⟨other, old, rfl, rejected⟩
    · cases rejected

/-- No step but the end of an attempt makes one rejected. -/
theorem Step.attempts (step : Step host catalog store next) :
    AttemptsKept store next ∧ ∀ attempt ∈ next.attempts.rows, attempt.state = .rejected →
      ∃ old ∈ store.attempts.rows, old.identity = attempt.identity ∧ old.state = .rejected := by
  cases step with
  | acknowledged | audited | authorized | reacquired | transitioned | recorded =>
    exact attempts_same rfl
  | prepared envelope sinkCount admissionAt outcome next prepares =>
    cases prepares <;> exact attempts_same rfl
  | resolved row command authorizationRef resolutions next member inState settles =>
    obtain ⟨_, _, _, rfl⟩ := settles.shape
    exact attempts_same rfl
  | began config identity sinkCount now lease next begins => exact begins.attempts
  | beat attempt leaseExpiresAt leaseHeartbeatAt journal member =>
    have same := Attempt.beat_identity leaseExpiresAt leaseHeartbeatAt attempt
    refine ⟨attempts_set member same rfl rfl, fun other listed rejected => ?_⟩
    rcases (Table.mem_set member same).mp listed with ⟨old, _⟩ | rfl
    · exact ⟨other, old, rfl, rejected⟩
    · exact ⟨attempt, member, rfl, rejected⟩
  | recovered attempt row candidate now journal fence sha256 next isAttempt member owner inState
      current inFlight settles =>
    obtain ⟨_, _, _, rfl⟩ := settles.shape
    have same := Attempt.revoked_identity (timestamp now) attempt
    refine ⟨attempts_set isAttempt same rfl rfl, fun other listed rejected => ?_⟩
    rcases (Table.mem_set isAttempt same).mp listed with ⟨old, _⟩ | rfl
    · exact ⟨other, old, rfl, rejected⟩
    · cases rejected

theorem Ended.attempts (ended : Ended host store attempt row answer next) :
    AttemptsKept store next ∧ ∀ other ∈ next.attempts.rows, other.state = .rejected →
      (∃ old ∈ store.attempts.rows, old.identity = other.identity ∧ old.state = .rejected) ∨
        other.identity = attempt.identity ∧ ∃ rejection, answer = .rejected rejection := by
  obtain ⟨_, _, _, canonical, recordedAt, _, settles⟩ := ended.settles
  obtain ⟨_, _, _, rfl⟩ := settles.shape
  have same := Attempt.ended_identity
    (answer.settlement attempt (host.sha256 canonical) recordedAt).1 attempt
  refine ⟨attempts_set ended.isAttempt same rfl rfl, fun other listed rejected => ?_⟩
  rcases (Table.mem_set ended.isAttempt same).mp listed with ⟨old, _⟩ | rfl
  · exact .inl ⟨other, old, rfl, rejected⟩
  · refine .inr ⟨rfl, ?_⟩
    cases answer with
    | rejected rejection => exact ⟨rejection, rfl⟩
    | accepted receipt => cases rejected
    | uncertain uncertainty => cases rejected

/-! ## Histories of sink calls -/

/-- The attempt whose sink call an event is about. -/
def Event.attempt? : Event → Option String
  | .called _ attempt | .returned attempt _ | .recorded attempt _ _ | .lost attempt => some attempt
  | .conflicted _ | .denied _ _ => none

/-- What the log says about an attempt. -/
abbrev trace (log : List Event) (attempt : String) : List Event :=
  History.about Event.attempt? attempt log

/-- The sink is called once for an attempt, returns once, and the result is recorded once or the
call is lost. -/
inductive Shape (attempt : String) : List Event → Prop
  | silent : Shape attempt []
  | called (decision : String) : Shape attempt [.called decision attempt]
  | returned (decision : String) (result : AuthoritativeSinkResult) :
      Shape attempt [.called decision attempt, .returned attempt result]
  | recorded (decision : String) (result : AuthoritativeSinkResult) (holds : Bool) :
      Shape attempt
        [.called decision attempt, .returned attempt result, .recorded attempt result holds]
  | lost (decision : String) : Shape attempt [.called decision attempt, .lost attempt]
  | unrecorded (decision : String) (result : AuthoritativeSinkResult) :
      Shape attempt [.called decision attempt, .returned attempt result, .lost attempt]

/-- What the log says about the attempt of a runner. -/
def Phase.trace : Phase → List Event
  | .calling lease => [.called lease.request.decisionIdentity lease.attemptIdentity]
  | .returned lease result =>
    [.called lease.request.decisionIdentity lease.attemptIdentity,
      .returned lease.attemptIdentity result]
  | .holding _ | .reacquiring | .beginning | .finished => []

/-- The trace of a call that was rejected while it held the fence. -/
def rejectedTrace (decision attempt : String) (rejection : TypedRejection) : List Event :=
  [.called decision attempt, .returned attempt (.rejected rejection),
    .recorded attempt (.rejected rejection) true]

/-- A sink call comes after the recorded rejection of every earlier one for its decision. -/
def AfterRejection (before : List Event) (event : Event) : Prop :=
  ∀ decision attempt earlier, event = .called decision attempt →
    .called decision earlier ∈ before → ∃ rejection,
      .returned earlier (.rejected rejection) ∈ before ∧
        .recorded earlier (.rejected rejection) true ∈ before

/-- The invariant of a run. -/
structure Tracked (world : World) : Prop where
  sole : Sole world.store
  known : ∀ event ∈ world.log, ∀ attempt, event.attempt? = some attempt →
    ∃ row ∈ world.store.attempts.rows, row.identity = attempt ∧
      ∀ decision, event = .called decision attempt → row.decision = decision
  shaped : ∀ attempt, Shape attempt (trace world.log attempt)
  held : ∀ (position : Nat) (phase : Phase) (lease : AttemptLease),
    world.phaseAt position = some phase → phase.lease? = some lease →
    trace world.log lease.attemptIdentity = phase.trace ∧
      ∃ row ∈ world.store.attempts.rows, row.identity = lease.attemptIdentity ∧
        row.decision = lease.request.decisionIdentity
  distinct : ∀ (first second : Nat) (one two : Phase) (oneLease twoLease : AttemptLease),
    world.phaseAt first = some one → world.phaseAt second = some two →
    one.lease? = some oneLease → two.lease? = some twoLease →
    oneLease.attemptIdentity = twoLease.attemptIdentity → first = second
  rejected : ∀ row ∈ world.store.attempts.rows, row.state = .rejected →
    ∃ decision rejection, trace world.log row.identity =
      rejectedTrace decision row.identity rejection
  ordered : History.Preceded AfterRejection world.log

theorem tracked_initial : Tracked .initial where
  sole := ⟨by simp [World.initial, Store.empty, Table.empty],
    by simp [World.initial, Store.empty, Table.empty],
    by simp [World.initial, Store.empty, Table.empty]⟩
  known := by simp [World.initial]
  shaped _ := .silent
  held := by simp [World.initial, World.phaseAt]
  distinct := by simp [World.initial, World.phaseAt]
  rejected := by simp [World.initial, Store.empty, Table.empty]
  ordered := History.Preceded.nil _

variable {world : World}

section

variable (tracked : Tracked world)

include tracked

/-- A change of the store that keeps the attempts, of which each rejected one has its trace. -/
theorem Tracked.of_store (sole : Sole next)
    (kept : AttemptsKept world.store next)
    (rejected : ∀ row ∈ next.attempts.rows, row.state = .rejected → ∃ decision rejection,
      trace world.log row.identity = rejectedTrace decision row.identity rejection) :
    Tracked { world with store := next } := by
  refine ⟨sole, fun event listed attempt isAttempt => ?_, tracked.shaped,
    fun position phase lease found isLease => ?_, tracked.distinct, rejected, tracked.ordered⟩
  · obtain ⟨row, isRow, found, owner⟩ := tracked.known event listed attempt isAttempt
    obtain ⟨other, isOther, same, sameOwner⟩ := kept row isRow
    exact ⟨other, isOther, same.trans found, fun decision called =>
      sameOwner.trans (owner decision called)⟩
  · obtain ⟨same, row, isRow, isLeased, owner⟩ := tracked.held position phase lease found isLease
    obtain ⟨other, isOther, sameId, sameOwner⟩ := kept row isRow
    exact ⟨same, other, isOther, sameId.trans isLeased, sameOwner.trans owner⟩

/-- A step of the store under which no attempt becomes rejected. -/
theorem Tracked.of_step (step : Step host catalog world.store next) :
    Tracked { world with store := next } := by
  obtain ⟨kept, rejected⟩ := step.attempts
  refine tracked.of_store (step.sole tracked.sole) kept fun row listed isRejected => ?_
  obtain ⟨old, isOld, same, wasRejected⟩ := rejected row listed isRejected
  rw [← same]
  exact tracked.rejected old isOld wasRejected

/-- Runners that hold no lease do not matter. -/
theorem Tracked.of_runners {runners : List Runner}
    (kept : ∀ (position : Nat) (phase : Phase) (lease : AttemptLease),
      World.phaseAt { world with runners := runners } position = some phase →
      phase.lease? = some lease → world.phaseAt position = some phase) :
    Tracked { world with runners := runners } where
  sole := tracked.sole
  known := tracked.known
  shaped := tracked.shaped
  held position phase lease found isLease :=
    tracked.held position phase lease (kept position phase lease found isLease) isLease
  distinct first second one two oneLease twoLease atFirst atSecond isOne isTwo :=
    tracked.distinct first second one two oneLease twoLease
      (kept first one oneLease atFirst isOne) (kept second two twoLease atSecond isTwo) isOne isTwo
  rejected := tracked.rejected
  ordered := tracked.ordered

theorem Tracked.setPhase (position : Nat) (unleased : phase.lease? = none) :
    Tracked (world.setPhase position phase) := by
  refine tracked.of_runners fun other found lease atOther isLease => ?_
  have atOther := (phaseAt_setPhase world position other phase).symm.trans atOther
  split at atOther
  · obtain ⟨_, _, rfl⟩ := Option.map_eq_some_iff.mp atOther
    rw [unleased] at isLease
    cases isLease
  · exact atOther

/-- Events that are about no attempt do not matter. -/
theorem Tracked.write_quiet (quiet : event.attempt? = none) : Tracked (world.write [event]) := by
  have same (attempt : String) : trace (world.log ++ [event]) attempt = trace world.log attempt :=
    History.about_concat_other (by simp [quiet])
  refine ⟨tracked.sole, fun other listed attempt isAttempt => ?_, fun attempt => ?_,
    fun position phase lease found isLease => ?_, tracked.distinct, fun row listed isRejected => ?_,
    tracked.ordered.concat fun decision attempt earlier isCall => ?_⟩
  · rcases mem_concat.mp listed with old | new
    · exact tracked.known other old attempt isAttempt
    · rw [new, quiet] at isAttempt
      cases isAttempt
  · rw [World.write, same]
    exact tracked.shaped attempt
  · rw [World.write, same]
    exact tracked.held position phase lease found isLease
  · rw [World.write, same]
    exact tracked.rejected row listed isRejected
  · rw [isCall] at quiet
    cases quiet

/-- The attempt of a runner that has not recorded its result is not rejected. -/
theorem Tracked.not_rejected (found : world.phaseAt position = some phase)
    (isLease : phase.lease? = some lease) {row : Attempt} (listed : row ∈ world.store.attempts.rows)
    (isRow : row.identity = lease.attemptIdentity) : row.state ≠ .rejected := by
  intro isRejected
  obtain ⟨decision, rejection, full⟩ := tracked.rejected row listed isRejected
  rw [isRow, (tracked.held position phase lease found isLease).1] at full
  cases phase <;> simp [Phase.trace, rejectedTrace] at full

end

/-- A phase after one was set is the one that was set, or was there before. -/
theorem phase_of_setPhase {next held : Phase} {other : Nat}
    (atOther : (world.setPhase position next).phaseAt other = some held) :
    other = position ∧ held = next ∨ other ≠ position ∧ world.phaseAt other = some held := by
  rw [phaseAt_setPhase] at atOther
  split at atOther
  · rename_i isPosition
    obtain ⟨_, _, rfl⟩ := Option.map_eq_some_iff.mp atOther
    exact .inl ⟨isPosition.symm, rfl⟩
  · rename_i isOther
    exact .inr ⟨Ne.symm isOther, atOther⟩

section

variable (tracked : Tracked world)

include tracked

/-- Attempts stay apart when no other runner holds the attempt of the phase that is set. -/
theorem Tracked.distinct_setPhase {next : Phase}
    (apart : ∀ (other : Nat) (held : Phase) (lease heldLease : AttemptLease), other ≠ position →
      world.phaseAt other = some held → next.lease? = some lease → held.lease? = some heldLease →
      heldLease.attemptIdentity ≠ lease.attemptIdentity) (first second : Nat) (one two : Phase)
    (oneLease twoLease : AttemptLease)
    (atFirst : (world.setPhase position next).phaseAt first = some one)
    (atSecond : (world.setPhase position next).phaseAt second = some two)
    (isOne : one.lease? = some oneLease) (isTwo : two.lease? = some twoLease)
    (equal : oneLease.attemptIdentity = twoLease.attemptIdentity) : first = second := by
  rcases phase_of_setPhase atFirst with ⟨isFirst, rfl⟩ | ⟨firstOther, oldFirst⟩ <;>
    rcases phase_of_setPhase atSecond with ⟨isSecond, rfl⟩ | ⟨secondOther, oldSecond⟩
  · exact isFirst.trans isSecond.symm
  · exact absurd equal.symm (apart second two oneLease twoLease secondOther oldSecond isOne isTwo)
  · exact absurd equal (apart first one twoLease oneLease firstOther oldFirst isTwo isOne)
  · exact tracked.distinct first second one two oneLease twoLease oldFirst oldSecond isOne isTwo
      equal

/-- A runner goes on with one event about its attempt. -/
theorem Tracked.progress {next : Phase}
    (found : world.phaseAt position = some phase) (isLease : phase.lease? = some lease)
    (own : event.attempt? = some lease.attemptIdentity)
    (called : ∀ decision, event = .called decision lease.attemptIdentity →
      decision = lease.request.decisionIdentity) (goesOn : next.lease? = none ∨
      next.lease? = some lease ∧ next.trace = phase.trace ++ [event])
    (shape : Shape lease.attemptIdentity (phase.trace ++ [event]))
    (ordered : AfterRejection world.log event) :
    Tracked ((world.setPhase position next).write [event]) := by
  obtain ⟨traced, row, isRow, isLeased, owner⟩ := tracked.held position phase lease found isLease
  have extended : trace (world.log ++ [event]) lease.attemptIdentity = phase.trace ++ [event] :=
    (History.about_concat_own own).trans (congrArg (fun events => events ++ [event]) traced)
  have same {attempt : String} (other : attempt ≠ lease.attemptIdentity) :
      trace (world.log ++ [event]) attempt = trace world.log attempt :=
    History.about_concat_other (by simpa [own] using Ne.symm other)
  have apart {other : Nat} {held : Phase} {heldLease : AttemptLease} (isOther : other ≠ position)
      (atOther : world.phaseAt other = some held) (isHeld : held.lease? = some heldLease) :
      heldLease.attemptIdentity ≠ lease.attemptIdentity := fun equal =>
    isOther (tracked.distinct other position held phase heldLease lease atOther found isHeld isLease
      equal)
  refine ⟨tracked.sole, fun other listed attempt isAttempt => ?_, fun attempt => ?_,
    fun other held heldLease atOther isHeld => ?_, tracked.distinct_setPhase ?_,
    fun other listed isRejected => ?_, tracked.ordered.concat ordered⟩
  · rcases mem_concat.mp listed with old | rfl
    · exact tracked.known other old attempt isAttempt
    · obtain rfl := Option.some.inj (isAttempt.symm.trans own)
      exact ⟨row, isRow, isLeased, fun decision isCall => owner.trans (called decision isCall).symm⟩
  · by_cases isOwn : attempt = lease.attemptIdentity
    · subst isOwn
      exact extended ▸ shape
    · exact same isOwn ▸ tracked.shaped attempt
  · rcases phase_of_setPhase atOther with ⟨rfl, rfl⟩ | ⟨isOther, atOther⟩
    · rcases goesOn with none | ⟨isNext, grows⟩
      · rw [none] at isHeld
        cases isHeld
      · obtain rfl := Option.some.inj (isNext.symm.trans isHeld)
        exact ⟨extended.trans grows.symm, row, isRow, isLeased, owner⟩
    · have unchanged := same (apart isOther atOther isHeld)
      exact ⟨unchanged.trans (tracked.held other held heldLease atOther isHeld).1,
        (tracked.held other held heldLease atOther isHeld).2⟩
  · intro other held nextLease heldLease isOther atOther isNext isHeld
    rcases goesOn with none | ⟨some, _⟩
    · rw [none] at isNext
      cases isNext
    · obtain rfl := Option.some.inj (some.symm.trans isNext)
      exact apart isOther atOther isHeld
  · have isOther : other.identity ≠ lease.attemptIdentity := fun isOwn =>
      tracked.not_rejected found isLease listed isOwn isRejected
    obtain ⟨decision, rejection, full⟩ := tracked.rejected other listed isRejected
    exact ⟨decision, rejection, (same isOther).trans full⟩

/-- The attempt that holds the fence ends by a result that the log has. -/
theorem Tracked.of_ended (ended : Ended host world.store attempt row answer next)
    (logged : ∀ rejection, answer = .rejected rejection → ∃ decision,
      trace world.log attempt.identity = rejectedTrace decision attempt.identity rejection) :
    Tracked { world with store := next } := by
  obtain ⟨kept, rejected⟩ := ended.attempts
  refine tracked.of_store (ended.sole tracked.sole) kept fun other listed isRejected => ?_
  rcases rejected other listed isRejected with ⟨old, isOld, same, wasRejected⟩ | ⟨same, was⟩
  · rw [← same]
    exact tracked.rejected old isOld wasRejected
  · obtain ⟨rejection, isAnswer⟩ := was
    obtain ⟨decision, full⟩ := logged rejection isAnswer
    exact ⟨decision, rejection, same ▸ full⟩

/-- The sink is called only after all earlier calls were rejected. -/
theorem Tracked.may_call (found : world.phaseAt position = some (.holding lease)) :
    AfterRejection world.log
      (.called lease.request.decisionIdentity lease.attemptIdentity) := by
  intro decision attempt earlier isCall wasCalled
  obtain ⟨rfl, rfl⟩ := Event.called.inj isCall
  obtain ⟨traced, row, isRow, isLeased, owner⟩ := tracked.held position _ lease found rfl
  obtain ⟨old, isOld, isEarlier, oldOwner⟩ := tracked.known _ wasCalled earlier rfl
  obtain ⟨decision, isDecision, ofRow, confined⟩ := tracked.sole.confined row isRow
  obtain ⟨_, isDecision', ofOld, oldConfined⟩ := tracked.sole.confined old isOld
  obtain rfl := Table.eq_of_key isDecision' isDecision
    (ofOld.trans ((oldOwner _ rfl).trans (owner.symm.trans ofRow.symm)))
  have current := (confined.resolve_left (tracked.not_rejected found rfl isRow isLeased)).1
  have wasRejected : old.state = .rejected := by
    rcases oldConfined with isRejected | ⟨oldCurrent, _⟩
    · exact isRejected
    · -- the attempt of this lease was not called before
      have same := Option.some.inj (oldCurrent.symm.trans current)
      rw [isEarlier, isLeased] at same
      have silent : .called lease.request.decisionIdentity earlier ∈
          trace world.log lease.attemptIdentity :=
        History.mem_about.mpr ⟨wasCalled, congrArg some same⟩
      rw [traced] at silent
      cases silent
  obtain ⟨caller, rejection, full⟩ := tracked.rejected old isOld wasRejected
  rw [isEarlier] at full
  have inTrace {event : Event} (listed : event ∈ rejectedTrace caller earlier rejection) :
      event ∈ world.log := (History.mem_about.mp (full.symm ▸ listed)).1
  exact ⟨rejection, inTrace (by simp [rejectedTrace]), inTrace (by simp [rejectedTrace])⟩

/-- A runner gets the lease of an attempt that has just begun. -/
theorem Tracked.begun (step : Step host catalog world.store next)
    (fresh : ∀ old ∈ world.store.attempts.rows, old.identity ≠ lease.attemptIdentity)
    (begun : ∃ attempt ∈ next.attempts.rows, attempt.identity = lease.attemptIdentity ∧
      attempt.decision = lease.request.decisionIdentity) :
    Tracked (World.setPhase { world with store := next } position (.holding lease)) := by
  have stepped := tracked.of_step step
  have silent : trace world.log lease.attemptIdentity = [] := by
    refine History.about_eq_nil fun event listed isOwn => ?_
    obtain ⟨row, isRow, found, _⟩ := tracked.known event listed lease.attemptIdentity isOwn
    exact fresh row isRow found
  refine ⟨stepped.sole, stepped.known, stepped.shaped, fun other held heldLease atOther isHeld => ?_,
    stepped.distinct_setPhase ?_, stepped.rejected, stepped.ordered⟩
  · rcases phase_of_setPhase atOther with ⟨rfl, rfl⟩ | ⟨_, old⟩
    · obtain rfl := Option.some.inj isHeld
      exact ⟨silent, begun⟩
    · exact stepped.held other held heldLease old isHeld
  · intro other held nextLease heldLease _ atOther isNext isHeld
    obtain rfl := Option.some.inj isNext
    obtain ⟨_, row, isRow, isLeased, _⟩ := tracked.held other held heldLease atOther isHeld
    exact isLeased ▸ fresh row isRow

end

theorem beginEvents_quiet (store : Store) (call : ResumeCall) :
    ∀ event ∈ beginEvents store call, event.attempt? = none := by
  unfold beginEvents
  split <;> simp [Event.attempt?]

theorem prepareEvents_quiet (catalog : List PolicyRow) (store : Store)
    (envelope : DeliveryEnvelope) (sinkCount : Nat) (admissionAt : Instant)
    (outcome : PrepareTransactionOutcome) :
    ∀ event ∈ prepareEvents catalog store envelope sinkCount admissionAt outcome,
      event.attempt? = none := by
  cases outcome with
  | existing decision => simp [prepareEvents]
  | identityConflict => simp [prepareEvents, Event.attempt?]
  | inserted =>
    simp only [prepareEvents]
    split <;> simp [Event.attempt?]

theorem Tracked.write_all (tracked : Tracked world)
    (quiet : ∀ event ∈ events, event.attempt? = none) : Tracked (world.write events) := by
  induction events generalizing world with
  | nil => simpa [World.write] using tracked
  | cons event events ih =>
    have first := tracked.write_quiet (quiet event List.mem_cons_self)
    have rest := ih first fun other listed => quiet other (List.mem_cons_of_mem event listed)
    simpa [World.write] using rest

/-! ## Steps of the world -/

section

variable (tracked : Tracked world)
include tracked

theorem Tracked.transact (action : Action) : Tracked (world.transact host catalog action) := by
  have committed {outcome : Outcome Store}
      (steps : ∀ next, outcome = .ok next → Step host catalog world.store next) :
      Tracked (world.commit outcome) := by
    cases outcome with
    | ok next => exact tracked.of_step (steps next rfl)
    | error _ => exact tracked
  cases action with
  | prepare gates envelope sinkCount admissionAt =>
    simp only [World.transact, World.prepare]
    cases done : prepare host catalog gates world.store envelope sinkCount admissionAt with
    | ok result =>
      have stepped := tracked.of_step
        (.prepared envelope sinkCount admissionAt _ _ (prepare_prepares done))
      exact stepped.write_all (prepareEvents_quiet catalog world.store envelope sinkCount
        admissionAt result.1)
    | error _ => exact tracked
  | resume call =>
    refine tracked.of_runners fun position phase lease found isLease => ?_
    rcases phaseAt_resume world _ position found with old | rfl
    · exact old
    · have unleased : (resumePhase world.store call.decision).lease? = none := by
        unfold resumePhase
        split
        · rfl
        · split <;> [rfl; split <;> rfl]
      rw [unleased] at isLease
      cases isLease
  | authorize gates identity => exact committed fun _ done => authorize_step done
  | heartbeat gates config decision attempt fenceToken heartbeatAt =>
    refine committed fun _ done => ?_
    obtain ⟨_, beaten, rfl⟩ := map_eq_ok.mp done
    exact heartbeat_step beaten
  | recover gates candidate now =>
    refine committed fun _ done => ?_
    obtain ⟨_, recovered, rfl⟩ := map_eq_ok.mp done
    exact recover_step recovered
  | acknowledge gates appended immutableRef => exact committed fun _ done => acknowledge_step done
  | reconcile gates identity readState now =>
    exact committed fun _ done => reconcileDecision_step done
  | resolve gates command authorizationRef => exact committed fun _ done => resolve_step done
  | reacquire | begin | call | answer | record | crash => exact tracked

theorem Tracked.reacquire (gates : Gates) (position : Nat) (runner : Runner) :
    Tracked (world.reacquire host catalog gates position runner) := by
  unfold World.reacquire
  cases done : reacquireRejected host catalog gates world.store runner.call.decision
    runner.call.now with
  | error _ => exact tracked.setPhase position rfl
  | ok result =>
    obtain ⟨reserved, next⟩ := result
    have stepped := tracked.of_step (reacquire_step done)
    cases reserved <;> exact stepped.setPhase position rfl

theorem Tracked.begin (gates : Gates) (position : Nat) (runner : Runner) :
    Tracked (world.begin host gates position runner) := by
  unfold World.begin
  cases done : beginAttempt host runner.call.config gates world.store runner.call.decision
    runner.call.sinkCount runner.call.now with
  | error _ => exact tracked.setPhase position rfl
  | ok result =>
    obtain ⟨lease, next⟩ := result
    have begins := begin_begins done
    have step : Step host [] world.store next := .began _ _ _ _ _ _ begins
    cases lease with
    | none =>
      have finished : Tracked (World.setPhase { world with store := next } position .finished) :=
        (tracked.of_step step).setPhase position rfl
      exact finished.write_all (beginEvents_quiet world.store runner.call)
    | some lease =>
      obtain ⟨fresh, begun⟩ := begins.lease
      exact tracked.begun step fresh begun

theorem Tracked.record (gates : Gates) (runner : Runner) {result : AuthoritativeSinkResult}
    (found : world.phaseAt position = some (.returned lease result)) :
    Tracked (world.record host gates position runner lease result) := by
  unfold World.record
  have finish (event : Event) (own : event.attempt? = some lease.attemptIdentity)
      (uncalled : ∀ decision attempt, event ≠ .called decision attempt)
      (shape : Shape lease.attemptIdentity ((Phase.returned lease result).trace ++ [event])) :
      Tracked ((world.setPhase position .finished).write [event]) :=
    tracked.progress found rfl own (fun decision isCall => absurd isCall (uncalled _ _)) (.inl rfl)
      shape fun _ _ _ isCall => absurd isCall (uncalled _ _)
  cases done : recordSinkResult host gates world.store lease.attemptIdentity lease.fenceToken result
    runner.call.now with
  | error _ => exact finish (.lost lease.attemptIdentity) rfl (by simp) (.unrecorded _ result)
  | ok next =>
    have logged := finish
      (.recorded lease.attemptIdentity result (holdsFence world.store lease)) rfl (by simp)
      (.recorded _ result _)
    obtain ⟨attempt, isAttempt, isLease, row, member, owner, ended⟩ :=
      @record_step gates world.store host next _ _ [] _ _ done
    rcases ended with ⟨_, step⟩ | ended
    · exact logged.of_step step
    · refine logged.of_ended ended fun rejection isRejection => ?_
      subst isRejection
      have holds : holdsFence world.store lease = true := by
        simp only [holdsFence, Table.get?_eq_some_iff.mpr ⟨isAttempt, isLease⟩,
          Table.get?_eq_some_iff.mpr ⟨member, owner⟩, Option.any_some, ended.holds]
      have traced := (tracked.held position _ lease found rfl).1
      refine ⟨lease.request.decisionIdentity, ?_⟩
      have grown (event : Event) (own : event.attempt? = some lease.attemptIdentity) :
          trace (world.log ++ [event]) lease.attemptIdentity =
            trace world.log lease.attemptIdentity ++ [event] := History.about_concat_own own
      rw [isLease]
      refine (grown _ rfl).trans ?_
      rw [traced, holds]
      rfl

theorem Tracked.advance (action : Action) {runner : Runner}
    (found : world.runners[position]? = some runner) :
    Tracked (world.advance host catalog action position runner) := by
  have atPosition : world.phaseAt position = some runner.phase := by
    rw [World.phaseAt, found]
    rfl
  unfold World.advance
  split
  · exact tracked.reacquire _ position runner
  · exact tracked.begin _ position runner
  · rename_i lease isPhase
    rw [isPhase] at atPosition
    exact tracked.progress atPosition rfl rfl (fun _ isCall => (Event.called.inj isCall).1.symm)
      (.inr ⟨rfl, rfl⟩) (.called _) (tracked.may_call atPosition)
  · rename_i result lease isPhase
    rw [isPhase] at atPosition
    exact tracked.progress atPosition rfl rfl (by simp) (.inr ⟨rfl, rfl⟩) (.returned _ result)
      fun _ _ _ isCall => by cases isCall
  · rename_i lease result isPhase
    rw [isPhase] at atPosition
    exact tracked.record _ runner atPosition
  · have finish (lease : AttemptLease) (held : runner.phase.lease? = some lease)
        (shape : Shape lease.attemptIdentity
          (runner.phase.trace ++ [.lost lease.attemptIdentity])) :
        Tracked ((world.setPhase position .finished).write [.lost lease.attemptIdentity]) :=
      tracked.progress atPosition held rfl (by simp) (.inl rfl) shape
        fun _ _ _ isCall => by cases isCall
    have quiet : Tracked ((world.setPhase position .finished).write []) :=
      Tracked.write_all (tracked.setPhase position rfl) (by simp)
    cases isPhase : runner.phase with
    | calling lease => exact finish lease (by rw [isPhase]; rfl) (by rw [isPhase]; exact .lost _)
    | returned lease result =>
      exact finish lease (by rw [isPhase]; rfl) (by rw [isPhase]; exact .unrecorded _ result)
    | holding | reacquiring | beginning | finished => exact quiet
  · exact tracked

theorem Tracked.step (action : Action) : Tracked (world.step host catalog action) := by
  unfold World.step
  split
  · exact tracked.transact action
  · split
    · exact tracked
    · rename_i found
      exact tracked.advance action found

end

theorem Reached.tracked (reached : Reached host catalog world) : Tracked world := by
  induction reached with
  | initial => exact tracked_initial
  | step _ action ih => exact ih.step action

/-! ## No resends -/

/-- The call may have delivered the message, for all that is known. -/
def Event.undecided : Event → Bool
  | .returned _ (.accepted _) | .returned _ (.uncertain _) | .lost _ | .recorded _ _ false => true
  | _ => false

variable {attempt : String}

theorem Shape.decided {rejection : TypedRejection} (shape : Shape attempt events)
    (recorded : .recorded attempt (.rejected rejection) true ∈ events) (listed : event ∈ events) :
    event.undecided = false := by
  cases shape with
  | silent | called | returned | lost | unrecorded => simp at recorded
  | recorded decision result holds =>
    obtain ⟨rfl, rfl⟩ : .rejected rejection = result ∧ true = holds := by simpa using recorded
    simp only [List.mem_cons, List.not_mem_nil, or_false] at listed
    rcases listed with rfl | rfl | rfl <;> rfl

theorem Shape.called_once (shape : Shape attempt events) :
    (events.filter fun event => event matches .called _ _).length ≤ 1 := by
  cases shape <;> simp

/-- No sink call of a decision follows one that may have delivered its message. -/
structure NeverResent (world : World) : Prop where
  called_once : ∀ attempt, ((trace world.log attempt).filter fun event =>
    event matches .called _ _).length ≤ 1
  after_rejection : ∀ before after decision attempt earlier,
    world.log = before ++ .called decision attempt :: after → .called decision earlier ∈ before →
    ∃ rejection, .returned earlier (.rejected rejection) ∈ before ∧
      .recorded earlier (.rejected rejection) true ∈ before
  stopped : ∀ before event after decision attempt,
    world.log = before ++ event :: after → event.undecided = true → event.attempt? = some attempt →
    .called decision attempt ∈ before → ∀ later, .called decision later ∉ after
  accepted_once : ∀ first ∈ world.store.sinkResults.rows,
    ∀ second ∈ world.store.sinkResults.rows, first.decision = second.decision →
    first.authoritativeForState = true → second.authoritativeForState = true →
    first.kind = .accepted → second.kind = .accepted → first = second

theorem Tracked.accepted_once (tracked : Tracked world) {first second : SinkResult}
    (inFirst : first ∈ world.store.sinkResults.rows)
    (inSecond : second ∈ world.store.sinkResults.rows) (same : first.decision = second.decision)
    (firstHolds : first.authoritativeForState = true)
    (secondHolds : second.authoritativeForState = true) (firstKind : first.kind = .accepted)
    (secondKind : second.kind = .accepted) : first = second := by
  obtain ⟨one, oneEnding⟩ := tracked.sole.endings first inFirst firstHolds
  obtain ⟨two, twoEnding⟩ := tracked.sole.endings second inSecond secondHolds
  have current {attempt : Attempt} (listed : attempt ∈ world.store.attempts.rows)
      (isAccepted : attempt.state = .accepted) : ∃ row ∈ world.store.decisions.rows,
        row.identity = attempt.decision ∧ row.currentAttempt = some attempt.identity := by
    obtain ⟨row, member, found, confined⟩ := tracked.sole.confined attempt listed
    exact ⟨row, member, found, (confined.resolve_left (by simp [isAccepted])).1⟩
  obtain ⟨oneRow, isOneRow, ofOne, oneCurrent⟩ :=
    current oneEnding.member (oneEnding.accepted firstKind)
  obtain ⟨twoRow, isTwoRow, ofTwo, twoCurrent⟩ :=
    current twoEnding.member (twoEnding.accepted secondKind)
  have owners : one.decision = two.decision :=
    oneEnding.owner.trans (same.trans twoEnding.owner.symm)
  obtain rfl := Table.eq_of_key isOneRow isTwoRow (ofOne.trans (owners.trans ofTwo.symm))
  have attempts := Option.some.inj (oneCurrent.symm.trans twoCurrent)
  exact tracked.sole.single first inFirst second inSecond firstHolds secondHolds
    (oneEnding.isAttempt.symm.trans (attempts.trans twoEnding.isAttempt))

/-- Whatever the instances do and wherever they crash, a message that may have been delivered is not
sent again.

Proof: `Tracked` is an invariant of the run. It gives the log of an attempt one of few shapes, and a
call only after the recorded rejection of every earlier one; an undecided attempt has no such
record. -/
theorem reached_never_resent {host : Host} {catalog : List PolicyRow} {world : World}
    (reached : Reached host catalog world) : NeverResent world := by
  have tracked := reached.tracked
  have afterRejection : ∀ before after decision attempt earlier,
      world.log = before ++ .called decision attempt :: after → .called decision earlier ∈ before →
      ∃ rejection, .returned earlier (.rejected rejection) ∈ before ∧
        .recorded earlier (.rejected rejection) true ∈ before :=
    fun before after decision attempt earlier split wasCalled =>
      tracked.ordered before _ after split decision attempt earlier rfl wasCalled
  refine ⟨fun attempt => (tracked.shaped attempt).called_once, afterRejection, ?_, ?_⟩
  · intro before event after decision attempt split undecided own wasCalled later wasLater
    obtain ⟨between, rest, rfl⟩ := List.append_of_mem wasLater
    obtain ⟨rejection, _, recorded⟩ := afterRejection (before ++ event :: between) rest decision
      later attempt (by simp [split]) (List.mem_append_left _ wasCalled)
    have traced {other : Event} (listed : other ∈ before ++ event :: between)
        (isOwn : other.attempt? = some attempt) : other ∈ trace world.log attempt := by
      refine History.mem_about.mpr ⟨?_, isOwn⟩
      rw [split, ← List.cons_append, ← List.append_assoc]
      exact List.mem_append_left _ listed
    have decided := (tracked.shaped attempt).decided (traced recorded rfl)
      (traced (by simp) own)
    rw [undecided] at decided
    cases decided
  · exact fun first inFirst second inSecond same firstHolds secondHolds firstKind secondKind =>
      tracked.accepted_once inFirst inSecond same firstHolds secondHolds firstKind secondKind

/-- A decision that is rejected, retried and then accepted. -/
def sampleRetry : World :=
  sampleRun
    [.prepare .open (sampleEnvelope .announcement "news-1") 1 1000000000,
      .resume (sampleCall "news-1" 1 2), .begin .open 0, .call 0,
      .answer 0 (.rejected ⟨"offline", [1], true, 3000000000⟩), .record .open 0,
      .reconcile .open "news-1" .rejectedAuditPending 4000000000,
      .resume (sampleCall "news-1" 1 5), .reacquire .open 1, .begin .open 1, .call 1,
      .answer 1 (.accepted ⟨"channel", "provider", "message", none, 6000000000, none⟩),
      .record .open 1]

/-- The sink is called twice, the second time after the recorded rejection. -/
theorem reached_never_resent_retry :
    NeverResent sampleRetry ∧
      (sampleRetry.log.filter fun event => event matches .called _ _).length = 2 := by
  have reached : Reached sampleHost compiledPolicyCatalog sampleRetry := Reached.initial.run _
  exact ⟨reached_never_resent reached, by decide +kernel⟩

end StockAnalysis.Delivery
