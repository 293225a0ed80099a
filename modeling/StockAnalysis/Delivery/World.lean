import StockAnalysis.Delivery.Steps

/-!
# Coordinators at work on one store

Any number of instances share the store. A call of `resume_deliverable` is a runner: it looks at the
decision, reserves it again if it may, begins an attempt, calls the sink outside every transaction
and records the result; it can be lost between any two of these. The other operations are single
transactions, and a reconciliation is the transactions of its loop in any order.

The log keeps what happened to every sink call, and what was refused.
-/

namespace StockAnalysis.Delivery

/-- The arguments of a call of `resume_deliverable`. -/
structure ResumeCall where
  config : Config
  decision : String
  sinkCount : Nat
  now : Instant

/-- How far a call of `resume_deliverable` has come. -/
inductive Phase where
  | reacquiring
  | beginning
  | holding (lease : AttemptLease)
  | calling (lease : AttemptLease)
  | returned (lease : AttemptLease) (result : AuthoritativeSinkResult)
  | finished

/-- The lease of a runner that has not recorded its result. -/
def Phase.lease? : Phase → Option AttemptLease
  | .holding lease | .calling lease | .returned lease _ => some lease
  | .reacquiring | .beginning | .finished => none

structure Runner where
  call : ResumeCall
  phase : Phase

inductive Event where
  | called (decision attempt : String)
  | returned (attempt : String) (result : AuthoritativeSinkResult)
  | recorded (attempt : String) (result : AuthoritativeSinkResult) (holds : Bool)
  /-- The runner was lost after the call, or could not record the result. -/
  | lost (attempt : String)
  /-- An envelope was refused for the identity of another one. -/
  | conflicted (envelope : DeliveryEnvelope)
  /-- A reserved or new decision was denied for its number of sinks. -/
  | denied (decision : String) (sinkCount : Nat)

structure World where
  store : Store
  runners : List Runner
  log : List Event

variable (host : Host) (catalog : List PolicyRow) (world : World) (gates : Gates) (store : Store)

def World.initial : World :=
  ⟨.empty, [], []⟩

/-- What the append port has stored and a transaction acknowledges. -/
inductive Appended where
  | audit (identity decision sha256 : String)
  | disposition (identity sha256 : String)
  | delivery (identity sha256 : String)
  | manual (identity decision sha256 : String)
  | transition (identity sha256 : String)

inductive Action where
  | prepare (gates : Gates) (envelope : DeliveryEnvelope) (sinkCount : Nat) (admissionAt : Instant)
  | authorize (gates : Gates) (identity : String)
  | resume (call : ResumeCall)
  | reacquire (gates : Gates) (runner : Nat)
  | begin (gates : Gates) (runner : Nat)
  | call (runner : Nat)
  | answer (runner : Nat) (result : AuthoritativeSinkResult)
  | record (gates : Gates) (runner : Nat)
  | crash (runner : Nat)
  | heartbeat (gates : Gates) (config : Config) (decision attempt : String) (fenceToken : Nat)
      (heartbeatAt : Instant)
  | recover (gates : Gates) (candidate : RecoveryCandidate) (now : Instant)
  | acknowledge (gates : Gates) (appended : Appended) (immutableRef : String)
  | reconcile (gates : Gates) (identity : String) (readState : DecisionState) (now : Instant)
  | resolve (gates : Gates) (command : ManualResolutionCommand) (authorizationRef : String)

/-- The transaction that acknowledges an append. -/
def Appended.acknowledge (immutableRef : String) : Appended → Outcome Store
  | .audit identity decision sha256 =>
    acknowledgeAudit gates store identity decision sha256 immutableRef
  | .disposition identity sha256 =>
    acknowledgeDisposition gates store identity sha256 immutableRef
  | .delivery identity sha256 =>
    acknowledgeDeliveryAudit gates store identity sha256 immutableRef
  | .manual identity decision sha256 =>
    acknowledgeManualAudit gates store identity decision sha256 immutableRef
  | .transition identity sha256 =>
    acknowledgeTransition gates store identity sha256 immutableRef

/-- The transition that a reconciliation makes of a decision it read in a state. -/
def reconcileDecision (identity : String) (readState : DecisionState) (now : Instant) :
    Outcome Store := do
  let stored ← loadDecision store identity
  match reconcileTarget readState stored.taskBindingPresent with
  | some target => transitionForReconcile host gates store identity readState target now
  | none => pure store

/-! ## Steps of the world -/

/-- The world with the store of a transaction that was committed. -/
def World.commit : Outcome Store → World
  | .ok store => { world with store := store }
  | .error _ => world

def World.setPhase (runner : Nat) (phase : Phase) : World :=
  { world with runners := world.runners.modify runner fun old => { old with phase := phase } }

def World.write (events : List Event) : World :=
  { world with log := world.log ++ events }

/-- A new decision is denied for its number of sinks. -/
def deniedForSinks (envelope : DeliveryEnvelope) (sinkCount : Nat) (admissionAt : Instant) : Bool :=
  match loadPolicy catalog envelope.pushKind envelope.subKind with
  | .error _ => false
  | .ok policy =>
    match evaluatePrepareDenial store.reservations envelope policy sinkCount admissionAt with
    | some (.invalidSinkCardinality _) => true
    | _ => false

/-- What is refused by a prepare. -/
def prepareEvents (envelope : DeliveryEnvelope) (sinkCount : Nat) (admissionAt : Instant) :
    PrepareTransactionOutcome → List Event
  | .identityConflict => [.conflicted envelope]
  | .inserted =>
    if deniedForSinks catalog store envelope sinkCount admissionAt then
      [.denied envelope.decisionIdentity sinkCount] else []
  | .existing _ => []

/-- The first look of `resume_deliverable` at the decision. -/
def resumePhase (identity : String) : Phase :=
  match store.decisions.get? identity with
  | none => .finished
  | some stored =>
    if stored.state = .rejectedDurable ∧ stored.retryAuthorized = true then .reacquiring
    else if stored.state = .reserved then .beginning
    else .finished

def World.prepare (host : Host) (catalog : List PolicyRow) (world : World) (gates : Gates)
    (envelope : DeliveryEnvelope) (sinkCount : Nat) (admissionAt : Instant) : World :=
  match Delivery.prepare host catalog gates world.store envelope sinkCount admissionAt with
  | .ok result =>
    World.write { world with store := result.2 }
      (prepareEvents catalog world.store envelope sinkCount admissionAt result.1)
  | .error _ => world

def World.reacquire (position : Nat) (runner : Runner) : World :=
  match reacquireRejected host catalog gates world.store runner.call.decision runner.call.now with
  | .ok (true, store) => World.setPhase { world with store := store } position .beginning
  | .ok (false, store) => World.setPhase { world with store := store } position .finished
  | .error _ => world.setPhase position .finished

/-- What is refused when no attempt begins. -/
def beginEvents (call : ResumeCall) : List Event :=
  if (store.decisions.get? call.decision).any (fun stored => stored.state = .reserved) then
    [.denied call.decision call.sinkCount] else []

def World.begin (position : Nat) (runner : Runner) : World :=
  match beginAttempt host runner.call.config gates world.store runner.call.decision
      runner.call.sinkCount runner.call.now with
  | .ok (some lease, store) =>
    World.setPhase { world with store := store } position (.holding lease)
  | .ok (none, store) =>
    World.write (World.setPhase { world with store := store } position .finished)
      (beginEvents world.store runner.call)
  | .error _ => world.setPhase position .finished

/-- The result was recorded by an attempt that still held the fence. -/
def holdsFence (lease : AttemptLease) : Bool :=
  (store.attempts.get? lease.attemptIdentity).any fun attempt =>
    (store.decisions.get? attempt.decision).any fun stored => authoritative stored attempt

def World.record (position : Nat) (runner : Runner) (lease : AttemptLease)
    (result : AuthoritativeSinkResult) : World :=
  match recordSinkResult host gates world.store lease.attemptIdentity lease.fenceToken result
      runner.call.now with
  | .ok store =>
    World.write (World.setPhase { world with store := store } position .finished)
      [.recorded lease.attemptIdentity result (holdsFence world.store lease)]
  | .error _ =>
    World.write (world.setPhase position .finished) [.lost lease.attemptIdentity]

/-- The sink call that a crash leaves without a recorded result. -/
def Phase.lostCall : Phase → List Event
  | .calling lease | .returned lease _ => [.lost lease.attemptIdentity]
  | .holding _ | .reacquiring | .beginning | .finished => []

/-- The next step of a runner, or its loss. -/
def World.advance (action : Action) (position : Nat) (runner : Runner) : World :=
  match action, runner.phase with
  | .reacquire gates _, .reacquiring => world.reacquire host catalog gates position runner
  | .begin gates _, .beginning => world.begin host gates position runner
  | .call _, .holding lease =>
    World.write (world.setPhase position (.calling lease))
      [.called lease.request.decisionIdentity lease.attemptIdentity]
  | .answer _ result, .calling lease =>
    World.write (world.setPhase position (.returned lease result))
      [.returned lease.attemptIdentity result]
  | .record gates _, .returned lease result =>
    world.record host gates position runner lease result
  | .crash _, phase => World.write (world.setPhase position .finished) phase.lostCall
  | _, _ => world

def Action.runner? : Action → Option Nat
  | .reacquire _ runner | .begin _ runner | .call runner | .answer runner _ | .record _ runner
  | .crash runner => some runner
  | .prepare .. | .authorize .. | .resume .. | .heartbeat .. | .recover .. | .acknowledge ..
  | .reconcile .. | .resolve .. => none

/-- The single transactions. -/
def World.transact : Action → World
  | .prepare gates envelope sinkCount admissionAt =>
    world.prepare host catalog gates envelope sinkCount admissionAt
  | .authorize gates identity => world.commit (authorizeRejectedRetry gates world.store identity)
  | .resume call =>
    { world with
      runners := world.runners ++ [⟨call, resumePhase world.store call.decision⟩] }
  | .heartbeat gates config decision attempt fenceToken heartbeatAt =>
    world.commit ((heartbeatAttempt host config gates world.store decision attempt fenceToken
      heartbeatAt).map Prod.snd)
  | .recover gates candidate now =>
    world.commit ((recoverExpiredAttempt host gates world.store candidate now).map Prod.snd)
  | .acknowledge gates appended immutableRef =>
    world.commit (appended.acknowledge gates world.store immutableRef)
  | .reconcile gates identity readState now =>
    world.commit (reconcileDecision host gates world.store identity readState now)
  | .resolve gates command authorizationRef =>
    world.commit (resolveUncertain host gates world.store command authorizationRef)
  | .reacquire .. | .begin .. | .call _ | .answer .. | .record .. | .crash _ => world

def World.step (action : Action) : World :=
  match action.runner? with
  | none => world.transact host catalog action
  | some position =>
    match world.runners[position]? with
    | none => world
    | some runner => world.advance host catalog action position runner

def World.run (actions : List Action) : World :=
  actions.foldl (World.step host catalog) world

/-- Worlds that a run from the empty store leads to. -/
inductive Reached (host : Host) (catalog : List PolicyRow) : World → Prop
  | initial : Reached host catalog .initial
  | step {world : World} (reached : Reached host catalog world) (action : Action) :
      Reached host catalog (world.step host catalog action)

variable {host : Host} {catalog : List PolicyRow} {world : World}

theorem Reached.run (reached : Reached host catalog world) (actions : List Action) :
    Reached host catalog (world.run host catalog actions) := by
  induction actions generalizing world with
  | nil => exact reached
  | cons action actions ih => exact ih (reached.step action)

/-! ## Phases of the runners -/

def World.phaseAt (world : World) (position : Nat) : Option Phase :=
  world.runners[position]?.map Runner.phase

theorem phaseAt_setPhase (world : World) (position other : Nat) (phase : Phase) :
    (world.setPhase position phase).phaseAt other =
      if position = other then (world.phaseAt other).map fun _ => phase
      else world.phaseAt other := by
  simp only [World.phaseAt, World.setPhase, List.getElem?_modify, Option.map_map]
  split <;> simp [Function.comp_def]

theorem phaseAt_resume (world : World) (runner : Runner) (position : Nat) {phase : Phase}
    (found : World.phaseAt { world with runners := world.runners ++ [runner] } position =
      some phase) : world.phaseAt position = some phase ∨ phase = runner.phase := by
  simp only [World.phaseAt, List.getElem?_append] at found ⊢
  split at found
  · exact .inl found
  · right
    obtain ⟨last, isLast, rfl⟩ := Option.map_eq_some_iff.mp found
    rw [List.getElem?_singleton] at isLast
    split at isLast
    · rw [Option.some.inj isLast]
    · cases isLast

/-! ## The store of a step -/

variable {next : Store}

section

theorem commit_step {outcome : Outcome Store}
    (steps : ∀ next, outcome = .ok next → Step host catalog world.store next) :
    Step host catalog world.store (world.commit outcome).store := by
  cases outcome with
  | ok next => exact steps next rfl
  | error _ => exact .refl host catalog world.store

variable {gates : Gates} {store : Store}

theorem reconcileDecision_step {identity : String} {readState : DecisionState} {now : Instant}
    (done : reconcileDecision host gates store identity readState now = .ok next) :
    Step host catalog store next := by
  obtain ⟨stored, loaded, done⟩ := bind_eq_ok.mp done
  obtain ⟨member, found⟩ := loadDecision_eq_ok.mp loaded
  cases isTarget : reconcileTarget readState stored.taskBindingPresent with
  | none =>
    simp only [isTarget] at done
    cases pure_eq_ok.mp done
    exact .refl host catalog _
  | some target =>
    simp only [isTarget] at done
    refine reconcile_step (fun row listed isRow => ?_) done
    rw [Table.eq_of_key listed member (isRow.trans found.symm)]
    exact isTarget

theorem acknowledge_step {immutableRef : String} {appended : Appended}
    (done : appended.acknowledge gates store immutableRef = .ok next) :
    Step host catalog store next := by
  cases appended with
  | audit | disposition | manual | transition => exact acknowledgeJournal_step done
  | delivery identity sha256 => exact acknowledgeDeliveryAudit_step done

/-- A single transaction takes a step of the store. -/
theorem transact_step (action : Action) :
    Step host catalog world.store (world.transact host catalog action).store := by
  cases action with
  | prepare gates envelope sinkCount admissionAt =>
    simp only [World.transact, World.prepare]
    cases done : prepare host catalog gates world.store envelope sinkCount admissionAt with
    | ok result => exact .prepared envelope sinkCount admissionAt _ _ (prepare_prepares done)
    | error _ => exact .refl host catalog world.store
  | authorize gates identity => exact commit_step fun _ done => authorize_step done
  | heartbeat gates config decision attempt fenceToken heartbeatAt =>
    refine commit_step fun _ done => ?_
    obtain ⟨_, beaten, rfl⟩ := map_eq_ok.mp done
    exact heartbeat_step beaten
  | recover gates candidate now =>
    refine commit_step fun _ done => ?_
    obtain ⟨_, recovered, rfl⟩ := map_eq_ok.mp done
    exact recover_step recovered
  | acknowledge gates appended immutableRef => exact commit_step fun _ done => acknowledge_step done
  | reconcile gates identity readState now =>
    exact commit_step fun _ done => reconcileDecision_step done
  | resolve gates command authorizationRef => exact commit_step fun _ done => resolve_step done
  | resume | reacquire | begin | call | answer | record | crash =>
    exact .refl host catalog world.store

/-- A change of the store in a run: a step, or the end of an attempt. -/
def Changes (host : Host) (catalog : List PolicyRow) (store next : Store) : Prop :=
  Step host catalog store next ∨ ∃ attempt row answer, Ended host store attempt row answer next

theorem advance_changes (action : Action) (position : Nat) (runner : Runner) :
    Changes host catalog world.store (world.advance host catalog action position runner).store := by
  unfold World.advance
  split
  · refine .inl ?_
    unfold World.reacquire
    split
    · rename_i done
      exact reacquire_step done
    · rename_i done
      exact reacquire_step done
    · exact .refl host catalog world.store
  · refine .inl ?_
    unfold World.begin
    split
    · rename_i done
      exact .began _ _ _ _ _ _ (begin_begins done)
    · rename_i done
      exact .began _ _ _ _ _ _ (begin_begins done)
    · exact .refl host catalog world.store
  · exact .inl (.refl host catalog world.store)
  · exact .inl (.refl host catalog world.store)
  · unfold World.record
    split
    · rename_i done
      obtain ⟨attempt, _, _, row, _, _, ⟨_, step⟩ | ended⟩ := record_step done
      · exact .inl step
      · exact .inr ⟨attempt, row, _, ended⟩
    · exact .inl (.refl host catalog world.store)
  · exact .inl (.refl host catalog world.store)
  · exact .inl (.refl host catalog world.store)

theorem step_changes (action : Action) :
    Changes host catalog world.store (world.step host catalog action).store := by
  unfold World.step
  split
  · exact .inl (transact_step action)
  · split
    · exact .inl (.refl host catalog world.store)
    · exact advance_changes action _ _

/-- The states that no transaction leaves. -/
def DecisionState.final : DecisionState → Bool
  | .delivered | .manualResolvedRejected => true
  | _ => false

/-- How a change of the store rewrites the decisions: not at all, by a new decision whose envelope
is valid, or by a decision that was not final and keeps its identity and envelope. -/
inductive Rewrites (host : Host) (decisions : Table Decision.identity) :
    Table Decision.identity → Prop
  | kept : Rewrites host decisions decisions
  | inserted (row : Decision) (later : Table Decision.identity)
      (valid : row.envelope.validate host = .ok ())
      (inserted : decisions.insert? row = some later) : Rewrites host decisions later
  | moved (old new : Decision) (member : old ∈ decisions.rows)
      (identity : new.identity = old.identity) (envelope : new.envelope = old.envelope)
      (unsettled : old.state.final = false) : Rewrites host decisions (decisions.set new)

theorem Step.rewrites (step : Step host catalog store next) :
    Rewrites host store.decisions next.decisions := by
  cases step with
  | acknowledged | audited | recorded | beat => exact .kept
  | prepared envelope sinkCount admissionAt outcome next prepares =>
    cases prepares with
    | existing | conflicted => exact .kept
    | denied _ _ _ _ _ inserted valid => exact .inserted _ _ valid inserted
    | admitted _ _ _ _ _ _ _ inserted valid => exact .inserted _ _ valid inserted
  | authorized row member inState => exact .moved _ _ member rfl rfl (inState ▸ rfl)
  | reacquired row _ _ _ _ member inState => exact .moved _ _ member rfl rfl (inState ▸ rfl)
  | began _ _ _ _ _ _ begins =>
    cases begins with
    | idle => exact .kept
    | refused row _ member inState settles =>
      obtain ⟨_, _, _, _, _, _, rfl⟩ := settles
      exact .moved _ _ member rfl rfl (inState ▸ rfl)
    | started row _ _ _ _ member inState =>
      exact .moved _ _ member rfl rfl (inState ▸ rfl)
  | recovered _ row _ _ _ _ _ _ _ member _ inState _ _ settles =>
    obtain ⟨_, _, _, _, _, _, rfl⟩ := settles
    rw [Table.set_set (Decision.settled_identity ..)]
    exact .moved _ _ member rfl rfl (inState ▸ rfl)
  | transitioned row target _ member isTarget =>
    refine .moved _ _ member rfl rfl ?_
    cases state : row.state <;> first | rfl | simp [state, reconcileTarget] at isTarget
  | resolved row _ _ _ _ member inState settles =>
    obtain ⟨_, _, _, _, _, _, rfl⟩ := settles
    exact .moved _ _ member rfl rfl (inState ▸ rfl)

theorem Changes.rewrites (changes : Changes host catalog store next) :
    Rewrites host store.decisions next.decisions := by
  rcases changes with step | ⟨attempt, row, answer, ended⟩
  · exact step.rewrites
  · obtain ⟨_, _, _, _, _, _, _, _, _, _, _, _, rfl⟩ := ended.settles
    exact .moved _ _ ended.member rfl rfl ((authoritative_iff.mp ended.holds).1 ▸ rfl)

/-- What holds of the empty store and is kept by every change holds of every store reached. -/
theorem Reached.invariant (invariant : Store → Prop) (initial : invariant .empty)
    (kept : ∀ store next, invariant store → Changes host catalog store next → invariant next)
    (reached : Reached host catalog world) : invariant world.store := by
  induction reached with
  | initial => exact initial
  | step _ action ih => exact kept _ _ ih (step_changes action)

end

/-! ## A host to run on -/

def Field.sample : Field → String
  | .text value => value
  | .number value => toString value
  | .flag value => toString value
  | .time millis => toString millis
  | .null => "-"
  | .receipt value => value.messageId
  | .rejection value => value.reasonCode
  | .uncertainty value => value.reasonCode

def sampleHost : Host where
  stableIdentity domain parts := String.intercalate "/" (domain :: parts)
  sha256 canonical := String.intercalate "," (canonical.map fun entry => entry.2.sample)
  sha256Bytes bytes := String.ofList (bytes.map fun byte => Char.ofNat byte.toNat)
  envelopeSha256 envelope :=
    envelope.scheduleOccurrenceIdentity ++ toString envelope.retryAuthorized
  receiptSha256 receipt := receipt.messageId
  decisionIdentity material := material.scheduleOccurrenceIdentity
  validBusinessDate _ := true
  validateFreshEnvelope _ := .ok ()
  validateCandidateBoardSource _ := .ok ()

def sampleEnvelope (kind : PushKind) (occurrence : String) : DeliveryEnvelope where
  envelopeVersion := 1
  decisionIdentity := occurrence
  businessDate := "2026-09-07"
  pushKind := kind
  subKind := .none
  cooldownScope := .global
  scopeKey := "GLOBAL"
  scheduleOccurrenceIdentity := occurrence
  sourceEvidenceFingerprint := "evidence"
  sourceBindingCanonical := [65]
  sourceBindingSha256 := "A"
  deliverySubjectHash := "subject"
  renderedContent := [66]
  renderedContentSha256 := "B"
  policyVersion := 7
  retryAuthorized := false
  providerObservedAt := none
  providerAsOf := none
  originalBatchIds := []
  taskBinding := none
  foundationBinding := none

/-- A call of the first instance at a second. -/
def sampleCall (decision : String) (sinkCount : Nat) (second : Int) : ResumeCall :=
  ⟨⟨"monitor-1", 120⟩, decision, sinkCount, second * 1000000000⟩

def sampleRun (actions : List Action) : World :=
  World.initial.run sampleHost compiledPolicyCatalog actions

end StockAnalysis.Delivery
