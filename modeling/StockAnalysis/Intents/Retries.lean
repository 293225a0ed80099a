import StockAnalysis.Intents.Steps

/-!
# Retried commands

Every event of the store was made by exactly one applied command. The frozen event schema has no
column for the lease, so an event records neither the lease action nor the fence of its command. A
retry is compared with what the event records, and while the event is still the head's an Acquire
or a Release is compared with the lease of the head as well. The answer `AlreadyCommitted` promises
that much, over any number of later transitions, and no more: a rival of the applied claim that
comes after a later transition is acknowledged too.
-/

namespace StockAnalysis.Intents

/-- The command was told that its transition is in the store. -/
def Entry.acknowledged (entry : Entry) : Bool :=
  entry.verdict ∈ [Verdict.applied, .alreadyCommitted]

/-- The two commands agree in every field that an event records, that is in all but the lease
action and the fence. -/
def StoreTransitionCommand.sameRecord (first second : StoreTransitionCommand) : Prop :=
  { first with leaseAction := second.leaseAction, requiredFence := second.requiredFence } = second

variable {command : StoreTransitionCommand} {host : Host} {world : World}

theorem records_iff {receipt : TransitionReceipt} :
    receipt.records command = true ↔
      receipt.intentId = command.intentId ∧ receipt.fromState = command.fromState ∧
        receipt.toState = command.toState ∧
        receipt.expectedVersion = command.expectedVersion ∧
        receipt.resultVersion = command.expectedVersion + 1 ∧
        receipt.actor = command.actor.value ∧ receipt.reason = command.reason ∧
        receipt.occurredAt = command.occurredAt ∧ receipt.terminal = command.terminal := by
  simp only [TransitionReceipt.records, Bool.and_eq_true, decide_eq_true_eq, and_assoc]

theorem records_eq {first second : StoreTransitionCommand} {previousSha256 : Option String}
    (recorded : (TransitionReceipt.fromCommand host first previousSha256).records second = true) :
    first.sameRecord second := by
  obtain ⟨subject, source, target, version, _, actor, reason, at_, terminal⟩ :=
    records_iff.mp recorded
  have sameActor : first.actor = second.actor := Text.ext actor
  cases first
  cases second
  simp only [TransitionReceipt.fromCommand] at subject source target version reason at_ terminal
  simp only at sameActor
  simp only [StoreTransitionCommand.sameRecord, subject, source, target, version, sameActor,
    reason, at_, terminal]

section SameRecord

variable {maker first second : StoreTransitionCommand}

theorem StoreTransitionCommand.sameRecord.keys (same : first.sameRecord second) :
    first.intentId = second.intentId ∧ first.expectedVersion = second.expectedVersion :=
  ⟨congrArg (·.intentId) same, congrArg (·.expectedVersion) same⟩

/-- Two commands that agree with a third one in all that is recorded agree with each other. -/
theorem StoreTransitionCommand.sameRecord.common (ofFirst : maker.sameRecord first)
    (ofSecond : maker.sameRecord second) : first.sameRecord second := by
  unfold StoreTransitionCommand.sameRecord at *
  rw [← ofSecond, ← ofFirst]

end SameRecord

/-! ## Events and the commands that made them -/

/-- The events of the store are those of the applied commands, one for each version. The command
behind the last event of an intent left the lease that its head still carries. -/
structure Journaled (host : Host) (world : World) : Prop where
  kept : ∀ event ∈ world.store.transitions.rows, ∃ entry ∈ world.log,
    entry.verdict = .applied ∧ ∃ previousSha256,
      event = TransitionReceipt.fromCommand host entry.command previousSha256
  made : ∀ entry ∈ world.log, entry.verdict = .applied →
    ∃ event ∈ world.store.transitions.rows, event.intentId = entry.command.intentId ∧
      event.resultVersion = entry.command.expectedVersion + 1
  once : ∀ first ∈ world.log, ∀ second ∈ world.log, first.verdict = .applied →
    second.verdict = .applied → first.command.intentId = second.command.intentId →
    first.command.expectedVersion = second.command.expectedVersion →
    first.command = second.command
  left_ : ∀ entry ∈ world.log, entry.verdict = .applied → ∀ head ∈ world.store.intents.rows,
    head.intentId = entry.command.intentId → head.version = entry.command.expectedVersion + 1 →
    entry.command.leaseAction.fits head = true

variable {store : Store}

/-- The row after a transition carries the lease that the command asked for. -/
theorem applyLeaseAction_fits {row : IntentSnapshot} {lease : Lease}
    (done : applyLeaseAction row command = .ok lease) :
    command.leaseAction.fits (row.advanced command lease) = true := by
  unfold applyLeaseAction at done
  cases action : command.leaseAction with
  | preserve => rfl
  | acquire owner until_ =>
    simp only [action, bind_eq_ok, require_eq_ok, pure_eq_ok] at done
    obtain ⟨_, _, _, _, rfl⟩ := done
    simp [LeaseAction.fits, IntentSnapshot.advanced]
  | release owner =>
    simp only [action, bind_eq_ok, require_eq_ok, pure_eq_ok] at done
    obtain ⟨_, _, rfl⟩ := done
    simp [LeaseAction.fits, IntentSnapshot.advanced]

theorem Applied.fresh {next : Store} {row : IntentSnapshot} {lease : Lease}
    (applied : Applied host store command row lease next) (sound : Sound host store)
    {event : TransitionReceipt} (member : event ∈ store.transitions.rows)
    (subject : event.intentId = command.intentId) :
    event.resultVersion ≠ command.expectedVersion + 1 := by
  have reached := sound.version_reached member applied.member
    (applied.subject.trans subject.symm)
  obtain ⟨_, version, _⟩ := stale_eq_false.mp applied.current
  omega

theorem Step.journaled {next : World} (step : Step host world next) (sound : Sound host world.store)
    (journaled : Journaled host world) :
    Journaled host next := by
  cases step with
  | recorded store _ _ born same =>
    constructor
    · rw [same]
      exact journaled.kept
    · rw [same]
      exact journaled.made
    · exact journaled.once
    · intro entry listed was head present subject version
      rcases born head present with old | ⟨initial, _⟩
      · exact journaled.left_ entry listed was head old subject version
      · omega
  | applied command row lease store applied =>
    -- an applied command finds no event of its version, so no earlier command made one
    have unused : ∀ entry ∈ world.log, entry.verdict = .applied →
        entry.command.intentId = command.intentId →
        entry.command.expectedVersion ≠ command.expectedVersion := by
      intro entry listed was subject version
      obtain ⟨event, member, owner, made⟩ := journaled.made entry listed was
      exact applied.fresh sound member (owner.trans subject) (made.trans (by rw [version]))
    constructor
    · intro event listed
      simp only [applied.appended, List.mem_append, List.mem_singleton] at listed
      rcases listed with old | rfl
      · obtain ⟨entry, member, made⟩ := journaled.kept event old
        exact ⟨entry, List.mem_append_left _ member, made⟩
      · exact ⟨_, List.mem_append_right _ (List.mem_singleton.mpr rfl), rfl, _, rfl⟩
    · intro entry listed was
      simp only [applied.appended, List.mem_append, List.mem_singleton] at listed ⊢
      rcases listed with old | rfl
      · obtain ⟨event, member, made⟩ := journaled.made entry old was
        exact ⟨event, .inl member, made⟩
      · exact ⟨_, .inr rfl, rfl, rfl⟩
    · intro first inFirst second inSecond firstWas secondWas subject version
      simp only [List.mem_append, List.mem_singleton] at inFirst inSecond
      rcases inFirst with inFirst | rfl <;> rcases inSecond with inSecond | rfl
      · exact journaled.once first inFirst second inSecond firstWas secondWas subject version
      · exact absurd version (unused first inFirst firstWas subject)
      · exact absurd version.symm (unused second inSecond secondWas subject.symm)
      · rfl
    · intro entry listed was head present subject version
      simp only [List.mem_append, List.mem_singleton] at listed
      rcases (applied.intents head).mp present with ⟨old, other⟩ | rfl
      · rcases listed with listed | rfl
        · exact journaled.left_ entry listed was head old subject version
        · exact absurd subject other
      · rcases listed with listed | rfl
        · refine absurd ?_ (unused entry listed was (subject.symm.trans applied.subject))
          exact (Nat.succ.inj version).symm
        · exact applyLeaseAction_fits applied.leased
  | answered timing command answer given unapplied =>
    have older : ∀ entry ∈ world.log ++ [⟨command, answer⟩], entry.verdict = .applied →
        entry ∈ world.log := by
      intro entry listed was
      rcases mem_concat.mp listed with old | rfl
      · exact old
      · exact absurd was (verdict_ne_applied unapplied)
    constructor
    · intro event listed
      obtain ⟨entry, member, made⟩ := journaled.kept event listed
      exact ⟨entry, List.mem_append_left _ member, made⟩
    · intro entry listed was
      exact journaled.made entry (older entry listed was) was
    · intro first inFirst second inSecond firstWas secondWas
      exact journaled.once first (older first inFirst firstWas) second
        (older second inSecond secondWas) firstWas secondWas
    · intro entry listed was
      exact journaled.left_ entry (older entry listed was) was

theorem Reached.journaled (reached : Reached host world) :
    Journaled host world := by
  refine reached.invariant ⟨?_, ?_, ?_, ?_⟩ fun _ _ sound step => step.journaled sound
  · simp [World.initial, Store.empty, Table.empty]
  all_goals simp [World.initial]

/-! ## The answer to a retry -/

variable {timing : Timing} {existing : TransitionReceipt}

/-- An answer of `AlreadyCommitted` comes from an event that matches the command and the head. -/
theorem answered_alreadyCommitted (sound : Sound host store)
    (answered : (applyTransitionInner host store timing command).2 =
      .ok (.alreadyCommitted existing)) :
    existing ∈ store.transitions.rows ∧ ∃ head ∈ store.intents.rows,
      head.intentId = command.intentId ∧ existing.matchesCommand command head = true := by
  have transacted : (transact host store command).2 ≠ .ok (.alreadyCommitted existing) := by
    intro answered
    unfold transact at answered
    cases done : transitionTransaction host store command with
    | error error => simp [done] at answered
    | ok result =>
      obtain ⟨outcome, next⟩ := result
      rw [done] at answered
      rcases transitionTransaction_eq_ok sound done with
        ⟨rfl, row, lease, applied⟩ | ⟨⟨head, rfl⟩, rfl⟩
      · simp only [applied.answered sound] at answered
        cases answered
      · cases answered
  unfold applyTransitionInner at answered
  split at answered
  · cases answered
  · cases timing with
    | raced => exact absurd answered transacted
    | fresh =>
      simp only at answered
      split at answered
      · cases answered
      · rename_i found read
        simp only [retryAnswer, bind_eq_ok] at answered
        obtain ⟨head, inspected, _, _, answered⟩ := answered
        obtain ⟨member, subject⟩ := sound.of_inspect inspected
        split at answered
        · rename_i matched
          simp only [pure_eq_ok, TransitionOutcome.alreadyCommitted.injEq] at answered
          obtain rfl := answered
          have stored := (queryTransition_eq_some.mp read).1
          exact ⟨(Table.get?_eq_some_iff.mp stored).1, head, member, subject, matched⟩
        · cases answered
      · exact absurd answered transacted

/-- The applied command behind an answer of `AlreadyCommitted`. It agrees with the retried command
in all that its event records, and while the event is the head's both ask for the head's lease. -/
theorem maker_of_alreadyCommitted (reached : Reached host world)
    (answered : (applyTransitionInner host world.store timing command).2 =
      .ok (.alreadyCommitted existing)) :
    ∃ maker ∈ world.log, maker.verdict = .applied ∧ maker.command.sameRecord command ∧
      ∃ head ∈ world.store.intents.rows, head.intentId = command.intentId ∧
        (head.version = command.expectedVersion + 1 →
          maker.command.leaseAction.fits head = true ∧ command.leaseAction.fits head = true) := by
  obtain ⟨member, head, present, subject, matched⟩ :=
    answered_alreadyCommitted reached.sound answered
  obtain ⟨maker, listed, was, previous, rfl⟩ := reached.journaled.kept existing member
  have recorded : (TransitionReceipt.fromCommand host maker.command previous).records command =
      true := by
    unfold TransitionReceipt.matchesCommand at matched
    split at matched
    · exact matched
    · rename_i agrees
      simpa using (not_or.mp agrees).1
  obtain ⟨sameSubject, _, _, sameVersion, _⟩ := records_iff.mp recorded
  refine ⟨maker, listed, was, records_eq recorded, head, present, subject, fun last => ?_⟩
  have isLast : head.version =
      (TransitionReceipt.fromCommand host maker.command previous).resultVersion :=
    last.trans (congrArg (· + 1) sameVersion.symm)
  refine ⟨reached.journaled.left_ maker listed was head present (subject.trans sameSubject.symm)
    isLast, ?_⟩
  unfold TransitionReceipt.matchesCommand at matched
  rwa [if_neg (by simp [recorded, isLast])] at matched

/-- Along every run an acknowledged command agrees with an applied one in all that is recorded. -/
theorem Reached.acknowledged (reached : Reached host world) :
    ∀ entry ∈ world.log, entry.acknowledged = true →
      ∃ maker ∈ world.log, maker.verdict = .applied ∧
        maker.command.sameRecord entry.command := by
  induction reached with
  | initial => simp [World.initial]
  | @step world reached action ih =>
    cases action with
    | record request =>
      have same : (world.step host (.record request)).log = world.log := by
        simp only [World.step]
        split <;> rfl
      rw [same]
      exact ih
    | submit timing command =>
      intro entry listed told
      have grown : (world.step host (.submit timing command)).log = world.log ++
          [⟨command, (applyTransitionInner host world.store timing command).2⟩] := rfl
      rw [grown] at listed ⊢
      rcases mem_concat.mp listed with old | rfl
      · obtain ⟨maker, member, made⟩ := ih entry old told
        exact ⟨maker, List.mem_append_left _ member, made⟩
      · cases answer : (applyTransitionInner host world.store timing command).2 with
        | error error => simp [Entry.acknowledged, Entry.verdict, answer] at told
        | ok outcome =>
          cases outcome with
          | applied receipt =>
            exact ⟨_, List.mem_append_right _ (List.mem_singleton.mpr rfl), rfl, rfl⟩
          | alreadyCommitted existing =>
            obtain ⟨maker, member, was, same, _⟩ := maker_of_alreadyCommitted reached answer
            exact ⟨maker, List.mem_append_left _ member, was, same⟩
          | conflict head => simp [Entry.acknowledged, Entry.verdict, answer] at told

/-- In every reached world a command is answered `AlreadyCommitted` only for an applied command
that agrees with it in all that the event records; while that event is the head's, the applied
command left the head's lease and an Acquire or Release of the retry asks for exactly it. Two
acknowledged commands of one intent and version agree in all that is recorded, and only one
command was applied. The first part reads the match of the event back to the command that made
it, which `Journaled` keeps along the run; the second compares both commands with that maker. -/
theorem retries_faithful {host : Host} {world : World} (reached : Reached host world) :
    (∀ timing command existing,
      (applyTransitionInner host world.store timing command).2 = .ok (.alreadyCommitted existing) →
      ∃ maker ∈ world.log, maker.verdict = .applied ∧ maker.command.sameRecord command ∧
        ∃ head ∈ world.store.intents.rows, head.intentId = command.intentId ∧
          (head.version = command.expectedVersion + 1 →
            maker.command.leaseAction.fits head = true ∧
              command.leaseAction.fits head = true)) ∧
    ∀ first ∈ world.log, ∀ second ∈ world.log, first.acknowledged = true →
      second.acknowledged = true → first.command.intentId = second.command.intentId →
      first.command.expectedVersion = second.command.expectedVersion →
      first.command.sameRecord second.command ∧
        (first.verdict = .applied → second.verdict = .applied →
          first.command = second.command) := by
  refine ⟨fun timing command existing => maker_of_alreadyCommitted reached, ?_⟩
  intro first inFirst second inSecond firstTold secondTold subject version
  obtain ⟨firstMaker, inMakers, firstWas, ofFirst⟩ :=
    reached.acknowledged first inFirst firstTold
  obtain ⟨secondMaker, inMakers', secondWas, ofSecond⟩ :=
    reached.acknowledged second inSecond secondTold
  have makers : firstMaker.command = secondMaker.command :=
    reached.journaled.once firstMaker inMakers secondMaker inMakers' firstWas secondWas
      (ofFirst.keys.1.trans (subject.trans ofSecond.keys.1.symm))
      (ofFirst.keys.2.trans (version.trans ofSecond.keys.2.symm))
  rw [← makers] at ofSecond
  refine ⟨ofFirst.common ofSecond, fun firstIs secondIs => ?_⟩
  exact reached.journaled.once first inFirst second inSecond firstIs secondIs subject version

/-- A second dispatcher asks for the lease with the words of the first one's claim. -/
def sampleRival : StoreTransitionCommand :=
  { sampleClaim with leaseAction := .acquire secondOwner 300 }

/-- The dispatcher's own claim is acknowledged again, at the head and after a later transition; the
rival's is refused at the head. -/
theorem retries_faithful_own_claim :
    let world := sampleClaimed.run sampleHost [.submit .fresh sampleClaim,
      .submit .fresh sampleRival, .submit .fresh sampleHold, .submit .fresh sampleClaim]
    world.log.map Entry.verdict =
        [.applied, .alreadyCommitted, .conflict, .applied, .alreadyCommitted] ∧
      (∃ existing, (applyTransitionInner sampleHost sampleClaimed.store .fresh sampleClaim).2 =
          .ok (.alreadyCommitted existing) ∧
        ∃ maker ∈ sampleClaimed.log, maker.verdict = .applied ∧
          maker.command.sameRecord sampleClaim ∧
          ∃ head ∈ sampleClaimed.store.intents.rows, head.intentId = sampleClaim.intentId ∧
            (head.version = 1 → maker.command.leaseAction.fits head = true ∧
              sampleClaim.leaseAction.fits head = true)) ∧
      ∀ first ∈ world.log, ∀ second ∈ world.log, first.acknowledged = true →
        second.acknowledged = true → first.command.intentId = second.command.intentId →
        first.command.expectedVersion = second.command.expectedVersion →
        first.command.sameRecord second.command ∧
          (first.verdict = .applied → second.verdict = .applied →
            first.command = second.command) := by
  have reached : Reached sampleHost sampleClaimed :=
    Reached.initial.run [.record sampleRequest, .submit .fresh sampleClaim]
  refine ⟨by decide +kernel, ⟨_, rfl, ?_⟩, (retries_faithful (reached.run _)).2⟩
  exact (retries_faithful reached).1 .fresh sampleClaim _ rfl

/-- After a later transition the store answers the rival's claim of the lease with
`AlreadyCommitted`, although the first dispatcher's claim was the applied one. -/
theorem rival_claim_acknowledged :
    let log := (sampleClaimed.run sampleHost
      [.submit .fresh sampleHold, .submit .fresh sampleRival]).log
    log.map Entry.command = [sampleClaim, sampleHold, sampleRival] ∧
      log.map Entry.verdict = [.applied, .applied, .alreadyCommitted] ∧
      (∀ command ∈ [sampleClaim, sampleHold, sampleRival],
        ∃ request : IntentTransitionCommand, request.tryNew = .ok command) ∧
      sampleRival.intentId = sampleClaim.intentId ∧
      sampleRival.expectedVersion = sampleClaim.expectedVersion ∧
      sampleRival.leaseAction ≠ sampleClaim.leaseAction := by
  refine ⟨rfl, by decide +kernel, ?_, rfl, rfl, by decide +kernel⟩
  intro command listed
  refine ⟨⟨command.intentId, command.fromState, command.toState, command.expectedVersion,
    command.actor, command.reason, command.occurredAt, command.leaseAction⟩, ?_⟩
  simp only [List.mem_cons, List.not_mem_nil, or_false] at listed
  rcases listed with rfl | rfl | rfl <;> rfl

end StockAnalysis.Intents
