import StockAnalysis.Intents.Leases

/-!
# Readable and consistent intents

The edge rules of a transition are written four times: where the command is built, in the
finalizer's look at the history, in the trigger, and in the reader of the chain. In every session
they agree. Each intent is read back with its chain, the head is the fold of the chain, and a
command that passes the checks of the code is never rejected by the tables.
-/

namespace StockAnalysis.Intents

/-! ## The head as a fold -/

/-- The columns of an intent that its transitions determine. -/
structure Head where
  state : IntentState
  previousState : Option IntentState
  reason : ReasonCode
  version : Nat
  updatedAt : Nat

def IntentSnapshot.head (row : IntentSnapshot) : Head :=
  ⟨row.state, row.previousState, row.reason, row.version, row.updatedAt⟩

/-- The head of an intent that no transition has touched. -/
def IntentContent.initialHead (content : IntentContent) : Head :=
  ⟨content.decisionKind.initialState, none, content.decisionKind.initialReason, 0,
    content.createdAt⟩

def Head.apply (head : Head) (event : TransitionReceipt) : Head :=
  ⟨event.toState, some event.fromState, event.reason, head.version + 1, event.occurredAt⟩

theorem foldl_apply_version (start : Head) (chain : List TransitionReceipt) :
    (chain.foldl Head.apply start).version = start.version + chain.length := by
  induction chain generalizing start with
  | nil => rfl
  | cons event rest ih =>
    simp only [List.foldl_cons, ih, List.length_cons, Head.apply]
    omega

variable {host : Host} {row : IntentSnapshot} {source target : IntentState} {reason : ReasonCode}
  {event : TransitionReceipt} {reading : Reading} {store : Store} {session : Session}
  {command : StoreTransitionCommand} {lease : Lease}

theorem HeadOf.fold {chain : List TransitionReceipt} (headOf : HeadOf row chain)
    (verified : verifySnapshot host row = .ok ()) :
    row.head = chain.foldl Head.apply row.initialHead := by
  rcases List.eq_nil_or_concat chain with rfl | ⟨earlier, last, rfl⟩
  · have untouched : row.version = 0 := headOf.length.symm
    have origin := (verifySnapshot_eq_ok.mp verified).2.2.2.2
    rw [IntentSnapshot.verifyOrigin, if_pos untouched, require_eq_ok] at origin
    obtain ⟨state, reason, previous, _, _, updated⟩ := origin
    simp [IntentSnapshot.head, IntentContent.initialHead, state, reason, previous, updated,
      untouched]
  · rw [List.concat_eq_append] at headOf ⊢
    obtain ⟨state, previous, reason, updated⟩ := headOf.last last (List.getLast?_concat ..)
    have version := headOf.length
    rw [List.length_append, List.length_singleton] at version
    rw [List.foldl_append, List.foldl_cons, List.foldl_nil, Head.apply, foldl_apply_version]
    simp [IntentSnapshot.head, IntentContent.initialHead, ← version, state, previous, reason,
      updated]

/-! ## What a chain can contain -/

/-- No edge leaves `NotDelivered`, and `Completed` is left only by a conflict. -/
theorem persistedEdge_source (allowed : persistedEdgeReasonAllowed source target reason = true) :
    source ≠ .notDelivered ∧ (source = .completed → target = .resolutionRequired ∧
      reason ∈ [ReasonCode.intentPayloadConflict, .intentExpectedVersionConflict,
        .finalizerCasConflict]) := by
  revert allowed
  cases source <;> cases target <;>
    simp [persistedEdgeReasonAllowed, nonterminalEdgeAllowed]

theorem EventVerified.edge (verified : EventVerified host event) :
    persistedEdgeReasonAllowed event.fromState event.toState event.reason = true :=
  (verifyTransition_eq_ok.mp verified.verified).2.2.2.2.1

variable {earlier events : List TransitionReceipt} {world next : World}
  {old new snapshot : IntentSnapshot}

theorem Linked.verified (linked : Linked host earlier events) (member : event ∈ events) :
    EventVerified host event := by
  obtain ⟨before, after, rfl⟩ := List.append_of_mem member
  exact (linked_append.mp linked).2.1

/-- An event that settles as not delivered is the last one, and no acceptance comes before it. -/
theorem Linked.undelivered {later : List TransitionReceipt}
    (linked : Linked host [] (earlier ++ event :: later)) (target : event.toState = .notDelivered) :
    earlier.any TransitionReceipt.acceptance = false ∧ later = [] := by
  obtain ⟨_, _, _, allowed, rest⟩ := linked_append.mp linked
  constructor
  · simp only [List.nil_append, historyAllows, target, ne_eq, not_true_eq_false, decide_false,
      Bool.false_or, Bool.and_eq_true, Bool.not_eq_true'] at allowed
    exact allowed.1
  · cases later with
    | nil => rfl
    | cons next others =>
      have continued := (continues_iff.mp rest.2.1).2.2.2 event (by simp)
      exact absurd (target.symm.trans continued.2).symm (persistedEdge_source rest.1.edge).1

/-! ## What the callers have read stays true -/

/-- A reading shows the content of an intent and a beginning of its chain. -/
structure ReadingHolds (host : Host) (store : Store) (reading : Reading) : Prop where
  verified : verifySnapshot host reading.snapshot = .ok ()
  head : HeadOf reading.snapshot reading.chain
  known : ∃ row ∈ store.intents.rows,
    row.toIntentContent = reading.snapshot.toIntentContent
  chain : reading.chain <+: store.chain reading.snapshot.intentId

/-- A step keeps the content of every intent and extends every chain. -/
theorem Step.extends_ (step : Step host world next) :
    (∀ row ∈ world.store.intents.rows, ∃ kept ∈ next.store.intents.rows,
      kept.toIntentContent = row.toIntentContent) ∧
    ∀ intentId, world.store.chain intentId <+: next.store.chain intentId := by
  cases step with
  | recorded store _ kept _ same =>
    constructor
    · exact fun row member => ⟨row, kept row member, rfl⟩
    · intro intentId
      simp only [Store.chain, same]
      exact List.prefix_refl _
  | applied command row lease store applied =>
    constructor
    · intro other member
      by_cases same : other.intentId = command.intentId
      · obtain rfl := Table.eq_of_key member applied.member (same.trans applied.subject.symm)
        exact ⟨_, (applied.intents _).mpr (.inr rfl), rfl⟩
      · exact ⟨other, (applied.intents _).mpr (.inl ⟨member, same⟩), rfl⟩
    · intro intentId
      rw [applied.chain]
      exact List.prefix_append _ _
  | answered =>
    exact ⟨fun row member => ⟨row, member, rfl⟩, fun _ => List.prefix_refl _⟩

/-- A run keeps the content of every intent and extends every chain. -/
theorem Reached.extends_ (reached : Reached host world) (actions : List Action) :
    (∀ row ∈ world.store.intents.rows, ∃ kept ∈ (world.run host actions).store.intents.rows,
      kept.toIntentContent = row.toIntentContent) ∧
    ∀ intentId, world.store.chain intentId <+: (world.run host actions).store.chain intentId := by
  induction actions generalizing world with
  | nil => exact ⟨fun row member => ⟨row, member, rfl⟩, fun _ => List.prefix_refl _⟩
  | cons action _ ih =>
    obtain ⟨kept, grown⟩ := (World.step_cases reached.sound action).extends_
    obtain ⟨laterKept, laterGrown⟩ := ih (reached.step action)
    refine ⟨fun row member => ?_, fun intentId => (grown intentId).trans (laterGrown intentId)⟩
    obtain ⟨next, present, same⟩ := kept row member
    obtain ⟨last, listed, content⟩ := laterKept next present
    exact ⟨last, listed, content.trans same⟩

/-- In every reached world the chain of a stored intent can be read, and after any further actions
it can be read again, with what was read before as its beginning. Every reached store is sound, so
that the reader returns the stored events of the intent in the order of their versions, and a run
extends these at their end only. -/
theorem chain_reads_append_only {host : Host} {world : World} (reached : Reached host world)
    {intentId : String} {snapshot : IntentSnapshot}
    (found : inspect host world.store intentId = .ok snapshot) :
    ∃ chain, queryTransitionChain host world.store snapshot = .ok chain ∧
      ∀ actions, ∃ head later,
        inspect host (world.run host actions).store intentId = .ok head ∧
          queryTransitionChain host (world.run host actions).store head = .ok later ∧
          chain <+: later := by
  obtain ⟨member, rfl⟩ := reached.sound.of_inspect found
  refine ⟨_, reached.sound.reads member, fun actions => ?_⟩
  obtain ⟨kept, grown⟩ := reached.extends_ actions
  obtain ⟨head, present, same⟩ := kept snapshot member
  have subject : head.intentId = snapshot.intentId := congrArg (·.intentId) same
  have sound := (reached.run actions).sound
  refine ⟨head, _, subject ▸ sound.inspects present, sound.reads present, ?_⟩
  rw [subject]
  exact grown _

/-- The chain of one event that is read after the claim begins the chain of two that is read after
the report. -/
theorem chain_reads_append_only_claimed :
    ∃ snapshot, inspect sampleHost sampleClaimed.store "intent-unit" = .ok snapshot ∧
      ∃ chain, queryTransitionChain sampleHost sampleClaimed.store snapshot = .ok chain ∧
        chain.length = 1 ∧ ∃ later, chain <+: later ∧ later.length = 2 ∧
          ∃ head, queryTransitionChain sampleHost
            (sampleClaimed.run sampleHost [.submit .fresh sampleHold]).store head = .ok later := by
  have reached : Reached sampleHost sampleClaimed :=
    Reached.initial.run [.record sampleRequest, .submit .fresh sampleClaim]
  have found : (inspect sampleHost sampleClaimed.store "intent-unit").isOk = true := by
    decide +kernel
  obtain ⟨snapshot, found⟩ := isOk_iff.mp found
  obtain ⟨chain, read, grows⟩ := chain_reads_append_only reached found
  obtain ⟨head, later, inspected, again, grown⟩ := grows [.submit .fresh sampleHold]
  have lengths : ((readingOf sampleHost sampleClaimed.store "intent-unit").toOption.map
      (·.chain.length), (readingOf sampleHost
        (sampleClaimed.run sampleHost [.submit .fresh sampleHold]).store
        "intent-unit").toOption.map (·.chain.length)) = (some 1, some 2) := by
    decide +kernel
  simp only [readingOf, found, read, inspected, again, ok_bind, pure, Except.pure,
    Except.toOption, Option.map_some, Prod.mk.injEq, Option.some.injEq] at lengths
  exact ⟨snapshot, found, chain, read, lengths.1, later, grown, lengths.2, head, again⟩

theorem ReadingHolds.step (step : Step host world next)
    (holds : ReadingHolds host world.store reading) :
    ReadingHolds host next.store reading := by
  obtain ⟨row, member, same⟩ := holds.known
  obtain ⟨kept, present, content⟩ := step.extends_.1 row member
  exact ⟨holds.verified, holds.head, ⟨kept, present, content.trans same⟩,
    holds.chain.trans (step.extends_.2 _)⟩

theorem readingOf_holds (sound : Sound host store) {intentId : String}
    (read : readingOf host store intentId = .ok reading) :
    ReadingHolds host store reading := by
  simp only [readingOf, bind_eq_ok, pure_eq_ok] at read
  obtain ⟨snapshot, found, chain, listed, rfl⟩ := read
  obtain ⟨member, _⟩ := sound.of_inspect found
  obtain ⟨rfl, headOf⟩ := (queryTransitionChain_eq_ok (sound.linked _)).mp listed
  exact ⟨sound.verified snapshot member, headOf, ⟨snapshot, member, rfl⟩, List.prefix_refl _⟩

theorem Served.readings_hold (served : Served host session) :
    ∀ reading ∈ session.readings, ReadingHolds host session.world.store reading := by
  induction served with
  | initial => simp [Session.initial]
  | @step session served action _ ih =>
    have sound := served.reached.sound
    cases action with
    | record request =>
      intro reading listed
      exact (ih reading listed).step (World.step_cases sound (.record request))
    | read intentId =>
      simp only [Session.step]
      cases read : readingOf host session.world.store intentId with
      | error error => exact ih
      | ok reading =>
        intro other listed
        rcases mem_concat.mp listed with old | rfl
        · exact ih other old
        · exact readingOf_holds sound read
    | submit timing call =>
      simp only [Session.step]
      cases call.command host with
      | error error => exact ih
      | ok command =>
        intro reading listed
        exact (ih reading listed).step (World.step_cases sound (.submit timing command))

/-! ## The tables accept what the code accepts -/

/-- A text that passed the rule fits a column. -/
theorem Text.columnText (text : Text) : columnText text.value = true := by
  have bytes : ∀ value : String, value.length ≤ value.utf8ByteSize := by
    intro value
    induction value using String.push_induction with
    | empty => simp
    | push value letter ih =>
      have positive := letter.utf8Size_pos
      rw [String.length_push, String.utf8ByteSize_push]
      omega
  have valid := text.valid
  simp only [validText, Bool.and_eq_true, decide_eq_true_eq] at valid
  have nonempty : text.value.length ≠ 0 := by
    intro empty
    exact valid.1.1.1.1 (String.length_eq_zero_iff.mp empty)
  have fits := (bytes text.value).trans valid.1.1.1.2
  simp only [Intents.columnText, Bool.and_eq_true, decide_eq_true_eq]
  omega

/-- What the callers guarantee of a command, against the head that it replaces. -/
structure Fitting (host : Host) (store : Store) (command : StoreTransitionCommand)
    (row : IntentSnapshot) : Prop where
  edge : persistedEdgeReasonAllowed command.fromState command.toState command.reason = true
  qualified : command.reason = .intentAuthorityVerified → row.decisionKind = .ready
  settled : command.toState = .notDelivered → row.decisionKind = .ready ∧
    (store.chain command.intentId).any TransitionReceipt.acceptance = false ∧
    eligibleOrigin (store.chain command.intentId) command.fromState = true ∧
    command.terminal.terminalDecisionId = some row.durableDecisionId
  columns : ∀ previousSha256 : Option String,
    decide (command.expectedVersion + 1 = 1) = previousSha256.isNone →
    transitionChecks (.fromCommand host command previousSha256) = true

/-- The trigger lets through every edge of the code whose further conditions hold. -/
theorem casEdge_of_persisted
    (ordered : events.Pairwise fun first second => first.resultVersion < second.resultVersion)
    (allowed : persistedEdgeReasonAllowed old.state new.state new.reason = true)
    (qualified : new.reason = .intentAuthorityVerified → new.decisionKind = .ready)
    (settled : new.state = .notDelivered → new.decisionKind = .ready ∧
      events.any TransitionReceipt.acceptance = false ∧
      eligibleOrigin events old.state = true) : casEdge events old new = true := by
  by_cases target : new.state = .notDelivered
  · obtain ⟨ready, accepted, origin⟩ := settled target
    refine (casEdge_notDelivered ordered target).mpr ⟨ready, ?_, accepted, origin⟩
    rw [target] at allowed
    revert allowed
    generalize old.state = source
    cases source <;> simp [persistedEdgeReasonAllowed, nonterminalEdgeAllowed]
  · clear settled
    revert allowed qualified target
    unfold casEdge
    generalize old.state = source, new.state = state, new.reason = reason,
      new.decisionKind = kind
    cases source <;> cases state <;>
      simp +contextual [persistedEdgeReasonAllowed, nonterminalEdgeAllowed]

/-- An intent that sends nothing stays in the states its table allows. -/
theorem persistedEdge_nonSend {kind : InitialDecisionKind}
    (allowed : persistedEdgeReasonAllowed source target reason = true)
    (qualified : reason = .intentAuthorityVerified → kind = .ready)
    (settled : target = .notDelivered → kind = .ready)
    (before : kind = .ready ∨ source ∈ [IntentState.noData, .disabled, .resolutionRequired]) :
    kind = .ready ∨ target ∈ [IntentState.noData, .disabled, .resolutionRequired] := by
  rcases before with ready | nonSend
  · exact .inl ready
  · revert allowed qualified settled nonSend
    cases source <;> cases target <;>
      simp +contextual [persistedEdgeReasonAllowed, nonterminalEdgeAllowed]

/-! ## What the callers guarantee -/

theorem nonterminalEdge_target (allowed : nonterminalEdgeAllowed source target reason = true) :
    target.terminal = false ∧ reason ≠ .intentAuthorityVerified := by
  constructor
  · revert allowed
    cases source <;> cases target <;> simp [nonterminalEdgeAllowed, IntentState.terminal]
  · rintro rfl
    revert allowed
    cases source <;> cases target <;> simp [nonterminalEdgeAllowed]

/-- A command without terminal columns passes the table when it does not settle the intent. -/
theorem transitionChecks_nonterminal (target : command.toState.terminal = false)
    (columns : command.terminal = .none) {previousSha256 : Option String}
    (first : decide (command.expectedVersion + 1 = 1) = previousSha256.isNone) :
    transitionChecks (.fromCommand host command previousSha256) = true := by
  have actor := command.actor.columnText
  have states : command.toState ≠ .completed ∧ command.toState ≠ .notDelivered := by
    simpa [IntentState.terminal] using target
  simp [transitionChecks, TransitionReceipt.fromCommand, columns, TerminalTransitionFields.none,
    target, actor, states, ← first]

theorem Fitting.of_nonterminal
    (edge : nonterminalEdgeAllowed command.fromState command.toState command.reason = true)
    (columns : command.terminal = .none) : Fitting host store command row := by
  obtain ⟨target, reason⟩ := nonterminalEdge_target edge
  constructor
  · simp [persistedEdgeReasonAllowed, edge]
  · exact fun verified => absurd verified reason
  · intro settled
    simp [settled, IntentState.terminal] at target
  · exact fun _ first => transitionChecks_nonterminal target columns first

theorem attestedReadyBinding_eq_ok {expected : AttestedReadyIntent}
    (attested : snapshot.attestedReadyBinding host = .ok expected) :
    snapshot.decisionKind = .ready ∧ expected.intentId = snapshot.intentId ∧
      expected.decisionId = snapshot.durableDecisionId := by
  simp only [IntentSnapshot.attestedReadyBinding, bind_eq_ok, require_eq_ok, okOr_eq_ok,
    pure_eq_ok] at attested
  obtain ⟨_, verified, _, ready, identity, spelled, _, _, rfl⟩ := attested
  have content := (verifySnapshot_eq_ok.mp verified).1
  simp only [IntentContent.verify, bind_eq_ok, require_eq_ok] at content
  obtain ⟨other, isOther, _, bound, _⟩ := content
  obtain rfl : identity = other := Except.ok.inj (spelled.symm.trans isOther)
  exact ⟨ready, bound.1, bound.2⟩

theorem VerifiedFor.bound {terminal : VerifiedTerminalRef}
    (verified : VerifiedFor host snapshot terminal) :
    snapshot.decisionKind = .ready ∧ terminal.intentId = snapshot.intentId ∧
      terminal.decisionId = snapshot.durableDecisionId := by
  obtain ⟨template, policy, authority, verified⟩ := verified
  simp only [verifyTerminal, bind_eq_ok, require_eq_ok, pure_eq_ok] at verified
  obtain ⟨expected, isAttested, _, _, _, _, _, _, _, _, record, _, _, _, _, _, _, bindings, _, _,
    _, _, _, _, _, _, rfl⟩ := verified
  have binding : snapshot.attestedReadyBinding host = .ok expected := by
    unfold attested at isAttested
    split at isAttested
    · rename_i found isFound
      rw [isFound, Except.ok.inj isAttested]
    · cases isAttested
  simp only [checkBindings, checkBinding, bind_eq_ok, require_eq_ok] at bindings
  obtain ⟨_, _, _, decision, _, intent, _⟩ := bindings
  obtain ⟨ready, isIntent, isDecision⟩ := attestedReadyBinding_eq_ok binding
  exact ⟨ready, intent.trans isIntent, decision.trans isDecision⟩

/-- The head of an intent has the content of every earlier reading of it. -/
theorem ReadingHolds.content (holds : ReadingHolds host store reading)
    (member : row ∈ store.intents.rows) (subject : row.intentId = reading.snapshot.intentId) :
    row.toIntentContent = reading.snapshot.toIntentContent := by
  obtain ⟨known, present, same⟩ := holds.known
  have isKnown : row = known := Table.eq_of_key member present
    (subject.trans (congrArg IntentContent.intentId same).symm)
  rw [isKnown, same]

/-- A reading at least as new as the head shows the whole chain. -/
theorem ReadingHolds.whole (sound : Sound host store) (holds : ReadingHolds host store reading)
    (member : row ∈ store.intents.rows) (subject : row.intentId = reading.snapshot.intentId)
    (newer : row.version ≤ reading.snapshot.version) :
    reading.chain = store.chain row.intentId := by
  rw [subject]
  refine holds.chain.eq_of_length_le ?_
  rw [← subject, (sound.heads row member).length, holds.head.length]
  exact newer

theorem Served.fitting (served : Served host session) {call : Call}
    (grounded : call.Grounded host session.readings) (built : call.command host = .ok command)
    (member : row ∈ session.world.store.intents.rows) (subject : row.intentId = command.intentId)
    (current : stale command row = false) :
    Fitting host session.world.store command row := by
  have sound := served.reached.sound
  have hold := served.readings_hold
  obtain ⟨state, version, _⟩ := stale_eq_false.mp current
  cases call with
  | nonterminal request =>
    simp only [Call.command, IntentTransitionCommand.tryNew, bind_eq_ok, require_eq_ok,
      pure_eq_ok] at built
    obtain ⟨_, _, _, edge, _, _, rfl⟩ := built
    exact .of_nonterminal edge rfl
  | claimRecoveryLease held owner until_ actor occurredAt =>
    simp only [Call.command, claimRecoveryLease, bind_eq_ok, require_eq_ok, pure_eq_ok] at built
    obtain ⟨_, states, _, _, _, _, _, _, rfl⟩ := built
    refine .of_nonterminal ?_ rfl
    simp only [List.mem_cons, List.not_mem_nil, or_false] at states
    rcases states with isState | isState | isState <;> simp [isState, nonterminalEdgeAllowed]
  | recoveryObservation held toState reason actor occurredAt fence =>
    simp only [Call.command, recoveryObservation, bind_eq_ok, require_eq_ok, pure_eq_ok] at built
    obtain ⟨_, edge, _, _, rfl⟩ := built
    refine .of_nonterminal ?_ rfl
    revert edge
    simp only
    generalize held.state = source
    cases source <;> cases toState <;> simp [recoveryObservationEdge, nonterminalEdgeAllowed] <;>
      tauto
  | authorityQualification terminal fromState expectedVersion actor occurredAt fence =>
    simp only [Call.command, authorityQualification, bind_eq_ok, require_eq_ok, pure_eq_ok]
      at built
    obtain ⟨_, states, rfl⟩ := built
    obtain ⟨reading, listed, verified⟩ := grounded
    obtain ⟨ready, isIntent, _⟩ := verified.bound
    have content := (hold reading listed).content member (subject.trans isIntent)
    have isReady : row.decisionKind = .ready :=
      (congrArg IntentContent.decisionKind content).trans ready
    refine ⟨?_, fun _ => isReady, by simp, ?_⟩
    · simp only [persistedEdgeReasonAllowed, states]
      simp
    · exact fun _ first => transitionChecks_nonterminal rfl rfl first
  | terminalRefInvalid intentId expectedVersion actor occurredAt fence =>
    simp only [Call.command, terminalRefInvalid, Except.ok.injEq] at built
    obtain rfl := built
    exact .of_nonterminal rfl rfl
  | acceptedFinalization terminal expectedVersion actor occurredAt fence =>
    simp only [Call.command, acceptedFinalization, bind_eq_ok, require_eq_ok, pure_eq_ok]
      at built
    obtain ⟨_, disposition, rfl⟩ := built
    refine ⟨rfl, by simp, by simp, ?_⟩
    intro previousSha256 first
    have isActor := actor.columnText
    have isRef := terminal.refId.columnText
    simp only [List.mem_cons, List.not_mem_nil, or_false] at disposition
    rcases disposition with isDisposition | isDisposition <;>
      simp [transitionChecks, TransitionReceipt.fromCommand, TerminalTransitionFields.none,
        IntentState.terminal, isActor, isRef, isDisposition, ← first]
  | notDeliveredFinalization terminal fromState expectedVersion actor occurredAt fence auditRef
      auditSha256 =>
    simp only [Call.command, notDeliveredFinalization, bind_eq_ok, require_eq_ok, pure_eq_ok]
      at built
    obtain ⟨_, disposition, _, states, _, auditText, rfl⟩ := built
    obtain ⟨read, listed, later, inLater, sameIntent, newer, eligible, verified, rfl, rfl⟩ :=
      grounded
    obtain ⟨ready, isIntent, isDecision⟩ := verified.bound
    have content := (hold read listed).content member (subject.trans isIntent)
    have isReady : row.decisionKind = .ready :=
      (congrArg IntentContent.decisionKind content).trans ready
    -- the version is still the one that was read, so the chain that was read is the whole one
    have whole := (hold later inLater).whole sound member
      ((subject.trans isIntent).trans sameIntent.symm) (by rw [version]; exact newer)
    obtain ⟨accepted, origin⟩ := notDeliveredHistoryEligible_iff.mp eligible
    rw [whole, subject] at accepted origin
    have decision : terminal.decisionId = row.durableDecisionId :=
      isDecision.trans (congrArg IntentContent.durableDecisionId content).symm
    refine ⟨?_, by simp, fun _ => ⟨isReady, accepted, origin, congrArg some decision⟩, ?_⟩
    · simp only [persistedEdgeReasonAllowed, states]
      simp
    · intro previousSha256 first
      have isActor := actor.columnText
      have isRef := terminal.refId.columnText
      have isAudit := (Text.mk auditRef auditText).columnText
      have isDecisionText : columnText terminal.decisionId = true := by
        have stored := sound.stored row member
        simp only [contentChecks, Bool.and_eq_true] at stored
        rw [decision]
        exact stored.1.1.1.1.2
      simp [transitionChecks, TransitionReceipt.fromCommand, IntentState.terminal, isActor,
        isRef, isAudit, isDecisionText, ← first]
  | finalizerConflict intentId held actor occurredAt =>
    simp only [Call.command, finalizerConflict, bind_eq_ok, require_eq_ok, pure_eq_ok] at built
    obtain ⟨_, states, _, _, rfl⟩ := built
    refine .of_nonterminal ?_ rfl
    simp only [List.mem_cons, List.not_mem_nil, or_false] at states
    rcases states with isState | isState | isState <;> simp [isState, nonterminalEdgeAllowed]

/-! ## A command that fits is applied -/

/-- Event ids of different intents or versions differ: the digest has no collisions. -/
def Host.CollisionFree (host : Host) : Prop :=
  ∀ intentId version result otherId otherVersion otherResult,
    host.transitionEventId intentId version result =
      host.transitionEventId otherId otherVersion otherResult →
    intentId = otherId ∧ version = otherVersion

/-- The command passes every check that the code makes before it writes. -/
structure Passes (command : StoreTransitionCommand) (row : IntentSnapshot) (lease : Lease) :
    Prop where
  subject : row.intentId = command.intentId
  representable : command.expectedVersion + 1 ≤ i64Max
  current : stale command row = false
  timed : row.updatedAt ≤ command.occurredAt
  leased : applyLeaseAction row command = .ok lease
  claimed : dispatchLeased command lease = true

theorem casLease_iff :
    casLease old new = true ↔
      old.leaseGeneration ≤ new.leaseGeneration ∧
        new.leaseGeneration ≤ old.leaseGeneration + 1 ∧
        (new.leaseOwner = old.leaseOwner ∨ new.leaseOwner = none ∨
          new.leaseGeneration = old.leaseGeneration + 1) ∧
        (new.leaseOwner = old.leaseOwner ∨ new.leaseOwner = none ∨ old.leaseOwner = none ∨
          ∀ deadline, old.leaseUntil = some deadline → deadline ≤ new.updatedAt) := by
  simp only [casLease, Bool.and_eq_true, Bool.or_eq_true, decide_eq_true_eq, and_assoc, or_assoc,
    Option.all_eq_true]

theorem Passes.casLease (passes : Passes command row lease) :
    casLease row (row.advanced command lease) = true := by
  obtain ⟨rfl, acquires, _⟩ := applyLeaseAction_eq_ok passes.leased
  refine casLease_iff.mpr ?_
  simp only [IntentSnapshot.advanced]
  cases action : command.leaseAction with
  | preserve => simp [LeaseAction.after, IntentSnapshot.lease]
  | release owner => simp [LeaseAction.after, IntentSnapshot.lease]
  | acquire owner until_ =>
    refine ⟨Nat.le_succ _, Nat.le_refl _, .inr (.inr rfl), ?_⟩
    rcases acquires owner until_ action with same | free | expired
    · exact .inl same.symm
    · exact .inr (.inr (.inl free))
    · exact .inr (.inr (.inr expired))

section

variable (sound : Sound host store) (passes : Passes command row lease)
  (member : row ∈ store.intents.rows) (fitting : Fitting host store command row)

include sound passes member fitting

theorem Passes.headChecks : headChecks (row.advanced command lease) = true := by
  obtain ⟨state, _, _⟩ := stale_eq_false.mp passes.current
  obtain ⟨rfl, _, _⟩ := applyLeaseAction_eq_ok passes.leased
  have checks := sound.checked row member
  simp only [Intents.headChecks, Bool.and_eq_true, Bool.or_eq_true, decide_eq_true_eq] at checks ⊢
  obtain ⟨⟨⟨owner, times⟩, kind⟩, pair⟩ := checks
  have edge := fitting.edge
  rw [← state] at edge
  refine ⟨⟨⟨?_, times.trans passes.timed⟩, ?_⟩, ?_⟩
  · cases action : command.leaseAction with
    | preserve => exact owner
    | release giver => rfl
    | acquire taker until_ => exact taker.columnText
  · exact persistedEdge_nonSend edge fitting.qualified (fun target => (fitting.settled target).1)
      kind
  · cases action : command.leaseAction with
    | preserve => exact pair
    | release giver => rfl
    | acquire taker until_ => rfl

theorem Passes.casAllowed : casAllowed store row (row.advanced command lease) = true := by
  obtain ⟨state, version, _⟩ := stale_eq_false.mp passes.current
  have edge := fitting.edge
  rw [← state] at edge
  refine casAllowed_iff.mpr ⟨rfl, by rw [version]; rfl, rfl, passes.timed, passes.casLease, ?_,
    passes.headChecks sound member fitting⟩
  refine casEdge_of_persisted (sound.linked _).ordered edge fitting.qualified fun target => ?_
  obtain ⟨ready, accepted, origin, _⟩ := fitting.settled target
  rw [passes.subject, state]
  exact ⟨ready, accepted, origin⟩

/-- The compare-and-set of such a command changes one row. -/
theorem Passes.swaps : ∃ cas, casTransition store command row lease = .ok (1, cas) := by
  have selects := fun other listed =>
    @casSelects_iff store row command other member passes.subject passes.current listed
  have once : (store.intents.rows.filter (casSelects command row)).length = 1 := by
    have same : store.intents.rows.filter (casSelects command row) =
        store.intents.rows.filter (· == row) :=
      List.filter_congr fun other listed => by
        rw [Bool.eq_iff_iff, selects other listed, beq_iff_eq]
    rw [same, ← List.countP_eq_length_filter]
    exact List.count_eq_one_of_mem (List.Nodup.of_map _ store.intents.distinct) member
  rw [casTransition, require_pos, ok_bind, once]
  · exact ⟨_, rfl⟩
  · intro other listed selected
    rw [(selects other listed).mp selected]
    exact passes.casAllowed sound member fitting

/-- The event of such a command is bound to the new head and to the event before it. -/
theorem Passes.binds {cas : Store} (advanced : row.advanced command lease ∈ cas.intents.rows)
    (same : cas.transitions = store.transitions) :
    transitionBinding cas (store.receipt host command) = true := by
  obtain ⟨state, version, _⟩ := stale_eq_false.mp passes.current
  have headOf := sound.heads row member
  rw [passes.subject] at headOf
  simp only [transitionBinding, Bool.and_eq_true, Bool.or_eq_true, List.any_eq_true,
    decide_eq_true_eq]
  refine ⟨⟨⟨_, advanced, ⟨⟨⟨⟨passes.subject, rfl⟩, congrArg some state⟩, rfl⟩, rfl⟩,
    Nat.le_refl _⟩, ?_⟩, ?_⟩
  · by_cases target : command.toState = .notDelivered
    · obtain ⟨_, _, _, decision⟩ := fitting.settled target
      exact .inr ⟨_, advanced, passes.subject, decision.symm⟩
    · exact .inl target
  · cases last : (store.chain command.intentId).getLast? with
    | none =>
      left
      have length := headOf.length
      rw [List.getLast?_eq_none_iff.mp last, version] at length
      exact Nat.succ_le_succ length.symm.le
    | some previous =>
      right
      obtain ⟨listed, owner⟩ := mem_chain.mp (List.mem_of_getLast? last)
      obtain ⟨target, _⟩ := headOf.last previous last
      have previousVersion := (sound.linked _).last_version last
      rw [headOf.length, version] at previousVersion
      refine ⟨previous, same ▸ listed, ⟨⟨owner, previousVersion⟩, target.trans state⟩, ?_⟩
      simp [Store.receipt, TransitionReceipt.fromCommand, last]

end

variable {old : TransitionReceipt}

theorem Passes.fresh (sound : Sound host store) (passes : Passes command row lease)
    (member : row ∈ store.intents.rows) (listed : old ∈ store.transitions.rows)
    (owner : old.intentId = command.intentId) :
    old.resultVersion ≠ command.expectedVersion + 1 := by
  obtain ⟨_, version, _⟩ := stale_eq_false.mp passes.current
  have reached := sound.version_reached listed member (passes.subject.trans owner.symm)
  omega

section

variable (collisionFree : host.CollisionFree) (sound : Sound host store)
  (passes : Passes command row lease) (member : row ∈ store.intents.rows)

include collisionFree sound passes member

theorem Passes.unused (listed : old ∈ store.transitions.rows) :
    old.eventId ≠ host.transitionEventId command.intentId command.expectedVersion
      (command.expectedVersion + 1) := by
  intro sameId
  have verified := (queryTransition_eq_some.mp (sound.queries listed)).2.verified
  obtain ⟨step, _, eventId, _⟩ := verifyTransition_eq_ok.mp verified
  obtain ⟨owner, expected⟩ := collisionFree _ _ _ _ _ _ (eventId.trans sameId)
  exact passes.fresh sound member listed owner (by rw [step, expected])

/-- The tables take a command that fits and passes the checks of the code. -/
theorem Passes.appends (fitting : Fitting host store command row) :
    ∃ next, appendTransition host store command row (store.chain command.intentId) =
      .ok (.applied (store.receipt host command), next) := by
  obtain ⟨_, version, _⟩ := stale_eq_false.mp passes.current
  obtain ⟨cas, swapped⟩ := passes.swaps sound member fitting
  obtain ⟨_, same, intents⟩ := casTransition_eq_ok member passes.subject passes.current swapped
  have advanced := (intents _).mpr (.inr rfl)
  have headOf := sound.heads row member
  rw [passes.subject] at headOf
  have checks : transitionChecks (store.receipt host command) = true := by
    refine fitting.columns _ ?_
    have length := headOf.length
    rw [version] at length
    cases last : (store.chain command.intentId).getLast? with
    | none =>
      rw [List.getLast?_eq_none_iff.mp last] at length
      simp [← length]
    | some previous =>
      have positive := List.length_pos_of_mem (List.mem_of_getLast? last)
      simp
      omega
  have inserted : ∃ next, insertTransition cas (store.receipt host command) = .ok next := by
    rw [insertTransition, require_pos, ok_bind]
    · have unused : ∀ old ∈ cas.transitions.rows,
          old.eventId ≠ (store.receipt host command).eventId := by
        intro old listed sameId
        exact passes.unused collisionFree sound member (same ▸ listed) sameId
      obtain ⟨transitions, done⟩ := Table.insert?_of_fresh unused
      exact ⟨{ cas with transitions := transitions }, by rw [done]; rfl⟩
    · refine ⟨passes.binds sound member fitting advanced same, checks, ?_⟩
      rintro old listed ⟨owner, result⟩
      exact passes.fresh sound member (same ▸ listed) owner result
  obtain ⟨next, done⟩ := inserted
  obtain ⟨_, _, _, generation, _⟩ := verifySnapshot_eq_ok.mp (sound.verified row member)
  have step := (casLease_iff.mp passes.casLease).2.1
  have bound := passes.representable
  have newGeneration : lease.generation ≤ i64Max := by
    simp only [IntentSnapshot.advanced] at step
    omega
  have oldGeneration : row.leaseGeneration ≤ i64Max := by omega
  refine ⟨next, ?_⟩
  simp only [appendTransition, bind_eq_ok, require_eq_ok]
  refine ⟨⟨⟩, passes.timed, lease, passes.leased, ⟨⟩, passes.claimed, ⟨⟩, newGeneration, ⟨⟩,
    oldGeneration, (1, cas), swapped, ?_⟩
  rw [if_pos rfl, bind_eq_ok]
  exact ⟨next, done, rfl⟩

/-- A command that fits and passes the checks of the code is answered `Applied`. -/
theorem Passes.applied (fitting : Fitting host store command row) (timing : Timing) :
    ∃ receipt, (applyTransitionInner host store timing command).2 = .ok (.applied receipt) := by
  obtain ⟨next, appended⟩ := passes.appends collisionFree sound member fitting
  have done : transitionTransaction host store command =
      .ok (.applied (store.receipt host command), next) := by
    have found := sound.inspects member
    have read := sound.reads member
    rw [passes.subject] at found read
    simp only [transitionTransaction, bind_eq_ok]
    refine ⟨row, found, _, read, ?_⟩
    rw [if_neg (by simp [passes.current]), appended]
  have answered : (transact host store command).2 =
      .ok (.applied (store.receipt host command)) := by
    rcases transitionTransaction_eq_ok sound done with ⟨_, other, given, applied⟩ | ⟨⟨_, no⟩, _⟩
    · simp only [transact, done]
      exact applied.answered sound
    · cases no
  refine ⟨store.receipt host command, ?_⟩
  have inRange := Nat.not_lt.mpr passes.representable
  cases timing with
  | raced =>
    simp only [applyTransitionInner, if_neg inRange]
    exact answered
  | fresh =>
    have absent : store.transitions.get? (host.transitionEventId command.intentId
        command.expectedVersion (command.expectedVersion + 1)) = none :=
      Table.get?_eq_none_iff.mpr fun old listed =>
        passes.unused collisionFree sound member listed
    simp only [applyTransitionInner, if_neg inRange, queryTransition, absent]
    exact answered

end

/-! ## Sessions -/

def Session.run (host : Host) (session : Session) (actions : List SessionAction) : Session :=
  actions.foldl (Session.step host) session

/-- The action acquires the lease of the intent. -/
def SessionAction.acquires (host : Host) (session : Session) (intentId : String) :
    SessionAction → Bool
  | .record _ | .read _ => false
  | .submit timing call =>
    match call.command host with
    | .error _ => false
    | .ok command =>
      let answer := (applyTransitionInner host session.world.store timing command).2
      (Entry.mk command answer).appliesTo intentId && command.leaseAction.acquires

/-- What every reader finds of an intent. -/
structure IntentConsistent (host : Host) (store : Store) (row : IntentSnapshot) : Prop where
  readable : queryIntent host store row.intentId = .ok (some row)
  chain : queryTransitionChain host store row = .ok (store.chain row.intentId)
  fold : row.head = (store.chain row.intentId).foldl Head.apply row.initialHead
  generation : row.leaseGeneration ≤ row.version
  undelivered : ∀ earlier event later, store.chain row.intentId = earlier ++ event :: later →
    event.toState = .notDelivered →
    earlier.any TransitionReceipt.acceptance = false ∧ later = []
  completed : ∀ event ∈ store.chain row.intentId, event.fromState = .completed →
    event.toState = .resolutionRequired ∧
      event.reason ∈ [ReasonCode.intentPayloadConflict, .intentExpectedVersionConflict,
        .finalizerCasConflict]

theorem Sound.consistent (sound : Sound host store) (member : row ∈ store.intents.rows) :
    IntentConsistent host store row := by
  have linked := sound.linked row.intentId
  have verified := sound.verified row member
  constructor
  · exact queryIntent_eq_some.mpr ⟨Table.get?_eq_some_iff.mpr ⟨member, rfl⟩, verified⟩
  · exact sound.reads member
  · exact (sound.heads row member).fold verified
  · exact (verifySnapshot_eq_ok.mp verified).2.2.2.1
  · intro earlier event later split target
    rw [split] at linked
    exact linked.undelivered target
  · intro event listed source
    exact (persistedEdge_source (linked.verified listed).edge).2 source

/-- A transition counts the generation up exactly when it acquires the lease. -/
theorem Applied.generation {next : Store} (applied : Applied host store command row lease next) :
    (row.advanced command lease).leaseGeneration =
      row.leaseGeneration + if command.leaseAction.acquires then 1 else 0 := by
  have after := congrArg Lease.generation applied.lease_after
  simp only [IntentSnapshot.lease] at after
  rw [after]
  cases command.leaseAction <;> simp [LeaseAction.after, LeaseAction.acquires]

/-- An action changes the generation of an intent only by acquiring its lease. -/
theorem Session.step_generation (sound : Sound host session.world.store) (action : SessionAction)
    (member : row ∈ session.world.store.intents.rows) :
    ∃ after ∈ (session.step host action).world.store.intents.rows,
      after.intentId = row.intentId ∧ after.leaseGeneration = row.leaseGeneration +
        if action.acquires host session row.intentId then 1 else 0 := by
  cases action with
  | record request =>
    simp only [Session.step, SessionAction.acquires]
    refine ⟨row, ?_, rfl, by simp⟩
    cases drafted : request.draft host with
    | error error =>
      simp only [World.step, drafted]
      exact member
    | ok draft =>
      simp only [World.step, drafted]
      rcases recordInitial_cases host session.world.store draft with
        same | ⟨_, _, _, _, rows, _⟩
      · rw [same]
        exact member
      · rw [rows]
        exact List.mem_append_left _ member
  | read intentId =>
    simp only [Session.step, SessionAction.acquires]
    refine ⟨row, ?_, rfl, by simp⟩
    split <;> exact member
  | submit timing call =>
    cases built : call.command host with
    | error error =>
      simp only [Session.step, SessionAction.acquires, built]
      exact ⟨row, member, rfl, by simp⟩
    | ok command =>
      simp only [Session.step, SessionAction.acquires, built, World.step]
      rcases applyTransitionInner_cases sound timing command with
        ⟨⟨head, lease, applied⟩, answer⟩ | ⟨same, unapplied⟩
      · rw [applied.answered sound] at answer
        rw [answer]
        by_cases isHead : row.intentId = command.intentId
        · obtain rfl := Table.eq_of_key member applied.member
            (isHead.trans applied.subject.symm)
          refine ⟨_, (applied.intents _).mpr (.inr rfl), rfl, ?_⟩
          rw [applied.generation]
          simp [Entry.appliesTo, Entry.verdict, isHead]
        · refine ⟨row, (applied.intents _).mpr (.inl ⟨member, isHead⟩), rfl, ?_⟩
          simp [Entry.appliesTo, Ne.symm isHead]
      · rw [same]
        refine ⟨row, member, rfl, ?_⟩
        simp [Entry.appliesTo, verdict_ne_applied unapplied]

/-- No step touches an intent that is settled as not delivered. -/
theorem Session.step_undelivered (sound : Sound host session.world.store) (action : SessionAction)
    (member : row ∈ session.world.store.intents.rows) (settled : row.state = .notDelivered) :
    row ∈ (session.step host action).world.store.intents.rows := by
  have kept : ∀ next, Step host session.world next → row ∈ next.store.intents.rows := by
    intro next step
    cases step with
    | recorded store _ kept => exact kept row member
    | answered => exact member
    | applied command head lease store applied =>
      refine (applied.intents row).mpr (.inl ⟨member, ?_⟩)
      intro subject
      obtain rfl := Table.eq_of_key member applied.member (subject.trans applied.subject.symm)
      obtain ⟨_, _, _, _, _, edge, _⟩ := casAllowed_iff.mp applied.allowed
      exact (persistedEdge_source (casEdge_persisted edge)).1 settled
  cases action with
  | record request => exact kept _ (World.step_cases sound (.record request))
  | read intentId =>
    simp only [Session.step]
    split <;> exact member
  | submit timing call =>
    simp only [Session.step]
    cases call.command host with
    | ok command => exact kept _ (World.step_cases sound (.submit timing command))
    | error error => exact member

theorem Session.run_undelivered (actions : List SessionAction)
    (reached : Reached host session.world) (member : row ∈ session.world.store.intents.rows)
    (settled : row.state = .notDelivered) :
    row ∈ (session.run host actions).world.store.intents.rows := by
  induction actions generalizing session with
  | nil => exact member
  | cons action rest ih =>
    exact ih (Session.step_reached reached action)
      (Session.step_undelivered reached.sound action member settled)

/-- Every intent of a served session reads back, and every call that passes the checks of the code
is applied.

Proof: the first part is the invariant `Sound` with a case analysis of one action. For the second,
what a call was built from was read before, and a reading that is not stale still fits the row. -/
theorem served_intents_consistent {host : Host} {session : Session}
    (served : Served host session) :
    (∀ row ∈ session.world.store.intents.rows,
      IntentConsistent host session.world.store row ∧
      (∀ action, ∃ after ∈ (session.step host action).world.store.intents.rows,
        after.intentId = row.intentId ∧ after.leaseGeneration = row.leaseGeneration +
          if action.acquires host session row.intentId then 1 else 0) ∧
      (row.state = .notDelivered → ∀ actions,
        row ∈ (session.run host actions).world.store.intents.rows)) ∧
    (host.CollisionFree → ∀ (call : Call) (command : StoreTransitionCommand)
      (row : IntentSnapshot) (lease : Lease) (timing : Timing),
      call.Grounded host session.readings → call.command host = .ok command →
      row ∈ session.world.store.intents.rows → Passes command row lease →
      ∃ receipt, (applyTransitionInner host session.world.store timing command).2 =
        .ok (.applied receipt)) := by
  have reached := served.reached
  constructor
  · intro row member
    refine ⟨reached.sound.consistent member, ?_, ?_⟩
    · exact fun action => Session.step_generation reached.sound action member
    · exact fun settled actions => Session.run_undelivered actions reached member settled
  · intro collisionFree call command row lease timing grounded built member passes
    have fitting := served.fitting grounded built member passes.subject passes.current
    exact passes.applied collisionFree reached.sound member fitting timing

theorem sampleHost_collisionFree : sampleHost.CollisionFree := by
  intro intentId version result otherId otherVersion otherResult same
  have ones : ∀ (first second : Nat) (left right : List Char),
      List.replicate first '1' ++ '0' :: left = List.replicate second '1' ++ '0' :: right →
      left = right ∧ first = second := by
    intro first
    induction first with
    | zero =>
      intro second left right equal
      cases second <;> simp_all [List.replicate_succ]
    | succ first ih =>
      intro second left right equal
      cases second with
      | zero => simp [List.replicate_succ] at equal
      | succ second =>
        simp only [List.replicate_succ, List.cons_append, List.cons.injEq, true_and] at equal
        simpa using ih second left right equal
  obtain ⟨ids, versions⟩ := ones _ _ _ _ (String.ofList_injective same)
  exact ⟨String.toList_injective ids, versions⟩

/-- The session in which an intent is recorded and claimed. -/
def sampleSession : Session :=
  (Session.initial.step sampleHost (.record sampleRequest)).step sampleHost
    (.submit .fresh (.nonterminal
      ⟨"intent-unit", .pendingDispatch, .awaitingAuthority, 0, firstOwner,
        .intentDispatchClaimed, 110, .acquire firstOwner 200⟩))

theorem served_intents_consistent_sample :
    sampleHost.CollisionFree ∧
    (∀ row ∈ sampleSession.world.store.intents.rows,
      IntentConsistent sampleHost sampleSession.world.store row) ∧
    sampleSession.world.store.intents.rows.map IntentSnapshot.leaseGeneration = [1] := by
  have recorded : Served sampleHost (Session.initial.step sampleHost (.record sampleRequest)) :=
    Served.initial.step (.record sampleRequest) trivial
  have served : Served sampleHost sampleSession := recorded.step (.submit _ _) trivial
  refine ⟨sampleHost_collisionFree, fun row member => ?_, by decide +kernel⟩
  exact ((served_intents_consistent served).1 row member).1

end StockAnalysis.Intents
