import StockAnalysis.Intents.Chain

/-!
# Runs of the push intent store

A store is sound when every intent and its chain pass the readers, every event belongs to an
intent, and every head passes the checks of its table. A new intent and an applied transition keep
it so, and every other answer leaves the store as it was. A run starts from the empty store; its
log keeps every submitted command with its answer.
-/

namespace StockAnalysis.Intents

/-- The event that a transition of the current chain would append. -/
def Store.receipt (host : Host) (store : Store) (command : StoreTransitionCommand) :
    TransitionReceipt :=
  .fromCommand host command
    ((store.chain command.intentId).getLast?.map TransitionReceipt.canonicalSha256)

/-- The invariant of the store: every head passes its checks and is what its chain leads to, and
every transition belongs to a head. -/
structure Sound (host : Host) (store : Store) : Prop where
  verified : ∀ row ∈ store.intents.rows, verifySnapshot host row = .ok ()
  heads : ∀ row ∈ store.intents.rows, HeadOf row (store.chain row.intentId)
  linked : ∀ intentId, Linked host [] (store.chain intentId)
  owned : ∀ event ∈ store.transitions.rows,
    ∃ row ∈ store.intents.rows, row.intentId = event.intentId
  checked : ∀ row ∈ store.intents.rows, headChecks row = true
  stored : ∀ row ∈ store.intents.rows, contentChecks host row.toIntentContent = true

theorem sound_empty (host : Host) : Sound host .empty := by
  constructor <;> simp [Store.empty, Table.empty, Store.chain, Linked]

/-! ## Reading a sound store -/

variable {host : Host} {store next : Store} {row : IntentSnapshot}
  {command : StoreTransitionCommand} {lease : Lease}

theorem verifySnapshot_eq_ok {snapshot : IntentSnapshot} :
    verifySnapshot host snapshot = .ok () ↔
      snapshot.toIntentContent.verify host = .ok () ∧
        snapshot.createdAt ≤ snapshot.updatedAt ∧
        snapshot.leaseOwner.isSome = snapshot.leaseUntil.isSome ∧
        snapshot.leaseGeneration ≤ snapshot.version ∧ snapshot.verifyOrigin = .ok () := by
  simp only [verifySnapshot, bind_eq_ok, require_eq_ok]
  constructor
  · rintro ⟨_, content, _, times, _, pair, _, generation, origin⟩
    exact ⟨content, times, pair, generation, origin⟩
  · rintro ⟨content, times, pair, generation, origin⟩
    exact ⟨⟨⟩, content, ⟨⟩, times, ⟨⟩, pair, ⟨⟩, generation, origin⟩

variable {intentId : String} {old new : IntentSnapshot}

theorem queryIntent_eq_some :
    queryIntent host store intentId = .ok (some row) ↔
      store.intents.get? intentId = some row ∧ verifySnapshot host row = .ok () := by
  unfold queryIntent
  cases found : store.intents.get? intentId with
  | none => simp
  | some other =>
    simp only [bind_eq_ok, pure_eq_ok, Option.some.injEq]
    constructor
    · rintro ⟨_, verified, rfl⟩
      exact ⟨rfl, verified⟩
    · rintro ⟨rfl, verified⟩
      exact ⟨⟨⟩, verified, rfl⟩

theorem inspect_eq_ok :
    inspect host store intentId = .ok row ↔
      store.intents.get? intentId = some row ∧ verifySnapshot host row = .ok () := by
  simp only [inspect, bind_eq_ok, okOr_eq_ok]
  constructor
  · rintro ⟨_, read, rfl⟩
    exact queryIntent_eq_some.mp read
  · intro found
    exact ⟨some row, queryIntent_eq_some.mpr found, rfl⟩

variable {event : TransitionReceipt}

namespace Sound

theorem inspects (sound : Sound host store) (member : row ∈ store.intents.rows) :
    inspect host store row.intentId = .ok row :=
  inspect_eq_ok.mpr ⟨Table.get?_eq_some_iff.mpr ⟨member, rfl⟩, sound.verified row member⟩

theorem reads (sound : Sound host store) (member : row ∈ store.intents.rows) :
    queryTransitionChain host store row = .ok (store.chain row.intentId) :=
  (queryTransitionChain_eq_ok (sound.linked _)).mpr ⟨rfl, sound.heads row member⟩

theorem of_inspect (_ : Sound host store) (found : inspect host store intentId = .ok row) :
    row ∈ store.intents.rows ∧ row.intentId = intentId :=
  Table.get?_eq_some_iff.mp (inspect_eq_ok.mp found).1

theorem queries (sound : Sound host store) (member : event ∈ store.transitions.rows) :
    queryTransition host store event.eventId = .ok (some event) := by
  obtain ⟨before, after, split⟩ := List.append_of_mem (mem_chain.mpr ⟨member, rfl⟩)
  have linked := sound.linked event.intentId
  rw [split, linked_append] at linked
  exact queryTransition_eq_some.mpr
    ⟨Table.get?_eq_some_iff.mpr ⟨member, rfl⟩, linked.2.1⟩

/-- The events of a sound store carry versions that their intents have reached. -/
theorem version_reached (sound : Sound host store) (member : event ∈ store.transitions.rows)
    (head : row ∈ store.intents.rows) (subject : row.intentId = event.intentId) :
    event.resultVersion ≤ row.version := by
  rw [← (sound.heads row head).length, subject]
  exact (sound.linked _).version_le (mem_chain.mpr ⟨member, rfl⟩)

end Sound

/-! ## What a transition does -/

/-- Everything an applied transition checked and wrote. -/
structure Applied (host : Host) (store : Store) (command : StoreTransitionCommand)
    (row : IntentSnapshot) (lease : Lease) (next : Store) : Prop where
  member : row ∈ store.intents.rows
  subject : row.intentId = command.intentId
  current : stale command row = false
  timed : row.updatedAt ≤ command.occurredAt
  leased : applyLeaseAction row command = .ok lease
  allowed : casAllowed store row (row.advanced command lease) = true
  checked : transitionChecks (store.receipt host command) = true
  intents : ∀ other, other ∈ next.intents.rows ↔
    other ∈ store.intents.rows ∧ other.intentId ≠ command.intentId ∨
      other = row.advanced command lease
  appended : next.transitions.rows = store.transitions.rows ++ [store.receipt host command]

theorem stale_eq_false :
    stale command row = false ↔
      row.state = command.fromState ∧ row.version = command.expectedVersion ∧
        ∀ fence, command.requiredFence = some fence → fence.holds row command.occurredAt = true := by
  simp only [stale, Bool.or_eq_false_iff, decide_eq_false_iff_not, not_not, and_assoc]
  cases command.requiredFence <;> simp

/-- The compare-and-set of a command that is not stale selects the row it read. -/
theorem casSelects_iff {other : IntentSnapshot} (member : row ∈ store.intents.rows)
    (subject : row.intentId = command.intentId) (current : stale command row = false)
    (listed : other ∈ store.intents.rows) : casSelects command row other = true ↔ other = row := by
  obtain ⟨state, version, _⟩ := stale_eq_false.mp current
  constructor
  · intro selected
    simp only [casSelects, Bool.and_eq_true, decide_eq_true_eq] at selected
    exact Table.eq_of_key listed member (selected.1.1.1.trans subject.symm)
  · rintro rfl
    simp [casSelects, subject, state, version]

theorem casTransition_eq_ok {cas : Store} {affected : Nat} (member : row ∈ store.intents.rows)
    (subject : row.intentId = command.intentId) (current : stale command row = false)
    (done : casTransition store command row lease = .ok (affected, cas)) :
    casAllowed store row (row.advanced command lease) = true ∧
      cas.transitions = store.transitions ∧
      ∀ other, other ∈ cas.intents.rows ↔
        other ∈ store.intents.rows ∧ other.intentId ≠ command.intentId ∨
          other = row.advanced command lease := by
  simp only [casTransition, bind_eq_ok, require_eq_ok, pure_eq_ok, Prod.mk.injEq] at done
  obtain ⟨_, allowed, _, rfl⟩ := done
  have selects := fun other listed =>
    @casSelects_iff store row command other member subject current listed
  refine ⟨allowed row member ((selects row member).mpr rfl), rfl, fun other => ?_⟩
  rw [Table.mem_update]
  constructor
  · rintro ⟨old, listed, rfl⟩
    by_cases isRow : old = row
    · rw [if_pos ((selects old listed).mpr isRow), isRow]
      exact .inr rfl
    · rw [if_neg fun selected => isRow ((selects old listed).mp selected)]
      refine .inl ⟨listed, fun same => isRow ?_⟩
      exact Table.eq_of_key listed member (same.trans subject.symm)
  · rintro (⟨listed, different⟩ | rfl)
    · refine ⟨other, listed, if_neg fun selected => different ?_⟩
      rw [(selects other listed).mp selected, subject]
    · exact ⟨row, member, if_pos ((selects row member).mpr rfl)⟩

theorem insertTransition_eq_ok (done : insertTransition store event = .ok next) :
    transitionChecks event = true ∧ next.intents = store.intents ∧
      next.transitions.rows = store.transitions.rows ++ [event] := by
  simp only [insertTransition, bind_eq_ok, require_eq_ok, okOr_eq_ok, pure_eq_ok] at done
  obtain ⟨_, ⟨_, checked, _⟩, transitions, inserted, rfl⟩ := done
  exact ⟨checked, rfl, (Table.rows_of_insert inserted).1⟩

variable {outcome : TransitionOutcome} {events : List TransitionReceipt}
  {identity : InitialIntentIdentity} {kind : InitialDecisionKind} {payload : DraftPayload}
  {createdAt : Nat}

theorem appendTransition_eq_ok (member : row ∈ store.intents.rows)
    (subject : row.intentId = command.intentId) (current : stale command row = false)
    (done : appendTransition host store command row (store.chain command.intentId) =
      .ok (outcome, next)) :
    (outcome = .applied (store.receipt host command) ∧
      ∃ lease, Applied host store command row lease next) ∨
    (∃ head, outcome = .conflict head) ∧ next = store := by
  simp only [appendTransition, bind_eq_ok, require_eq_ok] at done
  obtain ⟨_, timed, lease, leased, _, _, _, _, _, _, ⟨affected, cas⟩, swapped, rest⟩ := done
  obtain ⟨allowed, transitions, intents⟩ :=
    casTransition_eq_ok member subject current swapped
  split at rest
  · obtain ⟨stored, inserted, result⟩ := bind_eq_ok.mp rest
    cases pure_eq_ok.mp result
    obtain ⟨checked, sameIntents, appended⟩ := insertTransition_eq_ok inserted
    refine .inl ⟨rfl, lease, member, subject, current, timed, leased, allowed, checked, ?_, ?_⟩
    · intro other
      rw [sameIntents]
      exact intents other
    · rw [appended, transitions]
      rfl
  · obtain ⟨head, _, result⟩ := bind_eq_ok.mp rest
    cases pure_eq_ok.mp result
    exact .inr ⟨⟨head, rfl⟩, rfl⟩

/-- A transaction applies its command to the head, or conflicts and changes nothing. -/
theorem transitionTransaction_eq_ok (sound : Sound host store)
    (done : transitionTransaction host store command = .ok (outcome, next)) :
    (outcome = .applied (store.receipt host command) ∧
      ∃ row lease, Applied host store command row lease next) ∨
    (∃ head, outcome = .conflict head) ∧ next = store := by
  simp only [transitionTransaction, bind_eq_ok] at done
  obtain ⟨row, found, chain, read, rest⟩ := done
  obtain ⟨member, subject⟩ := sound.of_inspect found
  obtain ⟨rfl, _⟩ := (queryTransitionChain_eq_ok (sound.linked _)).mp read
  split at rest
  · cases pure_eq_ok.mp rest
    exact .inr ⟨⟨row, rfl⟩, rfl⟩
  · rename_i current
    rw [subject] at rest
    rcases appendTransition_eq_ok member subject (by simpa using current) rest with
      ⟨isApplied, lease, applied⟩ | unchanged
    · exact .inl ⟨isApplied, row, lease, applied⟩
    · exact .inr unchanged

/-- A submission applies its command, or leaves the store and answers otherwise. -/
theorem applyTransitionInner_cases (sound : Sound host store) (timing : Timing)
    (command : StoreTransitionCommand) :
    ((∃ row lease, Applied host store command row lease
        (applyTransitionInner host store timing command).1) ∧
      (applyTransitionInner host store timing command).2 =
        committedAnswer host (applyTransitionInner host store timing command).1 command
          (store.receipt host command)) ∨
    (applyTransitionInner host store timing command).1 = store ∧
      ∀ receipt, (applyTransitionInner host store timing command).2 ≠ .ok (.applied receipt) := by
  have transacted : ((∃ row lease, Applied host store command row lease
        (transact host store command).1) ∧
      (transact host store command).2 = committedAnswer host (transact host store command).1
        command (store.receipt host command)) ∨
      (transact host store command).1 = store ∧
        ∀ receipt, (transact host store command).2 ≠ .ok (.applied receipt) := by
    unfold transact
    cases done : transitionTransaction host store command with
    | error error => exact .inr ⟨rfl, by simp⟩
    | ok result =>
      obtain ⟨outcome, next⟩ := result
      rcases transitionTransaction_eq_ok sound done with
        ⟨rfl, applied⟩ | ⟨⟨head, rfl⟩, rfl⟩
      · exact .inl ⟨applied, rfl⟩
      · exact .inr ⟨rfl, by simp⟩
  unfold applyTransitionInner
  split
  · exact .inr ⟨rfl, by simp⟩
  · cases timing with
    | raced => exact transacted
    | fresh =>
      simp only
      cases queryTransition host store (host.transitionEventId command.intentId
          command.expectedVersion (command.expectedVersion + 1)) with
      | error error => exact .inr ⟨rfl, by simp⟩
      | ok found =>
        cases found with
        | none => exact transacted
        | some existing =>
          refine .inr ⟨rfl, fun receipt answered => ?_⟩
          simp only [retryAnswer, bind_eq_ok] at answered
          obtain ⟨_, _, _, _, answered⟩ := answered
          split at answered <;> simp [pure, Except.pure] at answered

/-! ## Soundness of an applied transition -/

theorem casAllowed_iff :
    casAllowed store old new = true ↔
      new.toIntentContent = old.toIntentContent ∧ new.version = old.version + 1 ∧
        new.previousState = some old.state ∧ old.updatedAt ≤ new.updatedAt ∧
        casLease old new = true ∧ casEdge (store.chain old.intentId) old new = true ∧
        headChecks new = true := by
  simp only [casAllowed, Store.chain, Bool.and_eq_true, decide_eq_true_eq, and_assoc]

/-- Every edge that the trigger lets through is one that the reader accepts. -/
theorem casEdge_persisted (edge : casEdge events old new = true) :
    persistedEdgeReasonAllowed old.state new.state new.reason = true := by
  revert edge
  unfold casEdge
  generalize old.state = source, new.state = target, new.reason = reason
  cases source <;> cases target <;> simp [persistedEdgeReasonAllowed, nonterminalEdgeAllowed] <;> tauto

/-- The trigger settles an intent as not delivered exactly when the reader's history allows it. -/
theorem casEdge_notDelivered
    (ordered : events.Pairwise fun first second => first.resultVersion < second.resultVersion)
    (target : new.state = .notDelivered) :
    casEdge events old new = true ↔
      new.decisionKind = .ready ∧ new.reason = .operatorNotDelivered ∧
        events.any TransitionReceipt.acceptance = false ∧
        eligibleOrigin events old.state = true := by
  unfold casEdge eligibleOrigin
  rw [uncertain_resolution_iff ordered, target]
  generalize old.state = source
  generalize (lastResolution events).any TransitionReceipt.uncertain = uncertain
  generalize events.any TransitionReceipt.acceptance = accepted
  cases source <;> simp [and_assoc]

variable {receipt : TransitionReceipt}

theorem verifyTransition_eq_ok :
    verifyTransition host receipt = .ok () ↔
      receipt.resultVersion = receipt.expectedVersion + 1 ∧
        decide (receipt.resultVersion = 1) = receipt.previousSha256.isNone ∧
        host.transitionEventId receipt.intentId receipt.expectedVersion receipt.resultVersion =
          receipt.eventId ∧
        host.transitionCanonicalSha256 receipt.toTransitionBody = receipt.canonicalSha256 ∧
        persistedEdgeReasonAllowed receipt.fromState receipt.toState receipt.reason = true ∧
        (receipt.toState.terminal = receipt.terminal.terminalRefId.isSome ∧
          receipt.toState.terminal = receipt.terminal.terminalBindingSha256.isSome ∧
          receipt.toState.terminal = receipt.terminal.terminalDisposition.isSome) ∧
        receipt.verifyTerminal = .ok () := by
  simp only [verifyTransition, bind_eq_ok, require_eq_ok]
  constructor
  · rintro ⟨_, step, _, first, _, event, _, canonical, _, edge, _, group, terminal⟩
    exact ⟨step, first, event, canonical, edge, group, terminal⟩
  · rintro ⟨step, first, event, canonical, edge, group, terminal⟩
    exact ⟨⟨⟩, step, ⟨⟩, first, ⟨⟩, event, ⟨⟩, canonical, ⟨⟩, edge, ⟨⟩, group, terminal⟩

/-- What the table checks leave of the terminal columns is what the reader demands of them. -/
theorem transitionChecks_terminal (checked : transitionChecks receipt = true) :
    (receipt.toState.terminal = receipt.terminal.terminalRefId.isSome ∧
      receipt.toState.terminal = receipt.terminal.terminalBindingSha256.isSome ∧
      receipt.toState.terminal = receipt.terminal.terminalDisposition.isSome) ∧
    receipt.verifyTerminal = .ok () := by
  simp only [transitionChecks, Bool.and_eq_true, Bool.or_eq_true, decide_eq_true_eq] at checked
  obtain ⟨⟨⟨⟨⟨⟨⟨⟨⟨⟨⟨⟨⟨⟨_, _⟩, _⟩, _⟩, _⟩, _⟩, paired⟩, refId⟩, disposition⟩, completed⟩,
    decisionId⟩, auditRef⟩, auditSha⟩, notDelivered⟩, _⟩ := checked
  have binding : receipt.toState.terminal = receipt.terminal.terminalBindingSha256.isSome := by
    rw [refId, ← Bool.not_inj_iff]
    simpa using paired
  refine ⟨⟨refId, binding, disposition⟩, ?_⟩
  unfold TransitionReceipt.verifyTerminal
  split
  · rename_i isCompleted
    simp_all [require_eq_ok, IntentState.terminal]
  · split
    · rename_i isNotDelivered
      simp_all [require_eq_ok, IntentState.terminal]
    · rename_i isNotDelivered
      simp_all [require_eq_ok, IntentState.terminal]

namespace Applied

section

variable (applied : Applied host store command row lease next)

include applied

theorem chain (intentId : String) :
    next.chain intentId = store.chain intentId ++
      if intentId = command.intentId then [store.receipt host command] else [] := by
  unfold Store.chain
  rw [applied.appended, List.filter_append]
  congr 1
  by_cases same : intentId = command.intentId
  · simp [same, Store.receipt, TransitionReceipt.fromCommand]
  · simp [same, Store.receipt, TransitionReceipt.fromCommand, Ne.symm same]

/-- The appended event continues the chain of its intent. -/
theorem linked_receipt (sound : Sound host store) :
    Linked host (store.chain command.intentId) [store.receipt host command] := by
  obtain ⟨state, version, _⟩ := stale_eq_false.mp applied.current
  obtain ⟨_, _, _, _, _, edge, _⟩ := casAllowed_iff.mp applied.allowed
  have headOf := sound.heads row applied.member
  have linked := sound.linked command.intentId
  have length : (store.chain command.intentId).length = command.expectedVersion := by
    rw [← version, ← headOf.length, applied.subject]
  rw [applied.subject] at headOf edge
  obtain ⟨terminal, group⟩ := transitionChecks_terminal applied.checked
  refine ⟨⟨command.actor.valid, verifyTransition_eq_ok.mpr
    ⟨rfl, ?_, rfl, rfl, ?_, terminal, group⟩⟩, continues_iff.mpr ⟨?_, rfl, rfl, ?_⟩, ?_, trivial⟩
  · have checked := applied.checked
    simp only [transitionChecks, Bool.and_eq_true, decide_eq_true_eq] at checked
    exact checked.2
  · have persisted := casEdge_persisted edge
    rw [state] at persisted
    exact persisted
  · rw [length]
    rfl
  · intro previous last
    obtain ⟨target, _, _, at_⟩ := headOf.last previous last
    exact ⟨at_ ▸ applied.timed, target.trans state⟩
  · by_cases target : command.toState = .notDelivered
    · obtain ⟨_, _, accepted, origin⟩ := (casEdge_notDelivered linked.ordered target).mp edge
      rw [state] at origin
      simp [historyAllows, accepted, Store.receipt, TransitionReceipt.fromCommand, origin]
    · simp [historyAllows, Store.receipt, TransitionReceipt.fromCommand, target]

theorem linked (sound : Sound host store) (intentId : String) :
    Linked host [] (next.chain intentId) := by
  rw [applied.chain intentId, linked_append]
  refine ⟨sound.linked intentId, ?_⟩
  split
  · rename_i same
    rw [same]
    exact applied.linked_receipt sound
  · trivial

theorem headOf (sound : Sound host store) :
    HeadOf (row.advanced command lease) (next.chain command.intentId) := by
  obtain ⟨state, version, _⟩ := stale_eq_false.mp applied.current
  have headOf := sound.heads row applied.member
  rw [applied.subject] at headOf
  rw [applied.chain, if_pos rfl]
  constructor
  · rw [List.length_append, headOf.length, version]
    rfl
  · intro first isFirst
    cases earlier : store.chain command.intentId with
    | nil =>
      -- the first transition leaves the state in which the intent was recorded
      rw [earlier] at isFirst headOf
      obtain rfl := Option.some.inj isFirst
      have untouched : row.version = 0 := headOf.length.symm
      have origin := (verifySnapshot_eq_ok.mp (sound.verified row applied.member)).2.2.2.2
      rw [IntentSnapshot.verifyOrigin, if_pos untouched, require_eq_ok] at origin
      exact state.symm.trans origin.1
    | cons event rest =>
      rw [earlier] at isFirst headOf
      exact headOf.start first isFirst
  · intro event isLast
    rw [List.getLast?_concat] at isLast
    obtain rfl := Option.some.inj isLast
    exact ⟨rfl, congrArg some state.symm, rfl, rfl⟩
  · intro empty
    simp at empty

theorem verified (sound : Sound host store) :
    verifySnapshot host (row.advanced command lease) = .ok () := by
  obtain ⟨content, newVersion, previous, _, leaseStep, _, checks⟩ :=
    casAllowed_iff.mp applied.allowed
  obtain ⟨verified, _, _, generation, _⟩ :=
    verifySnapshot_eq_ok.mp (sound.verified row applied.member)
  simp only [headChecks, Bool.and_eq_true, decide_eq_true_eq] at checks
  simp only [casLease, Bool.and_eq_true, decide_eq_true_eq] at leaseStep
  refine verifySnapshot_eq_ok.mpr ⟨content ▸ verified, checks.1.1.2, ?_, ?_, ?_⟩
  · rw [← Bool.not_inj_iff]
    simpa using checks.2
  · rw [newVersion]
    exact leaseStep.1.1.2.trans (Nat.succ_le_succ generation)
  · rw [IntentSnapshot.verifyOrigin, if_neg (by rw [newVersion]; omega), require_eq_ok, previous]
    rfl

theorem sound (sound : Sound host store) : Sound host next := by
  have advancedId : (row.advanced command lease).intentId = command.intentId := applied.subject
  constructor
  · intro other listed
    rcases (applied.intents other).mp listed with ⟨old, _⟩ | rfl
    · exact sound.verified other old
    · exact applied.verified sound
  · intro other listed
    rcases (applied.intents other).mp listed with ⟨old, different⟩ | rfl
    · rw [applied.chain, if_neg different, List.append_nil]
      exact sound.heads other old
    · rw [advancedId]
      exact applied.headOf sound
  · exact applied.linked sound
  · intro event listed
    rw [applied.appended, List.mem_append, List.mem_singleton] at listed
    rcases listed with old | rfl
    · obtain ⟨other, member, owns⟩ := sound.owned event old
      by_cases same : other.intentId = command.intentId
      · exact ⟨_, (applied.intents _).mpr (.inr rfl), advancedId.trans (same.symm.trans owns)⟩
      · exact ⟨other, (applied.intents _).mpr (.inl ⟨member, same⟩), owns⟩
    · exact ⟨_, (applied.intents _).mpr (.inr rfl), advancedId⟩
  · intro other listed
    rcases (applied.intents other).mp listed with ⟨old, _⟩ | rfl
    · exact sound.checked other old
    · exact (casAllowed_iff.mp applied.allowed).2.2.2.2.2.2
  · intro other listed
    rcases (applied.intents other).mp listed with ⟨old, _⟩ | rfl
    · exact sound.stored other old
    · exact sound.stored row applied.member

theorem answered (sound : Sound host store) :
    committedAnswer host next command (store.receipt host command) =
      .ok (.applied (store.receipt host command)) := by
  have after := applied.sound sound
  have listed : store.receipt host command ∈ next.transitions.rows := by
    rw [applied.appended]
    simp
  have advanced : row.advanced command lease ∈ next.intents.rows :=
    (applied.intents _).mpr (.inr rfl)
  have found := after.inspects advanced
  rw [show (row.advanced command lease).intentId = command.intentId from applied.subject] at found
  simp only [committedAnswer, bind_eq_ok, okOr_eq_ok, require_eq_ok, pure_eq_ok]
  exact ⟨_, after.queries listed, _, rfl, ⟨⟩, rfl, _, found, _, after.reads advanced, rfl⟩

end

end Applied

/-! ## A new intent -/

theorem stripHead_append (head rest : String) : stripHead head (head ++ rest) = some rest := by
  have begins : startsWith (head ++ rest) head = true := by
    simp [startsWith]
  rw [stripHead, if_pos begins, String.toList_append, List.drop_left, String.ofList_toList]

theorem parseNamespace_storage (namespace_ : Namespace) :
    parseNamespace (namespaceStorage namespace_) = .ok namespace_ := by
  cases namespace_ with
  | production => rfl
  | test runId =>
    have different : "Test:" ++ runId.value ≠ "Production" := by
      intro same
      have letters := congrArg String.toList same
      simp at letters
    rw [namespaceStorage, parseNamespace, if_neg different, stripHead_append]
    simp [okOr, Text.tryNew_value, pure, Except.pure]

theorem parseSubject_storage (subject : SubjectId) :
    parseSubject (subjectStorage subject) = .ok subject := by
  cases subject with
  | global => rfl
  | entity value =>
    have different : "Entity:" ++ value.value ≠ "Global" := by
      intro same
      have letters := congrArg String.toList same
      simp at letters
    rw [subjectStorage, parseSubject, if_neg different, stripHead_append]
    simp [okOr, Text.tryNew_value, pure, Except.pure]

/-- A request for a new intent. -/
inductive DraftRequest where
  | ready (identity : InitialIntentIdentity) (prepared : PreparedPush)
      (templateSha256 sourceContractSha256 : String) (createdAt : Nat)
  | noData (identity : InitialIntentIdentity)
      (evidenceSha256 templateSha256 sourceContractSha256 : String) (createdAt : Nat)
  | disabled (identity : InitialIntentIdentity)
      (evidenceSha256 templateSha256 sourceContractSha256 : String) (createdAt : Nat)

def DraftRequest.draft (host : Host) : DraftRequest → Outcome InitialIntentDraft
  | .ready identity prepared template contract createdAt =>
    InitialIntentDraft.ready host identity prepared template contract createdAt
  | .noData identity evidence template contract createdAt =>
    InitialIntentDraft.noData host identity evidence template contract createdAt
  | .disabled identity evidence template contract createdAt =>
    InitialIntentDraft.disabled host identity evidence template contract createdAt

/-- The columns of a draft spell the identity it was built from. -/
theorem fromIdentity_identity (dated : host.businessDate identity.occurrence.businessDate = true) :
    (InitialIntentDraft.fromIdentity host identity kind payload createdAt).toIntentContent.identity
      host = .ok identity := by
  simp [IntentContent.identity, InitialIntentDraft.fromIdentity, parseNamespace_storage,
    parseSubject_storage, Text.tryNew_value, require, dated, pure, Except.pure]

theorem fromIdentity_verify (dated : identity.dated host = .ok ())
    (paid : (InitialIntentDraft.fromIdentity host identity kind payload
      createdAt).toIntentContent.verifyPayload host = .ok ()) :
    (InitialIntentDraft.fromIdentity host identity kind payload createdAt).toIntentContent.verify
      host = .ok () := by
  simp only [IntentContent.verify, bind_eq_ok, require_eq_ok]
  exact ⟨identity, fromIdentity_identity (require_eq_ok.mp dated), ⟨⟩, ⟨rfl, rfl⟩, paid⟩

variable {request : DraftRequest} {draft : InitialIntentDraft}

/-- A draft that the table accepts passes the reader's checks of its content. -/
theorem DraftRequest.verified (built : request.draft host = .ok draft)
    (stored : contentChecks host draft.toIntentContent = true) :
    draft.toIntentContent.verify host = .ok () := by
  cases request with
  | ready identity prepared template contract createdAt =>
    simp only [DraftRequest.draft, InitialIntentDraft.ready, bind_eq_ok, require_eq_ok,
      pure_eq_ok] at built
    obtain ⟨_, dated, _, _, _, rendered, rfl⟩ := built
    refine fromIdentity_verify dated ?_
    simp only [contentChecks, Bool.and_eq_true] at stored
    have snapshot : prepared.canonicalSnapshotBytes ≠ [] := by
      simpa [InitialIntentDraft.fromIdentity] using stored.1.1.2
    simp [IntentContent.verifyPayload, InitialIntentDraft.fromIdentity, okOr, require, rendered,
      snapshot]
  | noData identity evidence template contract createdAt =>
    simp only [DraftRequest.draft, InitialIntentDraft.noData, InitialIntentDraft.nonSend,
      bind_eq_ok, pure_eq_ok] at built
    obtain ⟨_, dated, rfl⟩ := built
    exact fromIdentity_verify dated rfl
  | disabled identity evidence template contract createdAt =>
    simp only [DraftRequest.draft, InitialIntentDraft.disabled, InitialIntentDraft.nonSend,
      bind_eq_ok, pure_eq_ok] at built
    obtain ⟨_, dated, rfl⟩ := built
    exact fromIdentity_verify dated rfl

/-- Recording an intent adds its row, or leaves the store as it was. -/
theorem recordInitial_cases (host : Host) (store : Store) (draft : InitialIntentDraft) :
    (recordInitial host store draft).1 = store ∨
      (∀ row ∈ store.intents.rows, row.intentId ≠ draft.intentId) ∧
        headChecks draft.row = true ∧ contentChecks host draft.toIntentContent = true ∧
        insertGuard draft.row = true ∧
        (recordInitial host store draft).1.intents.rows = store.intents.rows ++ [draft.row] ∧
        (recordInitial host store draft).1.transitions = store.transitions := by
  unfold recordInitial
  cases queryIntent host store draft.intentId with
  | error error => exact .inl rfl
  | ok found =>
    cases found with
    | some existing => exact .inl rfl
    | none =>
      cases done : insertIntent host store draft.row with
      | error error => exact .inl rfl
      | ok next =>
        simp only [insertIntent, bind_eq_ok, require_eq_ok, okOr_eq_ok, pure_eq_ok] at done
        obtain ⟨_, ⟨guarded, head, content, _⟩, intents, inserted, rfl⟩ := done
        obtain ⟨rows, absent⟩ := Table.rows_of_insert inserted
        exact .inr ⟨Table.get?_eq_none_iff.mp absent, head, content, guarded, rows, rfl⟩

theorem recordInitial_sound (sound : Sound host store) (built : request.draft host = .ok draft) :
    Sound host (recordInitial host store draft).1 := by
  rcases recordInitial_cases host store draft with
    same | ⟨absent, head, content, guarded, rows, transitions⟩
  · rw [same]
    exact sound
  have chains : ∀ intentId,
      (recordInitial host store draft).1.chain intentId = store.chain intentId := by
    intro intentId
    unfold Store.chain
    rw [transitions]
  have unowned : store.chain draft.intentId = [] := by
    rw [List.eq_nil_iff_forall_not_mem]
    intro event listed
    obtain ⟨member, subject⟩ := mem_chain.mp listed
    obtain ⟨row, present, owns⟩ := sound.owned event member
    exact absent row present (owns.trans subject)
  simp only [insertGuard, Bool.and_eq_true, decide_eq_true_eq] at guarded
  constructor
  · intro row listed
    rw [rows, List.mem_append, List.mem_singleton] at listed
    rcases listed with old | rfl
    · exact sound.verified row old
    · refine verifySnapshot_eq_ok.mpr
        ⟨DraftRequest.verified built content, Nat.le_refl _, rfl, Nat.le_refl _, ?_⟩
      rw [IntentSnapshot.verifyOrigin, if_pos guarded.1.1.1.1.1, require_eq_ok]
      exact ⟨guarded.1.2, guarded.2, rfl, rfl, rfl, rfl⟩
  · intro row listed
    rw [rows, List.mem_append, List.mem_singleton] at listed
    rw [chains]
    rcases listed with old | rfl
    · exact sound.heads row old
    · rw [show draft.row.intentId = draft.intentId from rfl, unowned]
      exact ⟨rfl, by simp, by simp, fun _ => rfl⟩
  · intro intentId
    rw [chains]
    exact sound.linked intentId
  · intro event listed
    rw [transitions] at listed
    obtain ⟨row, member, owns⟩ := sound.owned event listed
    exact ⟨row, by rw [rows]; exact List.mem_append_left _ member, owns⟩
  · intro row listed
    rw [rows, List.mem_append, List.mem_singleton] at listed
    rcases listed with old | rfl
    · exact sound.checked row old
    · exact head
  · intro row listed
    rw [rows, List.mem_append, List.mem_singleton] at listed
    rcases listed with old | rfl
    · exact sound.stored row old
    · exact content

/-! ## Runs -/

/-- A submitted command with its answer. -/
structure Entry where
  command : StoreTransitionCommand
  answer : Outcome TransitionOutcome

/-- How a submitted command was answered. -/
inductive Verdict where
  | applied | alreadyCommitted | conflict | failed
deriving DecidableEq

def Entry.verdict (entry : Entry) : Verdict :=
  match entry.answer with
  | .ok (.applied _) => .applied
  | .ok (.alreadyCommitted _) => .alreadyCommitted
  | .ok (.conflict _) => .conflict
  | .error _ => .failed

/-- The store, and everything that was submitted to it so far. -/
structure World where
  store : Store
  log : List Entry

def World.initial : World :=
  ⟨.empty, []⟩

inductive Action where
  | record (request : DraftRequest)
  | submit (timing : Timing) (command : StoreTransitionCommand)

def World.step (host : Host) (world : World) : Action → World
  | .record request =>
    match request.draft host with
    | .error _ => world
    | .ok draft => { world with store := (recordInitial host world.store draft).1 }
  | .submit timing command =>
    let (store, answer) := applyTransitionInner host world.store timing command
    ⟨store, world.log ++ [⟨command, answer⟩]⟩

def World.run (host : Host) (world : World) (actions : List Action) : World :=
  actions.foldl (World.step host) world

/-- What one action can do to a sound world. -/
inductive Step (host : Host) (world : World) : World → Prop
  | recorded (store : Store) (sound : Sound host store)
      (kept : ∀ row ∈ world.store.intents.rows, row ∈ store.intents.rows)
      (born : ∀ row ∈ store.intents.rows, row ∈ world.store.intents.rows ∨
        row.version = 0 ∧ row.lease = ⟨none, none, 0⟩ ∧
          ∀ old ∈ world.store.intents.rows, old.intentId ≠ row.intentId)
      (same : store.transitions = world.store.transitions) :
      Step host world ⟨store, world.log⟩
  | applied (command : StoreTransitionCommand) (row : IntentSnapshot) (lease : Lease)
      (store : Store) (applied : Applied host world.store command row lease store) :
      Step host world
        ⟨store, world.log ++ [⟨command, .ok (.applied (world.store.receipt host command))⟩]⟩
  | answered (timing : Timing) (command : StoreTransitionCommand)
      (answer : Outcome TransitionOutcome)
      (given : (applyTransitionInner host world.store timing command).2 = answer)
      (unapplied : ∀ receipt, answer ≠ .ok (.applied receipt)) :
      Step host world ⟨world.store, world.log ++ [⟨command, answer⟩]⟩

theorem verdict_ne_applied {answer : Outcome TransitionOutcome}
    (unapplied : ∀ receipt, answer ≠ .ok (.applied receipt)) :
    (Entry.mk command answer).verdict ≠ .applied := by
  intro was
  unfold Entry.verdict at was
  split at was <;> simp_all

variable {world : World}

theorem World.step_cases (sound : Sound host world.store) (action : Action) :
    Step host world (world.step host action) := by
  have unchanged : Step host world world :=
    .recorded world.store sound (fun _ member => member) (fun _ member => .inl member) rfl
  cases action with
  | record request =>
    simp only [World.step]
    cases built : request.draft host with
    | error error => exact unchanged
    | ok draft =>
      simp only
      refine .recorded _ (recordInitial_sound sound built) ?_ ?_ ?_
      all_goals rcases recordInitial_cases host world.store draft with
        same | ⟨absent, _, _, _, rows, transitions⟩
      · rw [same]
        exact fun _ member => member
      · rw [rows]
        exact fun row member => List.mem_append_left _ member
      · rw [same]
        exact fun _ member => .inl member
      · rw [rows]
        intro row listed
        rcases mem_concat.mp listed with old | rfl
        · exact .inl old
        · exact .inr ⟨rfl, rfl, absent⟩
      · rw [same]
      · exact transitions
  | submit timing command =>
    rcases applyTransitionInner_cases sound timing command with
      ⟨⟨row, lease, applied⟩, answer⟩ | ⟨same, unapplied⟩
    · rw [applied.answered sound] at answer
      simp only [World.step]
      rw [answer]
      exact .applied command row lease _ applied
    · simp only [World.step]
      rw [same]
      exact .answered timing command _ rfl unapplied

theorem Step.sound {next : World} (step : Step host world next) (sound : Sound host world.store) :
    Sound host next.store := by
  cases step with
  | recorded store sound => exact sound
  | applied command row lease store applied => exact applied.sound sound
  | answered => exact sound

/-- Worlds that a run can reach. -/
inductive Reached (host : Host) : World → Prop
  | initial : Reached host .initial
  | step {world : World} (reached : Reached host world) (action : Action) :
      Reached host (world.step host action)

theorem Reached.sound (reached : Reached host world) :
    Sound host world.store := by
  induction reached with
  | initial => exact sound_empty host
  | step _ action ih => exact (World.step_cases ih action).sound ih

theorem Reached.run (reached : Reached host world) (actions : List Action) :
    Reached host (world.run host actions) := by
  induction actions generalizing world with
  | nil => exact reached
  | cons action _ ih => exact ih (reached.step action)

/-- What holds at the start and is kept by every step holds in every reached world. -/
theorem Reached.invariant {holds : World → Prop} (initial : holds .initial)
    (kept : ∀ world next, Sound host world.store → Step host world next → holds world →
      holds next) (reached : Reached host world) : holds world := by
  induction reached with
  | initial => exact initial
  | step reached action ih =>
    exact kept _ _ reached.sound (World.step_cases reached.sound action) ih

/-! ## A run to look at -/

/-- Digests that spell what they are of. -/
def sampleHost : Host where
  deriveOccurrenceId material := material.businessDate ++ material.occurrenceKey.value
  deriveIntentId material := "intent-" ++ material.unitId.value
  deriveDecisionId intentId := "decision-" ++ intentId
  digest bytes := String.ofList (bytes.map fun byte => Char.ofNat byte.toNat)
  transitionEventId intentId expectedVersion _ :=
    String.ofList (List.replicate expectedVersion '1' ++ '0' :: intentId.toList)
  transitionCanonicalSha256 body := "sha-" ++ body.eventId
  terminalBindingSha256 record := "binding-" ++ record.refId.value
  businessDate _ := true
  storedBusinessDate _ := true

def sampleText (value : String) (valid : validText value = true) : Text :=
  ⟨value, valid⟩

def sampleIdentity : InitialIntentIdentity where
  namespace_ := .production
  unitId := sampleText "unit" (by decide +kernel)
  occurrence := ⟨"2026-09-07", sampleText "family" (by decide +kernel),
    sampleText "key" (by decide +kernel)⟩
  completionOwner := sampleText "owner" (by decide +kernel)
  sourceContractId := sampleText "contract" (by decide +kernel)
  subject := .global
  audience := sampleText "audience" (by decide +kernel)

def samplePush : PreparedPush where
  intentId := sampleIdentity.intentId sampleHost
  decisionId := sampleHost.deriveDecisionId (sampleIdentity.intentId sampleHost)
  unitId := sampleIdentity.unitId
  occurrence := sampleHost.deriveOccurrenceId sampleIdentity.occurrence
  subject := sampleIdentity.subject
  sourceContractId := sampleIdentity.sourceContractId
  evidenceFingerprint := "evidence"
  canonicalSnapshotBytes := [65]
  renderedBytes := [66]

def sampleRequest : DraftRequest :=
  .ready sampleIdentity samplePush "template" "contract" 100

def firstOwner : Text :=
  sampleText "dispatcher-1" (by decide +kernel)

def secondOwner : Text :=
  sampleText "dispatcher-2" (by decide +kernel)

/-- The dispatcher takes the lease and claims the intent. -/
def sampleClaim : StoreTransitionCommand where
  intentId := "intent-unit"
  fromState := .pendingDispatch
  toState := .awaitingAuthority
  expectedVersion := 0
  actor := firstOwner
  reason := .intentDispatchClaimed
  occurredAt := 110
  leaseAction := .acquire firstOwner 200
  requiredFence := none
  terminal := .none

/-- The dispatcher reports that it still holds the lease. -/
def sampleHold : StoreTransitionCommand :=
  { sampleClaim with
    fromState := .awaitingAuthority
    expectedVersion := 1
    reason := .intentLeaseHeld
    occurredAt := 120
    leaseAction := .preserve }

def sampleRecorded : World :=
  World.initial.step sampleHost (.record sampleRequest)

def sampleClaimed : World :=
  sampleRecorded.step sampleHost (.submit .fresh sampleClaim)

end StockAnalysis.Intents
