import StockAnalysis.NewsFlash.Types

/-!
# The reader of a business day

`reconcile_news_flash_envelopes` folds the audit into sets: the attempts of the day, one terminal for
each of them, the windows and events that were accepted, and the next ordinal of every reservation.
At the end an attempt without a terminal, or with an uncertain one, makes its reservation
unresolved; a rejected attempt makes its reservation definitively rejected, unless it is unresolved.

`Reconciled` says what the fold holds after a part of the audit, and `reconcile_eq_ok` what the
snapshot of the day says about the whole audit.
-/

namespace StockAnalysis.NewsFlash

/-! ## The reader -/

/-- The local variables of the fold. -/
structure Reconciliation where
  attempts : OrdMap String PushRecord
  terminalByAttempt : OrdMap String TerminalState
  nextAttemptOrdinals : OrdMap String Nat
  acceptedEventIds : OrdMap String Unit
  acceptedWindows : OrdMap String Unit
  criticalSourceIdentityComplete : Bool

def Reconciliation.start : Reconciliation :=
  ⟨OrdMap.empty, OrdMap.empty, OrdMap.empty, OrdMap.empty, OrdMap.empty, true⟩

/-- `is_lower_hex_sha256`. -/
def isLowerHexSha256 (value : String) : Bool :=
  value.toList.length = 64 &&
    value.toList.all fun c => ('0' ≤ c && c ≤ '9') || ('a' ≤ c && c ≤ 'f')

/-- The sources of a critical record name the one event that its decision key is. -/
def criticalSourceComplete (record : PushRecord) : Bool :=
  record.newsFlashSources.any fun sources =>
    match sources with
    | [source] =>
      isLowerHexSha256 source.eventId &&
        record.newsFlashDecisionKey = some source.eventId &&
        (source.provider, source.source) ∈
          [("Eastmoney", "eastmoney-web"), ("Cailianpress", "cls-v1"),
            ("Jin10", "jin10-flash-v1"), ("ThePaper", "thepaper-finance-v1")]
    | _ => false

section Reader

-- The local calendar date of an instant.
variable (localDate : Instant → Day) (state : Reconciliation)

/-- What an envelope of an older critical format says about the completeness of the day. -/
def observeOldCritical (day : Day) (complete : Bool) (envelope : EventEnvelope) : Bool :=
  if envelope.kind = some criticalKind ∧ newsFlashVersion envelope.schemaVersion = false then
    match envelope.parsed with
    | .ok old => if localDate old.ts ≠ day then complete else false
    | .error _ => false
  else complete

/-- What a critical record without a stage says about the completeness of the day. -/
def observeUnstaged (day : Day) (complete : Bool) (record : PushRecord) : Bool :=
  if record.kind = criticalKind ∧ record.newsFlashTransactionStage = none ∧
      localDate record.ts = day then false
  else complete

def observeStaged (complete : Bool) (record : PushRecord) : Bool :=
  if record.kind = criticalKind then complete && criticalSourceComplete record else complete

/-- The next ordinal of a reservation is past every ordinal recorded under it. -/
def raiseOrdinal (ordinals : OrdMap String Nat) (reservation : String) (ordinal : Nat) :
    OrdMap String Nat :=
  ordinals.insert reservation
    (match ordinals.get? reservation with
    | some current => max current (ordinal + 1)
    | none => ordinal + 1)

def Reconciliation.openAttempt (envelope : EventEnvelope) (record : PushRecord) :
    Outcome Reconciliation := do
  require (state.attempts.contains envelope.id = false)
    (.recordConflict "duplicate sink attempt envelope")
  pure { state with attempts := (state.attempts.insert envelope.id record) }

/-- The sets of accepted decisions after a terminal. -/
def Reconciliation.accept (record : PushRecord) (terminal : TerminalState) :
    Outcome Reconciliation :=
  if terminal = .accepted then do
    let identity ← acceptedDecisionIdentity record
    match identity with
    | .event eventId => pure { state with
        acceptedEventIds := (state.acceptedEventIds.insert eventId ()) }
    | .window label => pure { state with
        acceptedWindows := (state.acceptedWindows.insert label ()) }
  else pure state

def Reconciliation.endAttempt (record : PushRecord) (terminal : TerminalState) :
    Outcome Reconciliation := do
  let attemptId ← okOr record.newsFlashAttemptEnvelopeId
    (.recordConflict "terminal attempt envelope missing")
  let attempt ← okOr (state.attempts.get? attemptId)
    (.recordConflict ("terminal precedes or lacks sink attempt " ++ attemptId))
  validateTerminalAttemptBinding attempt record
  require (state.terminalByAttempt.contains attemptId = false)
    (.recordConflict ("multiple terminal records for attempt " ++ attemptId))
  Reconciliation.accept
    { state with terminalByAttempt := (state.terminalByAttempt.insert attemptId terminal) }
    record terminal

/-- The part of an iteration after the record was found to be a transaction of the day. -/
def Reconciliation.transact (envelope : EventEnvelope) (record : PushRecord)
    (stage : NewsFlashTransactionStage) : Outcome Reconciliation := do
  let _ ← acceptedDecisionIdentity record
  let reservation ← okOr record.newsFlashReservationSha256
    (.recordConflict "reservation hash missing")
  let ordinal ← okOr record.newsFlashAttemptOrdinal (.recordConflict "attempt ordinal missing")
  require (ordinal + 1 < 2 ^ 32) (.recordConflict "attempt ordinal overflow")
  let numbered : Reconciliation := { state with
    nextAttemptOrdinals := (raiseOrdinal state.nextAttemptOrdinals reservation ordinal)
    criticalSourceIdentityComplete :=
      observeStaged state.criticalSourceIdentityComplete record }
  match stage.terminal with
  | none => numbered.openAttempt envelope record
  | some terminal => numbered.endAttempt record terminal

/-- One iteration of the fold. -/
def reconcileEnvelope (day : Day) (state : Reconciliation) (envelope : EventEnvelope) :
    Outcome Reconciliation :=
  let observed := observeOldCritical localDate day state.criticalSourceIdentityComplete envelope
  if newsFlashVersion envelope.schemaVersion = false then
    .ok { state with criticalSourceIdentityComplete := observed }
  else do
    let record ← (PushRecord.tryFromAuthoritative envelope).mapError fun error =>
      NewsFlashReconcileError.invalidChain error.display
    let state : Reconciliation := { state with
      criticalSourceIdentityComplete := observeUnstaged localDate day observed record }
    if record.newsFlashBusinessDate ≠ some day then pure state
    else
      match record.stage with
      | none => pure state
      | some stage => state.transact envelope record stage

structure NewsFlashAuthoritySnapshot where
  businessDate : Day
  acceptedEventIds : OrdMap String Unit
  acceptedWindows : OrdMap String Unit
  unresolvedReservations : OrdMap String Unit
  definitivelyRejectedReservations : OrdMap String Unit
  nextAttemptOrdinals : OrdMap String Nat
  blockedCriticalEventIds : OrdMap String Unit
  criticalSourceIdentityComplete : Bool

def NewsFlashAuthoritySnapshot.nextAttemptOrdinal (snapshot : NewsFlashAuthoritySnapshot)
    (reservation : String) : Nat :=
  (snapshot.nextAttemptOrdinals.get? reservation).getD 1

/-- The sets that the loop over the attempts fills. -/
structure Closing where
  blocked : OrdMap String Unit
  unresolved : OrdMap String Unit
  rejected : OrdMap String Unit

/-- An attempt whose outcome is not known. -/
def Closing.unknown (closing : Closing) (record : PushRecord) (reservation : String) :
    Outcome Closing := do
  let identity ← acceptedDecisionIdentity record
  pure { closing with
    blocked :=
      match identity with
      | .event eventId => closing.blocked.insert eventId ()
      | .window _ => closing.blocked
    unresolved := (closing.unresolved.insert reservation ()) }

/-- One iteration of the loop over the attempts. The source takes the reservation of an attempt
without a check, since the fold has required it. -/
def Reconciliation.closeAttempt (closing : Closing) (attempt : String × PushRecord) :
    Outcome Closing := do
  let reservation ← okOr attempt.2.newsFlashReservationSha256
    (.recordConflict "validated attempt reservation")
  match state.terminalByAttempt.get? attempt.1 with
  | none => closing.unknown attempt.2 reservation
  | some .uncertain => closing.unknown attempt.2 reservation
  | some .definitivelyRejected =>
    pure { closing with rejected := (closing.rejected.insert reservation ()) }
  | some .accepted => pure closing

/-- The snapshot of the day once the audit was read. -/
def Reconciliation.close (day : Day) : Outcome NewsFlashAuthoritySnapshot := do
  let closing ← each state.closeAttempt ⟨state.acceptedEventIds, OrdMap.empty, OrdMap.empty⟩
    state.attempts.entries
  pure
    { businessDate := day
      acceptedEventIds := state.acceptedEventIds
      acceptedWindows := state.acceptedWindows
      unresolvedReservations := closing.unresolved
      definitivelyRejectedReservations :=
        closing.rejected.retain fun reservation => !closing.unresolved.contains reservation
      nextAttemptOrdinals := state.nextAttemptOrdinals
      blockedCriticalEventIds := closing.blocked
      criticalSourceIdentityComplete := state.criticalSourceIdentityComplete }

/-- `reconcile_news_flash_envelopes`. -/
def reconcileNewsFlashEnvelopes (envelopes : List EventEnvelope) (day : Day) :
    Outcome NewsFlashAuthoritySnapshot := do
  let state ← each (reconcileEnvelope localDate day) Reconciliation.start envelopes
  state.close day

end Reader

/-! ## What one envelope does -/

/-- The envelope holds this record of a transaction of the business day, in the given stage. -/
structure Transaction (day : Day) (envelope : EventEnvelope) (record : PushRecord)
    (stage : NewsFlashTransactionStage) : Prop where
  version : newsFlashVersion envelope.schemaVersion = true
  read : envelope.Reads record
  date : record.newsFlashBusinessDate = some day
  inStage : record.stage = some stage

variable {stage : NewsFlashTransactionStage} {record : PushRecord} {reservation : String}
  {ordinal : Nat} {day : Day} {envelope : EventEnvelope}

theorem Transaction.unique {first second : PushRecord} {other : NewsFlashTransactionStage}
    (isFirst : Transaction day envelope first stage)
    (isSecond : Transaction day envelope second other) : first = second ∧ stage = other := by
  obtain rfl : first = second := Except.ok.inj (isFirst.read.symm.trans isSecond.read)
  exact ⟨rfl, Option.some.inj (isFirst.inStage.symm.trans isSecond.inStage)⟩

/-- A record of a window is a transaction of the day. -/
theorem Transaction.of_delivered {window : NewsFlashWindow} (delivered : envelope.Delivered day)
    (read : envelope.Reads record)
    (isOf : record.Of day window stage) : Transaction day envelope record stage where
  version := by
    simp [newsFlashVersion, delivered record read isOf.1 isOf.2.1]
  read := read
  date := isOf.2.1
  inStage := isOf.2.2.2

/-- The checks that every transaction of the day passes. -/
structure Numbered (record : PushRecord) (reservation : String) (ordinal : Nat) : Prop where
  identity : ∃ identity, acceptedDecisionIdentity record = .ok identity
  reserved : record.newsFlashReservationSha256 = some reservation
  numbered : record.newsFlashAttemptOrdinal = some ordinal

/-- What an accepted iteration did. -/
inductive Folded (day : Day) (state : Reconciliation) (envelope : EventEnvelope) :
    Reconciliation → Prop where
  | skipped (complete : Bool) (other : ∀ record stage, ¬ Transaction day envelope record stage) :
      Folded day state envelope { state with criticalSourceIdentityComplete := complete }
  | opened {record : PushRecord} {reservation : String} {ordinal : Nat} (complete : Bool)
      (transaction : Transaction day envelope record .sinkAttempt)
      (numbered : Numbered record reservation ordinal)
      (fresh : state.attempts.get? envelope.id = none) :
      Folded day state envelope { state with
        attempts := (state.attempts.insert envelope.id record)
        nextAttemptOrdinals := (raiseOrdinal state.nextAttemptOrdinals reservation ordinal)
        criticalSourceIdentityComplete := complete }
  | ended {record attempt : PushRecord} {reservation attemptId : String} {ordinal : Nat}
      {terminal : TerminalState} (complete : Bool) (events windows : OrdMap String Unit)
      (transaction : Transaction day envelope record terminal.stage)
      (numbered : Numbered record reservation ordinal)
      (named : record.newsFlashAttemptEnvelopeId = some attemptId)
      (held : state.attempts.get? attemptId = some attempt) (binds : attempt.Binds record)
      (isOpen : state.terminalByAttempt.get? attemptId = none)
      (accepts : ∀ label, windows.contains label = true ↔ state.acceptedWindows.contains label = true ∨
        (terminal = .accepted ∧ acceptedDecisionIdentity record = .ok (.window label))) :
      Folded day state envelope { state with
        terminalByAttempt := (state.terminalByAttempt.insert attemptId terminal)
        nextAttemptOrdinals := (raiseOrdinal state.nextAttemptOrdinals reservation ordinal)
        acceptedEventIds := events
        acceptedWindows := windows
        criticalSourceIdentityComplete := complete }

variable {state next : Reconciliation} {terminal : TerminalState}

theorem Reconciliation.accept_eq_ok (done : state.accept record terminal = .ok next) :
    ∃ events windows, next = { state with acceptedEventIds := events, acceptedWindows := windows } ∧
      ∀ label, windows.contains label = true ↔ state.acceptedWindows.contains label = true ∨
        (terminal = .accepted ∧ acceptedDecisionIdentity record = .ok (.window label)) := by
  unfold accept at done
  split at done
  · rename_i accepted
    obtain ⟨identity, isIdentity, done⟩ := bind_eq_ok.mp done
    cases identity with
    | event eventId =>
      obtain rfl := pure_eq_ok.mp done
      exact ⟨_, state.acceptedWindows, rfl, by simp [isIdentity]⟩
    | window label =>
      obtain rfl := pure_eq_ok.mp done
      refine ⟨state.acceptedEventIds, _, rfl, fun other => ?_⟩
      simp [OrdMap.contains_insert, accepted, isIdentity, or_comm]
  · rename_i notAccepted
    obtain rfl := pure_eq_ok.mp done
    exact ⟨state.acceptedEventIds, state.acceptedWindows, rfl, by simp [notAccepted]⟩

theorem Reconciliation.transact_eq_ok (transaction : Transaction day envelope record stage)
    (done : state.transact envelope record stage = .ok next) : Folded day state envelope next := by
  simp only [transact, bind_eq_ok, okOr_eq_ok, require_eq_ok] at done
  obtain ⟨identity, isIdentity, reservation, reserved, ordinal, isOrdinal, _, _, done⟩ := done
  have numbered : Numbered record reservation ordinal := ⟨⟨identity, isIdentity⟩, reserved, isOrdinal⟩
  split at done
  · rename_i isAttempt
    rw [NewsFlashTransactionStage.terminal_eq_none] at isAttempt
    subst isAttempt
    simp only [openAttempt, bind_eq_ok, require_eq_ok, pure_eq_ok, OrdMap.contains,
      Option.isSome_eq_false_iff, Option.isNone_iff_eq_none] at done
    obtain ⟨_, fresh, rfl⟩ := done
    exact .opened _ transaction numbered fresh
  · rename_i terminal isTerminal
    rw [NewsFlashTransactionStage.terminal_eq_some] at isTerminal
    subst isTerminal
    simp only [endAttempt, bind_eq_ok, okOr_eq_ok, validateTerminalAttemptBinding, require_eq_ok,
      OrdMap.contains, Option.isSome_eq_false_iff, Option.isNone_iff_eq_none] at done
    obtain ⟨attemptId, named, attempt, held, _, binds, _, isOpen, done⟩ := done
    obtain ⟨events, windows, rfl, accepts⟩ := accept_eq_ok done
    exact .ended _ events windows transaction numbered named held binds isOpen accepts

variable {localDate : Instant → Day}

theorem reconcileEnvelope_eq_ok (done : reconcileEnvelope localDate day state envelope = .ok next) :
    Folded day state envelope next := by
  unfold reconcileEnvelope at done
  dsimp only at done
  split at done
  · rename_i otherVersion
    cases done
    exact .skipped _ fun record stage transaction =>
      absurd transaction.version (otherVersion ▸ Bool.false_ne_true)
  · rename_i version
    rw [Bool.not_eq_false] at version
    simp only [bind_eq_ok, mapError_eq_ok] at done
    obtain ⟨record, read, done⟩ := done
    split at done
    · rename_i otherDay
      obtain rfl := pure_eq_ok.mp done
      refine .skipped _ fun other stage transaction => otherDay ?_
      rw [Except.ok.inj (read.symm.trans transaction.read)]
      exact transaction.date
    · rename_i onDay
      rw [not_not] at onDay
      split at done
      · rename_i unstaged
        obtain rfl := pure_eq_ok.mp done
        refine .skipped _ fun other stage transaction => ?_
        have staged := transaction.inStage
        rw [← Except.ok.inj (read.symm.trans transaction.read), unstaged] at staged
        cases staged
      · rename_i stage inStage
        have folded := Reconciliation.transact_eq_ok ⟨version, read, onDay, inStage⟩ done
        -- The state before differs from the one given only in the completeness of the day.
        cases folded with
        | skipped complete other => exact .skipped complete other
        | opened complete transaction numbered fresh =>
          exact .opened complete transaction numbered fresh
        | ended complete events windows transaction numbered named held binds isOpen accepts =>
          exact .ended complete events windows transaction numbered named held binds isOpen accepts

/-! ## What the fold holds -/

/-- The next ordinal of a reservation is past the ordinal. -/
def Passed (ordinals : OrdMap String Nat) (reservation : String) (ordinal : Nat) : Prop :=
  ∃ next, ordinals.get? reservation = some next ∧ ordinal < next

theorem raiseOrdinal_passed (ordinals : OrdMap String Nat) (reservation : String) (ordinal : Nat) :
    Passed (raiseOrdinal ordinals reservation ordinal) reservation ordinal := by
  refine ⟨_, OrdMap.get?_insert_self _ _ _, ?_⟩
  split <;> omega

theorem Passed.raise {ordinals : OrdMap String Nat} (passed : Passed ordinals reservation ordinal)
    (other : String) (raised : Nat) :
    Passed (raiseOrdinal ordinals other raised) reservation ordinal := by
  obtain ⟨next, isNext, below⟩ := passed
  unfold raiseOrdinal Passed
  rw [OrdMap.get?_insert]
  by_cases same : other = reservation
  · subst same
    rw [if_pos rfl, isNext]
    exact ⟨_, rfl, lt_of_lt_of_le below (le_max_left _ _)⟩
  · rw [if_neg same]
    exact ⟨next, isNext, below⟩

/-- What the fold holds of a day after the envelopes `seen`. -/
structure Reconciled (day : Day) (seen : List EventEnvelope) (state : Reconciliation) : Prop where
  attempts : ∀ attemptId record, state.attempts.get? attemptId = some record ↔
    ∃ envelope ∈ seen, envelope.id = attemptId ∧ Transaction day envelope record .sinkAttempt
  terminals : ∀ attemptId terminal, state.terminalByAttempt.get? attemptId = some terminal ↔
    ∃ envelope ∈ seen, ∃ record, Transaction day envelope record terminal.stage ∧
      record.newsFlashAttemptEnvelopeId = some attemptId
  /-- A terminal repeats the attempt that it names. -/
  bound : ∀ envelope ∈ seen, ∀ record terminal,
    Transaction day envelope record (TerminalState.stage terminal) → ∃ attemptId attempt,
      record.newsFlashAttemptEnvelopeId = some attemptId ∧
      state.attempts.get? attemptId = some attempt ∧ attempt.Binds record
  windows : ∀ label, state.acceptedWindows.contains label = true ↔
    ∃ envelope ∈ seen, ∃ record, Transaction day envelope record .accepted ∧
      acceptedDecisionIdentity record = .ok (.window label)
  numbered : ∀ envelope ∈ seen, ∀ record stage, Transaction day envelope record stage →
    ∃ reservation ordinal, Numbered record reservation ordinal ∧
      Passed state.nextAttemptOrdinals reservation ordinal

variable {envelopes : List EventEnvelope}

namespace Reconciled

variable {seen : List EventEnvelope}

theorem start : Reconciled day [] Reconciliation.start where
  attempts := by simp [Reconciliation.start]
  terminals := by simp [Reconciliation.start]
  bound := by simp
  windows := by simp [Reconciliation.start, OrdMap.contains]
  numbered := by simp

theorem exists_mem_concat {property : EventEnvelope → Prop} :
    (∃ other ∈ seen ++ [envelope], property other) ↔
      (∃ other ∈ seen, property other) ∨ property envelope := by
  constructor
  · rintro ⟨other, member, holds⟩
    rcases mem_concat.mp member with earlier | last
    · exact Or.inl ⟨other, earlier, holds⟩
    · exact Or.inr (last ▸ holds)
  · rintro (⟨other, member, holds⟩ | holds)
    · exact ⟨other, List.mem_append_left _ member, holds⟩
    · exact ⟨envelope, by simp, holds⟩

section

variable (reconciled : Reconciled day seen state)

include reconciled

theorem skipping (complete : Bool)
    (other : ∀ record stage, ¬ Transaction day envelope record stage) :
    Reconciled day (seen ++ [envelope])
      { state with criticalSourceIdentityComplete := complete } where
  attempts attemptId record := by
    rw [exists_mem_concat, reconciled.attempts]
    simp [other]
  terminals attemptId terminal := by
    rw [exists_mem_concat, reconciled.terminals]
    simp [other]
  bound := by
    intro found member record terminal transaction
    rcases mem_concat.mp member with earlier | last
    · exact reconciled.bound found earlier record terminal transaction
    · rw [last] at transaction
      exact absurd transaction (other record _)
  windows label := by
    rw [exists_mem_concat, reconciled.windows]
    simp [other]
  numbered := by
    intro found member record stage transaction
    rcases mem_concat.mp member with earlier | last
    · exact reconciled.numbered found earlier record stage transaction
    · rw [last] at transaction
      exact absurd transaction (other record stage)

theorem numbering (transaction : Transaction day envelope record stage)
    (numbered : Numbered record reservation ordinal) :
    ∀ found ∈ seen ++ [envelope], ∀ other otherStage, Transaction day found other otherStage →
      ∃ otherReservation otherOrdinal, Numbered other otherReservation otherOrdinal ∧
        Passed (raiseOrdinal state.nextAttemptOrdinals reservation ordinal) otherReservation
          otherOrdinal := by
  intro found member other otherStage isOther
  rcases mem_concat.mp member with earlier | last
  · obtain ⟨otherReservation, otherOrdinal, holds, passed⟩ :=
      reconciled.numbered found earlier other otherStage isOther
    exact ⟨otherReservation, otherOrdinal, holds, passed.raise reservation ordinal⟩
  · rw [last] at isOther
    obtain rfl := (transaction.unique isOther).1
    exact ⟨reservation, ordinal, numbered, raiseOrdinal_passed _ reservation ordinal⟩

theorem opening (complete : Bool) (transaction : Transaction day envelope record .sinkAttempt)
    (numbered : Numbered record reservation ordinal)
    (fresh : state.attempts.get? envelope.id = none) :
    Reconciled day (seen ++ [envelope]) { state with
      attempts := (state.attempts.insert envelope.id record)
      nextAttemptOrdinals := (raiseOrdinal state.nextAttemptOrdinals reservation ordinal)
      criticalSourceIdentityComplete := complete } := by
  have noTerminal : ∀ other terminal,
      ¬ Transaction day envelope other (TerminalState.stage terminal) := by
    intro other terminal isOther
    have staged := (transaction.unique isOther).2
    cases terminal <;> cases staged
  constructor
  · intro attemptId other
    rw [exists_mem_concat, ← reconciled.attempts, OrdMap.get?_insert]
    by_cases isNew : envelope.id = attemptId
    · subst isNew
      rw [if_pos rfl, Option.some.injEq, fresh]
      constructor
      · rintro rfl
        exact Or.inr ⟨rfl, transaction⟩
      · rintro (old | ⟨_, isOther⟩)
        · cases old
        · exact (transaction.unique isOther).1
    · rw [if_neg isNew]
      simp [isNew]
  · intro attemptId terminal
    rw [exists_mem_concat, ← reconciled.terminals]
    simp [noTerminal]
  · intro found member other terminal isOther
    rcases mem_concat.mp member with earlier | last
    · obtain ⟨attemptId, attempt, named, held, binds⟩ :=
        reconciled.bound found earlier other terminal isOther
      exact ⟨attemptId, attempt, named, OrdMap.get?_insert_of_absent fresh held _, binds⟩
    · rw [last] at isOther
      exact absurd isOther (noTerminal other terminal)
  · intro label
    rw [exists_mem_concat, ← reconciled.windows]
    have noAccepted : ∀ other, ¬ Transaction day envelope other .accepted :=
      fun other => noTerminal other .accepted
    simp [noAccepted]
  · exact reconciled.numbering transaction numbered

theorem ending {attempt : PushRecord} {attemptId : String}
    (complete : Bool) (events windows : OrdMap String Unit)
    (transaction : Transaction day envelope record terminal.stage)
    (numbered : Numbered record reservation ordinal)
    (named : record.newsFlashAttemptEnvelopeId = some attemptId)
    (held : state.attempts.get? attemptId = some attempt) (binds : attempt.Binds record)
    (isOpen : state.terminalByAttempt.get? attemptId = none)
    (accepts : ∀ label, windows.contains label = true ↔ state.acceptedWindows.contains label = true ∨
      (terminal = .accepted ∧ acceptedDecisionIdentity record = .ok (.window label))) :
    Reconciled day (seen ++ [envelope]) { state with
      terminalByAttempt := (state.terminalByAttempt.insert attemptId terminal)
      nextAttemptOrdinals := (raiseOrdinal state.nextAttemptOrdinals reservation ordinal)
      acceptedEventIds := events
      acceptedWindows := windows
      criticalSourceIdentityComplete := complete } := by
  have noAttempt : ∀ other, ¬ Transaction day envelope other .sinkAttempt := by
    intro other isOther
    have staged := (transaction.unique isOther).2
    cases terminal <;> cases staged
  constructor
  · intro otherId other
    rw [exists_mem_concat, ← reconciled.attempts]
    simp [noAttempt]
  · intro otherId other
    rw [exists_mem_concat, ← reconciled.terminals, OrdMap.get?_insert]
    by_cases isIt : attemptId = otherId
    · subst isIt
      rw [if_pos rfl, Option.some.injEq, isOpen]
      constructor
      · rintro rfl
        exact Or.inr ⟨record, transaction, named⟩
      · rintro (old | ⟨_, isOther, _⟩)
        · cases old
        · exact TerminalState.stage_injective (transaction.unique isOther).2
    · rw [if_neg isIt]
      refine ⟨Or.inl, fun known => known.resolve_right ?_⟩
      rintro ⟨found, isOther, namedOther⟩
      obtain rfl := (transaction.unique isOther).1
      exact isIt (Option.some.inj (named.symm.trans namedOther))
  · intro found member other otherTerminal isOther
    rcases mem_concat.mp member with earlier | last
    · exact reconciled.bound found earlier other otherTerminal isOther
    · rw [last] at isOther
      obtain rfl := (transaction.unique isOther).1
      exact ⟨attemptId, attempt, named, held, binds⟩
  · intro label
    rw [exists_mem_concat, ← reconciled.windows, accepts]
    refine or_congr_right ⟨?_, ?_⟩
    · rintro ⟨rfl, identity⟩
      exact ⟨record, transaction, identity⟩
    · rintro ⟨other, isOther, identity⟩
      obtain ⟨rfl, staged⟩ := transaction.unique isOther
      exact ⟨@TerminalState.stage_injective terminal .accepted staged, identity⟩
  · exact reconciled.numbering transaction numbered

theorem step (folded : Folded day state envelope next) :
    Reconciled day (seen ++ [envelope]) next := by
  cases folded with
  | skipped complete other => exact reconciled.skipping complete other
  | opened complete transaction numbered fresh =>
    exact reconciled.opening complete transaction numbered fresh
  | ended complete events windows transaction numbered named held binds isOpen accepts =>
    exact reconciled.ending complete events windows transaction numbered named held binds isOpen
      accepts

end

theorem run
    (done : each (reconcileEnvelope localDate day) Reconciliation.start envelopes = .ok state) :
    Reconciled day envelopes state :=
  each_trace (Reconciled day)
    (fun _ _ _ _ holds stepped => holds.step (reconcileEnvelope_eq_ok stepped)) start done

end Reconciled

/-! ## What the snapshot says -/

/-- The attempt has no terminal in the audit, or an uncertain one. -/
def Unknown (state : Reconciliation) (attemptId : String) : Prop :=
  state.terminalByAttempt.get? attemptId = none ∨
    state.terminalByAttempt.get? attemptId = some .uncertain

variable {closing : Closing}

theorem Closing.unknown_eq_ok {next : Closing}
    (done : closing.unknown record reservation = .ok next) :
    next.unresolved = closing.unresolved.insert reservation () ∧
      next.rejected = closing.rejected := by
  obtain ⟨identity, _, done⟩ := bind_eq_ok.mp done
  obtain rfl := pure_eq_ok.mp done
  exact ⟨rfl, rfl⟩

/-- The sets after the loop over a list of attempts. -/
structure Closed (state : Reconciliation) (attempts : List (String × PushRecord))
    (closing : Closing) : Prop where
  unresolved : ∀ reservation, closing.unresolved.contains reservation = true ↔
    ∃ attempt ∈ attempts, attempt.2.newsFlashReservationSha256 = some reservation ∧
      Unknown state attempt.1
  rejected : ∀ reservation, closing.rejected.contains reservation = true ↔
    ∃ attempt ∈ attempts, attempt.2.newsFlashReservationSha256 = some reservation ∧
      state.terminalByAttempt.get? attempt.1 = some .definitivelyRejected

theorem Closed.step {attempts : List (String × PushRecord)} {next : Closing}
    {attempt : String × PushRecord} (closed : Closed state attempts closing)
    (done : state.closeAttempt closing attempt = .ok next) :
    Closed state (attempts ++ [attempt]) next := by
  obtain ⟨reservation, reserved, done⟩ := bind_eq_ok.mp done
  rw [okOr_eq_ok] at reserved
  -- An attempt of unknown outcome adds its reservation to the unresolved ones.
  have unknown : Unknown state attempt.1 → closing.unknown attempt.2 reservation = .ok next →
      Closed state (attempts ++ [attempt]) next := by
    intro isUnknown done
    obtain ⟨unresolved, rejected⟩ := Closing.unknown_eq_ok done
    have notRejected : state.terminalByAttempt.get? attempt.1 ≠ some .definitivelyRejected := by
      rcases isUnknown with none | uncertain
      · simp [none]
      · simp [uncertain]
    constructor
    · intro other
      rw [unresolved, OrdMap.contains_insert, closed.unresolved]
      simp [or_and_right, exists_or, reserved, isUnknown, or_comm]
    · intro other
      rw [rejected, closed.rejected]
      simp [or_and_right, exists_or, notRejected]
  split at done
  · rename_i none
    exact unknown (Or.inl none) done
  · rename_i uncertain
    exact unknown (Or.inr uncertain) done
  · rename_i isRejected
    obtain rfl := pure_eq_ok.mp done
    constructor
    · intro other
      rw [closed.unresolved]
      simp [or_and_right, exists_or, Unknown, isRejected]
    · intro other
      rw [OrdMap.contains_insert, closed.rejected]
      simp [or_and_right, exists_or, reserved, isRejected, or_comm]
  · rename_i isAccepted
    obtain rfl := pure_eq_ok.mp done
    constructor
    · intro other
      rw [closed.unresolved]
      simp [or_and_right, exists_or, Unknown, isAccepted]
    · intro other
      rw [closed.rejected]
      simp [or_and_right, exists_or, isAccepted]

/-- The snapshot of a day says what the audit records: which windows were accepted, which
reservations have an attempt of unknown outcome, which were rejected, and how far the ordinals of
each reservation went. -/
structure Snapshotted (day : Day) (state : Reconciliation)
    (snapshot : NewsFlashAuthoritySnapshot) : Prop where
  date : snapshot.businessDate = day
  windows : snapshot.acceptedWindows = state.acceptedWindows
  ordinals : snapshot.nextAttemptOrdinals = state.nextAttemptOrdinals
  unresolved : ∀ reservation, snapshot.unresolvedReservations.contains reservation = true ↔
    ∃ attemptId record, state.attempts.get? attemptId = some record ∧
      record.newsFlashReservationSha256 = some reservation ∧ Unknown state attemptId
  rejected : ∀ reservation,
    snapshot.definitivelyRejectedReservations.contains reservation = true ↔
      (∃ attemptId record, state.attempts.get? attemptId = some record ∧
        record.newsFlashReservationSha256 = some reservation ∧
        state.terminalByAttempt.get? attemptId = some .definitivelyRejected) ∧
      ¬ snapshot.unresolvedReservations.contains reservation = true

theorem reconcile_eq_ok {snapshot : NewsFlashAuthoritySnapshot}
    (done : reconcileNewsFlashEnvelopes localDate envelopes day = .ok snapshot) :
    ∃ state, Reconciled day envelopes state ∧ Snapshotted day state snapshot := by
  obtain ⟨state, folded, done⟩ := bind_eq_ok.mp done
  refine ⟨state, Reconciled.run folded, ?_⟩
  obtain ⟨closing, looped, done⟩ := bind_eq_ok.mp done
  obtain rfl := pure_eq_ok.mp done
  have closed : Closed state ([] ++ state.attempts.entries) closing :=
    each_trace (Closed state) (fun _ _ _ _ holds stepped => holds.step stepped)
      ⟨by simp [OrdMap.contains], by simp [OrdMap.contains]⟩ looped
  rw [List.nil_append] at closed
  constructor
  · rfl
  · rfl
  · rfl
  · intro reservation
    rw [closed.unresolved]
    simp only [Prod.exists, OrdMap.get?_eq_some_iff]
  · intro reservation
    rw [OrdMap.contains_retain, closed.rejected]
    simp only [Prod.exists, OrdMap.get?_eq_some_iff, Bool.not_eq_true', Bool.not_eq_true]
    exact and_comm

end StockAnalysis.NewsFlash
