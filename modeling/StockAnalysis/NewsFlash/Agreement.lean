import StockAnalysis.NewsFlash.WindowReader
import StockAnalysis.NewsFlash.DayReader

/-!
# The two readers agree

Both readers walk the same audit, one with the ordered attempts of a window, the other with the sets
of a day. What each holds is described by the audit, so the attempts of the window and their
terminals are the same for both. Since all attempts of the window but the last were definitively
rejected, what the day's sets say about the window is what its last attempt says.
-/

namespace StockAnalysis.NewsFlash

/-! ## Labels -/

theorem stripHead_eq_some {head text rest : String} (stripped : stripHead head text = some rest) :
    text = head ++ rest := by
  unfold stripHead at stripped
  split at stripped
  · rename_i starts
    obtain ⟨tail, isTail⟩ := List.isPrefixOf_iff_prefix.mp starts
    obtain rfl := Option.some.inj stripped
    apply String.toList_injective
    rw [String.toList_append, String.toList_ofList, ← isTail, List.drop_left]
  · cases stripped

variable {window : NewsFlashWindow}

theorem NewsFlashWindow.parse_eq_ok {label : String}
    (parsed : NewsFlashWindow.parse label = .ok window) : label = window.label := by
  unfold parse at parsed
  split at parsed
  · cases parsed
    assumption
  · split at parsed
    · cases parsed
      assumption
    · split at parsed
      · cases parsed
        assumption
      · split at parsed
        · cases parsed
          assumption
        · cases parsed

variable {record : PushRecord}

/-- A record that accepts a window is an aggregate under the window's key. -/
theorem key_of_acceptedDecisionIdentity
    (accepts : acceptedDecisionIdentity record = .ok (.window window.label)) :
    record.newsFlashDecisionKey = some window.decisionKey := by
  obtain ⟨key, isKey, accepts⟩ := bind_eq_ok.mp accepts
  rw [okOr_eq_ok] at isKey
  split at accepts
  · simp only [bind_eq_ok, require_eq_ok, pure_eq_ok] at accepts
    obtain ⟨_, _, impossible⟩ := accepts
    cases impossible
  · split at accepts
    · simp only [bind_eq_ok, pure_eq_ok, AcceptedDecisionIdentity.window.injEq, exists_eq_right,
        acceptedWindowLabel, okOr_eq_ok] at accepts
      obtain ⟨label, stripped, found, parsed, sameLabel⟩ := accepts
      have same := NewsFlashWindow.label_injective sameLabel
      rw [isKey, stripHead_eq_some stripped, NewsFlashWindow.parse_eq_ok parsed, same]
      rfl
    · cases accepts

/-! ## The attempts of the window in both readers -/

variable {attemptId : String} {attempt : AttemptState} {day : Day} {envelopes : List EventEnvelope}
  {scan : WindowScan} {state : Reconciliation}

section Both

variable (delivered : ∀ envelope ∈ envelopes, envelope.Delivered day)
  (scanned : Scanned day window envelopes scan) (reconciled : Reconciled day envelopes state)
include delivered scanned reconciled

theorem attempts_of_scan (held : scan.attempts.get? attemptId = some attempt) :
    state.attempts.get? attemptId = some attempt.record := by
  obtain ⟨member, isId, read, isOf⟩ := scanned.recorded attemptId attempt held
  exact (reconciled.attempts attemptId attempt.record).mpr
    ⟨attempt.envelope, member, isId, .of_delivered (delivered _ member) read isOf⟩

/-- Both readers give an attempt of the window the same terminal. -/
theorem terminals_of_scan (held : scan.attempts.get? attemptId = some attempt) :
    state.terminalByAttempt.get? attemptId = attempt.terminal.map Prod.snd := by
  have isOf := (scanned.recorded attemptId attempt held).2.2.2
  have found := scanned.terminals attemptId attempt held
  cases isTerminal : attempt.terminal with
  | some terminal =>
    obtain ⟨envelope, ending⟩ := terminal
    rw [isTerminal] at found
    have member := List.mem_of_find?_eq_some found.symm
    obtain ⟨record, _, read, named, _⟩ := terminalOf_iff.mp (List.find?_some found.symm)
    obtain ⟨other, readOther, inStage, binds⟩ :=
      scanned.bound attemptId attempt envelope ending held isTerminal
    obtain rfl : record = other := Except.ok.inj (read.symm.trans readOther)
    exact (reconciled.terminals attemptId ending).mpr ⟨envelope, member, record,
      .of_delivered (delivered _ member) read (binds.isOf isOf inStage), named⟩
  | none =>
    rw [isTerminal] at found
    cases known : state.terminalByAttempt.get? attemptId with
    | none => rfl
    | some ending =>
      -- A terminal of the day that names the attempt repeats it, so it is one of the window.
      obtain ⟨envelope, member, record, transaction, named⟩ :=
        (reconciled.terminals attemptId ending).mp known
      obtain ⟨boundId, bound, isBound, isAttempt, binds⟩ :=
        reconciled.bound envelope member record ending transaction
      obtain rfl : attemptId = boundId := Option.some.inj (named.symm.trans isBound)
      rw [attempts_of_scan delivered scanned reconciled held] at isAttempt
      obtain rfl := Option.some.inj isAttempt
      have ends : terminalOf day window attemptId envelope = true :=
        terminalOf_iff.mpr ⟨record, ending, transaction.read, named,
          binds.isOf isOf transaction.inStage⟩
      exact absurd ends (List.find?_eq_none.mp found.symm envelope member)

omit delivered in
/-- An attempt of the day under the key of the window is held by the window's reader. -/
theorem scan_of_attempts (held : state.attempts.get? attemptId = some record)
    (keyed : record.newsFlashDecisionKey = some window.decisionKey) :
    ∃ attempt, scan.attempts.get? attemptId = some attempt := by
  obtain ⟨envelope, member, isId, transaction⟩ := (reconciled.attempts attemptId record).mp held
  obtain ⟨_, _, numbered, _⟩ := reconciled.numbered envelope member record _ transaction
  obtain ⟨identity, valid⟩ := numbered.identity
  have aggregated := (acceptedDecisionIdentity_window keyed valid).1
  have isAttempt : attemptOf day window envelope = true :=
    attemptOf_iff.mpr ⟨record, transaction.read, aggregated, transaction.date, keyed,
      transaction.inStage⟩
  rw [← scanned.listed, scanned.order]
  exact List.mem_map.mpr ⟨envelope, List.mem_filter.mpr ⟨member, isAttempt⟩, isId⟩

end Both

/-! ## Agreement -/

/-- The stage of the terminal that the window's reader answered with. -/
def NewsFlashWindowTerminalQuery.stage :
    NewsFlashWindowTerminalQuery → Option NewsFlashTransactionStage
  | .terminal found =>
    (PushRecord.tryFromAuthoritative found.terminal).toOption.bind PushRecord.stage
  | _ => none

/-- A reservation hash is used for only one decision key. -/
def OneKeyPerReservation (envelopes : List EventEnvelope) : Prop :=
  ∀ first ∈ envelopes, ∀ second ∈ envelopes, ∀ record other reservation key otherKey,
    PushRecord.tryFromAuthoritative first = .ok record →
    PushRecord.tryFromAuthoritative second = .ok other →
    record.newsFlashReservationSha256 = some reservation →
    other.newsFlashReservationSha256 = some reservation →
    record.newsFlashDecisionKey = some key → other.newsFlashDecisionKey = some otherKey →
    key = otherKey

/-- The reservation has an attempt of the window. -/
def ReservedFor (envelopes : List EventEnvelope) (day : Day) (window : NewsFlashWindow)
    (reservation : String) : Prop :=
  ∃ envelope ∈ envelopes, ∃ record, PushRecord.tryFromAuthoritative envelope = .ok record ∧
    record.Of day window .sinkAttempt ∧ record.newsFlashReservationSha256 = some reservation

/-- What the reader answers from its last attempt. -/
inductive Answered (scan : WindowScan) : NewsFlashWindowTerminalQuery → Prop where
  | missing (none : scan.attemptOrder.getLast? = none) : Answered scan .missing
  | pendingSeal {latestId : String} {latest : AttemptState}
      (last : scan.attemptOrder.getLast? = some latestId)
      (held : scan.attempts.get? latestId = some latest) (isOpen : latest.terminal = none) :
      Answered scan .pendingSeal
  | terminal {latestId : String} {latest : AttemptState} {envelope : EventEnvelope}
      {state : TerminalState} (last : scan.attemptOrder.getLast? = some latestId)
      (held : scan.attempts.get? latestId = some latest)
      (ended : latest.terminal = some (envelope, state)) :
      Answered scan (.terminal ⟨latest.envelope, envelope⟩)

variable {query : NewsFlashWindowTerminalQuery}

theorem WindowScan.answer_eq_ok (done : scan.answer = .ok query) : Answered scan query := by
  unfold answer at done
  split at done
  · rename_i none
    cases done
    exact .missing none
  · rename_i latestId last
    simp only [bind_eq_ok, require_eq_ok, okOr_eq_ok] at done
    obtain ⟨_, _, latest, held, done⟩ := done
    split at done
    · rename_i isOpen
      obtain rfl := pure_eq_ok.mp done
      exact .pendingSeal last held isOpen
    · rename_i terminal ended
      obtain rfl := pure_eq_ok.mp done
      exact .terminal last held ended

variable {envelope : EventEnvelope}

section Agree

/-- The stage of an answered terminal is the state that the reader holds. -/
theorem Scanned.stage_of_terminal (scanned : Scanned day window envelopes scan)
    {state : TerminalState} (held : scan.attempts.get? attemptId = some attempt)
    (ended : attempt.terminal = some (envelope, state)) (first : EventEnvelope) :
    (NewsFlashWindowTerminalQuery.terminal ⟨first, envelope⟩).stage = some state.stage := by
  obtain ⟨record, read, inStage, _⟩ := scanned.bound attemptId attempt envelope state held ended
  simp [NewsFlashWindowTerminalQuery.stage, read, Except.toOption, inStage]

/-- An attempt that was not rejected is the one that the answer is about. -/
theorem Answered.of_not_rejected (answered : Answered scan query)
    (scanned : Scanned day window envelopes scan)
    (held : scan.attempts.get? attemptId = some attempt)
    (notRejected : attempt.terminal.map Prod.snd ≠ some .definitivelyRejected) :
    (attempt.terminal = none ∧ query = .pendingSeal) ∨
      ∃ envelope state, attempt.terminal = some (envelope, state) ∧
        query = .terminal ⟨attempt.envelope, envelope⟩ ∧ query.stage = some state.stage := by
  cases answered with
  | missing none =>
    have listed := (scanned.listed attemptId).mpr ⟨attempt, held⟩
    rw [List.getLast?_eq_none_iff.mp none] at listed
    cases listed
  | pendingSeal last isHeld isOpen =>
    obtain rfl := scanned.last_of_not_rejected held notRejected last
    obtain rfl := Option.some.inj (held.symm.trans isHeld)
    exact Or.inl ⟨isOpen, rfl⟩
  | terminal last isHeld ended =>
    obtain rfl := scanned.last_of_not_rejected held notRejected last
    obtain rfl := Option.some.inj (held.symm.trans isHeld)
    exact Or.inr ⟨_, _, ended, rfl, scanned.stage_of_terminal held ended _⟩

variable {snapshot : NewsFlashAuthoritySnapshot}
  (delivered : ∀ envelope ∈ envelopes, envelope.Delivered day)
  (scanned : Scanned day window envelopes scan) (answered : Answered scan query)
  (reconciled : Reconciled day envelopes state) (snapshotted : Snapshotted day state snapshot)
include delivered scanned answered reconciled snapshotted

theorem accepted_iff : query.stage = some .accepted ↔
    snapshot.acceptedWindows.contains window.label = true := by
  rw [snapshotted.windows, reconciled.windows]
  constructor
  · intro inStage
    cases answered with
    | missing _ => cases inStage
    | pendingSeal _ _ _ => cases inStage
    | @terminal latestId latest envelope ending _ held ended =>
      obtain ⟨record, read, staged, binds⟩ := scanned.bound latestId latest envelope ending held ended
      have isEnding := scanned.stage_of_terminal held ended latest.envelope
      rw [inStage, Option.some.injEq] at isEnding
      rw [← isEnding] at staged
      have isOf := binds.isOf (scanned.recorded latestId latest held).2.2.2 staged
      have found := scanned.terminals latestId latest held
      rw [ended] at found
      have member := List.mem_of_find?_eq_some found.symm
      exact ⟨envelope, member, record, .of_delivered (delivered _ member) read isOf,
        acceptedDecisionIdentity_eq isOf.2.2.1 isOf.1⟩
  · rintro ⟨envelope, member, record, transaction, identity⟩
    obtain ⟨attemptId, attempt, named, isAttempt, binds⟩ :=
      reconciled.bound envelope member record .accepted transaction
    have keyed := binds.key.trans (key_of_acceptedDecisionIdentity identity)
    obtain ⟨held, isHeld⟩ := scan_of_attempts scanned reconciled isAttempt keyed
    have ended := terminals_of_scan delivered scanned reconciled isHeld
    rw [(reconciled.terminals attemptId .accepted).mpr
      ⟨envelope, member, record, transaction, named⟩] at ended
    have notRejected : held.terminal.map Prod.snd ≠ some .definitivelyRejected := by
      simp [← ended]
    rcases answered.of_not_rejected scanned isHeld notRejected with
      ⟨isOpen, _⟩ | ⟨_, ending, isTerminal, _, inStage⟩
    · simp [isOpen] at ended
    · simp only [isTerminal, Option.map_some, Option.some.injEq] at ended
      rw [inStage, ← ended]
      rfl

omit answered in
/-- An unresolved reservation of the window has an attempt of unknown outcome there. -/
theorem unknown_of_unresolved (oneKey : OneKeyPerReservation envelopes) {reservation : String}
    (reservedFor : ReservedFor envelopes day window reservation)
    (unresolved : snapshot.unresolvedReservations.contains reservation = true) :
    ∃ attemptId attempt, scan.attempts.get? attemptId = some attempt ∧
      (attempt.terminal = none ∨ attempt.terminal.map Prod.snd = some .uncertain) := by
  obtain ⟨envelope, member, record, read, isOf, reserved⟩ := reservedFor
  obtain ⟨attemptId, other, isAttempt, otherReserved, unknown⟩ :=
    (snapshotted.unresolved reservation).mp unresolved
  obtain ⟨otherEnvelope, otherMember, _, transaction⟩ :=
    (reconciled.attempts attemptId other).mp isAttempt
  obtain ⟨_, _, numbered, _⟩ :=
    reconciled.numbered otherEnvelope otherMember other _ transaction
  obtain ⟨_, valid⟩ := numbered.identity
  obtain ⟨key, isKey, _⟩ := bind_eq_ok.mp valid
  rw [okOr_eq_ok] at isKey
  have same := oneKey envelope member otherEnvelope otherMember record other reservation _ key read
    transaction.read reserved otherReserved isOf.2.2.1 isKey
  obtain ⟨attempt, held⟩ := scan_of_attempts scanned reconciled isAttempt (same ▸ isKey)
  refine ⟨attemptId, attempt, held, ?_⟩
  have ended := terminals_of_scan delivered scanned reconciled held
  rcases unknown with none | uncertain
  · rw [none] at ended
    exact Or.inl (Option.map_eq_none_iff.mp ended.symm)
  · rw [uncertain] at ended
    exact Or.inr ended.symm

omit answered in
/-- An attempt of unknown outcome makes the reservation of the window unresolved. -/
theorem unresolved_of_unknown (held : scan.attempts.get? attemptId = some attempt)
    (unknown : attempt.terminal = none ∨ attempt.terminal.map Prod.snd = some .uncertain) :
    ∃ reservation, ReservedFor envelopes day window reservation ∧
      snapshot.unresolvedReservations.contains reservation = true := by
  obtain ⟨member, _, read, isOf⟩ := scanned.recorded attemptId attempt held
  obtain ⟨reservation, _, reserved⟩ := scanned.reserved attemptId attempt held
  have ended := terminals_of_scan delivered scanned reconciled held
  refine ⟨reservation, ⟨attempt.envelope, member, attempt.record, read, isOf, reserved⟩, ?_⟩
  refine (snapshotted.unresolved reservation).mpr ⟨attemptId, attempt.record,
    attempts_of_scan delivered scanned reconciled held, reserved, ?_⟩
  rcases unknown with none | uncertain
  · exact Or.inl (by rw [ended, none]; rfl)
  · exact Or.inr (ended.trans uncertain)

theorem unresolved_iff (oneKey : OneKeyPerReservation envelopes) :
    (query = .pendingSeal ∨ query.stage = some .uncertain) ↔
      ∃ reservation, ReservedFor envelopes day window reservation ∧
        snapshot.unresolvedReservations.contains reservation = true := by
  constructor
  · intro undecided
    cases answered with
    | missing _ => rcases undecided with equal | inStage <;> contradiction
    | pendingSeal _ held isOpen =>
      exact unresolved_of_unknown delivered scanned reconciled snapshotted held (Or.inl isOpen)
    | @terminal latestId latest envelope ending _ held ended =>
      have inStage := undecided.resolve_left nofun
      rw [scanned.stage_of_terminal held ended, Option.some.injEq] at inStage
      have uncertain : ending = .uncertain := @TerminalState.stage_injective ending .uncertain inStage
      exact unresolved_of_unknown delivered scanned reconciled snapshotted held
        (Or.inr (by rw [ended, uncertain]; rfl))
  · rintro ⟨reservation, reservedFor, unresolved⟩
    obtain ⟨attemptId, attempt, held, unknown⟩ := unknown_of_unresolved delivered scanned reconciled
      snapshotted oneKey reservedFor unresolved
    have notRejected : attempt.terminal.map Prod.snd ≠ some .definitivelyRejected := by
      rcases unknown with none | uncertain
      · simp [none]
      · simp [uncertain]
    rcases answered.of_not_rejected scanned held notRejected with
      ⟨_, isPending⟩ | ⟨_, ending, isTerminal, _, inStage⟩
    · exact Or.inl isPending
    · right
      simp only [isTerminal, Option.map_some, Option.some.injEq, reduceCtorEq, false_or] at unknown
      rw [inStage, unknown]
      rfl

theorem rejected_reservation (oneKey : OneKeyPerReservation envelopes)
    {found : NewsFlashWindowTerminalRecord} (isTerminal : query = .terminal found)
    (inStage : query.stage = some .definitivelyRejected) :
    ∃ record reservation, found.terminal.Reads record ∧
      record.newsFlashReservationSha256 = some reservation ∧
      snapshot.definitivelyRejectedReservations.contains reservation = true ∧
      ¬ snapshot.unresolvedReservations.contains reservation = true := by
  -- If the reservation were unresolved, the answer would not be a rejection.
  have resolved : ∀ reservation, ReservedFor envelopes day window reservation →
      ¬ snapshot.unresolvedReservations.contains reservation = true := by
    intro reservation reservedFor unresolved
    rcases (unresolved_iff delivered scanned answered reconciled snapshotted oneKey).mpr
      ⟨reservation, reservedFor, unresolved⟩ with pending | uncertain
    · rw [isTerminal] at pending
      cases pending
    · rw [inStage] at uncertain
      cases uncertain
  subst isTerminal
  cases answered with
  | @terminal latestId latest envelope ending _ held ended =>
    obtain ⟨member, _, readAttempt, isOf⟩ := scanned.recorded latestId latest held
    obtain ⟨reservation, _, reserved⟩ := scanned.reserved latestId latest held
    obtain ⟨record, read, _, binds⟩ := scanned.bound latestId latest envelope ending held ended
    rw [scanned.stage_of_terminal held ended, Option.some.injEq] at inStage
    have rejected : ending = .definitivelyRejected :=
      @TerminalState.stage_injective ending .definitivelyRejected inStage
    have unresolved := resolved reservation
      ⟨latest.envelope, member, latest.record, readAttempt, isOf, reserved⟩
    refine ⟨record, reservation, read, binds.reservation.symm.trans reserved, ?_, unresolved⟩
    refine (snapshotted.rejected reservation).mpr ⟨⟨latestId, latest.record,
      attempts_of_scan delivered scanned reconciled held, reserved, ?_⟩, unresolved⟩
    rw [terminals_of_scan delivered scanned reconciled held, ended, rejected]
    rfl

omit answered in
/-- Every attempt of the window has a smaller ordinal than the next one of its reservation. -/
theorem ordinal_lt_next {reservation : String}
    (reservedFor : ReservedFor envelopes day window reservation) {ordinal : Nat}
    (member : envelope ∈ envelopes) (read : envelope.Reads record)
    (isOf : record.Of day window .sinkAttempt)
    (isOrdinal : record.newsFlashAttemptOrdinal = some ordinal) :
    ordinal < snapshot.nextAttemptOrdinal reservation := by
  have held : ∀ found ∈ envelopes, ∀ other, found.Reads other →
      other.Of day window .sinkAttempt → other.newsFlashReservationSha256 = scan.reservation := by
    intro found foundMember other readOther otherOf
    have transaction := Transaction.of_delivered (delivered _ foundMember) readOther otherOf
    have isAttempt := (reconciled.attempts found.id other).mpr ⟨found, foundMember, rfl, transaction⟩
    obtain ⟨attempt, isHeld⟩ := scan_of_attempts scanned reconciled isAttempt otherOf.2.2.1
    rw [attempts_of_scan delivered scanned reconciled isHeld, Option.some.injEq] at isAttempt
    obtain ⟨_, isReservation, reserved⟩ := scanned.reserved found.id attempt isHeld
    rw [← isAttempt, reserved, isReservation]
  obtain ⟨first, firstMember, firstRecord, readFirst, firstOf, reserved⟩ := reservedFor
  have same := (held first firstMember firstRecord readFirst firstOf).symm.trans reserved
  obtain ⟨_, _, numbered, next, isNext, below⟩ := reconciled.numbered envelope member record _
    (.of_delivered (delivered _ member) read isOf)
  have isReservation := (held envelope member record read isOf).trans same
  obtain rfl := Option.some.inj (numbered.reserved.symm.trans isReservation)
  obtain rfl := Option.some.inj (numbered.numbered.symm.trans isOrdinal)
  simpa [NewsFlashAuthoritySnapshot.nextAttemptOrdinal, snapshotted.ordinals, isNext] using below

end Agree

/-- On every audit that both readers accept, the answer about a window and the snapshot of the day
say the same: the window was accepted exactly if its terminal is; its outcome is unknown exactly if
an unresolved reservation has an attempt of the window; a rejected terminal belongs to a rejected
reservation; and the next ordinal of the reservation is past every attempt. -/
theorem readers_agree {localDate : Instant → Day} {envelopes : List EventEnvelope} {day : Day}
    {window : NewsFlashWindow} {query : NewsFlashWindowTerminalQuery}
    {snapshot : NewsFlashAuthoritySnapshot}
    (delivered : ∀ envelope ∈ envelopes, envelope.Delivered day)
    (oneKey : OneKeyPerReservation envelopes)
    (requeried : requeryNewsFlashWindowTerminalFromEnvelopes envelopes day window = .ok query)
    (reconciled : reconcileNewsFlashEnvelopes localDate envelopes day = .ok snapshot) :
    (query.stage = some .accepted ↔ snapshot.acceptedWindows.contains window.label = true) ∧
    ((query = .pendingSeal ∨ query.stage = some .uncertain) ↔
      ∃ reservation, ReservedFor envelopes day window reservation ∧
        snapshot.unresolvedReservations.contains reservation = true) ∧
    (∀ found, query = .terminal found → query.stage = some .definitivelyRejected →
      ∃ record reservation, PushRecord.tryFromAuthoritative found.terminal = .ok record ∧
        record.newsFlashReservationSha256 = some reservation ∧
        snapshot.definitivelyRejectedReservations.contains reservation = true ∧
        ¬ snapshot.unresolvedReservations.contains reservation = true) ∧
    (∀ reservation, ReservedFor envelopes day window reservation →
      ∀ envelope ∈ envelopes, ∀ record ordinal,
        PushRecord.tryFromAuthoritative envelope = .ok record →
        record.Of day window .sinkAttempt → record.newsFlashAttemptOrdinal = some ordinal →
        ordinal < snapshot.nextAttemptOrdinal reservation) := by
  obtain ⟨scan, looped, answer⟩ := bind_eq_ok.mp requeried
  have scanned := Scanned.run delivered looped
  have answered := WindowScan.answer_eq_ok answer
  obtain ⟨state, folded, snapshotted⟩ := reconcile_eq_ok reconciled
  constructor
  · exact accepted_iff delivered scanned answered folded snapshotted
  constructor
  · exact unresolved_iff delivered scanned answered folded snapshotted oneKey
  constructor
  · intro found isTerminal inStage
    exact rejected_reservation delivered scanned answered folded snapshotted oneKey isTerminal inStage
  · intro reservation reservedFor envelope member record ordinal read isOf isOrdinal
    exact ordinal_lt_next delivered scanned folded snapshotted reservedFor member read isOf isOrdinal

/-- A record of the morning window, under one reservation. -/
def sampleRecord (stage : NewsFlashTransactionStage) (ordinal : Nat) (attemptId : Option String) :
    PushRecord :=
  { kind := aggregatedKind
    ts := 0
    channel := "magiclaw"
    renderedLen := 40
    auditSchemaVersion := some newsFlashDeliveryAuditSchemaVersion
    newsFlashSources := some []
    newsFlashReservationSha256 := some "reservation"
    newsFlashEvidenceSha256 := some "evidence"
    newsFlashRenderSha256 := some "render"
    newsFlashBusinessDate := some 20
    newsFlashDecisionKey := some NewsFlashWindow.h0930.decisionKey
    newsFlashTransactionStage := some stage.asStr
    newsFlashAttemptOrdinal := some ordinal
    newsFlashAttemptObservedAt := some 0
    newsFlashSinkAttemptIdentity := some "identity"
    newsFlashSinkAttemptSha256 := some "attempt"
    newsFlashAttemptEnvelopeId := attemptId }

/-- A rejected attempt, and a second one that was accepted. -/
def sampleAudit : List EventEnvelope :=
  [.ofRecord "a1" (sampleRecord .sinkAttempt 1 none),
    .ofRecord "t1" (sampleRecord .definitivelyRejected 1 (some "a1")),
    .ofRecord "a2" (sampleRecord .sinkAttempt 2 none),
    .ofRecord "t2" (sampleRecord .accepted 2 (some "a2"))]

theorem sampleAudit_record (member : envelope ∈ sampleAudit) :
    ∃ stage ordinal attemptId, envelope.parsed = .ok (sampleRecord stage ordinal attemptId) ∧
      envelope.schemaVersion = some newsFlashDeliveryAuditSchemaVersion := by
  simp only [sampleAudit, List.mem_cons, List.not_mem_nil, or_false] at member
  rcases member with rfl | rfl | rfl | rfl <;> exact ⟨_, _, _, rfl, rfl⟩

theorem sampleAudit_key (member : envelope ∈ sampleAudit) (read : envelope.Reads record) :
    record.newsFlashDecisionKey = some NewsFlashWindow.h0930.decisionKey := by
  obtain ⟨stage, ordinal, attemptId, parsed, _⟩ := sampleAudit_record member
  simp only [EventEnvelope.Reads, PushRecord.tryFromAuthoritative, parsed, ok_bind, bind_eq_ok,
    pure_eq_ok] at read
  obtain ⟨_, _, rfl⟩ := read
  rfl

/-- The morning window of the sample was accepted for both readers. -/
theorem readers_agree_sample : ∃ query snapshot,
    requeryNewsFlashWindowTerminalFromEnvelopes sampleAudit 20 .h0930 = .ok query ∧
    reconcileNewsFlashEnvelopes (fun _ => 20) sampleAudit 20 = .ok snapshot ∧
    snapshot.acceptedWindows.contains NewsFlashWindow.h0930.label = true ∧
    query.stage = some .accepted := by
  have delivered : ∀ envelope ∈ sampleAudit, envelope.Delivered 20 := by
    intro envelope member _ _ _ _
    obtain ⟨_, _, _, _, version⟩ := sampleAudit_record member
    exact version
  have oneKey : OneKeyPerReservation sampleAudit := by
    intro first isFirst second isSecond record other _ key otherKey readFirst readSecond _ _ isKey
      isOtherKey
    rw [sampleAudit_key isFirst readFirst] at isKey
    rw [sampleAudit_key isSecond readSecond] at isOtherKey
    exact Option.some.inj (isKey.symm.trans isOtherKey)
  have accepted : ((reconcileNewsFlashEnvelopes (fun _ => 20) sampleAudit 20).toOption.any
      fun snapshot => snapshot.acceptedWindows.contains NewsFlashWindow.h0930.label) = true := by
    decide +kernel
  have answers : (requeryNewsFlashWindowTerminalFromEnvelopes sampleAudit 20 .h0930).toOption.isSome
      = true := by
    decide +kernel
  cases requeried : requeryNewsFlashWindowTerminalFromEnvelopes sampleAudit 20 .h0930 with
  | error reason => simp [requeried, Except.toOption] at answers
  | ok query =>
    cases reconciled : reconcileNewsFlashEnvelopes (fun _ => 20) sampleAudit 20 with
    | error reason => simp [reconciled, Except.toOption] at accepted
    | ok snapshot =>
      simp only [reconciled, Except.toOption, Option.any_some] at accepted
      have agree := readers_agree delivered oneKey requeried reconciled
      exact ⟨query, snapshot, rfl, rfl, accepted, agree.1.mpr accepted⟩

end StockAnalysis.NewsFlash
