import StockAnalysis.NewsFlash.Agreement
import StockAnalysis.NewsFlash.Safety

/-!
# Which histories of the gate the window's reader accepts

The reader of a window wants all its attempts under one reservation. The gate identifies a
reservation by the three strongest events of its buffer, which may change between a rejected attempt
and its retry: then the retry is recorded under another reservation, and the reader refuses the
audit from there on (`changed_retry_unreadable`). As long as every attempt of a window is recorded
under the reservation of the attempts before it, the reader accepts the audit in every state, and
answers with the last attempt of the window and its terminal (`steady_history_readable`).
-/

namespace StockAnalysis.NewsFlash

/-! ## What the reader should answer -/

/-- The last attempt of the window in the audit, with its terminal. -/
def latestOutcome (day : Day) (window : NewsFlashWindow) (audit : List EventEnvelope) :
    NewsFlashWindowTerminalQuery :=
  match (audit.filter (attemptOf day window)).getLast? with
  | none => .missing
  | some attempt =>
    match audit.find? (terminalOf day window attempt.id) with
    | none => .pendingSeal
    | some terminal => .terminal ⟨attempt, terminal⟩

variable {audit : List EventEnvelope} {other : NewsFlashWindow}
  {snapshot : NewsFlashAuthoritySnapshot} {gate : NewsFlashGate} {reservation : FlashReservation}
  {day : Day} {window : NewsFlashWindow} {scan : WindowScan}

/-- Only the last attempt can be accepted. -/
theorem Scanned.acceptedCount_le_one (scanned : Scanned day window audit scan)
    (nonempty : scan.attemptOrder ≠ []) :
    scan.acceptedCount ≤ 1 := by
  unfold WindowScan.acceptedCount
  rw [← List.dropLast_append_getLast nonempty, List.countP_append]
  have none : scan.attemptOrder.dropLast.countP (fun attemptId =>
      ((scan.attempts.get? attemptId).bind AttemptState.terminal).any fun terminal =>
        terminal.2 = .accepted) = 0 := by
    rw [List.countP_eq_zero]
    intro attemptId earlier
    obtain ⟨attempt, held, rejected⟩ := scanned.settled attemptId earlier
    obtain ⟨terminal, isTerminal, isRejected⟩ := Option.map_eq_some_iff.mp rejected
    simp [held, isTerminal, isRejected]
  rw [none, Nat.zero_add]
  exact List.countP_le_length

/-- Whatever audit the loop accepts, the answer is about the last attempt. -/
theorem Scanned.answer_eq (scanned : Scanned day window audit scan) :
    scan.answer = .ok (latestOutcome day window audit) := by
  have order := congrArg List.getLast? scanned.order
  rw [List.getLast?_map] at order
  unfold WindowScan.answer latestOutcome
  cases last : (audit.filter (attemptOf day window)).getLast? with
  | none => simp [order, last]
  | some attempt =>
    rw [last, Option.map_some] at order
    have listed := List.mem_filter.mp (List.mem_of_getLast? last)
    obtain ⟨held, isHeld, rfl⟩ := scanned.covered attempt listed.1 listed.2
    have nonempty : scan.attemptOrder ≠ [] := by
      intro isNil
      rw [isNil] at order
      cases order
    have terminals := scanned.terminals held.envelope.id held isHeld
    simp only [order, require_pos (scanned.acceptedCount_le_one nonempty), ok_bind, isHeld, okOr]
    cases isTerminal : held.terminal with
    | none =>
      rw [isTerminal] at terminals
      simp [← terminals, pure, Except.pure]
    | some terminal =>
      rw [isTerminal] at terminals
      simp [← terminals, pure, Except.pure]

/-! ## Steady histories -/

/-- An attempt is recorded under the reservation of the window's attempts before it. This is what the
window's reader asks of a history; `steady_of_unchanged` ties it to the buffer of the gate. -/
def Steady (day : Day) (world : World) : Action → Prop
  | .attempt tokenId _ _ _ => ∀ held ∈ world.live, held.reservation.tokenId = tokenId →
      ∀ window : NewsFlashWindow, held.reservation.decisionKey = window.decisionKey →
      ∀ envelope ∈ world.audit, attemptOf day window envelope = true →
        envelope.holds (fun record => record.newsFlashReservationSha256 =
          some held.reservation.reservationIdentitySha256) = true
  | _ => True

instance (day : Day) (world : World) : ∀ action, Decidable (Steady day world action)
  | .attempt _ _ _ _ => inferInstanceAs (Decidable (∀ held ∈ world.live, _ → _))
  | .tick _ _ | .terminal _ _ _ | .settle _ | .rollBack _ _ | .uncertain _ _ | .restart _ =>
    isTrue trivial

/-- The reservation to be attempted renders the top three of a buffer, and every attempt of its
window in the audit was made under a reservation that rendered the same three on that day. -/
def Unchanged (host : Host) (day : Day) (world : World) : Action → Prop
  | .attempt tokenId _ _ _ => ∀ held ∈ world.live, held.reservation.tokenId = tokenId →
      ∃ (gate : NewsFlashGate) (index : Fin 4),
        held.reservation = gate.windowReservation host index ∧
        ∀ envelope ∈ world.audit, attemptOf day (gateWindow index) envelope = true →
          ∃ (earlier : NewsFlashGate) (channel : String) (observedAt ts : Instant),
            earlier.day = gate.day ∧
            NewsFlashGate.topThree earlier.buffer = NewsFlashGate.topThree gate.buffer ∧
            envelope = attemptEnvelope host
              ((earlier.windowReservation host index).attemptInput channel observedAt) ts
  | _ => True

/-- While the rendered top three of a window stay the same, its retries keep the reservation: the
digests are functions of what is rendered. -/
theorem steady_of_unchanged {host : Host} {day : Day} {world : World} {action : Action}
    (unchanged : Unchanged host day world action) : Steady day world action := by
  cases action with
  | attempt tokenId channel observedAt ts =>
    intro held member token window keyed envelope listed isAttempt
    obtain ⟨gate, index, isReservation, rendered⟩ := unchanged held member token
    obtain rfl : gateWindow index = window := by
      apply NewsFlashWindow.decisionKey_injective
      rw [← keyed, isReservation, NewsFlashGate.windowReservation_decisionKey]
    obtain ⟨earlier, channel, observedAt, ts, day, same, rfl⟩ := rendered envelope listed isAttempt
    refine EventEnvelope.holds_iff.mpr ⟨_, read_attemptEnvelope host _ ts, ?_⟩
    rw [isReservation, NewsFlashGate.windowReservation_identity day.symm same.symm]
    exact decide_eq_true rfl
  | tick | terminal | settle | rollBack | uncertain | restart => trivial

/-- The reservation may be attempted: the attempts made under it were rejected, with smaller
ordinals. -/
def Ready (scan : WindowScan) (reservation : FlashReservation) : Prop :=
  reservation.attemptOrdinal ≠ 0 ∧
  ∀ attemptId attempt, scan.attempts.get? attemptId = some attempt →
    attempt.record.newsFlashReservationSha256 = some reservation.reservationIdentitySha256 →
    attempt.terminal.map Prod.snd = some .definitivelyRejected ∧
    ∃ ordinal, attempt.record.newsFlashAttemptOrdinal = some ordinal ∧
      ordinal < reservation.attemptOrdinal

/-- What the reader of a window holds for the reservation that the process holds. -/
structure Followed (host : Host) (window : NewsFlashWindow) (world : World) (scan : WindowScan) :
    Prop where
  ready : ∀ held ∈ world.live, held.reservation.decisionKey = window.decisionKey →
    held.attempt = none → Ready scan held.reservation
  pending : ∀ held ∈ world.live, held.reservation.decisionKey = window.decisionKey →
    ∀ receipt, held.attempt = some receipt → held.terminal = none → ∃ attempt input ts,
      scan.attempts.get? receipt.envelopeId = some attempt ∧ attempt.terminal = none ∧
      attempt.record = attemptRecord host input ts ∧ receipt = attemptReceipt host input ts

/-- The reader of every window accepts the audit. -/
structure Readable (host : Host) (day : Day) (world : World) : Prop where
  scans : ∀ window, ∃ scan,
    each (requeryEnvelope day window) WindowScan.start world.audit = .ok scan ∧
    Followed host window world scan
  /-- No id stands for two attempts of the day. -/
  unique : ∀ first ∈ world.audit, ∀ second ∈ world.audit, ∀ window other,
    attemptOf day window first = true → attemptOf day other second = true →
    first.id = second.id → first = second

/-- An attempt is one of a single window. -/
theorem attemptOf_window {envelope : EventEnvelope}
    (isAttempt : attemptOf day window envelope = true)
    (isOther : attemptOf day other envelope = true) : window = other := by
  obtain ⟨record, read, isOf⟩ := attemptOf_iff.mp isAttempt
  obtain ⟨again, readAgain, otherOf⟩ := attemptOf_iff.mp isOther
  obtain rfl : record = again := Except.ok.inj (read.symm.trans readAgain)
  exact NewsFlashWindow.decisionKey_injective
    (Option.some.inj (isOf.2.2.1.symm.trans otherOf.2.2.1))

/-! ## Retries -/

theorem get?_foldl_ordinals (next : String → Nat) (reservations : List String)
    (start : OrdMap String Nat) (reservation : String) :
    (reservations.foldl (fun ordinals key => ordinals.insert key (next key)) start).get? reservation =
      if reservation ∈ reservations then some (next reservation) else start.get? reservation := by
  induction reservations generalizing start with
  | nil => simp
  | cons key reservations ih =>
    rw [List.foldl_cons, ih, OrdMap.get?_insert]
    by_cases later : reservation ∈ reservations
    · simp [later]
    · by_cases same : key = reservation
      · simp [same]
      · simp [later, same, Ne.symm same]

theorem recoverOrdinals_get? (snapshot : NewsFlashAuthoritySnapshot) (reservation : String) :
    (NewsFlashGate.recoverOrdinals snapshot).get? reservation =
      if snapshot.unresolvedReservations.contains reservation = true ∨
          snapshot.definitivelyRejectedReservations.contains reservation = true then
        some (snapshot.nextAttemptOrdinal reservation)
      else none := by
  have listed : reservation ∈
      snapshot.unresolvedReservations.keys ++ snapshot.definitivelyRejectedReservations.keys ↔
      snapshot.unresolvedReservations.contains reservation = true ∨
        snapshot.definitivelyRejectedReservations.contains reservation = true := by
    rw [List.mem_append, OrdMap.mem_keys_iff, OrdMap.mem_keys_iff, OrdMap.contains_iff,
      OrdMap.contains_iff]
  rw [NewsFlashGate.recoverOrdinals, get?_foldl_ordinals]
  by_cases known : reservation ∈
      snapshot.unresolvedReservations.keys ++ snapshot.definitivelyRejectedReservations.keys
  · rw [if_pos known, if_pos (listed.mp known)]
  · rw [if_neg known, if_neg fun holds => known (listed.mpr holds)]
    rfl

/-- The next ordinal of a reservation is past the ordinal of every attempt under it. -/
theorem Snapshotted.ordinal_lt {state : Reconciliation}
    (snapshotted : Snapshotted day state snapshot) (reconciled : Reconciled day audit state)
    {attemptId reservation : String} {record : PushRecord}
    (held : state.attempts.get? attemptId = some record)
    (reserved : record.newsFlashReservationSha256 = some reservation) :
    ∃ ordinal, record.newsFlashAttemptOrdinal = some ordinal ∧
      ordinal < snapshot.nextAttemptOrdinal reservation := by
  obtain ⟨envelope, member, _, transaction⟩ := (reconciled.attempts attemptId record).mp held
  obtain ⟨_, ordinal, numbered, next, isNext, below⟩ :=
    reconciled.numbered envelope member record _ transaction
  obtain rfl := Option.some.inj (numbered.reserved.symm.trans reserved)
  refine ⟨ordinal, numbered.numbered, ?_⟩
  simpa [NewsFlashAuthoritySnapshot.nextAttemptOrdinal, snapshotted.ordinals, isNext] using below

variable {issued : List FlashReservation} {host : Host} {world : World}

/-- A reservation that a tick issues is ready in the audit that the tick read. -/
theorem ready_of_ticked (going : Going host day world)
    (scanned : Scanned day window world.audit scan)
    (reconciled : reconcileNewsFlashEnvelopes host.localDate world.audit day = .ok snapshot)
    (ticked : NewsFlashGate.Ticked snapshot world.gate gate issued)
    (isIssued : reservation ∈ issued) (keyed : reservation.decisionKey = window.decisionKey) :
    Ready scan reservation := by
  obtain ⟨state, folded, snapshotted⟩ := reconcile_eq_ok reconciled
  obtain ⟨index, key, _, _, notAccepted, resolved, isOrdinal, _⟩ :=
    ticked.reservations reservation isIssued
  have sameWindow : window = gateWindow index :=
    NewsFlashWindow.decisionKey_injective (keyed.symm.trans key)
  rw [← sameWindow] at notAccepted
  rw [recoverOrdinals_get?] at isOrdinal
  constructor
  · rw [isOrdinal]
    split
    · rename_i known
      obtain ⟨⟨attemptId, record, held, reserved, _⟩, _⟩ :=
        (snapshotted.rejected _).mp (known.resolve_left resolved)
      obtain ⟨ordinal, _, below⟩ := snapshotted.ordinal_lt folded held reserved
      exact Nat.ne_of_gt (Nat.lt_of_le_of_lt (Nat.zero_le ordinal) below)
    · exact one_ne_zero
  · intro attemptId attempt held reserved
    have inState := attempts_of_scan going.delivered scanned folded held
    have ended := terminals_of_scan going.delivered scanned folded held
    -- The attempt is not of unknown outcome, and its window was not accepted.
    have rejected : attempt.terminal.map Prod.snd = some .definitivelyRejected := by
      cases isTerminal : attempt.terminal with
      | none =>
        rw [isTerminal] at ended
        exact absurd ((snapshotted.unresolved _).mpr
          ⟨attemptId, attempt.record, inState, reserved, Or.inl ended⟩) resolved
      | some terminal =>
        obtain ⟨envelope, ending⟩ := terminal
        rw [isTerminal] at ended
        cases ending with
        | definitivelyRejected => rfl
        | uncertain =>
          exact absurd ((snapshotted.unresolved _).mpr
            ⟨attemptId, attempt.record, inState, reserved, Or.inr ended⟩) resolved
        | accepted =>
          obtain ⟨record, read, inStage, binds⟩ :=
            scanned.bound attemptId attempt envelope .accepted held isTerminal
          have isOf := binds.isOf (scanned.recorded attemptId attempt held).2.2.2 inStage
          have found := scanned.terminals attemptId attempt held
          rw [isTerminal] at found
          exact absurd (accepted_of_reconcile going.delivered reconciled
            (List.mem_of_find?_eq_some found.symm) (acceptedFor_iff.mpr ⟨record, read, isOf⟩))
            notAccepted
    refine ⟨rejected, ?_⟩
    rw [rejected] at ended
    have isRejected := (snapshotted.rejected _).mpr
      ⟨⟨attemptId, attempt.record, inState, reserved, ended⟩, resolved⟩
    obtain ⟨ordinal, numbered, below⟩ := snapshotted.ordinal_lt folded inState reserved
    refine ⟨ordinal, numbered, ?_⟩
    rw [isOrdinal, if_pos (Or.inr isRejected)]
    exact below

/-! ## What the reader does with what the process appends -/

variable {input : NewsFlashAttemptAuditInput} {ts : Instant} {channel : String}
  {observedAt attemptTs : Instant}

section Appending

theorem attemptRecord_isOf (kind : input.pushKind = aggregatedKind)
    (date : input.businessDate = day) (key : input.decisionKey = window.decisionKey) (ts : Instant)
    :
    (attemptRecord host input ts).Of day window .sinkAttempt :=
  ⟨kind, congrArg some date, congrArg some key, attemptRecord_stage host input ts⟩

/-- Another window's reader passes over an attempt. -/
theorem requery_other_attempt (isOf : (attemptRecord host input ts).Of day window .sinkAttempt)
    (elsewhere : window ≠ other) :
    requeryEnvelope day other scan (attemptEnvelope host input ts) = .ok scan := by
  have row := windowRow_of (attemptEnvelope_delivered host input ts day)
    (read_attemptEnvelope host input ts) isOf
  have otherKey : window.decisionKey ≠ other.decisionKey :=
    fun same => elsewhere (NewsFlashWindow.decisionKey_injective same)
  simp [requeryEnvelope, row, NewsFlashTransactionStage.terminal, otherKey, pure, Except.pure]

/-- An attempt with the next ordinal may follow the rejected attempts of its reservation. -/
theorem Ready.checkPrevious (ready : Ready scan reservation)
    (scanned : Scanned day window world.audit scan)
    (same : ∀ attemptId attempt, scan.attempts.get? attemptId = some attempt →
      attempt.record.newsFlashReservationSha256 = some reservation.reservationIdentitySha256) :
    scan.checkPrevious reservation.attemptOrdinal = .ok ⟨⟩ := by
  unfold WindowScan.checkPrevious
  cases last : scan.attemptOrder.getLast? with
  | none => rfl
  | some previousId =>
    obtain ⟨previous, held⟩ := (scanned.listed previousId).mp (List.mem_of_getLast? last)
    obtain ⟨rejected, ordinal, numbered, below⟩ :=
      ready.2 previousId previous held (same previousId previous held)
    simp [held, okOr, numbered, require_pos below, require_pos rejected]

/-- The window's reader opens an attempt of a ready reservation. -/
theorem requery_attempt (scanned : Scanned day window world.audit scan)
    (ready : Ready scan reservation)
    (isOf : (attemptRecord host (reservation.attemptInput channel observedAt) ts).Of day window
      .sinkAttempt) (same : ∀ attemptId attempt, scan.attempts.get? attemptId = some attempt →
      attempt.record.newsFlashReservationSha256 = some reservation.reservationIdentitySha256)
    (fresh : ∀ other ∈ world.audit, other.id ≠
      (attemptReceipt host (reservation.attemptInput channel observedAt) ts).envelopeId) :
    ∃ next attempt, requeryEnvelope day window scan
        (attemptEnvelope host (reservation.attemptInput channel observedAt) ts) = .ok next ∧
      next.attempts.get?
        (attemptReceipt host (reservation.attemptInput channel observedAt) ts).envelopeId =
          some attempt ∧
      attempt.terminal = none ∧
      attempt.record = attemptRecord host (reservation.attemptInput channel observedAt) ts := by
  have row := windowRow_of (attemptEnvelope_delivered host _ ts day) (read_attemptEnvelope host _ ts)
    isOf
  have reserved : scan.reservation = none ∨
      scan.reservation = some reservation.reservationIdentitySha256 := by
    cases isReserved : scan.reservation with
    | none => exact Or.inl rfl
    | some used =>
      obtain ⟨attemptId, attempt, held, under⟩ := scanned.used used isReserved
      exact Or.inr (under.symm.trans (same attemptId attempt held))
  have new : scan.attempts.get?
      (attemptEnvelope host (reservation.attemptInput channel observedAt) ts).id = none := by
    rw [Option.eq_none_iff_forall_ne_some]
    intro attempt held
    obtain ⟨member, isId, _⟩ := scanned.recorded _ attempt held
    exact fresh attempt.envelope member isId
  have opened := (@WindowScan.openAttempt_eq_ok
    (attemptEnvelope host (reservation.attemptInput channel observedAt) ts)
    (attemptRecord host (reservation.attemptInput channel observedAt) ts) scan _).mpr
    ⟨_, _, rfl, reserved, rfl, ready.1, ready.checkPrevious scanned same, new, rfl⟩
  have stepped : requeryEnvelope day window scan
      (attemptEnvelope host (reservation.attemptInput channel observedAt) ts) =
      scan.openAttempt (attemptEnvelope host (reservation.attemptInput channel observedAt) ts)
        (attemptRecord host (reservation.attemptInput channel observedAt) ts) := by
    simp [requeryEnvelope, row, NewsFlashTransactionStage.terminal]
  refine ⟨_, ⟨attemptEnvelope host (reservation.attemptInput channel observedAt) ts,
    attemptRecord host _ ts, none⟩, stepped.trans opened, ?_, rfl, rfl⟩
  exact OrdMap.get?_insert_self _ _ _

variable {ending : NewsFlashTerminalAuditInput}

/-- The window's reader ends the attempt that a terminal was built for. -/
theorem requery_terminal {attempt : AttemptState}
    (isOf : (attemptRecord host input attemptTs).Of day window .sinkAttempt)
    (held : scan.attempts.get? (attemptReceipt host input attemptTs).envelopeId = some attempt)
    (isOpen : attempt.terminal = none)
    (isRecord : attempt.record = attemptRecord host input attemptTs) :
    ∃ next, requeryEnvelope day window scan
      (terminalEnvelope host (attemptReceipt host input attemptTs) ending ts) = .ok next := by
  have binds := attemptRecord_binds host input ending.disposition.state attemptTs ts
  have row := windowRow_of (terminalEnvelope_delivered host _ ending ts day)
    (read_terminalEnvelope host _ ending ts) (binds.isOf isOf (terminalRecord_stage _ _ ts))
  rw [← isRecord] at binds
  have notEnded : attempt.terminal.isNone = true := by rw [isOpen]; rfl
  have named : (terminalRecord (attemptReceipt host input attemptTs) ending.disposition.state
      ts).newsFlashAttemptEnvelopeId = some (attemptReceipt host input attemptTs).envelopeId := rfl
  exact ⟨_, by
    simp only [requeryEnvelope, row, ok_bind, TerminalState.terminal_stage, WindowScan.sealAttempt,
      named, okOr, decide_true, Bool.and_self, Bool.true_eq_false, false_and, if_false, held,
      validateTerminalAttemptBinding, require_pos binds, require_pos notEnded]
    rfl⟩

/-- Another window's reader passes over a terminal of an attempt that it does not hold. -/
theorem requery_other_terminal
    (isOf : (attemptRecord host input attemptTs).Of day window .sinkAttempt)
    (elsewhere : window ≠ other)
    (absent : scan.attempts.get? (attemptReceipt host input attemptTs).envelopeId = none) :
    requeryEnvelope day other scan
      (terminalEnvelope host (attemptReceipt host input attemptTs) ending ts) = .ok scan := by
  have binds := attemptRecord_binds host input ending.disposition.state attemptTs ts
  have row := windowRow_of (terminalEnvelope_delivered host _ ending ts day)
    (read_terminalEnvelope host _ ending ts) (binds.isOf isOf (terminalRecord_stage _ _ ts))
  have otherKey : window.decisionKey ≠ other.decisionKey :=
    fun same => elsewhere (NewsFlashWindow.decisionKey_injective same)
  have named : (terminalRecord (attemptReceipt host input attemptTs) ending.disposition.state
      ts).newsFlashAttemptEnvelopeId = some (attemptReceipt host input attemptTs).envelopeId := rfl
  simp [requeryEnvelope, row, WindowScan.sealAttempt, named, okOr, otherKey, OrdMap.contains, absent,
    pure, Except.pure]

end Appending

/-! ## Every state of a steady history -/

variable {held : Held}

namespace Readable

variable {next : World} {action : Action}

theorem start {past : List EventEnvelope} (fresh : Fresh day past)
    (readable : ∀ window, ∃ query,
      requeryNewsFlashWindowTerminalFromEnvelopes past day window = .ok query) (today : Day) :
    Readable host day (World.start past today) where
  scans := by
    intro window
    obtain ⟨query, requeried⟩ := readable window
    obtain ⟨scan, looped, _⟩ := bind_eq_ok.mp requeried
    exact ⟨scan, looped, by simp [World.start], by simp [World.start]⟩
  unique := by
    intro first inFirst _ _ _ _ isAttempt
    obtain ⟨record, read, isOf⟩ := attemptOf_iff.mp isAttempt
    exact absurd isOf.2.1 (fresh first inFirst record read isOf.1)

/-- Holding fewer reservations leaves the readers as they were. -/
theorem releasing (readable : Readable host day world) {live : List Held}
    (kept : ∀ held ∈ live, held ∈ world.live) :
    Readable host day { world with gate := gate, live := live } where
  scans := by
    intro window
    obtain ⟨scan, looped, followed⟩ := readable.scans window
    exact ⟨scan, looped, fun held listed => followed.ready held (kept held listed),
      fun held listed => followed.pending held (kept held listed)⟩
  unique := readable.unique

theorem ticking (readable : Readable host day world) (going : Going host day world)
    (reconciled : reconcileNewsFlashEnvelopes host.localDate world.audit day = .ok snapshot)
    (ticked : NewsFlashGate.Ticked snapshot world.gate gate issued) :
    Readable host day
      { world with gate := gate, live := world.live ++ issued.map fun r => ⟨r, none, none⟩ } where
  scans := by
    intro window
    obtain ⟨scan, looped, _⟩ := readable.scans window
    have scanned := Scanned.run going.delivered looped
    refine ⟨scan, looped, fun held listed keyed _ => ?_, fun held listed _ receipt isReceipt => ?_⟩
    · rw [going.live_eq_nil ticked.idle, List.nil_append] at listed
      obtain ⟨reservation, isIssued, rfl⟩ := List.mem_map.mp listed
      exact ready_of_ticked going scanned reconciled ticked isIssued keyed
    · rw [going.live_eq_nil ticked.idle, List.nil_append] at listed
      obtain ⟨_, _, rfl⟩ := List.mem_map.mp listed
      cases isReceipt
  unique := readable.unique

/-- The readers of the windows that a change of one held reservation does not concern. -/
theorem followed_other (changed : Held) (same : changed.reservation = held.reservation)
    (followed : Followed host window world scan)
    (elsewhere : held.reservation.decisionKey ≠ window.decisionKey) (gate : NewsFlashGate)
    (audit : List EventEnvelope) :
    Followed host window ⟨gate, audit, world.update changed⟩ scan where
  ready := by
    intro other listed keyed
    rcases World.mem_update listed with rfl | ⟨old, _⟩
    · rw [same] at keyed
      exact absurd keyed elsewhere
    · exact followed.ready other old keyed
  pending := by
    intro other listed keyed
    rcases World.mem_update listed with rfl | ⟨old, _⟩
    · rw [same] at keyed
      exact absurd keyed elsewhere
    · exact followed.pending other old keyed

/-- The reader of the window of the reservation that changed: no other held reservation is for it. -/
theorem followed_changed (going : Going host day world) (member : held ∈ world.live)
    (changed : Held) (same : changed.reservation = held.reservation)
    (keyed : held.reservation.decisionKey = window.decisionKey) (attempted : changed.attempt ≠ none)
    (pending : ∀ receipt, changed.attempt = some receipt → changed.terminal = none →
      ∃ attempt input ts, scan.attempts.get? receipt.envelopeId = some attempt ∧
        attempt.terminal = none ∧ attempt.record = attemptRecord host input ts ∧
        receipt = attemptReceipt host input ts) (gate : NewsFlashGate) (audit : List EventEnvelope)
    :
    Followed host window ⟨gate, audit, world.update changed⟩ scan where
  ready := by
    intro other listed otherKeyed first
    rcases World.mem_update listed with rfl | ⟨old, otherToken⟩
    · exact absurd first attempted
    · rw [same] at otherToken
      exact absurd (otherKeyed.trans keyed.symm) (going.apart old member otherToken).key
  pending := by
    intro other listed otherKeyed
    rcases World.mem_update listed with rfl | ⟨old, otherToken⟩
    · exact pending
    · rw [same] at otherToken
      exact absurd (otherKeyed.trans keyed.symm) (going.apart old member otherToken).key

section

variable (readable : Readable host day world) (going : Going host day world)

include readable going

theorem attempting (member : held ∈ world.live) (first : held.attempt = none)
    (fresh : ∀ other ∈ world.audit, other.id ≠
      (attemptReceipt host (held.reservation.attemptInput channel observedAt) ts).envelopeId)
    (steady : Steady day world (.attempt held.reservation.tokenId channel observedAt ts)) :
    Readable host day
      { world with
        audit := world.audit ++
          [attemptEnvelope host (held.reservation.attemptInput channel observedAt) ts]
        live := (world.update (held.withAttempt
          (attemptReceipt host (held.reservation.attemptInput channel observedAt) ts))) } := by
  obtain ⟨index, valid⟩ := going.valid held member
  have isOf : (attemptRecord host (held.reservation.attemptInput channel observedAt) ts).Of day
      (gateWindow index) .sinkAttempt := attemptRecord_isOf valid.kind valid.date valid.key ts
  constructor
  · intro window
    obtain ⟨scan, looped, followed⟩ := readable.scans window
    by_cases here : gateWindow index = window
    · subst here
      have scanned := Scanned.run going.delivered looped
      have same : ∀ attemptId attempt, scan.attempts.get? attemptId = some attempt →
          attempt.record.newsFlashReservationSha256 =
            some held.reservation.reservationIdentitySha256 := by
        intro attemptId attempt isHeld
        obtain ⟨inAudit, _, read, isAttempt⟩ := scanned.recorded attemptId attempt isHeld
        have under := steady held member rfl _ valid.key attempt.envelope inAudit
          (attemptOf_iff.mpr ⟨attempt.record, read, isAttempt⟩)
        obtain ⟨record, readAgain, reserved⟩ := EventEnvelope.holds_iff.mp under
        rw [Except.ok.inj (read.symm.trans readAgain)]
        exact of_decide_eq_true reserved
      obtain ⟨next, attempt, stepped, isHeld, isOpen, isRecord⟩ := requery_attempt scanned
        (followed.ready held member valid.key first) isOf same fresh
      refine ⟨next, each_concat looped stepped, ?_⟩
      refine followed_changed going member (held.withAttempt _) rfl valid.key
        (Option.some_ne_none _) ?_ _ _
      intro receipt isReceipt _
      obtain rfl := Option.some.inj isReceipt
      exact ⟨attempt, _, ts, isHeld, isOpen, isRecord, rfl⟩
    · refine ⟨scan, each_concat looped (requery_other_attempt isOf here), ?_⟩
      refine followed_other (held.withAttempt _) rfl followed (fun keyed => here ?_) _ _
      exact NewsFlashWindow.decisionKey_injective (valid.key.symm.trans keyed)
  · intro one inOne two inTwo window other isOne isTwo sameId
    rcases mem_concat.mp inOne with earlier | last
    · rcases mem_concat.mp inTwo with earlierTwo | lastTwo
      · exact readable.unique one earlier two earlierTwo window other isOne isTwo sameId
      · rw [lastTwo] at sameId
        exact absurd sameId (fresh one earlier)
    · rw [last] at sameId ⊢
      rcases mem_concat.mp inTwo with earlierTwo | lastTwo
      · exact absurd sameId.symm (fresh two earlierTwo)
      · exact lastTwo.symm

theorem ending {receipt : NewsFlashAttemptReceipt} {input : NewsFlashTerminalAuditInput}
    (member : held ∈ world.live) (attempted : held.attempt = some receipt)
    (isOpen : held.terminal = none) :
    Readable host day
      { world with
        audit := world.audit ++ [terminalEnvelope host receipt input ts]
        live := (world.update (held.withTerminal (terminalReceipt host receipt input ts))) } := by
  obtain ⟨index, valid⟩ := going.valid held member
  obtain ⟨channel, observedAt, attemptTs, rfl, inAudit⟩ :=
    going.recorded held member receipt attempted
  have isOf : (attemptRecord host (held.reservation.attemptInput channel observedAt) attemptTs).Of
      day (gateWindow index) .sinkAttempt :=
    attemptRecord_isOf valid.kind valid.date valid.key attemptTs
  constructor
  · intro window
    obtain ⟨scan, looped, followed⟩ := readable.scans window
    have scanned := Scanned.run going.delivered looped
    by_cases here : gateWindow index = window
    · subst here
      obtain ⟨attempt, _, _, isHeld, notEnded, isRecord, sameReceipt⟩ :=
        followed.pending held member valid.key _ attempted isOpen
      rw [sameReceipt] at isHeld ⊢
      have attemptOf := (scanned.recorded _ attempt isHeld).2.2.2
      obtain ⟨next, stepped⟩ := requery_terminal (isRecord ▸ attemptOf) isHeld notEnded isRecord
      refine ⟨next, each_concat looped stepped, ?_⟩
      refine followed_changed going member (held.withTerminal _) rfl valid.key ?_ ?_ _ _
      · exact fun none => Option.some_ne_none _ (attempted.symm.trans none)
      · intro receipt _ notEndedNow
        cases notEndedNow
    · have absent : scan.attempts.get? (attemptReceipt host
          (held.reservation.attemptInput channel observedAt) attemptTs).envelopeId = none := by
        rw [Option.eq_none_iff_forall_ne_some]
        intro attempt isHeld
        obtain ⟨otherMember, isId, read, otherOf⟩ := scanned.recorded _ attempt isHeld
        have isAttempt := attemptOf_iff.mpr ⟨_, read_attemptEnvelope host _ attemptTs, isOf⟩
        have isOther := attemptOf_iff.mpr ⟨_, read, otherOf⟩
        have equal := readable.unique _ inAudit _ otherMember _ _ isAttempt isOther isId.symm
        rw [← equal] at isOther
        exact here (attemptOf_window isAttempt isOther)
      refine ⟨scan, each_concat looped (requery_other_terminal isOf here absent), ?_⟩
      refine followed_other (held.withTerminal _) rfl followed (fun keyed => here ?_) _ _
      exact NewsFlashWindow.decisionKey_injective (valid.key.symm.trans keyed)
  · have noAttempt : ∀ window, attemptOf day window (terminalEnvelope host (attemptReceipt host
        (held.reservation.attemptInput channel observedAt) attemptTs) input ts) = false := by
      intro window
      refine attemptOf_eq_false fun record read isAttempt => ?_
      obtain rfl := Except.ok.inj ((read_terminalEnvelope host _ input ts).symm.trans read)
      have staged := (terminalRecord_stage _ _ ts).symm.trans isAttempt.2.2.2
      cases state : input.disposition.state <;> simp [state, TerminalState.stage] at staged
    intro one inOne two inTwo window other isOne isTwo
    have earlier : ∀ {found window}, found ∈ world.audit ++ [terminalEnvelope host
        (attemptReceipt host (held.reservation.attemptInput channel observedAt) attemptTs) input ts] →
        attemptOf day window found = true → found ∈ world.audit := by
      intro found window inFound isAttempt
      rcases mem_concat.mp inFound with before | last
      · exact before
      · rw [last, noAttempt window] at isAttempt
        cases isAttempt
    exact readable.unique one (earlier inOne isOne) two (earlier inTwo isTwo) window other isOne isTwo

theorem step (steady : Steady day world action) (performed : Performed host day world action next) :
    Readable host day next := by
  cases performed with
  | idle _ => exact readable
  | ticked reconciled ticked => exact readable.ticking going reconciled ticked
  | attempted member first fresh => exact readable.attempting going member first fresh steady
  | ended member attempted isOpen _ => exact readable.ending going member attempted isOpen
  | settled _ member settlement =>
    exact readable.releasing fun held listed => (List.mem_filter.mp listed).1
  | restarted today => exact readable.releasing (by simp)

end

end Readable

/-- In every state of a history whose attempts are recorded under the reservation of the window's
attempts before them, the reader of each window answers: nothing if the window had no attempt,
otherwise the last attempt, with its terminal once it has one.

Proof: a steady action keeps `Readable` beside `Going`. -/
theorem steady_history_readable {host : Host} {day today : Day} {past : List EventEnvelope}
    (fresh : Fresh day past)
    (readable : ∀ window, ∃ query,
      requeryNewsFlashWindowTerminalFromEnvelopes past day window = .ok query)
    {actions : List Action}
    (steady : World.Along host day (Steady day) (World.start past today) actions)
    (window : NewsFlashWindow) :
    requeryNewsFlashWindowTerminalFromEnvelopes
        ((World.start past today).run host day actions).audit day window =
      .ok (latestOutcome day window ((World.start past today).run host day actions).audit) := by
  have both := steady.induction (fun world => Going host day world ∧ Readable host day world)
    (fun _ _ _ holds allowed performed =>
      ⟨holds.1.step performed, holds.2.step holds.1 allowed performed⟩)
    ⟨Going.start fresh today, Readable.start fresh readable today⟩
  obtain ⟨scan, looped, _⟩ := both.2.scans window
  rw [requeryNewsFlashWindowTerminalFromEnvelopes, looped, ok_bind]
  exact (Scanned.run both.1.delivered looped).answer_eq

/-- A rejected push, retried by the next tick. -/
def sampleRetry (arrived : List NewsFlashProjectedEvent) : List Action :=
  samplePush (.definitivelyRejected "refused" "transport") ++
    [.tick arrived sampleNow, .attempt 2 "magiclaw" sampleNow sampleNow]

/-- A retry with the same events is read as the pending second attempt. -/
theorem steady_history_readable_sample :
    World.Along sampleHost 20 (Steady 20) (World.start [] 20) (sampleRetry []) ∧
    ∀ window, requeryNewsFlashWindowTerminalFromEnvelopes
        ((World.start [] 20).run sampleHost 20 (sampleRetry [])).audit 20 window =
      .ok (latestOutcome 20 window
        ((World.start [] 20).run sampleHost 20 (sampleRetry [])).audit) := by
  have steady : World.Along sampleHost 20 (Steady 20) (World.start [] 20) (sampleRetry []) := by
    decide +kernel
  refine ⟨steady, steady_history_readable ?_ ?_ steady⟩
  · intro envelope member
    cases member
  · intro window
    exact ⟨.missing, rfl⟩

/-- A stronger event arrives before the retry of a rejected push: the retry has another
reservation, and the window's reader refuses the audit. -/
theorem changed_retry_unreadable :
    requeryNewsFlashWindowTerminalFromEnvelopes
        ((World.start [] 20).run sampleHost 20 (sampleRetry [sampleEvent "second" 90])).audit 20
        .h0930 =
      .error (.recordConflict "window attempts use different reservations") := by
  have refused : (match requeryNewsFlashWindowTerminalFromEnvelopes
      ((World.start [] 20).run sampleHost 20 (sampleRetry [sampleEvent "second" 90])).audit 20
      .h0930 with
    | .error reason => some reason
    | .ok _ => none) =
      some (.recordConflict "window attempts use different reservations") := by
    decide +kernel
  cases requeried : requeryNewsFlashWindowTerminalFromEnvelopes
      ((World.start [] 20).run sampleHost 20 (sampleRetry [sampleEvent "second" 90])).audit 20
      .h0930 with
  | error reason =>
    rw [requeried] at refused
    exact congrArg Except.error (Option.some.inj refused)
  | ok query =>
    rw [requeried] at refused
    cases refused

end StockAnalysis.NewsFlash
