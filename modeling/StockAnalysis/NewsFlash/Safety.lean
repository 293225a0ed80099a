import StockAnalysis.NewsFlash.World

/-!
# A window is accepted once, and an unresolved reservation is not repeated

The gate remembers nothing across a restart, and what it remembers within a process is overwritten
by every snapshot. It is the audit that carries the guarantee: a window with an accepted terminal is
committed in every snapshot from then on, a reservation with an attempt of unknown outcome is
unresolved in it, and a snapshot is taken only while no reservation is held.
-/

namespace StockAnalysis.NewsFlash

/-! ## Accepted windows -/

/-- The envelope records that the window was accepted on the day. -/
def acceptedFor (day : Day) (window : NewsFlashWindow) (envelope : EventEnvelope) : Bool :=
  envelope.holds fun record => record.Of day window .accepted

variable {envelope : EventEnvelope} {snapshot : NewsFlashAuthoritySnapshot} {day : Day}
  {window : NewsFlashWindow}

theorem acceptedFor_iff :
    acceptedFor day window envelope = true ↔ ∃ record,
      envelope.Reads record ∧ record.Of day window .accepted := by
  simp [acceptedFor, EventEnvelope.holds_iff]

theorem acceptedFor_attempt (host : Host) (input : NewsFlashAttemptAuditInput) (ts : Instant)
    (day : Day) (window : NewsFlashWindow) :
    acceptedFor day window (attemptEnvelope host input ts) = false := by
  rw [Bool.eq_false_iff]
  intro accepted
  obtain ⟨record, read, isOf⟩ := acceptedFor_iff.mp accepted
  obtain rfl := Except.ok.inj ((read_attemptEnvelope host input ts).symm.trans read)
  cases (attemptRecord_stage host input ts).symm.trans isOf.2.2.2

variable {attempt : NewsFlashAttemptReceipt} {input : NewsFlashTerminalAuditInput} {ts : Instant}
  {localDate : Instant → Day} {audit : List EventEnvelope} {host : Host}

/-- A terminal that accepts a window is the terminal of one of the window's attempts. -/
theorem key_of_acceptedFor
    (accepted : acceptedFor day window (terminalEnvelope host attempt input ts) = true) :
    attempt.input.decisionKey = window.decisionKey := by
  obtain ⟨record, read, isOf⟩ := acceptedFor_iff.mp accepted
  obtain rfl := Except.ok.inj ((read_terminalEnvelope host attempt input ts).symm.trans read)
  exact Option.some.inj isOf.2.2.1

/-- A window that was accepted in the audit is accepted in the snapshot. -/
theorem accepted_of_reconcile (delivered : ∀ envelope ∈ audit, envelope.Delivered day)
    (reconciled : reconcileNewsFlashEnvelopes localDate audit day = .ok snapshot)
    (member : envelope ∈ audit) (accepted : acceptedFor day window envelope = true) :
    snapshot.acceptedWindows.contains window.label = true := by
  obtain ⟨state, folded, snapshotted⟩ := reconcile_eq_ok reconciled
  obtain ⟨record, read, isOf⟩ := acceptedFor_iff.mp accepted
  rw [snapshotted.windows, folded.windows]
  exact ⟨envelope, member, record, .of_delivered (delivered envelope member) read isOf,
    acceptedDecisionIdentity_eq isOf.2.2.1 isOf.1⟩

/-- A window is accepted at most once, and a reservation that may still be accepted is for a window
that was not. -/
structure Single (day : Day) (world : World) : Prop where
  once : ∀ window, world.audit.countP (acceptedFor day window) ≤ 1
  unsent : ∀ held ∈ world.live, held.terminal = none → ∀ window,
    held.reservation.decisionKey = window.decisionKey →
    ∀ envelope ∈ world.audit, acceptedFor day window envelope = false

variable {past : List EventEnvelope} {gate : NewsFlashGate} {issued : List FlashReservation}
  {held : Held} {world next : World} {action : Action}

namespace Single

theorem start (fresh : Fresh day past) (today : Day) :
    Single day (World.start past today) where
  once := by
    intro window
    have none : past.countP (acceptedFor day window) = 0 := by
      rw [List.countP_eq_zero]
      intro envelope member accepted
      obtain ⟨record, read, isOf⟩ := acceptedFor_iff.mp accepted
      exact fresh envelope member record read isOf.1 isOf.2.1
    exact none.le.trans zero_le_one
  unsent := by simp [World.start]

section

variable (single : Single day world)

include single

theorem ticking (going : Going host day world)
    (reconciled : reconcileNewsFlashEnvelopes host.localDate world.audit day = .ok snapshot)
    (ticked : NewsFlashGate.Ticked snapshot world.gate gate issued) :
    Single day
      { world with gate := gate, live := world.live ++ issued.map fun r => ⟨r, none, none⟩ } where
  once := single.once
  unsent := by
    intro held listed _ window keyed envelope member
    rw [going.live_eq_nil ticked.idle, List.nil_append] at listed
    obtain ⟨reservation, isIssued, rfl⟩ := List.mem_map.mp listed
    obtain ⟨index, key, _, _, notAccepted, _⟩ := ticked.reservations reservation isIssued
    have same : window = gateWindow index :=
      NewsFlashWindow.decisionKey_injective (keyed.symm.trans key)
    rw [Bool.eq_false_iff]
    intro accepted
    apply notAccepted
    rw [← same]
    exact accepted_of_reconcile going.delivered reconciled member accepted

theorem attempting (member : held ∈ world.live) (input : NewsFlashAttemptAuditInput)
    (ts : Instant) :
    Single day { world with
      audit := world.audit ++ [attemptEnvelope host input ts]
      live := (world.update (held.withAttempt (attemptReceipt host input ts))) } where
  once := by
    intro window
    simpa [List.countP_append, acceptedFor_attempt] using single.once window
  unsent := by
    intro other listed isOpen window keyed envelope inAudit
    rcases mem_concat.mp inAudit with earlier | last
    · rcases World.mem_update listed with rfl | ⟨old, _⟩
      · exact single.unsent held member isOpen window keyed envelope earlier
      · exact single.unsent other old isOpen window keyed envelope earlier
    · rw [last]
      exact acceptedFor_attempt host input ts day window

theorem ending (going : Going host day world) (member : held ∈ world.live)
    (attempted : held.attempt = some attempt) (isOpen : held.terminal = none) :
    Single day { world with
      audit := world.audit ++ [terminalEnvelope host attempt input ts]
      live := (world.update (held.withTerminal (terminalReceipt host attempt input ts))) } := by
  have isKey : attempt.input.decisionKey = held.reservation.decisionKey := by
    obtain ⟨_, _, _, rfl, _⟩ := going.recorded held member attempt attempted
    rfl
  constructor
  · intro window
    rw [List.countP_append]
    cases accepted : acceptedFor day window (terminalEnvelope host attempt input ts) with
    | false => simpa [accepted] using single.once window
    | true =>
      -- The window of the reservation was not accepted before.
      have keyed := isKey.symm.trans (key_of_acceptedFor accepted)
      have none : world.audit.countP (acceptedFor day window) = 0 := by
        rw [List.countP_eq_zero]
        intro envelope inAudit
        rw [single.unsent held member isOpen window keyed envelope inAudit]
        exact Bool.false_ne_true
      simp [none, accepted]
  · intro other listed otherOpen window keyed envelope inAudit
    rcases World.mem_update listed with rfl | ⟨old, otherToken⟩
    · cases otherOpen
    · rcases mem_concat.mp inAudit with earlier | last
      · exact single.unsent other old otherOpen window keyed envelope earlier
      · rw [last, Bool.eq_false_iff]
        intro accepted
        have sameKey := keyed.trans ((key_of_acceptedFor accepted).symm.trans isKey)
        exact (going.apart old member otherToken).key sameKey

theorem step (going : Going host day world) (performed : Performed host day world action next) :
    Single day next := by
  cases performed with
  | idle _ => exact single
  | ticked reconciled ticked => exact single.ticking going reconciled ticked
  | attempted member _ _ => exact single.attempting member _ _
  | ended member attempted isOpen _ => exact single.ending going member attempted isOpen
  | settled _ member settlement =>
    refine ⟨single.once, fun other listed => single.unsent other ?_⟩
    exact (List.mem_filter.mp listed).1
  | restarted today => exact ⟨single.once, by simp⟩

end

theorem run (fresh : Fresh day past) (today : Day) (actions : List Action) :
    Single day ((World.start past today).run host day actions) := by
  have both := World.run_induction (fun world => Going host day world ∧ Single day world)
      (fun _ _ _ holds performed => ⟨holds.1.step performed, holds.2.step holds.1 performed⟩)
      ⟨Going.start fresh today, start fresh today⟩ actions
  exact both.2

end Single

/-! ## Unresolved reservations -/

/-- The audit records an uncertain terminal of the window's attempt. -/
def UncertainIn (day : Day) (window : NewsFlashWindow) (audit : List EventEnvelope)
    (attemptId : String) : Prop :=
  ∃ envelope ∈ audit, ∃ record, PushRecord.tryFromAuthoritative envelope = .ok record ∧
    record.newsFlashAttemptEnvelopeId = some attemptId ∧ record.Of day window .uncertain

/-- The audit records no terminal of the window's attempt. -/
def OpenIn (day : Day) (window : NewsFlashWindow) (audit : List EventEnvelope)
    (attemptId : String) : Prop :=
  ∀ envelope ∈ audit, terminalOf day window attemptId envelope = false

/-- The audit records this attempt of the window, under the reservation. -/
def AttemptIn (day : Day) (window : NewsFlashWindow) (audit : List EventEnvelope)
    (reservation attemptId : String) : Prop :=
  ∃ envelope ∈ audit, envelope.id = attemptId ∧ ∃ record,
    PushRecord.tryFromAuthoritative envelope = .ok record ∧ record.Of day window .sinkAttempt ∧
    record.newsFlashReservationSha256 = some reservation

variable {reservation attemptId : String}

/-- An attempt of unknown outcome makes its reservation unresolved in the snapshot. -/
theorem unresolved_of_reconcile (delivered : ∀ envelope ∈ audit, envelope.Delivered day)
    (reconciled : reconcileNewsFlashEnvelopes localDate audit day = .ok snapshot)
    (attempt : AttemptIn day window audit reservation attemptId)
    (unknown : OpenIn day window audit attemptId ∨ UncertainIn day window audit attemptId) :
    snapshot.unresolvedReservations.contains reservation = true := by
  obtain ⟨state, folded, snapshotted⟩ := reconcile_eq_ok reconciled
  obtain ⟨envelope, member, isId, record, read, isOf, reserved⟩ := attempt
  have held : state.attempts.get? attemptId = some record := (folded.attempts attemptId record).mpr
    ⟨envelope, member, isId, .of_delivered (delivered envelope member) read isOf⟩
  refine (snapshotted.unresolved reservation).mpr ⟨attemptId, record, held, reserved, ?_⟩
  rcases unknown with isOpen | ⟨terminal, inAudit, other, readOther, named, otherOf⟩
  · left
    cases known : state.terminalByAttempt.get? attemptId with
    | none => rfl
    | some ending =>
      -- A terminal that names the attempt repeats it, so it is a terminal of the window.
      obtain ⟨terminal, inAudit, other, transaction, named⟩ :=
        (folded.terminals attemptId ending).mp known
      obtain ⟨boundId, bound, isBound, isAttempt, binds⟩ :=
        folded.bound terminal inAudit other ending transaction
      obtain rfl : attemptId = boundId := Option.some.inj (named.symm.trans isBound)
      obtain rfl := Option.some.inj (held.symm.trans isAttempt)
      have ends : terminalOf day window attemptId terminal = true :=
        terminalOf_iff.mpr ⟨other, ending, transaction.read, named,
          binds.isOf isOf transaction.inStage⟩
      rw [isOpen terminal inAudit] at ends
      cases ends
  · right
    exact (folded.terminals attemptId .uncertain).mpr ⟨terminal, inAudit, other,
      .of_delivered (delivered terminal inAudit) readOther otherOf, named⟩

/-- No reservation that the process holds has made the attempt. -/
def Abandoned (world : World) (attemptId : String) : Prop :=
  ∀ held ∈ world.live, ∀ attempt, held.attempt = some attempt → attempt.envelopeId ≠ attemptId

/-- An attempt whose outcome will stay unknown: it was recorded as uncertain, or it has no terminal
and no reservation is held that could append one. -/
structure Lost (day : Day) (window : NewsFlashWindow) (reservation attemptId : String)
    (world : World) : Prop where
  attempt : AttemptIn day window world.audit reservation attemptId
  unknown : UncertainIn day window world.audit attemptId ∨
    (OpenIn day window world.audit attemptId ∧ Abandoned world attemptId)

namespace Lost

/-- The audit grows by an envelope that is no terminal of the attempt. -/
theorem growing (lost : Lost day window reservation attemptId world) {live : List Held}
    (other : Abandoned world attemptId → terminalOf day window attemptId envelope = false)
    (abandoned : Abandoned world attemptId → ∀ held ∈ live, ∀ attempt,
      held.attempt = some attempt → attempt.envelopeId ≠ attemptId) :
    Lost day window reservation attemptId
      { world with audit := world.audit ++ [envelope], live := live } where
  attempt := by
    obtain ⟨found, member, rest⟩ := lost.attempt
    exact ⟨found, List.mem_append_left _ member, rest⟩
  unknown := by
    rcases lost.unknown with ⟨found, member, rest⟩ | ⟨isOpen, isAbandoned⟩
    · exact Or.inl ⟨found, List.mem_append_left _ member, rest⟩
    · refine Or.inr ⟨fun found member => ?_, abandoned isAbandoned⟩
      rcases mem_concat.mp member with earlier | last
      · exact isOpen found earlier
      · rw [last]
        exact other isAbandoned

theorem step (lost : Lost day window reservation attemptId world)
    (performed : Performed host day world action next) :
    Lost day window reservation attemptId next := by
  cases performed with
  | idle _ => exact lost
  | ticked _ ticked =>
    refine ⟨lost.attempt, lost.unknown.imp_right fun known => ⟨known.1, fun held listed => ?_⟩⟩
    rcases List.mem_append.mp listed with old | new
    · exact known.2 held old
    · obtain ⟨_, _, rfl⟩ := List.mem_map.mp new
      intro attempt isAttempt
      cases isAttempt
  | @attempted held channel observedAt ts member first fresh =>
    obtain ⟨envelope, inAudit, isId, _⟩ := lost.attempt
    apply lost.growing
    · intro _
      refine terminalOf_eq_false (fun record state read isOf => ?_) attemptId
      obtain rfl := Except.ok.inj ((read_attemptEnvelope host _ ts).symm.trans read)
      have staged := (attemptRecord_stage host _ ts).symm.trans isOf.2.2.2
      cases state <;> cases staged
    · intro abandoned other listed attempt isAttempt
      rcases World.mem_update listed with rfl | ⟨old, _⟩
      · obtain rfl := Option.some.inj isAttempt
        exact fun same => fresh envelope inAudit (isId.trans same.symm)
      · exact abandoned other old attempt isAttempt
  | @ended held attempt input ts member attempted isOpen fresh =>
    apply lost.growing
    · intro abandoned
      rw [Bool.eq_false_iff]
      intro ends
      obtain ⟨record, _, read, named, _⟩ := terminalOf_iff.mp ends
      obtain rfl := Except.ok.inj ((read_terminalEnvelope host attempt input ts).symm.trans read)
      exact abandoned held member attempt attempted (Option.some.inj named)
    · intro abandoned other listed found isFound
      rcases World.mem_update listed with rfl | ⟨old, _⟩
      · exact abandoned held member found isFound
      · exact abandoned other old found isFound
  | settled _ member settlement =>
    refine ⟨lost.attempt, lost.unknown.imp_right fun known => ⟨known.1, fun held listed => ?_⟩⟩
    exact known.2 held (List.mem_filter.mp listed).1
  | restarted today =>
    exact ⟨lost.attempt, lost.unknown.imp_right fun known => ⟨known.1, by simp [Abandoned]⟩⟩

end Lost

/-- A tick issues no reservation that has an attempt of unknown outcome. -/
theorem issue_resolved (going : Going host day world) {events : List NewsFlashProjectedEvent}
    {now : Instant} (ticks : world.issue host day events now = some (gate, issued))
    {reservation : FlashReservation} (isIssued : reservation ∈ issued)
    (attempt : AttemptIn day window world.audit reservation.reservationIdentitySha256 attemptId) :
    ¬ (OpenIn day window world.audit attemptId ∨ UncertainIn day window world.audit attemptId) := by
  intro unknown
  obtain ⟨snapshot, reconciled, ticked⟩ := World.issue_eq_some ticks
  obtain ⟨_, _, _, _, _, resolved, _⟩ := ticked.reservations reservation isIssued
  exact resolved (unresolved_of_reconcile going.delivered reconciled attempt unknown)

/-- On every business day, with any restarts between any actions: a window is accepted at most once;
a tick issues no reservation with an attempt that has no terminal or an uncertain one; and once an
attempt is recorded as uncertain, or is left without a terminal by the reservation that made it, its
reservation is not issued again.

Proof: `Single` and `Going` are invariants of a run, and a `Lost` attempt stays lost; a tick issues
nothing that its snapshot has unresolved. -/
theorem gate_never_repeats {host : Host} {day today : Day} {past : List EventEnvelope}
    (fresh : Fresh day past) (actions : List Action) :
    let world := (World.start past today).run host day actions
    (∀ window, world.audit.countP (acceptedFor day window) ≤ 1) ∧
    (∀ events now gate issued, world.issue host day events now = some (gate, issued) →
      ∀ reservation ∈ issued, ∀ window attemptId,
        AttemptIn day window world.audit reservation.reservationIdentitySha256 attemptId →
        ¬ (OpenIn day window world.audit attemptId ∨
          UncertainIn day window world.audit attemptId)) ∧
    (∀ window reservation attemptId, AttemptIn day window world.audit reservation attemptId →
      (UncertainIn day window world.audit attemptId ∨
        (OpenIn day window world.audit attemptId ∧ Abandoned world attemptId)) →
      ∀ later events now gate issued,
        (world.run host day later).issue host day events now = some (gate, issued) →
        ∀ issuedAgain ∈ issued, issuedAgain.reservationIdentitySha256 ≠ reservation) := by
  intro world
  constructor
  · exact (Single.run fresh today actions).once
  constructor
  · intro events now gate issued ticks reservation isIssued window attemptId attempt
    exact issue_resolved (Going.run fresh today actions) ticks isIssued attempt
  · intro window reservation attemptId attempt unknown later events now gate issued ticks
      issuedAgain isIssued same
    have kept := World.run_induction
        (fun world => Going host day world ∧ Lost day window reservation attemptId world)
        (fun _ _ _ holds performed => ⟨holds.1.step performed, holds.2.step performed⟩)
        ⟨Going.run fresh today actions, ⟨attempt, unknown⟩⟩ later
    refine issue_resolved kept.1 ticks isIssued (same ▸ kept.2.attempt) ?_
    exact kept.2.unknown.symm.imp_left And.left

/-- The morning push ends as uncertain and the process restarts. When the event arrives again with
another one, the next tick issues a reservation, but not that of the uncertain attempt. -/
theorem gate_never_repeats_sample :
    let world := (World.start [] 20).run sampleHost 20 (samplePush (.uncertain "timeout"))
    AttemptIn 20 .h0930 world.audit "window:09:30first" "SinkAttemptwindow:09:30first1" ∧
    UncertainIn 20 .h0930 world.audit "SinkAttemptwindow:09:30first1" ∧
    (∀ window, world.audit.countP (acceptedFor 20 window) ≤ 1) ∧
    ∃ gate issued, (world.run sampleHost 20 [.restart 20]).issue sampleHost 20
        [sampleEvent "first" 50, sampleEvent "second" 90] sampleNow = some (gate, issued) ∧
      issued.map FlashReservation.reservationIdentitySha256 = ["window:09:30secondfirst"] ∧
      ∀ again ∈ issued, again.reservationIdentitySha256 ≠ "window:09:30first" := by
  have fresh : Fresh 20 [] := by
    intro envelope member
    cases member
  intro world
  have attempted : world.audit.any (fun envelope =>
      envelope.id = "SinkAttemptwindow:09:30first1" ∧ envelope.holds (fun record =>
        record.Of 20 .h0930 .sinkAttempt ∧
          record.newsFlashReservationSha256 = some "window:09:30first") = true) = true := by
    decide +kernel
  have ended : world.audit.any (fun envelope => envelope.holds fun record =>
      record.newsFlashAttemptEnvelopeId = some "SinkAttemptwindow:09:30first1" ∧
        record.Of 20 .h0930 .uncertain) = true := by
    decide +kernel
  have ticked : ((world.run sampleHost 20 [.restart 20]).issue sampleHost 20
      [sampleEvent "first" 50, sampleEvent "second" 90] sampleNow).map (fun result =>
        result.2.map FlashReservation.reservationIdentitySha256) =
      some ["window:09:30secondfirst"] := by
    decide +kernel
  obtain ⟨_, listed, found⟩ := List.any_eq_true.mp attempted
  obtain ⟨named, holds⟩ := of_decide_eq_true found
  obtain ⟨record, read, isRecord⟩ := EventEnvelope.holds_iff.mp holds
  have attempt : AttemptIn 20 .h0930 world.audit "window:09:30first"
      "SinkAttemptwindow:09:30first1" :=
    ⟨_, listed, named, record, read, of_decide_eq_true isRecord⟩
  obtain ⟨_, listed, holds⟩ := List.any_eq_true.mp ended
  obtain ⟨record, read, isRecord⟩ := EventEnvelope.holds_iff.mp holds
  have uncertain : UncertainIn 20 .h0930 world.audit "SinkAttemptwindow:09:30first1" :=
    ⟨_, listed, record, read, of_decide_eq_true isRecord⟩
  obtain ⟨⟨gate, issued⟩, isIssued, identities⟩ := Option.map_eq_some_iff.mp ticked
  obtain ⟨once, _, never⟩ := gate_never_repeats fresh (samplePush (.uncertain "timeout"))
  exact ⟨attempt, uncertain, once, gate, issued, isIssued, identities,
    never .h0930 _ _ attempt (.inl uncertain) [.restart 20] _ _ gate issued isIssued⟩

end StockAnalysis.NewsFlash
