import StockAnalysis.NewsFlash.Gate

/-!
# One business day of NewsFlash pushes

The audit, the gate of the running process and the reservations that the process still holds. A tick
reads the snapshot of the audit written so far and reserves; an attempt is appended before a
reservation is sent, and its terminal afterwards; the terminal's receipt settles the reservation. A
reservation may also be settled locally, without a terminal, and a restart of the process loses the
gate and every reservation. An action that the code refuses leaves everything as it was.

`Performed` says what one action can do. `Going` is the invariant of every day: a held reservation
owns its window, and what it has recorded is in the audit.
-/

namespace StockAnalysis.NewsFlash

variable (host : Host) (attempt : NewsFlashAttemptReceipt) (input : NewsFlashAttemptAuditInput)

/-! ## Appending to the audit -/

/-- The record of an attempt, as `new_news_flash_attempt` builds it. -/
def attemptRecord (ts : Instant) : PushRecord :=
  let identity := host.sinkAttemptIdentity input
  { kind := input.pushKind
    ts := ts
    channel := input.channel
    renderedLen := input.renderedLen
    auditSchemaVersion := some newsFlashDeliveryAuditSchemaVersion
    newsFlashSources := some input.sources
    newsFlashReservationSha256 := some input.reservationSha256
    newsFlashEvidenceSha256 := some input.evidenceSha256
    newsFlashRenderSha256 := some input.renderSha256
    newsFlashBusinessDate := some input.businessDate
    newsFlashDecisionKey := some input.decisionKey
    newsFlashTransactionStage := some NewsFlashTransactionStage.sinkAttempt.asStr
    newsFlashAttemptOrdinal := some input.attemptOrdinal
    newsFlashAttemptObservedAt := some input.observedAt
    newsFlashSinkAttemptIdentity := some identity
    newsFlashSinkAttemptSha256 := some (host.sinkAttemptSha256 input identity)
    newsFlashAttemptEnvelopeId := none }

/-- The record of a terminal, as `new_news_flash_terminal` builds it from the attempt's receipt. -/
def terminalRecord (state : TerminalState) (ts : Instant) : PushRecord where
  kind := attempt.input.pushKind
  ts := ts
  channel := attempt.input.channel
  renderedLen := attempt.input.renderedLen
  auditSchemaVersion := some newsFlashDeliveryAuditSchemaVersion
  newsFlashSources := some attempt.input.sources
  newsFlashReservationSha256 := some attempt.input.reservationSha256
  newsFlashEvidenceSha256 := some attempt.input.evidenceSha256
  newsFlashRenderSha256 := some attempt.input.renderSha256
  newsFlashBusinessDate := some attempt.input.businessDate
  newsFlashDecisionKey := some attempt.input.decisionKey
  newsFlashTransactionStage := some state.stage.asStr
  newsFlashAttemptOrdinal := some attempt.input.attemptOrdinal
  newsFlashAttemptObservedAt := some attempt.input.observedAt
  newsFlashSinkAttemptIdentity := some attempt.sinkAttemptIdentity
  newsFlashSinkAttemptSha256 := some attempt.sinkAttemptSha256
  newsFlashAttemptEnvelopeId := some attempt.envelopeId

def NewsFlashTerminalDisposition.state : NewsFlashTerminalDisposition → TerminalState
  | .accepted _ => .accepted
  | .definitivelyRejected _ _ => .definitivelyRejected
  | .uncertain _ => .uncertain

inductive NewsFlashDeliveryAuditError where
  | duplicateAuthority (envelopeId : String)

/-- `append_exact_news_flash_authority`: an id is appended only once. -/
def appendExactNewsFlashAuthority (audit : List EventEnvelope) (envelope : EventEnvelope) :
    Except NewsFlashDeliveryAuditError (List EventEnvelope) := do
  require (∀ other ∈ audit, other.id ≠ envelope.id) (.duplicateAuthority envelope.id)
  pure (audit ++ [envelope])

/-- The receipt of an attempt that was appended. -/
def attemptReceipt (ts : Instant) : NewsFlashAttemptReceipt where
  envelopeId := host.transactionJoin (attemptRecord host input ts) none
  input := input
  sinkAttemptIdentity := host.sinkAttemptIdentity input
  sinkAttemptSha256 := host.sinkAttemptSha256 input (host.sinkAttemptIdentity input)

/-- The envelope of an attempt. -/
def attemptEnvelope (ts : Instant) : EventEnvelope :=
  .ofRecord (attemptReceipt host input ts).envelopeId (attemptRecord host input ts)

/-- The envelope of a terminal. -/
def terminalEnvelope (input : NewsFlashTerminalAuditInput) (ts : Instant) : EventEnvelope :=
  let record := terminalRecord attempt input.disposition.state ts
  .ofRecord (host.transactionJoin record (some input)) record

def terminalReceipt (input : NewsFlashTerminalAuditInput) (ts : Instant) :
    NewsFlashTerminalReceipt :=
  let envelopeId := (terminalEnvelope host attempt input ts).id
  match input.disposition with
  | .accepted remote => .accepted ⟨envelopeId, attempt, remote, host.remoteReceiptIdentity remote,
      host.remoteReceiptSha256 remote⟩
  | .definitivelyRejected reasonCode _ =>
    .definitivelyRejected ⟨envelopeId, attempt, reasonCode⟩
  | .uncertain reasonCode => .uncertain ⟨envelopeId, attempt, reasonCode⟩

/-- `persist_news_flash_attempt_with`. -/
def persistNewsFlashAttempt (audit : List EventEnvelope) (input : NewsFlashAttemptAuditInput)
    (ts : Instant) :
    Except NewsFlashDeliveryAuditError (List EventEnvelope × NewsFlashAttemptReceipt) := do
  let appended ← appendExactNewsFlashAuthority audit (attemptEnvelope host input ts)
  pure (appended, attemptReceipt host input ts)

/-- `persist_news_flash_terminal_with`. -/
def persistNewsFlashTerminal (audit : List EventEnvelope) (attempt : NewsFlashAttemptReceipt)
    (input : NewsFlashTerminalAuditInput) (ts : Instant) :
    Except NewsFlashDeliveryAuditError (List EventEnvelope × NewsFlashTerminalReceipt) := do
  let appended ← appendExactNewsFlashAuthority audit (terminalEnvelope host attempt input ts)
  pure (appended, terminalReceipt host attempt input ts)

/-! ## Actions -/

/-- A reservation that the running process holds, with what it has recorded for it. -/
structure Held where
  reservation : FlashReservation
  attempt : Option NewsFlashAttemptReceipt
  terminal : Option NewsFlashTerminalReceipt

def Held.withAttempt (held : Held) (attempt : NewsFlashAttemptReceipt) : Held :=
  ⟨held.reservation, some attempt, held.terminal⟩

def Held.withTerminal (held : Held) (terminal : NewsFlashTerminalReceipt) : Held :=
  ⟨held.reservation, held.attempt, some terminal⟩

structure World where
  gate : NewsFlashGate
  audit : List EventEnvelope
  live : List Held

def World.start (past : List EventEnvelope) (today : Day) : World :=
  ⟨NewsFlashGate.new today, past, []⟩

inductive Action where
  | tick (events : List NewsFlashProjectedEvent) (now : Instant)
  | attempt (tokenId : Nat) (channel : String) (observedAt ts : Instant)
  | terminal (tokenId : Nat) (input : NewsFlashTerminalAuditInput) (ts : Instant)
  /-- The settlement with the receipt of the terminal. -/
  | settle (tokenId : Nat)
  | rollBack (tokenId : Nat) (reason : String)
  | uncertain (tokenId : Nat) (reason : String)
  | restart (today : Day)

namespace World

/-- The reservations that a tick issues, with the gate after it. -/
def issue (day : Day) (world : World) (events : List NewsFlashProjectedEvent) (now : Instant) :
    Option (NewsFlashGate × List FlashReservation) :=
  match reconcileNewsFlashEnvelopes host.localDate world.audit day with
  | .error _ => none
  | .ok snapshot =>
    (NewsFlashGate.reserveFromAuthority host world.gate snapshot events now).toOption

def held? (world : World) (tokenId : Nat) : Option Held :=
  world.live.find? fun held => held.reservation.tokenId = tokenId

/-- The held reservations with another entry for one token. -/
def update (world : World) (changed : Held) : List Held :=
  world.live.map fun held =>
    if held.reservation.tokenId = changed.reservation.tokenId then changed else held

def settle (host : Host) (world : World) (held : Held) (settlement : FlashSettlement) : World where
  gate := (world.gate.settle host held.reservation settlement).1
  audit := world.audit
  live := world.live.filter fun other => other.reservation.tokenId ≠ held.reservation.tokenId

def recordAttempt (world : World) (held : Held) (channel : String) (observedAt ts : Instant) :
    World :=
  match persistNewsFlashAttempt host world.audit
      (held.reservation.attemptInput channel observedAt) ts with
  | .error _ => world
  | .ok (audit, receipt) =>
    { world with audit := audit, live := (world.update (held.withAttempt receipt)) }

def recordTerminal (world : World) (held : Held) (attempt : NewsFlashAttemptReceipt)
    (input : NewsFlashTerminalAuditInput) (ts : Instant) : World :=
  match persistNewsFlashTerminal host world.audit attempt input ts with
  | .error _ => world
  | .ok (audit, receipt) =>
    { world with audit := audit, live := (world.update (held.withTerminal receipt)) }

def perform (day : Day) (world : World) : Action → World
  | .tick events now =>
    match world.issue host day events now with
    | none => world
    | some (gate, issued) =>
      { world with gate := gate, live := world.live ++ issued.map fun r => ⟨r, none, none⟩ }
  | .attempt tokenId channel observedAt ts =>
    match world.held? tokenId with
    | none => world
    | some held =>
      if held.attempt.isNone then world.recordAttempt host held channel observedAt ts else world
  | .terminal tokenId input ts =>
    match world.held? tokenId with
    | none => world
    | some held =>
      match held.attempt with
      | none => world
      | some attempt =>
        if held.terminal.isNone then world.recordTerminal host held attempt input ts
        else world
  | .settle tokenId =>
    match world.held? tokenId with
    | none => world
    | some held =>
      match held.terminal with
      | none => world
      | some receipt => world.settle host held (.terminal receipt)
  | .rollBack tokenId reason =>
    match world.held? tokenId with
    | none => world
    | some held =>
      if held.terminal.isNone then world.settle host held (.rolledBack reason) else world
  | .uncertain tokenId reason =>
    match world.held? tokenId with
    | none => world
    | some held =>
      if held.terminal.isNone then world.settle host held (.uncertain reason) else world
  | .restart today => { world with gate := NewsFlashGate.new today, live := [] }

def run (day : Day) (world : World) (actions : List Action) : World :=
  actions.foldl (perform host day) world

end World

/-! ## What an action does -/

/-- What one action can do. -/
inductive Performed (host : Host) (day : Day) (world : World) : Action → World → Prop where
  | idle (action : Action) : Performed host day world action world
  | ticked {events : List NewsFlashProjectedEvent} {now : Instant}
      {snapshot : NewsFlashAuthoritySnapshot} {gate : NewsFlashGate}
      {issued : List FlashReservation}
      (reconciled : reconcileNewsFlashEnvelopes host.localDate world.audit day = .ok snapshot)
      (ticked : NewsFlashGate.Ticked snapshot world.gate gate issued) :
      Performed host day world (.tick events now)
        { world with gate := gate, live := world.live ++ issued.map fun r => ⟨r, none, none⟩ }
  | attempted {held : Held} {channel : String} {observedAt ts : Instant}
      (member : held ∈ world.live) (first : held.attempt = none)
      (fresh : ∀ other ∈ world.audit,
        other.id ≠
          (attemptReceipt host (held.reservation.attemptInput channel observedAt) ts).envelopeId) :
      Performed host day world (.attempt held.reservation.tokenId channel observedAt ts)
        { world with
          audit := world.audit ++
            [attemptEnvelope host (held.reservation.attemptInput channel observedAt) ts]
          live := (world.update (held.withAttempt
            (attemptReceipt host (held.reservation.attemptInput channel observedAt) ts))) }
  | ended {held : Held} {attempt : NewsFlashAttemptReceipt} {input : NewsFlashTerminalAuditInput}
      {ts : Instant} (member : held ∈ world.live) (attempted : held.attempt = some attempt)
      (isOpen : held.terminal = none)
      (fresh : ∀ other ∈ world.audit, other.id ≠ (terminalEnvelope host attempt input ts).id) :
      Performed host day world (.terminal held.reservation.tokenId input ts)
        { world with
          audit := world.audit ++ [terminalEnvelope host attempt input ts]
          live := (world.update (held.withTerminal (terminalReceipt host attempt input ts))) }
  | settled {held : Held} (action : Action) (member : held ∈ world.live)
      (settlement : FlashSettlement) :
      Performed host day world action (world.settle host held settlement)
  | restarted (today : Day) :
      Performed host day world (.restart today)
        { world with gate := NewsFlashGate.new today, live := [] }

variable {held : Held} {world : World}

theorem World.held?_mem {tokenId : Nat} (found : world.held? tokenId = some held) :
    held ∈ world.live ∧ held.reservation.tokenId = tokenId :=
  ⟨List.mem_of_find?_eq_some found, by simpa using List.find?_some found⟩

variable {host : Host} {day : Day}

theorem World.issue_eq_some {events : List NewsFlashProjectedEvent} {now : Instant}
    {gate : NewsFlashGate} {issued : List FlashReservation}
    (done : world.issue host day events now = some (gate, issued)) :
    ∃ snapshot, reconcileNewsFlashEnvelopes host.localDate world.audit day = .ok snapshot ∧
      NewsFlashGate.Ticked snapshot world.gate gate issued := by
  unfold issue at done
  split at done
  · cases done
  · rename_i snapshot reconciled
    cases reserved : NewsFlashGate.reserveFromAuthority host world.gate snapshot events now with
    | error reason =>
      rw [reserved] at done
      cases done
    | ok result =>
      rw [reserved] at done
      obtain rfl := Option.some.inj done
      exact ⟨snapshot, reconciled, NewsFlashGate.reserveFromAuthority_eq_ok reserved⟩

theorem World.perform_performed (host : Host) (day : Day) (world : World) (action : Action) :
    Performed host day world action (world.perform host day action) := by
  cases action with
  | tick events now =>
    simp only [perform]
    split
    · exact .idle _
    · rename_i gate issued isIssued
      obtain ⟨snapshot, reconciled, ticked⟩ := issue_eq_some isIssued
      exact .ticked reconciled ticked
  | attempt tokenId channel observedAt ts =>
    simp only [perform]
    split
    · exact .idle _
    · rename_i held found
      obtain ⟨member, rfl⟩ := held?_mem found
      split
      · rename_i first
        rw [Option.isNone_iff_eq_none] at first
        unfold recordAttempt
        split
        · exact .idle _
        · rename_i audit receipt persisted
          simp only [persistNewsFlashAttempt, appendExactNewsFlashAuthority, bind_eq_ok,
            require_eq_ok, pure_eq_ok, Prod.mk.injEq] at persisted
          obtain ⟨_, ⟨_, fresh, rfl⟩, rfl, rfl⟩ := persisted
          exact .attempted member first fresh
      · exact .idle _
  | terminal tokenId input ts =>
    simp only [perform]
    split
    · exact .idle _
    · rename_i held found
      obtain ⟨member, rfl⟩ := held?_mem found
      split
      · exact .idle _
      · rename_i attempt attempted
        split
        · rename_i isOpen
          rw [Option.isNone_iff_eq_none] at isOpen
          unfold recordTerminal
          split
          · exact .idle _
          · rename_i audit receipt persisted
            simp only [persistNewsFlashTerminal, appendExactNewsFlashAuthority, bind_eq_ok,
              require_eq_ok, pure_eq_ok, Prod.mk.injEq] at persisted
            obtain ⟨_, ⟨_, fresh, rfl⟩, rfl, rfl⟩ := persisted
            exact .ended member attempted isOpen fresh
        · exact .idle _
  | settle tokenId =>
    simp only [perform]
    split
    · exact .idle _
    · rename_i held found
      obtain ⟨member, rfl⟩ := held?_mem found
      split
      · exact .idle _
      · exact .settled _ member _
  | rollBack tokenId reason =>
    simp only [perform]
    split
    · exact .idle _
    · rename_i held found
      obtain ⟨member, rfl⟩ := held?_mem found
      split
      · exact .settled _ member _
      · exact .idle _
  | uncertain tokenId reason =>
    simp only [perform]
    split
    · exact .idle _
    · rename_i held found
      obtain ⟨member, rfl⟩ := held?_mem found
      split
      · exact .settled _ member _
      · exact .idle _
  | restart today => exact .restarted today

/-- A property that every action keeps holds after every run. -/
theorem World.run_induction (property : World → Prop)
    (kept : ∀ before action after, property before → Performed host day before action after →
      property after) (initial : property world) (actions : List Action) :
    property (world.run host day actions) := by
  induction actions generalizing world with
  | nil => exact initial
  | cons action actions ih => exact ih (kept _ _ _ initial (world.perform_performed host day action))

/-- Every action of the run is allowed in the state it is taken in. -/
def World.Along (host : Host) (day : Day) (allowed : World → Action → Prop) :
    World → List Action → Prop
  | _, [] => True
  | world, action :: actions =>
    allowed world action ∧ World.Along host day allowed (world.perform host day action) actions

instance World.Along.decidable (host : Host) (day : Day) (allowed : World → Action → Prop)
    [∀ world action, Decidable (allowed world action)] :
    ∀ world actions, Decidable (World.Along host day allowed world actions)
  | _, [] => isTrue trivial
  | world, action :: actions =>
    have := World.Along.decidable host day allowed (world.perform host day action) actions
    inferInstanceAs (Decidable (_ ∧ _))

/-- A property that every allowed action keeps holds after every run of allowed actions. -/
theorem World.Along.induction {allowed : World → Action → Prop} (property : World → Prop)
    {actions : List Action} (along : World.Along host day allowed world actions)
    (kept : ∀ before action after, property before → allowed before action →
      Performed host day before action after → property after) (initial : property world) :
    property (world.run host day actions) := by
  induction actions generalizing world with
  | nil => exact initial
  | cons action actions ih =>
    have next := kept _ _ _ initial along.1 (world.perform_performed host day action)
    exact ih along.2 next

/-! ## Records that were appended -/

theorem tryFromAuthoritative_ofRecord {id : String} {record : PushRecord}
    (version : record.auditSchemaVersion = some newsFlashDeliveryAuditSchemaVersion) :
    PushRecord.tryFromAuthoritative (.ofRecord id record) = .ok record := by
  have listed : record.auditSchemaVersion.any (· ∈ [2, 3, 4, 5, 7, 8, 6]) = true := by
    rw [version]
    decide
  exact bind_eq_ok.mpr ⟨record, rfl, bind_eq_ok.mpr ⟨⟨⟩, require_pos listed, rfl⟩⟩

theorem read_attemptEnvelope (host : Host) (input : NewsFlashAttemptAuditInput) (ts : Instant) :
    PushRecord.tryFromAuthoritative (attemptEnvelope host input ts) =
      .ok (attemptRecord host input ts) :=
  tryFromAuthoritative_ofRecord rfl

theorem read_terminalEnvelope (host : Host) (attempt : NewsFlashAttemptReceipt)
    (input : NewsFlashTerminalAuditInput) (ts : Instant) :
    PushRecord.tryFromAuthoritative (terminalEnvelope host attempt input ts) =
      .ok (terminalRecord attempt input.disposition.state ts) :=
  tryFromAuthoritative_ofRecord rfl

theorem attemptRecord_stage (host : Host) (input : NewsFlashAttemptAuditInput) (ts : Instant) :
    (attemptRecord host input ts).stage = some .sinkAttempt :=
  NewsFlashTransactionStage.parse_asStr .sinkAttempt

theorem terminalRecord_stage (attempt : NewsFlashAttemptReceipt) (state : TerminalState)
    (ts : Instant) : (terminalRecord attempt state ts).stage = some state.stage :=
  NewsFlashTransactionStage.parse_asStr _

/-- A terminal repeats the attempt whose receipt it was built from. -/
theorem attemptRecord_binds (host : Host) (input : NewsFlashAttemptAuditInput)
    (state : TerminalState) (attemptTs ts : Instant) :
    (attemptRecord host input attemptTs).Binds
      (terminalRecord (attemptReceipt host input attemptTs) state ts) :=
  ⟨rfl, rfl, rfl, rfl, rfl, rfl, rfl, rfl, rfl, rfl, rfl, rfl, rfl, rfl⟩

/-! ## The invariant of every day -/

/-- No aggregate transaction of the day was recorded before. -/
def Fresh (day : Day) (past : List EventEnvelope) : Prop :=
  ∀ envelope ∈ past, ∀ record, PushRecord.tryFromAuthoritative envelope = .ok record →
    record.kind = aggregatedKind → record.newsFlashBusinessDate ≠ some day

/-- A held reservation is for a window of the day, and its token is pending. -/
structure Held.Valid (held : Held) (day : Day) (gate : NewsFlashGate) (index : Fin 4) : Prop where
  key : held.reservation.decisionKey = (gateWindow index).decisionKey
  kind : held.reservation.pushKind = aggregatedKind
  date : held.reservation.businessDate = day
  pending : gate.pending.get? held.reservation.tokenId =
    some (.aggregate index held.reservation.reservationIdentitySha256)

/-- The invariant of a run of the gate. -/
structure Going (host : Host) (day : Day) (world : World) : Prop where
  delivered : ∀ envelope ∈ world.audit, envelope.Delivered day
  valid : ∀ held ∈ world.live, ∃ index, held.Valid day world.gate index
  /-- Two held reservations have different tokens and different windows. -/
  distinct : (world.live.map Held.reservation).Pairwise NewsFlashGate.Apart
  /-- The attempt of a held reservation is in the audit. -/
  recorded : ∀ held ∈ world.live, ∀ attempt, held.attempt = some attempt →
    ∃ channel observedAt ts,
      attempt = attemptReceipt host (held.reservation.attemptInput channel observedAt) ts ∧
      attemptEnvelope host (held.reservation.attemptInput channel observedAt) ts ∈ world.audit

theorem World.mem_update {changed : Held} (member : held ∈ world.update changed) :
    held = changed ∨
      (held ∈ world.live ∧ held.reservation.tokenId ≠ changed.reservation.tokenId) := by
  obtain ⟨old, listed, isOld⟩ := List.mem_map.mp member
  split at isOld
  · exact Or.inl isOld.symm
  · rename_i other
    exact Or.inr ⟨isOld ▸ listed, isOld ▸ other⟩

theorem attemptEnvelope_delivered (host : Host) (input : NewsFlashAttemptAuditInput) (ts : Instant)
    (day : Day) : (attemptEnvelope host input ts).Delivered day :=
  fun _ _ _ _ => rfl

theorem terminalEnvelope_delivered (host : Host) (attempt : NewsFlashAttemptReceipt)
    (input : NewsFlashTerminalAuditInput) (ts : Instant) (day : Day) :
    (terminalEnvelope host attempt input ts).Delivered day :=
  fun _ _ _ _ => rfl

namespace Going

variable {next : World} {action : Action} {past : List EventEnvelope}

theorem start (fresh : Fresh day past) (today : Day) :
    Going host day (World.start past today) where
  delivered := fun envelope member record read aggregated onDay =>
    absurd onDay (fresh envelope member record read aggregated)
  valid := by simp [World.start]
  distinct := List.Pairwise.nil
  recorded := by simp [World.start]

/-- While a reservation is held, a token is pending. -/
theorem live_eq_nil (going : Going host day world) (idle : world.gate.pending.entries = []) :
    world.live = [] := by
  rw [List.eq_nil_iff_forall_not_mem]
  intro held member
  obtain ⟨index, valid⟩ := going.valid held member
  have entry := OrdMap.get?_eq_some_iff.mp valid.pending
  rw [idle] at entry
  cases entry

variable {first second : Held}

section

variable (going : Going host day world)

include going

/-- Held reservations with different tokens are for different windows. -/
theorem apart (inFirst : first ∈ world.live) (inSecond : second ∈ world.live)
    (otherToken : first.reservation.tokenId ≠ second.reservation.tokenId) :
    NewsFlashGate.Apart first.reservation second.reservation :=
  going.distinct.forall (List.mem_map_of_mem inFirst) (List.mem_map_of_mem inSecond)
    fun same => otherToken (congrArg FlashReservation.tokenId same)

/-- A token belongs to one held reservation. -/
theorem reservation_unique (inFirst : first ∈ world.live) (inSecond : second ∈ world.live)
    (sameToken : first.reservation.tokenId = second.reservation.tokenId) :
    first.reservation = second.reservation := by
  by_contra different
  exact (going.distinct.forall (List.mem_map_of_mem inFirst) (List.mem_map_of_mem inSecond)
    different).token sameToken

/-- A change of what is recorded for a held reservation. -/
theorem updating (member : held ∈ world.live) (changed : Held)
    (same : changed.reservation = held.reservation) {envelope : EventEnvelope}
    (delivered : envelope.Delivered day)
    (recorded : ∀ attempt, changed.attempt = some attempt → ∃ channel observedAt ts,
      attempt = attemptReceipt host (held.reservation.attemptInput channel observedAt) ts ∧
      attemptEnvelope host (held.reservation.attemptInput channel observedAt) ts ∈
        world.audit ++ [envelope]) :
    Going host day { world with
      audit := world.audit ++ [envelope], live := (world.update changed) } where
  delivered := by
    intro other listed
    rcases mem_concat.mp listed with earlier | last
    · exact going.delivered other earlier
    · exact last ▸ delivered
  valid := by
    intro other listed
    rcases World.mem_update listed with rfl | ⟨old, _⟩
    · obtain ⟨index, valid⟩ := going.valid held member
      exact ⟨index, ⟨same ▸ valid.key, same ▸ valid.kind, same ▸ valid.date, same ▸ valid.pending⟩⟩
    · exact going.valid other old
  distinct := by
    -- The entry that changed keeps its reservation, so the list of reservations is the same.
    have keeps : (world.update changed).map Held.reservation = world.live.map Held.reservation := by
      rw [World.update, List.map_map]
      refine List.map_congr_left fun other listed => ?_
      simp only [Function.comp_apply]
      split
      · rename_i sameToken
        rw [same] at sameToken ⊢
        exact going.reservation_unique member listed sameToken.symm
      · rfl
    exact keeps ▸ going.distinct
  recorded := by
    intro other listed attempt isAttempt
    rcases World.mem_update listed with rfl | ⟨old, _⟩
    · rw [same]
      exact recorded attempt isAttempt
    · obtain ⟨channel, observedAt, ts, isReceipt, inAudit⟩ := going.recorded other old attempt isAttempt
      exact ⟨channel, observedAt, ts, isReceipt, List.mem_append_left _ inAudit⟩

theorem step (performed : Performed host day world action next) : Going host day next := by
  cases performed with
  | idle _ => exact going
  | @ticked _ _ snapshot gate issued reconciled ticked =>
    have isDay : snapshot.businessDate = day := by
      obtain ⟨_, _, snapshotted⟩ := reconcile_eq_ok reconciled
      exact snapshotted.date
    constructor
    · exact going.delivered
    · intro held listed
      rw [going.live_eq_nil ticked.idle, List.nil_append] at listed
      obtain ⟨reservation, member, rfl⟩ := List.mem_map.mp listed
      obtain ⟨index, key, kind, date, _, _, _, pending⟩ := ticked.reservations reservation member
      exact ⟨index, key, kind, date.trans isDay, pending⟩
    · rw [going.live_eq_nil ticked.idle, List.nil_append, List.map_map]
      simpa [Function.comp_def] using ticked.distinct
    · intro held listed attempt isAttempt
      rw [going.live_eq_nil ticked.idle, List.nil_append] at listed
      obtain ⟨reservation, _, rfl⟩ := List.mem_map.mp listed
      cases isAttempt
  | @attempted held channel observedAt ts member _ _ =>
    refine going.updating member (held.withAttempt _) rfl (attemptEnvelope_delivered _ _ _ _)
      fun attempt isAttempt => ?_
    obtain rfl := Option.some.inj isAttempt
    exact ⟨channel, observedAt, ts, rfl, by simp⟩
  | @ended held attempt input ts member attempted _ _ =>
    refine going.updating member (held.withTerminal _) rfl (terminalEnvelope_delivered _ _ _ _ _)
      fun other isOther => ?_
    obtain ⟨channel, observedAt, attemptTs, isReceipt, inAudit⟩ :=
      going.recorded held member other isOther
    exact ⟨channel, observedAt, attemptTs, isReceipt, List.mem_append_left _ inAudit⟩
  | @settled held _ member settlement =>
    have kept : ∀ {other}, other ∈ (world.settle host held settlement).live →
        other ∈ world.live ∧ other.reservation.tokenId ≠ held.reservation.tokenId := by
      intro other listed
      simpa [World.settle] using listed
    constructor
    · exact going.delivered
    · intro other listed
      obtain ⟨old, different⟩ := kept listed
      obtain ⟨index, valid⟩ := going.valid other old
      refine ⟨index, valid.key, valid.kind, valid.date, ?_⟩
      exact (NewsFlashGate.settle_pending host _ _ _ different).trans valid.pending
    · exact going.distinct.sublist (List.filter_sublist.map _)
    · intro other listed
      exact going.recorded other (kept listed).1
  | restarted today =>
    constructor
    · exact going.delivered
    · simp
    · exact List.Pairwise.nil
    · simp

end

theorem run (fresh : Fresh day past) (today : Day) (actions : List Action) :
    Going host day ((World.start past today).run host day actions) :=
  World.run_induction (Going host day) (fun _ _ _ going performed => going.step performed)
    (start fresh today) actions

end Going

/-! ## A sample day -/

/-- A host whose digests repeat what they are taken of, in a place where every instant is on one
day. -/
def sampleHost : Host where
  localDate := fun _ => 20
  localTime := fun _ time => some ((time.1 * 3600 + time.2 * 60 : Nat) * nanosPerSecond)
  evidenceSha256 := fun sources => sources.foldl (fun text source => text ++ source.eventId) ""
  renderSha256 := fun _ => "render"
  reservationSha256 := fun fields => fields.decisionKey ++ fields.evidenceSha256
  sinkAttemptIdentity := fun input => input.reservationSha256
  sinkAttemptSha256 := fun _ identity => identity
  remoteReceiptIdentity := fun receipt => receipt.messageId
  remoteReceiptSha256 := fun receipt => receipt.platformMessageId
  transactionJoin := fun record _ => record.newsFlashTransactionStage.getD "" ++
    record.newsFlashReservationSha256.getD "" ++
    toString (record.newsFlashAttemptOrdinal.getD 0)

/-- Ten seconds into the morning window. -/
def sampleNow : Instant := 34210 * nanosPerSecond

def sampleEvent (eventId : String) (strength : Nat) : NewsFlashProjectedEvent where
  event := ⟨eventId, "title", .policy, strength, 80, sampleNow, [⟨"Eastmoney", sampleNow⟩], false⟩
  source := ⟨eventId, "Eastmoney", "eastmoney-web", sampleNow, sampleNow, "batch"⟩

/-- One event is pushed in the morning window, with the given outcome. -/
def samplePush (disposition : NewsFlashTerminalDisposition) : List Action :=
  [.tick [sampleEvent "first" 50] sampleNow,
    .attempt 1 "magiclaw" sampleNow sampleNow,
    .terminal 1 ⟨disposition, sampleNow, 5⟩ sampleNow,
    .settle 1]

end StockAnalysis.NewsFlash
