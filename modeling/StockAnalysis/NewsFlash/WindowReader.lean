import StockAnalysis.NewsFlash.Types

/-!
# The reader of one window

`requery_news_flash_window_terminal_from_envelopes` walks the audit and keeps the attempts of one
window of one day. A later attempt is opened only under the same reservation, with a greater
ordinal, and after the attempt before it was definitively rejected; a terminal must repeat its
attempt and is the only one. The answer is the last attempt with its terminal.

`Scanned` says what the reader holds after a part of the audit, in terms of that part alone.
-/

namespace StockAnalysis.NewsFlash

/-! ## The reader -/

structure AttemptState where
  envelope : EventEnvelope
  record : PushRecord
  terminal : Option (EventEnvelope × TerminalState)

/-- The local variables of the reader's loop. -/
structure WindowScan where
  attempts : OrdMap String AttemptState
  attemptOrder : List String
  reservation : Option String

variable (scan : WindowScan)

def WindowScan.start : WindowScan :=
  ⟨OrdMap.empty, [], none⟩

/-- An aggregate transaction record, with the members that the loop takes out of it. -/
structure WindowRow where
  record : PushRecord
  stage : NewsFlashTransactionStage
  decisionKey : String
  date : Day

/-- The checks before the match on the stage; nothing for an envelope that the loop skips. -/
def windowRow (envelope : EventEnvelope) : Outcome (Option WindowRow) :=
  if envelope.schemaVersion ≠ some newsFlashDeliveryAuditSchemaVersion then .ok none
  else do
    let record ← (PushRecord.tryFromAuthoritative envelope).mapError fun error =>
      NewsFlashReconcileError.invalidChain error.display
    require (record.auditSchemaVersion = some newsFlashDeliveryAuditSchemaVersion)
      (.recordConflict "NewsFlash delivery audit schema mismatch")
    match record.stage with
    | none => .ok none
    | some stage =>
      if record.kind ≠ aggregatedKind then .ok none
      else do
        let recordKey ← okOr record.newsFlashDecisionKey (.recordConflict "decision key missing")
        let _ ← acceptedWindowLabel recordKey
        let recordDate ← okOr record.newsFlashBusinessDate
          (.recordConflict "business date missing")
        pure (some ⟨record, stage, recordKey, recordDate⟩)

/-- The checks of a later attempt against the one before it. -/
def WindowScan.checkPrevious (ordinal : Nat) : Outcome PUnit :=
  match scan.attemptOrder.getLast? with
  | none => .ok ⟨⟩
  | some previousId => do
      let previous ← okOr (scan.attempts.get? previousId)
        (.recordConflict "prior window attempt disappeared")
      let previousOrdinal ← okOr previous.record.newsFlashAttemptOrdinal
        (.recordConflict "prior attempt ordinal missing")
      require (previousOrdinal < ordinal)
        (.recordConflict "window attempt ordinal must increase strictly")
      require (previous.terminal.map Prod.snd = some .definitivelyRejected)
        (.recordConflict "only a definitively rejected attempt may open a later attempt")

def WindowScan.openAttempt (envelope : EventEnvelope) (record : PushRecord) : Outcome WindowScan := do
  let currentReservation ← okOr record.newsFlashReservationSha256
    (.recordConflict "reservation hash missing")
  require (scan.reservation = none ∨ scan.reservation = some currentReservation)
    (.recordConflict "window attempts use different reservations")
  let ordinal ← okOr record.newsFlashAttemptOrdinal (.recordConflict "attempt ordinal missing")
  require (ordinal ≠ 0) (.recordConflict "attempt ordinal must be positive")
  scan.checkPrevious ordinal
  require (scan.attempts.contains envelope.id = false)
    (.recordConflict "duplicate sink attempt envelope")
  pure
    { attempts := scan.attempts.insert envelope.id ⟨envelope, record, none⟩
      attemptOrder := scan.attemptOrder ++ [envelope.id]
      reservation := some currentReservation }

def WindowScan.sealAttempt (envelope : EventEnvelope) (record : PushRecord) (state : TerminalState)
    (targetsWindow : Bool) : Outcome WindowScan := do
  let attemptId ← okOr record.newsFlashAttemptEnvelopeId
    (.recordConflict "terminal attempt envelope missing")
  if targetsWindow = false ∧ scan.attempts.contains attemptId = false then pure scan
  else do
    let attempt ← okOr (scan.attempts.get? attemptId)
      (.recordConflict ("terminal precedes or lacks sink attempt " ++ attemptId))
    validateTerminalAttemptBinding attempt.record record
    require (attempt.terminal.isNone = true)
      (.recordConflict ("multiple terminal records for attempt " ++ attemptId))
    pure { scan with
      attempts := scan.attempts.insert attemptId { attempt with terminal := some (envelope, state) } }

/-- One iteration of the loop. -/
def requeryEnvelope (day : Day) (window : NewsFlashWindow) (scan : WindowScan)
    (envelope : EventEnvelope) : Outcome WindowScan := do
  let row ← windowRow envelope
  match row with
  | none => pure scan
  | some row =>
    let targetsWindow : Bool := row.date = day && row.decisionKey = window.decisionKey
    match row.stage.terminal with
    | none => if targetsWindow then scan.openAttempt envelope row.record else pure scan
    | some state => scan.sealAttempt envelope row.record state targetsWindow

structure NewsFlashWindowTerminalRecord where
  attempt : EventEnvelope
  terminal : EventEnvelope

inductive NewsFlashWindowTerminalQuery where
  | missing
  | pendingSeal
  | terminal (record : NewsFlashWindowTerminalRecord)

/-- How many attempts of the window were accepted. -/
def WindowScan.acceptedCount : Nat :=
  scan.attemptOrder.countP fun attemptId =>
    ((scan.attempts.get? attemptId).bind AttemptState.terminal).any fun terminal =>
      terminal.2 = .accepted

/-- The answer of the reader after the loop. -/
def WindowScan.answer : Outcome NewsFlashWindowTerminalQuery :=
  match scan.attemptOrder.getLast? with
  | none => .ok .missing
  | some latestId => do
      require (scan.acceptedCount ≤ 1)
        (.recordConflict "window has multiple Accepted terminals")
      let latest ← okOr (scan.attempts.get? latestId)
        (.recordConflict "latest window attempt disappeared")
      match latest.terminal with
      | none => pure .pendingSeal
      | some terminal => pure (.terminal ⟨latest.envelope, terminal.1⟩)

/-- `requery_news_flash_window_terminal_from_envelopes`. -/
def requeryNewsFlashWindowTerminalFromEnvelopes (envelopes : List EventEnvelope) (day : Day)
    (window : NewsFlashWindow) : Outcome NewsFlashWindowTerminalQuery := do
  let scan ← each (requeryEnvelope day window) WindowScan.start envelopes
  scan.answer

/-! ## What one envelope does -/

variable {row : WindowRow} {envelope : EventEnvelope}

theorem windowRow_eq_some (found : windowRow envelope = .ok (some row)) :
    envelope.Reads row.record ∧
    row.record.kind = aggregatedKind ∧ row.record.stage = some row.stage ∧
    row.record.newsFlashDecisionKey = some row.decisionKey ∧
    row.record.newsFlashBusinessDate = some row.date := by
  unfold windowRow at found
  split at found
  · cases found
  · simp only [bind_eq_ok, mapError_eq_ok, require_eq_ok] at found
    obtain ⟨record, read, _, _, found⟩ := found
    split at found
    · cases found
    · rename_i stage isStage
      split at found
      · cases found
      · rename_i aggregated
        simp only [bind_eq_ok, okOr_eq_ok, pure_eq_ok, Option.some.injEq] at found
        obtain ⟨key, isKey, _, _, date, isDate, rfl⟩ := found
        exact ⟨read, not_not.mp aggregated, isStage, isKey, isDate⟩

variable {record : PushRecord} {ordinal : Nat} {stage : NewsFlashTransactionStage} {day : Day}
  {window : NewsFlashWindow}

/-- An envelope that the loop skips holds no record of any window. -/
theorem windowRow_eq_none (delivered : envelope.Delivered day)
    (skipped : windowRow envelope = .ok none) (read : envelope.Reads record) :
    ¬ record.Of day window stage := by
  rintro ⟨aggregated, isDate, isKey, isStage⟩
  have version := delivered record read aggregated isDate
  simp only [windowRow, version, ne_eq, not_true_eq_false, if_false, bind_eq_ok, mapError_eq_ok,
    require_eq_ok] at skipped
  obtain ⟨other, readOther, _, _, skipped⟩ := skipped
  obtain rfl : record = other := Except.ok.inj (read.symm.trans readOther)
  simp [isStage, aggregated, isKey, okOr, isDate, pure, Except.pure] at skipped

/-- A record of a window is read as its row. -/
theorem windowRow_of (delivered : envelope.Delivered day) (read : envelope.Reads record)
    (isOf : record.Of day window stage) :
    windowRow envelope = .ok (some ⟨record, stage, window.decisionKey, day⟩) := by
  obtain ⟨aggregated, isDate, isKey, isStage⟩ := isOf
  have version := delivered record read aggregated isDate
  have recordVersion := (PushRecord.tryFromAuthoritative_version read).trans version
  simp [windowRow, version, read, Except.mapError, require_pos recordVersion, isStage, aggregated,
    isKey, okOr, isDate, pure, Except.pure]

/-- What an accepted iteration did. -/
inductive Requeried (day : Day) (window : NewsFlashWindow) (scan : WindowScan)
    (envelope : EventEnvelope) : WindowScan → Prop where
  | skipped (noAttempt : attemptOf day window envelope = false)
      (noTerminal : ∀ attemptId, terminalOf day window attemptId envelope = false) :
      Requeried day window scan envelope scan
  | opened {record : PushRecord} {reservation : String} {ordinal : Nat}
      (read : envelope.Reads record) (isOf : record.Of day window .sinkAttempt)
      (reserved : record.newsFlashReservationSha256 = some reservation)
      (same : scan.reservation = none ∨ scan.reservation = some reservation)
      (numbered : record.newsFlashAttemptOrdinal = some ordinal)
      (previous : scan.checkPrevious ordinal = .ok ⟨⟩)
      (fresh : scan.attempts.get? envelope.id = none) :
      Requeried day window scan envelope
        { attempts := scan.attempts.insert envelope.id ⟨envelope, record, none⟩
          attemptOrder := scan.attemptOrder ++ [envelope.id]
          reservation := some reservation }
  | sealed {record : PushRecord} {state : TerminalState} {attemptId : String}
      {attempt : AttemptState} (read : envelope.Reads record)
      (inStage : record.stage = some state.stage)
      (named : record.newsFlashAttemptEnvelopeId = some attemptId)
      (held : scan.attempts.get? attemptId = some attempt)
      (binds : attempt.record.Binds record) (isOpen : attempt.terminal = none) :
      Requeried day window scan envelope
        { scan with attempts := (scan.attempts.insert attemptId
            { attempt with terminal := some (envelope, state) }) }

/-- A record of another window or day is not a record of this window. -/
theorem not_of_row (isKey : row.record.newsFlashDecisionKey = some row.decisionKey)
    (isDate : row.record.newsFlashBusinessDate = some row.date)
    (elsewhere : ¬ (row.date = day ∧ row.decisionKey = window.decisionKey))
    (stage : NewsFlashTransactionStage) : ¬ row.record.Of day window stage := by
  rintro ⟨_, onDay, underKey, _⟩
  have sameDay := Option.some.inj (isDate.symm.trans onDay)
  have sameKey := Option.some.inj (isKey.symm.trans underKey)
  exact elsewhere ⟨sameDay, sameKey⟩

variable {scan next : WindowScan}

theorem WindowScan.openAttempt_eq_ok :
    scan.openAttempt envelope record = .ok next ↔
      ∃ reservation ordinal, record.newsFlashReservationSha256 = some reservation ∧
        (scan.reservation = none ∨ scan.reservation = some reservation) ∧
        record.newsFlashAttemptOrdinal = some ordinal ∧ ordinal ≠ 0 ∧
        scan.checkPrevious ordinal = .ok ⟨⟩ ∧ scan.attempts.get? envelope.id = none ∧
        next = { attempts := scan.attempts.insert envelope.id ⟨envelope, record, none⟩
                 attemptOrder := scan.attemptOrder ++ [envelope.id]
                 reservation := some reservation } := by
  simp only [openAttempt, bind_eq_ok, okOr_eq_ok, require_eq_ok, pure_eq_ok, OrdMap.contains,
    Option.isSome_eq_false_iff, Option.isNone_iff_eq_none]
  constructor
  · rintro ⟨reservation, reserved, _, same, ordinal, numbered, _, positive, ⟨⟩, previous, _, fresh,
      rfl⟩
    exact ⟨reservation, ordinal, reserved, same, numbered, positive, previous, fresh, rfl⟩
  · rintro ⟨reservation, ordinal, reserved, same, numbered, positive, previous, fresh, rfl⟩
    exact ⟨reservation, reserved, ⟨⟩, same, ordinal, numbered, ⟨⟩, positive, ⟨⟩, previous, ⟨⟩,
      fresh, rfl⟩

theorem requeryEnvelope_eq_ok (delivered : envelope.Delivered day)
    (done : requeryEnvelope day window scan envelope = .ok next) :
    Requeried day window scan envelope next := by
  obtain ⟨row, isRow, done⟩ := bind_eq_ok.mp done
  cases row with
  | none =>
    obtain rfl : scan = next := pure_eq_ok.mp done
    have other : ∀ record stage, envelope.Reads record →
        ¬ record.Of day window stage := fun _ _ read => windowRow_eq_none delivered isRow read
    apply Requeried.skipped
    · exact attemptOf_eq_false fun record read => other record _ read
    · exact terminalOf_eq_false fun record state read => other record _ read
  | some row =>
    obtain ⟨read, aggregated, isStage, isKey, isDate⟩ := windowRow_eq_some isRow
    have only : ∀ record, envelope.Reads record → record = row.record := fun record readRecord =>
      Except.ok.inj (readRecord.symm.trans read)
    dsimp only at done
    split at done
    · rename_i isAttempt
      rw [NewsFlashTransactionStage.terminal_eq_none] at isAttempt
      have noTerminal : ∀ attemptId, terminalOf day window attemptId envelope = false := by
        refine terminalOf_eq_false fun record state readRecord isOf => ?_
        have staged := isOf.2.2.2
        rw [only record readRecord, isStage, isAttempt] at staged
        cases state <;> cases staged
      split at done
      · rename_i targets
        simp only [Bool.and_eq_true, decide_eq_true_eq] at targets
        obtain ⟨reservation, ordinal, reserved, same, numbered, _, previous, fresh, rfl⟩ :=
          WindowScan.openAttempt_eq_ok.mp done
        refine .opened read ⟨aggregated, ?_, ?_, ?_⟩ reserved same numbered previous fresh
        · rw [isDate, targets.1]
        · rw [isKey, targets.2]
        · rw [isStage, isAttempt]
      · rename_i elsewhere
        simp only [Bool.and_eq_true, decide_eq_true_eq] at elsewhere
        obtain rfl : scan = next := pure_eq_ok.mp done
        refine .skipped (attemptOf_eq_false fun record readRecord => ?_) noTerminal
        rw [only record readRecord]
        exact not_of_row isKey isDate elsewhere _
    · rename_i state isTerminal
      rw [NewsFlashTransactionStage.terminal_eq_some] at isTerminal
      simp only [WindowScan.sealAttempt, bind_eq_ok, okOr_eq_ok] at done
      obtain ⟨attemptId, named, done⟩ := done
      split at done
      · rename_i outside
        simp only [Bool.and_eq_false_iff, decide_eq_false_iff_not] at outside
        obtain rfl : scan = next := pure_eq_ok.mp done
        have elsewhere : ¬ (row.date = day ∧ row.decisionKey = window.decisionKey) := by
          rintro ⟨onDay, underKey⟩
          exact outside.1.elim (· onDay) (· underKey)
        apply Requeried.skipped
        · refine attemptOf_eq_false fun record readRecord => ?_
          rw [only record readRecord]
          exact not_of_row isKey isDate elsewhere _
        · refine terminalOf_eq_false fun record other readRecord => ?_
          rw [only record readRecord]
          exact not_of_row isKey isDate elsewhere _
      · simp only [bind_eq_ok, okOr_eq_ok, validateTerminalAttemptBinding, require_eq_ok,
          pure_eq_ok, Option.isNone_iff_eq_none] at done
        obtain ⟨attempt, held, _, binds, _, isOpen, rfl⟩ := done
        exact .sealed read (isStage.trans (congrArg some isTerminal)) named held binds isOpen

/-! ## What the loop holds -/

/-- What the reader holds of a window after the envelopes `seen`. -/
structure Scanned (day : Day) (window : NewsFlashWindow) (seen : List EventEnvelope)
    (scan : WindowScan) : Prop where
  /-- The attempts are listed in the order of the audit. -/
  order : scan.attemptOrder = (seen.filter (attemptOf day window)).map EventEnvelope.id
  listed : ∀ attemptId, attemptId ∈ scan.attemptOrder ↔
    ∃ attempt, scan.attempts.get? attemptId = some attempt
  /-- An attempt is held under its id as the audit records it. -/
  recorded : ∀ attemptId attempt, scan.attempts.get? attemptId = some attempt →
    attempt.envelope ∈ seen ∧ attempt.envelope.id = attemptId ∧
    attempt.envelope.Reads attempt.record ∧ attempt.record.Of day window .sinkAttempt
  /-- The audit records no attempt of the window twice under one id. -/
  covered : ∀ envelope ∈ seen, attemptOf day window envelope = true →
    ∃ attempt, scan.attempts.get? envelope.id = some attempt ∧ attempt.envelope = envelope
  /-- All attempts are made under one reservation. -/
  reserved : ∀ attemptId attempt, scan.attempts.get? attemptId = some attempt →
    ∃ reservation, scan.reservation = some reservation ∧
      attempt.record.newsFlashReservationSha256 = some reservation
  used : ∀ reservation, scan.reservation = some reservation → ∃ attemptId attempt,
    scan.attempts.get? attemptId = some attempt ∧
    attempt.record.newsFlashReservationSha256 = some reservation
  /-- An attempt has the terminal that the audit records for it. -/
  terminals : ∀ attemptId attempt, scan.attempts.get? attemptId = some attempt →
    attempt.terminal.map Prod.fst = seen.find? (terminalOf day window attemptId)
  bound : ∀ attemptId attempt envelope state, scan.attempts.get? attemptId = some attempt →
    attempt.terminal = some (envelope, state) →
    ∃ record, envelope.Reads record ∧
      record.stage = some (TerminalState.stage state) ∧ attempt.record.Binds record
  /-- Every terminal of the window ends an attempt that is held. -/
  ended : ∀ attemptId, ∀ envelope ∈ seen, terminalOf day window attemptId envelope = true →
    ∃ attempt, scan.attempts.get? attemptId = some attempt
  /-- All attempts but the last were definitively rejected. -/
  settled : ∀ attemptId ∈ scan.attemptOrder.dropLast, ∃ attempt,
    scan.attempts.get? attemptId = some attempt ∧
    attempt.terminal.map Prod.snd = some .definitivelyRejected

theorem WindowScan.checkPrevious_eq_ok (passed : scan.checkPrevious ordinal = .ok ⟨⟩)
    {previousId : String} (last : scan.attemptOrder.getLast? = some previousId) :
    ∃ previous, scan.attempts.get? previousId = some previous ∧
      previous.terminal.map Prod.snd = some .definitivelyRejected := by
  simp only [checkPrevious, last, bind_eq_ok, okOr_eq_ok, require_eq_ok] at passed
  obtain ⟨previous, held, _, _, _, _, rejected⟩ := passed
  exact ⟨previous, held, rejected⟩

variable {attemptId : String} {attempt : AttemptState}

namespace Scanned

variable {seen : List EventEnvelope}

theorem start : Scanned day window [] WindowScan.start where
  order := rfl
  listed := by simp [WindowScan.start]
  recorded := by simp [WindowScan.start]
  covered := by simp
  reserved := by simp [WindowScan.start]
  used := by simp [WindowScan.start]
  terminals := by simp [WindowScan.start]
  bound := by simp [WindowScan.start]
  ended := by simp
  settled := by simp [WindowScan.start]

section

variable (scanned : Scanned day window seen scan)

include scanned

theorem skipping (noAttempt : attemptOf day window envelope = false)
    (noTerminal : ∀ attemptId, terminalOf day window attemptId envelope = false) :
    Scanned day window (seen ++ [envelope]) scan where
  order := by simp [scanned.order, List.filter_append, noAttempt]
  listed := scanned.listed
  recorded := by
    intro attemptId attempt held
    obtain ⟨member, rest⟩ := scanned.recorded attemptId attempt held
    exact ⟨List.mem_append_left _ member, rest⟩
  covered := by
    intro other member isAttempt
    rcases mem_concat.mp member with earlier | last
    · exact scanned.covered other earlier isAttempt
    · rw [last, noAttempt] at isAttempt
      cases isAttempt
  reserved := scanned.reserved
  used := scanned.used
  terminals := by
    intro attemptId attempt held
    rw [scanned.terminals attemptId attempt held, List.find?_append]
    simp [noTerminal attemptId]
  bound := scanned.bound
  ended := by
    intro attemptId other member isTerminal
    rcases mem_concat.mp member with earlier | rfl
    · exact scanned.ended attemptId other earlier isTerminal
    · rw [noTerminal attemptId] at isTerminal
      cases isTerminal
  settled := scanned.settled

/-- The attempts before the one that is opened were all definitively rejected. -/
theorem settled_of_previous (previous : scan.checkPrevious ordinal = .ok ⟨⟩)
    (listed : attemptId ∈ scan.attemptOrder) :
    ∃ attempt,
      scan.attempts.get? attemptId = some attempt ∧
      attempt.terminal.map Prod.snd = some .definitivelyRejected := by
  have nonempty : scan.attemptOrder ≠ [] := List.ne_nil_of_mem listed
  rw [← List.dropLast_append_getLast nonempty] at listed
  rcases mem_concat.mp listed with earlier | last
  · exact scanned.settled attemptId earlier
  · rw [last]
    exact WindowScan.checkPrevious_eq_ok previous (List.getLast?_eq_some_getLast nonempty)

theorem opening {reservation : String} (read : envelope.Reads record)
    (isOf : record.Of day window .sinkAttempt)
    (reserved : record.newsFlashReservationSha256 = some reservation)
    (same : scan.reservation = none ∨ scan.reservation = some reservation)
    (previous : scan.checkPrevious ordinal = .ok ⟨⟩) (fresh : scan.attempts.get? envelope.id = none) :
    Scanned day window (seen ++ [envelope])
      { attempts := scan.attempts.insert envelope.id ⟨envelope, record, none⟩
        attemptOrder := scan.attemptOrder ++ [envelope.id]
        reservation := some reservation } := by
  have isAttempt : attemptOf day window envelope = true := attemptOf_iff.mpr ⟨record, read, isOf⟩
  have noTerminal : ∀ attemptId, terminalOf day window attemptId envelope = false := by
    refine terminalOf_eq_false fun other state readOther other_isOf => ?_
    obtain rfl : record = other := Except.ok.inj (read.symm.trans readOther)
    have staged := isOf.2.2.2.symm.trans other_isOf.2.2.2
    cases state <;> cases staged
  -- An attempt that is held already stays as it is.
  have stays : ∀ {attemptId attempt}, scan.attempts.get? attemptId = some attempt → _ :=
    fun held => OrdMap.get?_insert_of_absent fresh held ⟨envelope, record, none⟩
  constructor
  · simp [scanned.order, List.filter_append, isAttempt]
  · intro attemptId
    rw [List.mem_append, List.mem_singleton, scanned.listed]
    constructor
    · rintro (⟨attempt, held⟩ | rfl)
      · exact ⟨attempt, stays held⟩
      · exact ⟨_, OrdMap.get?_insert_self _ _ _⟩
    · rintro ⟨attempt, held⟩
      rcases OrdMap.get?_insert_eq_some.mp held with ⟨isNew, _⟩ | ⟨_, old⟩
      · exact Or.inr isNew
      · exact Or.inl ⟨attempt, old⟩
  · intro attemptId attempt held
    rcases OrdMap.get?_insert_eq_some.mp held with ⟨rfl, rfl⟩ | ⟨_, old⟩
    · exact ⟨by simp, rfl, read, isOf⟩
    · obtain ⟨member, rest⟩ := scanned.recorded attemptId attempt old
      exact ⟨List.mem_append_left _ member, rest⟩
  · intro other member isOther
    rcases mem_concat.mp member with earlier | last
    · obtain ⟨attempt, held, isEnvelope⟩ := scanned.covered other earlier isOther
      exact ⟨attempt, stays held, isEnvelope⟩
    · rw [last]
      exact ⟨_, OrdMap.get?_insert_self _ _ _, rfl⟩
  · intro attemptId attempt held
    rcases OrdMap.get?_insert_eq_some.mp held with ⟨rfl, rfl⟩ | ⟨_, old⟩
    · exact ⟨reservation, rfl, reserved⟩
    · obtain ⟨other, isOther, underOther⟩ := scanned.reserved attemptId attempt old
      rcases same with none | same
      · rw [none] at isOther
        cases isOther
      · obtain rfl : reservation = other := Option.some.inj (same.symm.trans isOther)
        exact ⟨reservation, rfl, underOther⟩
  · intro other isOther
    obtain rfl := Option.some.inj isOther
    exact ⟨envelope.id, _, OrdMap.get?_insert_self _ _ _, reserved⟩
  · intro attemptId attempt held
    rw [List.find?_append]
    rcases OrdMap.get?_insert_eq_some.mp held with ⟨rfl, rfl⟩ | ⟨_, old⟩
    · have none : seen.find? (terminalOf day window envelope.id) = none := by
        rw [List.find?_eq_none]
        intro other member isTerminal
        obtain ⟨attempt, old⟩ := scanned.ended envelope.id other member isTerminal
        rw [fresh] at old
        cases old
      simp [none, noTerminal]
    · rw [scanned.terminals attemptId attempt old]
      simp [noTerminal attemptId]
  · intro attemptId attempt terminal state held isTerminal
    rcases OrdMap.get?_insert_eq_some.mp held with ⟨rfl, rfl⟩ | ⟨_, old⟩
    · cases isTerminal
    · exact scanned.bound attemptId attempt terminal state old isTerminal
  · intro attemptId other member isTerminal
    rcases mem_concat.mp member with earlier | rfl
    · obtain ⟨attempt, held⟩ := scanned.ended attemptId other earlier isTerminal
      exact ⟨attempt, stays held⟩
    · rw [noTerminal attemptId] at isTerminal
      cases isTerminal
  · intro attemptId earlier
    rw [List.dropLast_concat] at earlier
    obtain ⟨attempt, held, rejected⟩ := scanned.settled_of_previous previous earlier
    exact ⟨attempt, stays held, rejected⟩

theorem sealing {state : TerminalState} (read : envelope.Reads record)
    (inStage : record.stage = some state.stage)
    (named : record.newsFlashAttemptEnvelopeId = some attemptId)
    (held : scan.attempts.get? attemptId = some attempt) (binds : attempt.record.Binds record)
    (isOpen : attempt.terminal = none) :
    Scanned day window (seen ++ [envelope])
      { scan with attempts := (scan.attempts.insert attemptId
          { attempt with terminal := some (envelope, state) }) } := by
  have isOf : record.Of day window state.stage :=
    binds.isOf (scanned.recorded attemptId attempt held).2.2.2 inStage
  have noAttempt : attemptOf day window envelope = false := by
    refine attemptOf_eq_false fun other readOther other_isOf => ?_
    obtain rfl : record = other := Except.ok.inj (read.symm.trans readOther)
    have staged := isOf.2.2.2.symm.trans other_isOf.2.2.2
    cases state <;> cases staged
  have ends : ∀ {otherId}, terminalOf day window otherId envelope = true ↔ otherId = attemptId := by
    intro otherId
    rw [terminalOf_iff]
    constructor
    · rintro ⟨other, _, readOther, namedOther, _⟩
      obtain rfl : record = other := Except.ok.inj (read.symm.trans readOther)
      exact Option.some.inj (namedOther.symm.trans named)
    · rintro rfl
      exact ⟨record, state, read, named, isOf⟩
  have stays : ∀ {otherId old}, scan.attempts.get? otherId = some old → ∃ now,
      (scan.attempts.insert attemptId
        { attempt with terminal := some (envelope, state) }).get? otherId = some now ∧
      now.envelope = old.envelope ∧ now.record = old.record := by
    intro otherId old isOld
    by_cases isIt : otherId = attemptId
    · subst isIt
      obtain rfl := Option.some.inj (held.symm.trans isOld)
      exact ⟨_, OrdMap.get?_insert_self _ _ _, rfl, rfl⟩
    · exact ⟨old, OrdMap.get?_insert_eq_some.mpr (Or.inr ⟨isIt, isOld⟩), rfl, rfl⟩
  constructor
  · simp [scanned.order, List.filter_append, noAttempt]
  · intro otherId
    rw [scanned.listed, OrdMap.get?_insert]
    by_cases isIt : attemptId = otherId
    · simp [← isIt, held]
    · simp [isIt]
  · intro otherId other found
    rcases OrdMap.get?_insert_eq_some.mp found with ⟨rfl, rfl⟩ | ⟨_, old⟩
    · obtain ⟨member, rest⟩ := scanned.recorded otherId attempt held
      exact ⟨List.mem_append_left _ member, rest⟩
    · obtain ⟨member, rest⟩ := scanned.recorded otherId other old
      exact ⟨List.mem_append_left _ member, rest⟩
  · intro other member isOther
    rcases mem_concat.mp member with earlier | last
    · obtain ⟨old, isOld, isEnvelope⟩ := scanned.covered other earlier isOther
      obtain ⟨now, isNow, sameEnvelope, _⟩ := stays isOld
      exact ⟨now, isNow, sameEnvelope.trans isEnvelope⟩
    · rw [last, noAttempt] at isOther
      cases isOther
  · intro otherId other found
    rcases OrdMap.get?_insert_eq_some.mp found with ⟨rfl, rfl⟩ | ⟨_, old⟩
    · exact scanned.reserved otherId attempt held
    · exact scanned.reserved otherId other old
  · intro reservation isReservation
    obtain ⟨otherId, old, isOld, reserved⟩ := scanned.used reservation isReservation
    obtain ⟨now, isNow, _, sameRecord⟩ := stays isOld
    exact ⟨otherId, now, isNow, sameRecord ▸ reserved⟩
  · intro otherId other found
    rw [List.find?_append]
    rcases OrdMap.get?_insert_eq_some.mp found with ⟨rfl, rfl⟩ | ⟨different, old⟩
    · have none := scanned.terminals otherId attempt held
      rw [isOpen] at none
      simp [← none, ends]
    · have notIt : terminalOf day window otherId envelope = false := by
        rw [Bool.eq_false_iff, ne_eq, ends]
        exact different
      rw [scanned.terminals otherId other old]
      simp [notIt]
  · intro otherId other terminal otherState found isTerminal
    rcases OrdMap.get?_insert_eq_some.mp found with ⟨rfl, rfl⟩ | ⟨_, old⟩
    · cases isTerminal
      exact ⟨record, read, inStage, binds⟩
    · exact scanned.bound otherId other terminal otherState old isTerminal
  · intro otherId other member isTerminal
    rw [OrdMap.get?_insert]
    by_cases isIt : attemptId = otherId
    · simp [isIt]
    · rw [if_neg isIt]
      rcases mem_concat.mp member with earlier | rfl
      · exact scanned.ended otherId other earlier isTerminal
      · exact absurd (ends.mp isTerminal).symm isIt
  · intro otherId earlier
    obtain ⟨other, old, rejected⟩ := scanned.settled otherId earlier
    -- A rejected attempt is not the open one.
    have different : otherId ≠ attemptId := by
      rintro rfl
      obtain rfl : attempt = other := Option.some.inj (held.symm.trans old)
      simp [isOpen] at rejected
    exact ⟨other, OrdMap.get?_insert_eq_some.mpr (Or.inr ⟨different, old⟩), rejected⟩

theorem step (done : Requeried day window scan envelope next) :
    Scanned day window (seen ++ [envelope]) next := by
  cases done with
  | skipped noAttempt noTerminal => exact scanned.skipping noAttempt noTerminal
  | opened read isOf reserved same _ previous fresh =>
    exact scanned.opening read isOf reserved same previous fresh
  | sealed read inStage named held binds isOpen =>
    exact scanned.sealing read inStage named held binds isOpen

end

theorem run {envelopes : List EventEnvelope}
    (delivered : ∀ envelope ∈ envelopes, envelope.Delivered day)
    (done : each (requeryEnvelope day window) WindowScan.start envelopes = .ok scan) :
    Scanned day window envelopes scan := by
  have whole := each_trace
    (fun seen scan => (∀ envelope ∈ seen, EventEnvelope.Delivered envelope day) →
      Scanned day window seen scan)
    (fun seen state envelope next holds stepped all =>
      (holds fun other member => all other (List.mem_append_left _ member)).step
        (requeryEnvelope_eq_ok (all envelope (by simp)) stepped))
    (fun _ => start) done
  exact whole delivered

/-- The last attempt is the only one that may not have been rejected. -/
theorem last_of_not_rejected (scanned : Scanned day window seen scan) {latestId : String}
    (held : scan.attempts.get? attemptId = some attempt)
    (notRejected : attempt.terminal.map Prod.snd ≠ some .definitivelyRejected)
    (latest : scan.attemptOrder.getLast? = some latestId) : attemptId = latestId := by
  have nonempty : scan.attemptOrder ≠ [] := by
    rintro isNil
    rw [isNil] at latest
    cases latest
  have listed := (scanned.listed attemptId).mpr ⟨attempt, held⟩
  rw [← List.dropLast_append_getLast nonempty] at listed
  rcases mem_concat.mp listed with earlier | last
  · obtain ⟨other, old, rejected⟩ := scanned.settled attemptId earlier
    obtain rfl : attempt = other := Option.some.inj (held.symm.trans old)
    exact absurd rejected notRejected
  · rw [List.getLast?_eq_some_getLast nonempty] at latest
    exact last.trans (Option.some.inj latest)

end Scanned

end StockAnalysis.NewsFlash
