import StockAnalysis.Ledger.Replay

/-!
# Commands of the paper ledger

`PaperLedger::apply` with its four commands, and the explicit writer of derived snapshots. Each
command loads and verifies the whole account, looks for an earlier event of the same identity,
and otherwise appends exactly one event and moves the head.
-/

namespace StockAnalysis.Ledger

variable (host : Host) (access : Access) (store : Store)

/-- `seed.binding()`. -/
def seedBinding (seed : SeedManifest) : AccountBinding :=
  ⟨seed.accountId, seed.epochId, host.manifestHash seed⟩

/-- The fee of an order's receipt; the sum was checked before the order was persisted. -/
def receiptFee (order : OrderFact) : Money :=
  ((order.commission.checkedAdd order.stamp).getD 0)

def receipt (version : Int) (hash : String) (fact : Fact) (repeated : Bool) : PaperReceipt :=
  let plain : PaperReceipt :=
    { version := version
      eventHash := hash
      alreadyApplied := repeated
      status := .seeded
      reason := none
      paperTradeId := none
      audit := none
      cashDelta := 0
      fee := 0
      fillPrice := none }
  match fact with
  | .seeded _ _ _ => plain
  | .marked _ => { plain with status := .marked }
  | .derivedSnapshotV1 _ => { plain with status := .snapshotRecorded }
  | .adjudicatedV1 ruling =>
    { plain with
      status := .adjudicated
      reason :=
        match ruling.historicalProjection with
        | some (_, reason) => reason
        | none => ruling.projection.economicUnavailable }
  | .order order =>
    { plain with
      status := order.status
      reason := order.reason
      paperTradeId := order.paperTradeId
      audit := some order.audit
      cashDelta := order.cashDelta
      fee := receiptFee order
      fillPrice := if order.status = .filled then some order.requestedPrice else none }

/-! ## Appending one event -/

/-- The unique indexes of `paper_ledger_event`: one event a command, and one terminal order a
plan. Trade and audit identities are fresh row keys and never collide. -/
def eventAllowed (events : List EventRow) (row : EventRow) : Outcome Unit := do
  require (events.all (fun event => event.commandId ≠ row.commandId) = true)
    (.database "UNIQUE constraint failed: paper_ledger_event.command_id")
  require (row.isTerminal = false ∨
    events.all (fun event => !(event.isTerminal &&
      decide (event.businessPlanId = row.businessPlanId))) = true)
    (.database "UNIQUE constraint failed: paper_ledger_terminal_plan")

def nextVersion (version : Int) : Outcome Int := do
  let next ← okOr (I64.ofInt? (version + 1)) .overflow
  pure next.val

/-- Append one event and move the head, which must still be where the command found it. -/
def append (binding : AccountBinding) (command : String) (before : PaperView) (fact : Fact) :
    Outcome (Store × PaperReceipt) := do
  require (blank command = false) (.invalidInput "empty command identity")
  let next ← applyFact host before.projection fact
  let version ← nextVersion before.version
  let row := eventRow host binding.accountId version command before.eventHash fact
  let book ← bookOf store binding.accountId
  eventAllowed book.events row
  let head ← okOr book.head .versionChanged
  require (head.version = before.version ∧ head.eventHash = before.eventHash) .versionChanged
  let written : Book := { book with
    events := book.events ++ [row]
    head := some ⟨version, row.eventHash, next⟩ }
  pure ({ store with books := store.books.insert binding.accountId written },
    receipt version row.eventHash fact false)

/-! ## Earlier events of the same identity -/

/-- What an identity scan makes of one event: a conflict, the committed receipt, or nothing. -/
def matchOrder (sameCommand : Bool) (plan : Option (String × String)) (row : EventRow)
    (order : OrderFact) : Outcome (Option PaperReceipt) :=
  match plan with
  | none => .error .identityConflict
  | some (id, hash) =>
    if order.planId ≠ id ∨ order.intentHash ≠ hash then .error .identityConflict
    else if sameCommand ∨ order.status ≠ .rejected then
      pure (some (receipt row.seq row.eventHash row.payload true))
    else pure none

def matchMarked (mark : Option ValuationBatch) (row : EventRow) (original : ValuationBatch) :
    Outcome (Option PaperReceipt) :=
  match mark with
  | none => .error .identityConflict
  | some batch =>
    if (original.asOf, original.closing, original.marks) =
        (batch.asOf, batch.closing, batch.marks) then
      pure (some (receipt row.seq row.eventHash row.payload true))
    else .error .identityConflict

def matchEvent (command : String) (plan : Option (String × String))
    (mark : Option ValuationBatch) (row : EventRow) : Outcome (Option PaperReceipt) :=
  let sameCommand := decide (row.commandId = command)
  match row.payload with
  | .order order =>
    if sameCommand ∨ plan.any (fun wanted => decide (order.planId = wanted.1)) then
      matchOrder sameCommand plan row order
    else pure none
  | .marked original => if sameCommand then matchMarked mark row original else pure none
  | _ => if sameCommand then .error .identityConflict else pure none

/-- `replay_command`: the first event that decides. -/
def replayCommand (command : String) (plan : Option (String × String))
    (mark : Option ValuationBatch) : List EventRow → Outcome (Option PaperReceipt)
  | [] => pure none
  | row :: rows => do
      let found ← matchEvent command plan mark row
      match found with
      | some receipt => pure (some receipt)
      | none => replayCommand command plan mark rows

/-! ## The four commands -/

def seedOn (seed : SeedManifest) (now : Instant) : Outcome (Store × PaperReceipt) :=
  let binding := seedBinding host seed
  match store.books.get? seed.accountId with
  | some existing => do
      require (existing.manifestHash = binding.manifestHash) .identityConflict
      let _ ← load host access store binding
      let event ← okOr existing.events.head? (.integrityFailure "missing genesis")
      pure (store, receipt 1 event.eventHash event.payload true)
  | none => do
      let projection ← seedProjection host seed
      require (seed.cutoverAt ≤ now) (.invalidInput "future cutover")
      let legacy := (store.trades.map RawTrade.id).foldl max 0
      let highWater ← validateOrderAuditChain host store.audits
      require (store.books.values.all (fun book => book.epochId ≠ seed.epochId) = true)
        (.database "UNIQUE constraint failed: paper_ledger_account.epoch_id")
      let fact : Fact := .seeded seed legacy highWater
      let row := eventRow host binding.accountId 1 seed.commandId genesisHash fact
      let book : Book :=
        { epochId := binding.epochId
          manifestHash := binding.manifestHash
          manifest := seed
          events := [row]
          head := some ⟨1, row.eventHash, projection⟩ }
      pure ({ store with books := store.books.insert binding.accountId book },
        receipt 1 row.eventHash fact false)

/-- A closing batch is taken after fifteen o'clock Shanghai time on a trading day. -/
def checkClosing (batch : ValuationBatch) : Outcome Unit :=
  if batch.closing then do
    let error := LedgerError.evidenceUnavailable
      "closing baseline requires completed verified trading day"
    require (15 ≤ hour batch.asOf) error
    let tradingDay ← host.calendarDay (day batch.asOf)
    require (tradingDay = true) error
  else pure ()

/-- The part of `mark_on` after the identity scan. -/
def markFresh (view : PaperView) (batch : ValuationBatch) (now : Instant) :
    Outcome (Store × PaperReceipt) := do
  view.projection.requireAvailable
  checkHead host view batch.expectedVersion batch.inventoryFingerprint
  require (view.projection.asOf ≤ batch.asOf ∧ batch.asOf ≤ now ∧
    batch.marks.all (fun mark => mark.observedAt = batch.asOf) = true)
    (.evidenceUnavailable "valuation time mismatch/future/backward")
  checkClosing host batch
  let _ ← admitMarks view.projection.lots batch.marks none
  append host store batch.binding batch.commandId view (.marked batch)

def markOn (batch : ValuationBatch) (now : Instant) : Outcome (Store × PaperReceipt) := do
  let view ← load host access store batch.binding
  let book ← bookOf store batch.binding.accountId
  let previous ← replayCommand batch.commandId none (some batch) book.events
  match previous with
  | some receipt => pure (store, receipt)
  | none => markFresh host store view batch now

/-- The part of `execute` after the identity scan. -/
def executeFresh (view : PaperView) (book : Book) (intent : ExecuteIntent) (intentHash : String)
    (now : Instant) (createdAt : String) : Outcome (Store × PaperReceipt) := do
  view.projection.requireAvailable
  let terms ← orderTerms host view intent now
  let verdict := orderVerdict host intent view.projection terms book.manifest.policy now
  let effect ← fillEffect host view.projection.lots intent terms now verdict.1
  let (audits, audit) ← insertOrderAudit host store.audits
    (orderAuditRecord host intent view terms verdict.1 verdict.2 createdAt)
  let (trades, tradeId) ← insertTrade host store.trades
    (tradeRow host intent terms now verdict.1 verdict.2) verdict.1
  append host { store with trades := trades, audits := audits } intent.binding intent.commandId
    view (.order
      (orderFact intent view intentHash terms now verdict.1 verdict.2 effect tradeId audit))

def execute (intent : ExecuteIntent) (now : Instant) (createdAt : String) :
    Outcome (Store × PaperReceipt) := do
  let view ← load host access store intent.binding
  let intentHash ← orderIntentHash host intent.binding intent.signal intent.priceIntent
  let book ← bookOf store intent.binding.accountId
  let previous ← replayCommand intent.commandId (some (intent.signal.planId, intentHash)) none
    book.events
  match previous with
  | some receipt => pure (store, receipt)
  | none => executeFresh host store view book intent intentHash now createdAt

/-- `prepare`: the ruling fact of an admissible request. -/
def prepareRuling (book : Book) (view : PaperView) (request : Adjudication) (now : Instant) :
    Outcome AdjudicatedFact := do
  require (request.expectedVersion = view.version ∧ request.expectedHead = view.eventHash)
    .versionChanged
  require (request.decisionAt ≤ now ∧ blank request.requestId = false ∧
    blank request.reason = false ∧ blank request.evidence = false ∧
    blank request.operator = false ∧ blank request.source = false)
    (.invalidInput "ruling requires explicit identity, reason, evidence, operator/source and nonfuture decision")
  let original ← fingerprint host store request.binding book.events request.original.paperTradeId
  require (request.original = original) (.integrityFailure "ruling source fingerprint mismatch")
  validateFactTime host request
  require (predecessor book.events request.original.paperTradeId = request.expectedPredecessor)
    .versionChanged
  let projection ← recompute host book.events request view.projection
  let historical ← historicalProjection host request.binding book.events request
  pure ⟨request, projection, historical⟩

def adjudicateOn (request : Adjudication) (now : Instant) : Outcome (Store × PaperReceipt) := do
  access.catalog
  let view ← load host access store request.binding
  let book ← bookOf store request.binding.accountId
  match book.events.find? fun row => row.commandId = request.requestId with
  | some row =>
    match row.payload with
    | .adjudicatedV1 original =>
      if original.request = request then
        pure (store, receipt row.seq row.eventHash row.payload true)
      else .error .identityConflict
    | _ => .error .identityConflict
  | none => do
      let fact ← prepareRuling host store book view request now
      append host store request.binding request.requestId view (.adjudicatedV1 fact)

def PaperCommand.binding (host : Host) : PaperCommand → AccountBinding
  | .seed manifest => seedBinding host manifest
  | .execute intent => intent.binding
  | .mark batch => batch.binding
  | .adjudicate request => request.binding

/-- `PaperLedger::apply`: the whole transaction of one command. -/
def apply (now : Instant) (createdAt : String) (store : Store) (command : PaperCommand) :
    Outcome (Store × PaperReceipt) := do
  access.owner (command.binding host)
  match command with
  | .seed manifest => seedOn host access store manifest now
  | .execute intent => execute host access store intent now createdAt
  | .mark batch => markOn host access store batch now
  | .adjudicate request => adjudicateOn host access store request now

/-- `settle_snapshot`, from the point where the revision and its command are derived from the
effective fills. A snapshot already recorded under the command is returned as it is. -/
def settleSnapshot (binding : AccountBinding) (command : String) (revision : SnapshotRevision) :
    Outcome (Store × SnapshotRevision) := do
  access.owner binding
  let book ← bookOf store binding.accountId
  match book.events.find? fun row => row.commandId = command with
  | some row =>
    match row.payload with
    | .derivedSnapshotV1 original => do
        validateSnapshot host original
        pure (store, original)
    | _ => .error .identityConflict
  | none => do
      let view ← load host access store binding
      let (written, _) ← append host store binding command view (.derivedSnapshotV1 revision)
      pure (written, revision)

end StockAnalysis.Ledger
