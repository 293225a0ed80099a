import StockAnalysis.Ledger.Store

/-!
# Replay and load

`replay_through` folds the events of an account from its seed, checking the hash chain and the
index columns of every row and verifying every ruling against the rows before it. `load`
replays the whole chain and compares the result with the stored head.
-/

namespace StockAnalysis.Ledger

variable (host : Host) (access : Access) (store : Store) (book : Book) (binding : AccountBinding)

/-- The index columns of an event: plan, intent hash, whether the order is terminal, and the
identities of its trade and audit rows. -/
structure Metadata where
  planId : Option String
  intentHash : Option String
  isTerminal : Bool
  paperTradeId : Option Int
  orderAuditId : Option Int
deriving DecidableEq

def metadata : Fact → Metadata
  | .order order =>
    ⟨some order.planId, some order.intentHash, decide (order.status ≠ .rejected),
      order.paperTradeId, some order.audit.id⟩
  | _ => ⟨none, none, false, none, none⟩

def EventRow.metadata (row : EventRow) : Metadata :=
  ⟨row.businessPlanId, row.intentHash, row.isTerminal, row.paperTradeId, row.orderAuditId⟩

/-- The row that stores a fact. -/
def eventRow (accountId : String) (seq : Int) (command previous : String) (fact : Fact) :
    EventRow :=
  { seq := seq
    commandId := command
    previousHash := previous
    eventHash := host.eventHash accountId seq command previous fact
    payload := fact
    businessPlanId := (metadata fact).planId
    intentHash := (metadata fact).intentHash
    isTerminal := (metadata fact).isTerminal
    paperTradeId := (metadata fact).paperTradeId
    orderAuditId := (metadata fact).orderAuditId }

/-! ## Verification of a ruling -/

def validateFactTime (request : Adjudication) : Outcome Unit :=
  match request.action with
  | .correctionDeclared _ _ factAt => do
      require (factAt ≤ request.decisionAt)
        (.invalidInput "corrected fact cannot follow decision time")
      let tradingDay ← host.calendarDay (day factAt)
      require (tradingDay = true)
        (.invalidInput "corrected execution must be on a verified trading day")
  | .quarantine => pure ()

def checkRulingHeader (request : Adjudication) (binding : AccountBinding) (seq : Int)
    (previous : String) : Outcome Unit := do
  validateFactTime host request
  require (request.binding = binding ∧ request.expectedVersion = seq - 1 ∧
    request.expectedHead = previous)
    (.integrityFailure "ruling binding/source/predecessor mismatch")

/-- The frozen history that a ruling on a pre-cutover fill leads to. -/
def historicalProjection (rows : List EventRow) (request : Adjudication) :
    Outcome (Option (String × Option String)) :=
  if request.original.legacyBeforeCutover then do
    let result ← host.legacyResult binding rows request
    pure (some result)
  else pure none

def verifyRuling (seq : Int) (previous : String) (fact : AdjudicatedFact) (before : Projection) :
    Outcome Unit := do
  access.catalog
  checkRulingHeader host fact.request binding seq previous
  let original ← fingerprint host store binding book.events fact.request.original.paperTradeId
  require (fact.request.original = original)
    (.integrityFailure "ruling binding/source/predecessor mismatch")
  let rows := book.events.filter fun row => row.seq < seq
  require (predecessor rows fact.request.original.paperTradeId = fact.request.expectedPredecessor)
    (.integrityFailure "ruling predecessor mismatch")
  let projection ← recompute host rows fact.request before
  require (projection = fact.projection) (.integrityFailure "ruling projection mismatch")
  let historical ← historicalProjection host binding rows fact.request
  require (historical = fact.historicalProjection)
    (.integrityFailure "historical ruling projection mismatch")

/-! ## Replay -/

def genesisHash : String := "PAPER_LEDGER_GENESIS_V1"

structure ReplayCursor where
  previous : String
  state : Option Projection
  version : Int

def startReplay (book : Book) : Outcome ReplayCursor := do
  require (book.epochId = binding.epochId ∧ book.manifestHash = binding.manifestHash ∧
    (⟨book.manifest.accountId, book.manifest.epochId, host.manifestHash book.manifest⟩ :
      AccountBinding) = binding) .inactiveEpoch
  pure ⟨genesisHash, none, 0⟩

/-- The row follows the cursor in the hash chain, and its index columns are those of its
payload. -/
def validateNextEvent (cursor : ReplayCursor) (row : EventRow) : Outcome Unit := do
  require (row.seq = cursor.version + 1 ∧ row.previousHash = cursor.previous ∧
    row.eventHash =
      host.eventHash binding.accountId row.seq row.commandId cursor.previous row.payload)
    (.integrityFailure "event chain mismatch")
  require (metadata row.payload = row.metadata)
    (.integrityFailure "event index/receipt metadata mismatch")

def verifyPending (cursor : ReplayCursor) (row : EventRow) : Outcome Unit :=
  match row.payload with
  | .adjudicatedV1 ruling => do
      let before ← okOr cursor.state (.integrityFailure "ruling before genesis")
      verifyRuling host access store book binding (cursor.version + 1) cursor.previous ruling
        before
  | _ => pure ()

/-- The state after an event: the seed alone begins a chain, and nothing else follows it. -/
def applyPending (cursor : ReplayCursor) (row : EventRow) : Outcome Projection :=
  match row.payload, cursor.state with
  | .seeded manifest _ _, state =>
    if cursor.version + 1 = 1 ∧ manifest = book.manifest then seedProjection host manifest
    else if 1 < cursor.version + 1 then do
      let state ← okOr state (.integrityFailure "missing genesis")
      applyFact host state row.payload
    else .error (.integrityFailure "invalid genesis/event order")
  | fact, state =>
    if 1 < cursor.version + 1 then do
      let state ← okOr state (.integrityFailure "missing genesis")
      applyFact host state fact
    else .error (.integrityFailure "invalid genesis/event order")

def replayStep (cursor : ReplayCursor) (row : EventRow) : Outcome ReplayCursor := do
  validateNextEvent host binding cursor row
  verifyPending host access store book binding cursor row
  let state ← applyPending host book cursor row
  pure ⟨row.eventHash, some state, cursor.version + 1⟩

def finishReplay (cursor : ReplayCursor) : Outcome PaperView := do
  let state ← okOr cursor.state (.integrityFailure "missing genesis")
  pure ⟨cursor.version, cursor.previous, state⟩

def bookOf (accountId : String) : Outcome Book :=
  okOr (store.books.get? accountId) .notSeeded

/-- Replay the events up to a version, or all of them. -/
def replayThrough (until_ : Option Int) : Outcome PaperView := do
  let book ← bookOf store binding.accountId
  let start ← startReplay host binding book
  let rows := book.events.takeWhile fun row => until_.all fun version => row.seq ≤ version
  let cursor ← each (replayStep host access store book binding) start rows
  finishReplay cursor

def load : Outcome PaperView := do
  let view ← replayThrough host access store binding none
  let book ← bookOf store binding.accountId
  let head ← okOr book.head
    (.integrityFailure "missing projection; explicit repair required")
  require (head = view) (.integrityFailure "projection/head mismatch")
  pure view

end StockAnalysis.Ledger
