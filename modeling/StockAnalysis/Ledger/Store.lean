import StockAnalysis.Ledger.Execution
import StockAnalysis.Ledger.Recompute

/-!
# The persisted ledger

The tables of the ledger and its replay: the event chain of each account with its head, the
compatible trade rows and the order-audit chain. `load` replays a whole chain, verifies every
ruling in it, and compares the result with the stored head; every command starts with it.

A transaction is a function from the store to an outcome that carries the new store. A failed
command returns no store: the database rolls back.
-/

namespace StockAnalysis.Ledger

variable (host : Host)

/-- One account: its row, its events in sequence order, and its head. -/
structure Book where
  epochId : String
  manifestHash : String
  manifest : SeedManifest
  events : List EventRow
  head : Option PaperView
deriving DecidableEq

structure Store where
  books : OrdMap String Book
  trades : List RawTrade
  audits : List OrderAuditRow
deriving DecidableEq

variable (store : Store)

/-- The checks on the database itself that a transaction makes: the book-owner fence and the
catalog verification. They may change between transactions. -/
structure Access where
  owner : AccountBinding → Outcome Unit
  catalog : Outcome Unit

/-- A database whose checks pass. -/
def openAccess : Access where
  owner := fun _ => .ok ()
  catalog := .ok ()

/-- The next value of an `AUTOINCREMENT` key. -/
def nextRowId (ids : List Int) : Int :=
  ids.foldl max 0 + 1

/-! ## The order-audit chain -/

def auditGenesis : String := "BR086_ORDER_AUDIT_GENESIS_V1"

/-- Validate one link of the audit chain and move to its hash. -/
def auditLink (previous : String) (row : OrderAuditRow) : Outcome String := do
  require (row.previousHash = previous) (.database
    ("BR-086 order audit hash chain linkage mismatch at audit id " ++ toString row.record.id))
  require (row.recordHash = host.auditHash previous row.record) (.database
    ("BR-086 order audit hash mismatch at audit id " ++ toString row.record.id))
  pure row.recordHash

/-- `validate_order_audit_chain`: the hash of the last record. -/
def validateOrderAuditChain (audits : List OrderAuditRow) : Outcome String :=
  each (auditLink host) auditGenesis audits

/-- `insert_order_audit_with_receipt_query`. The record comes without its identity. -/
def insertOrderAudit (audits : List OrderAuditRow) (record : AuditRecord) :
    Outcome (List OrderAuditRow × AuditLink) := do
  let previous ← validateOrderAuditChain host audits
  let id := nextRowId (audits.map fun row => row.record.id)
  let stored : AuditRecord := { record with id := id }
  let hash := host.auditHash previous stored
  pure (audits ++ [⟨stored, previous, hash⟩], ⟨id, previous, hash, stored.createdAt⟩)

/-- The row of an order in the audit table, before it has an identity. -/
def orderAuditRecord (intent : ExecuteIntent) (view : PaperView) (terms : OrderTerms)
    (status : LedgerStatus) (reason : Option String) (createdAt : String) : AuditRecord :=
  { id := 0
    businessOrderId := intent.signal.planId
    source := "PaperTrade"
    decisionBasis := decisionBasis intent view.version
    side := intent.signal.direction.asStr
    code := intent.signal.code
    requestedPrice := intent.signal.price
    executionPrice := if status = .filled then some (host.cny terms.price) else none
    quantity := intent.signal.quantity
    quoteObservedAt := some intent.signal.quoteObservedAt
    outcome := if status = .filled then "Filled" else "Rejected"
    failureReason := reason
    createdAt := createdAt }

/-! ## Compatible trade rows -/

def tradeStatusText : LedgerStatus → String
  | .filled => "Filled"
  | .notFilled => "NotFilled"
  | _ => "Invalidated"

def tradeRow (intent : ExecuteIntent) (terms : OrderTerms) (now : Instant) (status : LedgerStatus)
    (reason : Option String) (id : Int) : RawTrade :=
  { id := id
    planId := intent.signal.planId
    code := intent.signal.code
    name := intent.signal.name
    direction := intent.signal.direction.asStr
    price := intent.signal.price
    quantity := intent.signal.quantity
    status := tradeStatusText status
    fillPrice := if status = .filled then some (host.cny terms.price) else none
    notFillReason := reason
    virtualReason := intent.signal.virtualReason
    accountMode := intent.signal.accountMode.label
    dataMode := intent.signal.dataMode.label
    tsMillis := now / 1000000 }

/-- Insert the compatible row of an order, unless it was rejected; its plan must be new. -/
def insertTrade (trades : List RawTrade) (row : Int → RawTrade) (status : LedgerStatus) :
    Outcome (List RawTrade × Option Int) :=
  if status = .rejected then pure (trades, none)
  else do
    let id := nextRowId (trades.map RawTrade.id)
    require (host.tradeRowAllowed (row id) = true) (.database "BR-084 invalid paper trade order")
    require (trades.all (fun trade => trade.planId ≠ (row id).planId) = true)
      (.database "UNIQUE constraint failed: paper_trades.plan_id")
    pure (trades ++ [row id], some id)

/-! ## Fingerprints of fills -/

def rawTrade (id : Int) : Outcome RawTrade :=
  okOr (store.trades.find? fun trade => trade.id = id)
    (.integrityFailure "original raw fill missing")

def auditRow (id : Int) : Outcome OrderAuditRow :=
  okOr (store.audits.find? fun row => row.record.id = id) (.database "Record not found")

/-- The raw row, the event and the audit record describe one and the same fill. -/
def rawFillAgrees (raw : RawTrade) (order : OrderFact) (terminal : AuditRecord) : Bool :=
  raw.planId = order.planId && raw.code = order.code && raw.direction = order.direction &&
    raw.price = terminal.requestedPrice && raw.quantity = order.quantity &&
    raw.status = "Filled" && raw.fillPrice = some (host.cny order.requestedPrice) &&
    raw.notFillReason = none &&
    (raw.virtualReason ≠ "" &&
      startsWith order.decisionBasis (raw.virtualReason ++ " | PaperLedgerV1 account=")) &&
    raw.accountMode = order.accountMode && raw.dataMode = order.dataMode &&
    raw.tsMillis = order.occurredAt / 1000000 &&
    terminal.businessOrderId = order.planId && terminal.source = "PaperTrade" &&
    terminal.decisionBasis = order.decisionBasis && terminal.side = order.direction &&
    terminal.code = order.code && terminal.quantity = order.quantity &&
    terminal.executionPrice = some (host.cny order.requestedPrice) &&
    terminal.outcome = "Filled" && terminal.failureReason = none

/-- The order of an event, if the event is the fill with the given trade identity. -/
def filledOrder? (id : Int) (row : EventRow) : Option OrderFact :=
  match row.payload with
  | .order order =>
    if order.paperTradeId = some id ∧ order.status = .filled then some order else none
  | _ => none

/-- The first event that is the fill with the given trade identity. -/
def findFill (id : Int) : List EventRow → Option (EventRow × OrderFact)
  | [] => none
  | row :: rows =>
    match filledOrder? id row with
    | some order => some (row, order)
    | none => findFill id rows

def currentFingerprint (id : Int) (row : EventRow) (order : OrderFact) : Outcome FillFingerprint := do
  let raw ← rawTrade store id
  let audit ← auditRow store order.audit.id
  require (audit.recordHash = order.audit.recordHash)
    (.integrityFailure "original audit fingerprint mismatch")
  require (rawFillAgrees host raw order audit.record = true)
    (.integrityFailure "raw fill contradicts immutable event/terminal")
  pure
    { paperTradeId := id
      planId := order.planId
      eventHash := row.eventHash
      rawTradeHash := host.rawTradeHash raw
      auditHash := audit.recordHash
      factAt := order.occurredAt
      legacyBeforeCutover := false
      legacyNoTerminal := false }

/-- A fill outside the chain must be attested by the pre-cutover history. -/
def legacyFingerprint (binding : AccountBinding) (id : Int) : Outcome FillFingerprint := do
  let original ← host.legacyFill binding id
  let raw ← rawTrade store id
  pure
    { paperTradeId := id
      planId := original.planId
      eventHash := ""
      rawTradeHash := host.rawTradeHash raw
      auditHash := original.terminalAuditHash.getD ""
      factAt := original.occurredAt
      legacyBeforeCutover := true
      legacyNoTerminal := original.terminalAuditHash.isNone }

def fingerprint (binding : AccountBinding) (rows : List EventRow) (id : Int) :
    Outcome FillFingerprint := do
  let _ ← validateOrderAuditChain host store.audits
  match findFill id rows with
  | some (row, order) => currentFingerprint host store id row order
  | none => legacyFingerprint host store binding id

end StockAnalysis.Ledger
