import Mathlib.Logic.Relation
import StockAnalysis.Ledger.Commands

/-!
# What one transaction can do

A transaction that commits either changes nothing, opens one account with its seed event, or
appends exactly one event to one account and moves its head. `step_cases` states this once,
with everything the transaction checked; every invariant of the ledger is derived from it.
-/

namespace StockAnalysis.Ledger

/-- One committed transaction: a command, or the explicit settlement of a snapshot. -/
inductive Step (host : Host) (store next : Store) : Prop where
  | command (access : Access) (now : Instant) (createdAt : String) (command : PaperCommand)
      (receipt : PaperReceipt)
      (applied : apply host access now createdAt store command = .ok (next, receipt))
  | snapshot (access : Access) (binding : AccountBinding) (command : String)
      (revision result : SnapshotRevision)
      (settled : settleSnapshot host access store binding command revision = .ok (next, result))

/-- The ledger starts without accounts, over any trade and audit rows of earlier epochs. -/
def Initial (store : Store) : Prop :=
  store.books = OrdMap.empty

/-- The stores that committed transactions lead to. -/
def Reachable (host : Host) (store : Store) : Prop :=
  ∃ start, Initial start ∧ Relation.ReflTransGen (Step host) start store

variable {host : Host} {store next : Store} {access : Access} {binding : AccountBinding}
  {view : PaperView} {book : Book} {result : PaperReceipt} {now : Instant}

/-! ## Taking commands apart -/

/-- The account a command works on, as `load` found it. -/
structure Loaded (host : Host) (store : Store) (binding : AccountBinding) (book : Book)
    (view : PaperView) : Prop where
  found : store.books.get? binding.accountId = some book
  head : book.head = some view
  bound : binding = seedBinding host book.manifest

theorem load_loaded (found : store.books.get? binding.accountId = some book)
    (loaded : load host access store binding = .ok view) :
    Loaded host store binding book view := by
  simp only [load, replayThrough, startReplay, bookOf, bind_eq_ok, okOr_eq_ok, require_eq_ok,
    pure_eq_ok] at loaded
  obtain ⟨_, ⟨_, first, start, ⟨_, ⟨_, _, binds⟩, _⟩, _⟩, _, second, head, headEq, _, rfl, rfl⟩ := loaded
  cases found.symm.trans first
  cases found.symm.trans second
  exact ⟨found, headEq, binds.symm⟩

variable {accountId command createdAt : String} {intent : ExecuteIntent}

theorem bookOf_eq_ok :
    bookOf store accountId = .ok book ↔ store.books.get? accountId = some book :=
  okOr_eq_ok

/-- What appending a fact does. -/
structure Appended (host : Host) (store next : Store) (accountId : String) (book : Book)
    (view : PaperView) (command : String) (fact : Fact) (projection : Projection) : Prop where
  found : store.books.get? accountId = some book
  applied : applyFact host view.projection fact = .ok projection
  newCommand : ∀ event ∈ book.events, event.commandId ≠ command
  books : next.books = store.books.insert accountId { book with
    events := book.events ++
      [eventRow host accountId (view.version + 1) command view.eventHash fact]
    head := some ⟨view.version + 1,
      host.eventHash accountId (view.version + 1) command view.eventHash fact, projection⟩ }

theorem eventAllowed_newCommand {events : List EventRow} {row : EventRow} {done : Unit}
    (allowed : eventAllowed events row = .ok done) :
    ∀ event ∈ events, event.commandId ≠ row.commandId := by
  simp only [eventAllowed, bind_eq_ok, require_eq_ok, List.all_eq_true, decide_eq_true_eq] at allowed
  obtain ⟨_, newCommand, _⟩ := allowed
  exact newCommand

theorem nextVersion_eq_ok {version next : Int} (advanced : nextVersion version = .ok next) :
    next = version + 1 := by
  simp only [nextVersion, bind_eq_ok, okOr_eq_ok, pure_eq_ok] at advanced
  obtain ⟨value, found, rfl⟩ := advanced
  exact I64.ofInt?_eq_some.mp found

/-- Appending leaves the trade and audit rows of the store it was given. -/
theorem append_appended {fact : Fact} (found : store.books.get? binding.accountId = some book)
    (appended : append host store binding command view fact = .ok (next, result)) :
    ∃ projection, Appended host store next binding.accountId book view command fact projection ∧
      next.trades = store.trades ∧ next.audits = store.audits := by
  simp only [append, bind_eq_ok, require_eq_ok, okOr_eq_ok, bookOf_eq_ok, pure_eq_ok,
    Prod.mk.injEq] at appended
  obtain ⟨_, _, projection, applied, version, advanced, book', found', _, allowed, _, _, _, _, rfl,
    _⟩ := appended
  obtain rfl : book = book' := Option.some.inj (found.symm.trans found')
  obtain rfl := nextVersion_eq_ok advanced
  exact ⟨projection, ⟨found, applied, eventAllowed_newCommand allowed, rfl⟩, rfl, rfl⟩

/-! ## Where an appended fact comes from -/

/-- What `execute` established for an order it appends. -/
structure OrderPlaced (host : Host) (store next : Store) (book : Book) (view : PaperView)
    (intent : ExecuteIntent) (intentHash : String) (now : Instant) (terms : OrderTerms)
    (verdict : LedgerStatus × Option String) (effect : FillEffect) (tradeId : Option Int)
    (audit : AuditLink) : Prop where
  available : view.projection.economicUnavailable = none
  unseen : replayCommand intent.commandId (some (intent.signal.planId, intentHash)) none
    book.events = .ok none
  termed : orderTerms host view intent now = .ok terms
  effected : fillEffect host view.projection.lots intent terms now verdict.1 = .ok effect
  audited : ∃ createdAt, insertOrderAudit host store.audits
    (orderAuditRecord host intent view terms verdict.1 verdict.2 createdAt) =
      .ok (next.audits, audit)
  traded : insertTrade host store.trades (tradeRow host intent terms now verdict.1 verdict.2)
    verdict.1 = .ok (next.trades, tradeId)

/-- What `mark_on` established for a batch it appends. -/
structure MarkTaken (view : PaperView) (batch : ValuationBatch) : Prop where
  available : view.projection.economicUnavailable = none
  forward : view.projection.asOf ≤ batch.asOf

/-- The origin of a fact appended to an account. -/
inductive Origin (host : Host) (store next : Store) (book : Book) (view : PaperView)
    (binding : AccountBinding) (command : String) : Fact → Prop where
  | order (intent : ExecuteIntent) (intentHash : String) (now : Instant) (terms : OrderTerms)
      (verdict : LedgerStatus × Option String) (effect : FillEffect) (tradeId : Option Int)
      (audit : AuditLink) (named : intent.commandId = command)
      (placed : OrderPlaced host store next book view intent intentHash now terms verdict effect
        tradeId audit) :
      Origin host store next book view binding command (.order
        (orderFact intent view intentHash terms now verdict.1 verdict.2 effect tradeId audit))
  | mark (batch : ValuationBatch) (taken : MarkTaken view batch)
      (trades : next.trades = store.trades) (audits : next.audits = store.audits) :
      Origin host store next book view binding command (.marked batch)
  | ruling (request : Adjudication) (now : Instant) (fact : AdjudicatedFact)
      (bound : request.binding = binding)
      (prepared : prepareRuling host store book view request now = .ok fact)
      (trades : next.trades = store.trades) (audits : next.audits = store.audits) :
      Origin host store next book view binding command (.adjudicatedV1 fact)
  | snapshot (revision : SnapshotRevision)
      (trades : next.trades = store.trades) (audits : next.audits = store.audits) :
      Origin host store next book view binding command (.derivedSnapshotV1 revision)

/-- One event appended to one account. -/
structure Extended (host : Host) (store next : Store) (binding : AccountBinding) (book : Book)
    (view : PaperView) (command : String) (fact : Fact) (projection : Projection) : Prop where
  loaded : Loaded host store binding book view
  appended : Appended host store next binding.accountId book view command fact projection
  origin : Origin host store next book view binding command fact

/-- One account opened by its seed. -/
structure Opened (host : Host) (store next : Store) (seed : SeedManifest)
    (projection : Projection) (fact : Fact) : Prop where
  absent : store.books.get? seed.accountId = none
  seeded : ∃ legacy highWater, fact = .seeded seed legacy highWater
  projected : seedProjection host seed = .ok projection
  trades : next.trades = store.trades
  audits : next.audits = store.audits
  books : next.books = store.books.insert seed.accountId
    { epochId := seed.epochId
      manifestHash := host.manifestHash seed
      manifest := seed
      events := [eventRow host seed.accountId 1 seed.commandId genesisHash fact]
      head := some ⟨1, host.eventHash seed.accountId 1 seed.commandId genesisHash fact,
        projection⟩ }

/-- What a committed transaction did. -/
inductive Effect (host : Host) (store next : Store) : Prop where
  | none (same : next = store)
  | opened (seed : SeedManifest) (projection : Projection) (fact : Fact)
      (opened : Opened host store next seed projection fact)
  | extended (binding : AccountBinding) (book : Book) (view : PaperView) (command : String)
      (fact : Fact) (projection : Projection)
      (extended : Extended host store next binding book view command fact projection)

theorem seedOn_effect {seed : SeedManifest}
    (seeded : seedOn host access store seed now = .ok (next, result)) :
    Effect host store next := by
  unfold seedOn at seeded
  split at seeded
  · simp only [bind_eq_ok, pure_eq_ok, Prod.mk.injEq] at seeded
    obtain ⟨_, _, _, _, _, _, same, _⟩ := seeded
    exact .none same.symm
  · rename_i absent
    simp only [bind_eq_ok, require_eq_ok, pure_eq_ok, Prod.mk.injEq] at seeded
    obtain ⟨projection, projected, _, _, highWater, _, _, _, rfl, _⟩ := seeded
    exact .opened seed projection _ ⟨absent, ⟨_, _, rfl⟩, projected, rfl, rfl, rfl⟩

theorem markOn_effect {batch : ValuationBatch}
    (marked : markOn host access store batch now = .ok (next, result)) :
    Effect host store next := by
  simp only [markOn, bind_eq_ok, bookOf_eq_ok] at marked
  obtain ⟨view, loads, book, found, previous, scanned, rest⟩ := marked
  have loaded := load_loaded found loads
  cases previous with
  | some earlier => exact .none (Prod.mk.inj (pure_eq_ok.mp rest)).1.symm
  | none =>
    simp only [markFresh, bind_eq_ok, Projection.requireAvailable_eq_ok, require_eq_ok,
      List.all_eq_true, decide_eq_true_eq] at rest
    obtain ⟨_, available, _, _, _, ⟨forward, _⟩, _, _, _, _, appends⟩ := rest
    obtain ⟨projection, appended, trades, audits⟩ := append_appended found appends
    exact .extended batch.binding book view batch.commandId _ projection
      ⟨loaded, appended, .mark batch ⟨available, forward⟩ trades audits⟩

/-- What a fresh execution of an intent did. -/
theorem executeFresh_placed {intentHash : String}
    (loaded : Loaded host store intent.binding book view)
    (unseen : replayCommand intent.commandId (some (intent.signal.planId, intentHash)) none
      book.events = .ok none)
    (executed : executeFresh host store view book intent intentHash now createdAt =
      .ok (next, result)) :
    ∃ terms verdict effect tradeId audit projection,
      OrderPlaced host store next book view intent intentHash now terms verdict effect tradeId
        audit ∧
      Appended host store next intent.binding.accountId book view intent.commandId (.order
        (orderFact intent view intentHash terms now verdict.1 verdict.2 effect tradeId audit))
        projection := by
  simp only [executeFresh, bind_eq_ok, Projection.requireAvailable_eq_ok, Prod.exists] at executed
  obtain ⟨_, available, terms, termed, effect, effected, audits, audit, audited, trades,
    tradeId, traded, appends⟩ := executed
  have kept : ({ store with trades := trades, audits := audits } : Store).books.get?
      intent.binding.accountId = some book := loaded.found
  obtain ⟨projection, appended, sameTrades, sameAudits⟩ := append_appended kept appends
  have placed : OrderPlaced host store next book view intent intentHash now terms _ effect
      tradeId audit :=
    ⟨available, unseen, termed, effected,
      ⟨createdAt, by rw [sameAudits]; exact audited⟩, by rw [sameTrades]; exact traded⟩
  exact ⟨terms, _, effect, tradeId, audit, projection, placed, appended.found,
    appended.applied, appended.newCommand, appended.books⟩

theorem execute_effect
    (executed : execute host access store intent now createdAt = .ok (next, result)) :
    Effect host store next := by
  simp only [execute, bind_eq_ok, bookOf_eq_ok] at executed
  obtain ⟨view, loads, intentHash, _, book, found, previous, scanned, rest⟩ := executed
  have loaded := load_loaded found loads
  cases previous with
  | some earlier => exact .none (Prod.mk.inj (pure_eq_ok.mp rest)).1.symm
  | none =>
    obtain ⟨terms, verdict, effect, tradeId, audit, projection, placed, appended⟩ :=
      executeFresh_placed loaded scanned rest
    exact .extended intent.binding book view intent.commandId _ projection
      ⟨loaded, appended,
        .order intent intentHash now terms verdict effect tradeId audit rfl placed⟩

theorem adjudicateOn_effect {request : Adjudication}
    (adjudicated : adjudicateOn host access store request now = .ok (next, result)) :
    Effect host store next := by
  simp only [adjudicateOn, bind_eq_ok, bookOf_eq_ok] at adjudicated
  obtain ⟨_, _, view, loads, book, found, rest⟩ := adjudicated
  have loaded := load_loaded found loads
  split at rest
  · split at rest
    · split at rest
      · exact .none (Prod.mk.inj (pure_eq_ok.mp rest)).1.symm
      · cases rest
    · cases rest
  · obtain ⟨fact, prepared, appends⟩ := bind_eq_ok.mp rest
    obtain ⟨projection, appended, trades, audits⟩ := append_appended found appends
    exact .extended request.binding book view request.requestId _ projection
      ⟨loaded, appended, .ruling request now fact rfl prepared trades audits⟩

theorem settleSnapshot_effect {revision result : SnapshotRevision}
    (settled : settleSnapshot host access store binding command revision = .ok (next, result)) :
    Effect host store next := by
  simp only [settleSnapshot, bind_eq_ok, bookOf_eq_ok] at settled
  obtain ⟨_, _, book, found, rest⟩ := settled
  split at rest
  · split at rest
    · obtain ⟨_, _, same⟩ := bind_eq_ok.mp rest
      exact .none (Prod.mk.inj (pure_eq_ok.mp same)).1.symm
    · cases rest
  · simp only [bind_eq_ok, Prod.exists, pure_eq_ok, Prod.mk.injEq] at rest
    obtain ⟨view, loads, written, _, appends, rfl, _⟩ := rest
    have loaded := load_loaded found loads
    obtain ⟨projection, appended, trades, audits⟩ := append_appended found appends
    exact .extended binding book view command _ projection
      ⟨loaded, appended, .snapshot revision trades audits⟩

/-- Every committed transaction has one of the three effects. -/
theorem step_cases (step : Step host store next) :
    Effect host store next := by
  cases step with
  | command access now createdAt command receipt applied =>
    obtain ⟨_, _, rest⟩ := bind_eq_ok.mp applied
    cases command with
    | seed manifest => exact seedOn_effect rest
    | execute intent => exact execute_effect rest
    | mark batch => exact markOn_effect rest
    | adjudicate request => exact adjudicateOn_effect rest
  | snapshot access binding command revision result settled =>
    exact settleSnapshot_effect settled

/-! ## A concrete ledger -/

/-- A host whose calendar has no holidays, whose prices are whole micro-CNY, and whose digests
are readable. -/
def sampleHost : Host where
  tradingDay := fun _ => .ok true
  nextTradingDay := fun date => .ok (date + 1)
  fromCny := fun bits => Money.exact bits.toNat
  cny := fun money => UInt64.ofNat money.val.toNat
  manifestHash := fun manifest => "manifest of " ++ manifest.accountId
  inventoryHash := fun lots => toString lots.length ++ " lots"
  intentHash := fun intent => intent.code ++ " " ++ intent.direction
  eventHash := fun _ _ command previous _ => previous ++ "/" ++ command
  rawTradeHash := fun trade => trade.planId
  auditHash := fun previous record => previous ++ "/" ++ record.businessOrderId
  snapshotHash := fun _ => "snapshot"
  dateText := fun _ => "date"
  orderSafety := fun _ => .ok ()
  tradeRowAllowed := fun _ => true
  legacyFill := fun _ _ =>
    .error (.invalidInput "original fill outside bound account/epoch/legacy prefix")
  legacyResult := fun _ _ _ => .ok ("", none)

/-- A million yuan in cash at the epoch, and no positions. -/
def sampleSeed : SeedManifest where
  accountId := "a"
  epochId := "e"
  commandId := "seed"
  cutoverAt := 0
  accountEffectiveAt := 0
  positionsEffectiveAt := 0
  sourceReference := "broker"
  sourceHash := "0000000000000000000000000000000000000000000000000000000000000000"
  approvedBy := "operator"
  cash := I64.lit 1000000000000
  originalTotal := I64.lit 1000000000000
  excludedResidual := none
  lots := []
  marks := []
  policy := ⟨10000, 0, 200⟩

def sampleBinding : AccountBinding :=
  seedBinding sampleHost sampleSeed

/-- A buy of 100 shares at ten yuan. -/
def sampleSignal : PaperSignal where
  planId := "paper:e:1"
  code := "x"
  name := "X"
  direction := .buy
  price := 10000000
  quantity := 100
  virtualReason := "trend"
  isLimitUp := false
  isLimitDown := false
  isSuspended := false
  limitUpPrice := none
  limitDownPrice := none
  secondaryConfirmed := true
  quoteObservedAt := 7 * nanosPerHour
  accountMode := .normal
  dataMode := .full

/-- The buy, at fifteen o'clock Shanghai time, against the head at the given version. -/
def sampleBuy (version : Int) : ExecuteIntent where
  binding := sampleBinding
  commandId := "buy"
  expectedVersion := version
  inventoryFingerprint := "0 lots"
  signal := sampleSignal
  priceIntent := .fixedSignalPriceV1
  quotePrice := I64.lit 10000000
  priceQualification := ⟨"x", 0, ⟨1, 1, 1000000000⟩⟩
  marks := [⟨"x", I64.lit 10000000, 7 * nanosPerHour, "feed"⟩]

/-- A ruling on the buy, made right after it: the head is the buy's own event. -/
def sampleRuling (version : Int) (head : String) (action : AdjudicationAction) :
    Adjudication where
  binding := sampleBinding
  requestId := "ruling"
  expectedVersion := version
  expectedHead := head
  expectedPredecessor := none
  original :=
    { paperTradeId := 1
      planId := "paper:e:1"
      eventHash := head
      rawTradeHash := "paper:e:1"
      auditHash := auditGenesis ++ "/paper:e:1"
      factAt := 7 * nanosPerHour
      legacyBeforeCutover := false
      legacyNoTerminal := false }
  action := action
  reason := "statement"
  evidence := "broker"
  operator := "operator"
  source := "desk"
  decisionAt := 7 * nanosPerHour

def emptyStore : Store :=
  ⟨OrdMap.empty, [], []⟩

/-- Apply commands at fifteen o'clock, one after the other. -/
def sampleRun (commands : List PaperCommand) : Outcome Store :=
  each (fun store command => do
    let (next, _) ← apply sampleHost openAccess (7 * nanosPerHour) "created" store command
    pure next) emptyStore commands

/-- The store after the commands, or the empty one if a command fails. -/
def sampleStore (commands : List PaperCommand) : Store :=
  match sampleRun commands with
  | .ok store => store
  | .error _ => emptyStore

/-- The head of an account. -/
def headOf (store : Store) (accountId : String) : Option PaperView :=
  (store.books.get? accountId).bind Book.head

theorem headOf_isSome (present : (headOf store accountId).isSome = true) :
    ∃ book view, store.books.get? accountId = some book ∧ book.head = some view := by
  obtain ⟨view, found⟩ := Option.isSome_iff_exists.mp present
  obtain ⟨book, inStore, headed⟩ := Option.bind_eq_some_iff.mp found
  exact ⟨book, view, inStore, headed⟩

theorem sampleRun_reachable {commands : List PaperCommand} (ran : sampleRun commands = .ok store) :
    Reachable sampleHost store := by
  refine each_induction (Reachable sampleHost) ?_ ?_ ran
  · intro before command next reachable applied
    obtain ⟨start, initial, run⟩ := reachable
    simp only [bind_eq_ok, Prod.exists, pure_eq_ok] at applied
    obtain ⟨_, receipt, applied, rfl⟩ := applied
    exact ⟨start, initial, run.tail (.command _ _ _ command receipt applied)⟩
  · exact ⟨emptyStore, rfl, .refl⟩

end StockAnalysis.Ledger
