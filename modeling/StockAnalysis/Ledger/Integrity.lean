import StockAnalysis.Ledger.Steps

/-!
# The chain of an account stays loadable

`load` re-verifies everything on every command: hashes, index columns, and every ruling against
the trade and audit rows it was made from. This module shows that no committed transaction can
make a later `load` fail: in every reachable store each account replays to its stored head. The
trade and audit tables only grow, so the evidence of an old ruling is found again unchanged.
-/

namespace StockAnalysis.Ledger

/-! ## Growing tables -/

theorem le_foldl_max (ids : List Int) (start : Int) :
    start ≤ ids.foldl max start ∧ ∀ id ∈ ids, id ≤ ids.foldl max start := by
  induction ids generalizing start with
  | nil => simp
  | cons head tail ih =>
    obtain ⟨above, within⟩ := ih (max start head)
    simp only [List.foldl_cons, List.mem_cons]
    refine ⟨le_trans (le_max_left _ _) above, ?_⟩
    rintro id (rfl | inTail)
    · exact le_trans (le_max_right _ _) above
    · exact within id inTail

variable {id : Int} {host : Host} {before after store next : Store} {book : Book} {view : PaperView}
  {binding : AccountBinding} {command : String} {fact : Fact} {row : EventRow}
  {rows more : List EventRow} {cursor : ReplayCursor}

theorem lt_nextRowId {ids : List Int} (member : id ∈ ids) : id < nextRowId ids := by
  have bound := (le_foldl_max ids 0).2 id member
  unfold nextRowId
  omega

theorem nextRowId_fresh (ids : List Int) : nextRowId ids ∉ ids :=
  fun member => lt_irrefl _ (lt_nextRowId member)

/-- The trade and audit rows of a store are kept, and a valid audit chain stays valid. -/
structure Grown (host : Host) (before after : Store) : Prop where
  trades : ∃ more, after.trades = before.trades ++ more
  audits : ∃ more, after.audits = before.audits ++ more
  chain : ∀ hash, validateOrderAuditChain host before.audits = .ok hash →
    ∃ last, validateOrderAuditChain host after.audits = .ok last

theorem Grown.of_same (trades : after.trades = before.trades)
    (audits : after.audits = before.audits) : Grown host before after :=
  ⟨⟨[], by simp [trades]⟩, ⟨[], by simp [audits]⟩, fun hash valid => ⟨hash, audits ▸ valid⟩⟩

/-- Inserting an audit row extends a valid chain by a valid link. -/
theorem insertOrderAudit_grows {audits after : List OrderAuditRow} {record : AuditRecord}
    {link : AuditLink} (inserted : insertOrderAudit host audits record = .ok (after, link)) :
    (∃ more, after = audits ++ more) ∧ ∃ last, validateOrderAuditChain host after = .ok last := by
  simp only [insertOrderAudit, bind_eq_ok, pure_eq_ok, Prod.mk.injEq] at inserted
  obtain ⟨previous, valid, rfl, _⟩ := inserted
  refine ⟨⟨_, rfl⟩, ?_⟩
  unfold validateOrderAuditChain at valid ⊢
  rw [each_append, valid]
  simp [each, auditLink, require, pure, Except.pure]

/-- An order that was not rejected has a fresh trade row; a rejected one has none. -/
theorem insertTrade_grows {trades after : List RawTrade} {row : Int → RawTrade}
    {status : LedgerStatus} {id : Option Int}
    (inserted : insertTrade host trades row status = .ok (after, id)) :
    (status = .rejected ∧ after = trades ∧ id = none) ∨
      (status ≠ .rejected ∧ after = trades ++ [row (nextRowId (trades.map RawTrade.id))] ∧
        id = some (nextRowId (trades.map RawTrade.id))) := by
  unfold insertTrade at inserted
  split at inserted
  · rename_i rejected
    cases pure_eq_ok.mp inserted
    exact Or.inl ⟨rejected, rfl, rfl⟩
  · rename_i accepted
    simp only [bind_eq_ok, require_eq_ok, pure_eq_ok, Prod.mk.injEq] at inserted
    obtain ⟨_, _, _, _, rfl, rfl⟩ := inserted
    exact Or.inr ⟨accepted, rfl, rfl⟩

theorem Origin.grown (origin : Origin host store next book view binding command fact) :
    Grown host store next := by
  cases origin with
  | order intent intentHash now terms verdict effect tradeId audit named placed =>
    obtain ⟨createdAt, audited⟩ := placed.audited
    obtain ⟨grownAudits, valid⟩ := insertOrderAudit_grows audited
    refine ⟨?_, grownAudits, fun _ _ => valid⟩
    rcases insertTrade_grows placed.traded with ⟨_, same, _⟩ | ⟨_, grown, _⟩
    · exact ⟨[], by simp [same]⟩
    · exact ⟨_, grown⟩
  | mark batch taken trades audits => exact .of_same trades audits
  | ruling request now fact bound prepared trades audits => exact .of_same trades audits
  | snapshot revision trades audits => exact .of_same trades audits

/-- A fill that is appended has the next trade identity. -/
theorem Origin.filledOrder {order : OrderFact}
    (origin : Origin host store next book view binding command fact) (payload : row.payload = fact)
    (filled : filledOrder? id row = some order) :
    id = nextRowId (store.trades.map RawTrade.id) ∧ id ∈ next.trades.map RawTrade.id := by
  subst payload
  unfold filledOrder? at filled
  split at filled
  · rename_i own payload
    rw [payload] at origin
    split at filled
    · rename_i conditions
      cases origin with
      | order intent intentHash now terms verdict effect tradeId audit named placed =>
        obtain ⟨traded, status⟩ := conditions
        have status : verdict.1 = .filled := status
        rcases insertTrade_grows placed.traded with ⟨rejected, _⟩ | ⟨_, grown, fresh⟩
        · rw [status] at rejected
          cases rejected
        · have same : some (nextRowId (store.trades.map RawTrade.id)) = some id :=
            fresh.symm.trans traded
          obtain rfl := Option.some.inj same
          refine ⟨rfl, ?_⟩
          rw [grown]
          simp [tradeRow]
    · cases filled
  · cases filled

/-! ## Invariants of accounts -/

/-- The account that a seed opens. -/
def Book.opened (host : Host) (seed : SeedManifest) (projection : Projection) (fact : Fact) :
    Book where
  epochId := seed.epochId
  manifestHash := host.manifestHash seed
  manifest := seed
  events := [eventRow host seed.accountId 1 seed.commandId genesisHash fact]
  head := some ⟨1, host.eventHash seed.accountId 1 seed.commandId genesisHash fact, projection⟩

/-- The account after an event is appended. -/
def Book.extend (book : Book) (row : EventRow) (view : PaperView) : Book :=
  { book with events := book.events ++ [row], head := some view }

/-- The row that an appended fact is filed as. -/
def PaperView.nextRow (host : Host) (accountId : String) (view : PaperView) (command : String)
    (fact : Fact) : EventRow :=
  eventRow host accountId (view.version + 1) command view.eventHash fact

/-- The head that an appended fact leads to. -/
def PaperView.nextHead (host : Host) (accountId : String) (view : PaperView) (command : String)
    (fact : Fact) (projection : Projection) : PaperView :=
  ⟨view.version + 1, host.eventHash accountId (view.version + 1) command view.eventHash fact,
    projection⟩

/-- A property of accounts holds in every reachable store if seeds establish it, appended events
keep it for the account they extend, and it survives the growth of the shared tables. -/
theorem Reachable.accounts (property : Store → String → Book → Prop)
    (opens : ∀ store next seed projection fact,
      Opened host store next seed projection fact →
      property next seed.accountId (Book.opened host seed projection fact))
    (extends_ : ∀ store next binding book view command fact projection, Reachable host store →
      Extended host store next binding book view command fact projection →
      property store binding.accountId book →
      property next binding.accountId
        (book.extend (view.nextRow host binding.accountId command fact)
          (view.nextHead host binding.accountId command fact projection)))
    (untouched : ∀ store next accountId book, Grown host store next →
      property store accountId book → property next accountId book)
    (reachable : Reachable host store) :
    ∀ accountId book, store.books.get? accountId = some book → property store accountId book := by
  obtain ⟨start, initial, run⟩ := reachable
  induction run with
  | refl =>
    intro accountId book found
    rw [initial] at found
    simp at found
  | tail earlier step ih =>
    rename_i store next
    intro accountId book found
    cases step_cases step with
    | none same =>
      subst same
      exact ih accountId book found
    | opened seed projection fact opened =>
      rw [opened.books, OrdMap.get?_insert] at found
      split at found
      · rename_i same
        obtain rfl := Option.some.inj found
        exact same ▸ opens _ _ _ _ _ opened
      · exact untouched _ _ _ _ (.of_same opened.trades opened.audits)
          (ih accountId book found)
    | extended binding old view command fact projection extended =>
      rw [extended.appended.books, OrdMap.get?_insert] at found
      split at found
      · rename_i same
        obtain rfl := Option.some.inj found
        exact same ▸ extends_ _ _ _ _ _ _ _ _ ⟨start, initial, earlier⟩ extended
          (ih _ old extended.appended.found)
      · exact untouched _ _ _ _ extended.origin.grown (ih accountId book found)

/-! ## Evidence is found again -/

theorem findFill_append :
    findFill id (rows ++ more) = (findFill id rows).or (findFill id more) := by
  induction rows with
  | nil => simp [findFill]
  | cons row rows ih =>
    simp only [List.cons_append, findFill]
    cases filledOrder? id row with
    | some order => simp
    | none => exact ih

theorem findFill_eq_none :
    findFill id rows = none ↔ ∀ row ∈ rows, filledOrder? id row = none := by
  induction rows with
  | nil => simp [findFill]
  | cons row rows ih =>
    simp only [findFill, List.mem_cons, forall_eq_or_imp]
    cases filledOrder? id row with
    | some order => simp
    | none => simp [ih]

variable {trade : RawTrade}

theorem rawTrade_grown (grown : Grown host before after) (found : rawTrade before id = .ok trade) :
    rawTrade after id = .ok trade := by
  obtain ⟨more, same⟩ := grown.trades
  rw [rawTrade, okOr_eq_ok] at found ⊢
  rw [same, List.find?_append, found]
  rfl

theorem auditRow_grown (grown : Grown host before after) {row : OrderAuditRow}
    (found : auditRow before id = .ok row) :
    auditRow after id = .ok row := by
  obtain ⟨more, same⟩ := grown.audits
  rw [auditRow, okOr_eq_ok] at found ⊢
  rw [same, List.find?_append, found]
  rfl

theorem rawTrade_mem (found : rawTrade store id = .ok trade) :
    id ∈ store.trades.map RawTrade.id := by
  rw [rawTrade, okOr_eq_ok] at found
  have same : trade.id = id := by simpa using List.find?_some found
  exact same ▸ List.mem_map_of_mem (List.mem_of_find?_eq_some found)

/-- Later events whose fills have trade identities unknown before. -/
def NewTrades (store : Store) (more : List EventRow) : Prop :=
  ∀ row ∈ more, ∀ id order, filledOrder? id row = some order →
    id ∉ store.trades.map RawTrade.id

/-- The fingerprint of a fill is the same in every later store. -/
theorem fingerprint_grown {found : FillFingerprint} (grown : Grown host before after)
    (new : NewTrades before more)
    (fingerprinted : fingerprint host before binding rows id = .ok found) :
    fingerprint host after binding (rows ++ more) id = .ok found := by
  simp only [fingerprint, bind_eq_ok] at fingerprinted ⊢
  obtain ⟨hash, valid, rest⟩ := fingerprinted
  obtain ⟨last, validAfter⟩ := grown.chain hash valid
  refine ⟨last, validAfter, ?_⟩
  rw [findFill_append]
  cases fill : findFill id rows with
  | some filled =>
    obtain ⟨row, order⟩ := filled
    rw [fill] at rest
    simp only [currentFingerprint, bind_eq_ok, Option.some_or] at rest ⊢
    obtain ⟨raw, rawFound, audit, auditFound, rest⟩ := rest
    exact ⟨raw, rawTrade_grown grown rawFound, audit, auditRow_grown grown auditFound, rest⟩
  | none =>
    rw [fill] at rest
    simp only [legacyFingerprint, bind_eq_ok] at rest
    obtain ⟨original, attested, raw, rawFound, result⟩ := rest
    have absent : findFill id more = none := by
      refine findFill_eq_none.mpr fun row member => ?_
      cases filledRow : filledOrder? id row with
      | none => rfl
      | some order => exact absurd (rawTrade_mem rawFound) (new row member id order filledRow)
    rw [absent]
    simp only [Option.or_none, legacyFingerprint, bind_eq_ok]
    exact ⟨original, attested, raw, rawTrade_grown grown rawFound, result⟩

/-! ## Replay over a growing store -/

/-- The rows of an account replay to the cursor from its genesis. -/
def Replays (host : Host) (store : Store) (book : Book) (rows : List EventRow)
    (cursor : ReplayCursor) : Prop :=
  each (replayStep host openAccess store book (seedBinding host book.manifest))
    ⟨genesisHash, none, 0⟩ rows = .ok cursor

theorem replays_append_one :
    Replays host store book (rows ++ [row]) cursor ↔
      ∃ before, Replays host store book rows before ∧
        replayStep host openAccess store book (seedBinding host book.manifest) before row =
          .ok cursor := by
  simp only [Replays, each_append, bind_eq_ok, each, Except.ok.injEq, exists_eq_right]

/-- Everything one replayed row passed. -/
structure ReplayedRow (host : Host) (access : Access) (store : Store) (book : Book)
    (binding : AccountBinding) (cursor : ReplayCursor) (row : EventRow) (next : ReplayCursor) :
    Prop where
  linked : validateNextEvent host binding cursor row = .ok ()
  verified : verifyPending host access store book binding cursor row = .ok ()
  state : ∃ state, applyPending host book cursor row = .ok state ∧
    next = ⟨row.eventHash, some state, cursor.version + 1⟩

theorem replayStep_eq_ok {access : Access} {next : ReplayCursor} :
    replayStep host access store book binding cursor row = .ok next ↔
      ReplayedRow host access store book binding cursor row next := by
  simp only [replayStep, bind_eq_ok, pure_eq_ok]
  constructor
  · rintro ⟨_, linked, _, verified, state, applied, rfl⟩
    exact ⟨linked, verified, state, applied, rfl⟩
  · rintro ⟨linked, verified, state, applied, rfl⟩
    exact ⟨(), linked, (), verified, state, applied, rfl⟩

theorem validateNextEvent_seq (linked : validateNextEvent host binding cursor row = .ok ()) :
    row.seq = cursor.version + 1 := by
  simp only [validateNextEvent, bind_eq_ok, require_eq_ok] at linked
  exact linked.choose_spec.1.1

/-- Replayed rows are numbered from one without gaps. -/
theorem replays_numbered (replays : Replays host store book rows cursor) :
    cursor.version = rows.length ∧ ∀ row ∈ rows, row.seq ≤ rows.length := by
  induction rows using List.reverseRecOn generalizing cursor with
  | nil =>
    simp only [Replays, each, Except.ok.injEq] at replays
    simp [← replays]
  | append_singleton rows row ih =>
    obtain ⟨before, earlier, stepped⟩ := replays_append_one.mp replays
    obtain ⟨version, numbered⟩ := ih earlier
    have replayed := replayStep_eq_ok.mp stepped
    obtain ⟨state, _, rfl⟩ := replayed.state
    have seq := validateNextEvent_seq replayed.linked
    simp only [List.length_append, List.length_singleton, Nat.cast_add, Nat.cast_one]
    refine ⟨by omega, fun other member => ?_⟩
    rcases mem_concat.mp member with old | new
    · have := numbered other old
      omega
    · rw [new]
      omega

variable {later : Book}

/-- A ruling that was verified stays verified when the store and its chain grow. -/
theorem verifyRuling_grown {seq : Int} {previous : String} {fact : AdjudicatedFact}
    {state : Projection} (grown : Grown host before after)
    (events : later.events = book.events ++ more) (new : NewTrades before more)
    (behind : ∀ row ∈ more, seq ≤ row.seq)
    (verified : verifyRuling host openAccess before book binding seq previous fact state =
      .ok ()) :
    verifyRuling host openAccess after later binding seq previous fact state = .ok () := by
  have sameRows : (later.events.filter fun row => row.seq < seq) =
      book.events.filter fun row => row.seq < seq := by
    have dropped : (more.filter fun row => row.seq < seq) = [] := by
      simp only [List.filter_eq_nil_iff, decide_eq_true_eq, not_lt]
      exact behind
    rw [events, List.filter_append, dropped, List.append_nil]
  simp only [verifyRuling, bind_eq_ok] at verified ⊢
  obtain ⟨catalog, opened, header, headed, original, fingerprinted, rest⟩ := verified
  have found := fingerprint_grown grown new fingerprinted
  rw [← events] at found
  refine ⟨catalog, opened, header, headed, original, found, ?_⟩
  rw [sameRows]
  exact rest

/-- Replayed rows of an account replay again when the store and the account grow. -/
theorem replays_grown (grown : Grown host before after) (manifest : later.manifest = book.manifest)
    (events : later.events = book.events ++ more) (new : NewTrades before more)
    (behind : ∀ row ∈ more, (book.events.length : Int) < row.seq)
    (replays : Replays host before book book.events cursor) :
    Replays host after later book.events cursor := by
  obtain ⟨_, numbered⟩ := replays_numbered replays
  unfold Replays at replays ⊢
  rw [manifest]
  refine each_mono (fun row member state next stepped => ?_) replays
  obtain ⟨linked, verified, applied⟩ := replayStep_eq_ok.mp stepped
  have seq := validateNextEvent_seq linked
  have bound := numbered row member
  refine replayStep_eq_ok.mpr ⟨linked, ?_, ?_⟩
  · unfold verifyPending at verified ⊢
    split at verified
    · simp only [bind_eq_ok] at verified ⊢
      obtain ⟨projection, present, ruled⟩ := verified
      refine ⟨projection, present, verifyRuling_grown grown events new ?_ ruled⟩
      intro other inMore
      have := behind other inMore
      omega
    · exact verified
  · obtain ⟨projection, pending, same⟩ := applied
    refine ⟨projection, ?_, same⟩
    unfold applyPending at pending ⊢
    rw [manifest]
    exact pending

/-! ## Every account replays to its head -/

/-- What the ledger keeps of every account: its row is that of its manifest, and its events
replay to its head. -/
structure Kept (host : Host) (store : Store) (accountId : String) (book : Book) : Prop where
  account : book.manifest.accountId = accountId
  epoch : book.epochId = book.manifest.epochId
  hash : book.manifestHash = host.manifestHash book.manifest
  replays : ∃ view, book.head = some view ∧
    Replays host store book book.events ⟨view.eventHash, some view.projection, view.version⟩

/-- An account that a transaction does not touch stays as it is. -/
theorem Kept.untouched {accountId : String} (grown : Grown host before after)
    (kept : Kept host before accountId book) :
    Kept host after accountId book := by
  obtain ⟨view, head, replays⟩ := kept.replays
  exact ⟨kept.account, kept.epoch, kept.hash, view, head,
    replays_grown grown rfl (List.append_nil _).symm (by simp [NewTrades]) (by simp) replays⟩

/-- A ruling that was prepared passes the verification of every later replay. -/
theorem prepareRuling_verified {request : Adjudication} {now : Instant} {fact : AdjudicatedFact}
    {headAfter : PaperView} (grown : Grown host store next)
    (prepared : prepareRuling host store book view request now = .ok fact)
    (numbered : ∀ event ∈ book.events, event.seq ≤ view.version) (seq : row.seq = view.version + 1)
    (ruling : row.payload = .adjudicatedV1 fact) :
    verifyRuling host openAccess next (book.extend row headAfter) request.binding
      (view.version + 1) view.eventHash fact view.projection = .ok () := by
  simp only [prepareRuling, bind_eq_ok, require_eq_ok, pure_eq_ok] at prepared
  obtain ⟨_, ⟨version, head⟩, _, _, original, fingerprinted, _, sourced, _, timed, _, follows,
    projection, recomputed, historical, frozen, rfl⟩ := prepared
  have notFill : NewTrades store [row] := by
    intro other member id order filled
    rw [List.mem_singleton.mp member] at filled
    simp [filledOrder?, ruling] at filled
  have found := fingerprint_grown grown notFill fingerprinted
  have sameRows : ((book.extend row headAfter).events.filter
      fun event => event.seq < view.version + 1) = book.events := by
    have kept : (book.events.filter fun event => event.seq < view.version + 1) = book.events := by
      refine List.filter_eq_self.mpr fun event member => ?_
      have := numbered event member
      simp only [decide_eq_true_eq]
      omega
    simp only [Book.extend, List.filter_append, kept]
    simp [seq]
  have headed : checkRulingHeader host request request.binding (view.version + 1)
      view.eventHash = .ok () := by
    simp only [checkRulingHeader, bind_eq_ok, require_eq_ok]
    exact ⟨(), timed, trivial, by rw [version]; ring, head⟩
  simp only [verifyRuling, openAccess, headed, ok_bind, bind_eq_ok, require_eq_ok, sameRows]
  exact ⟨original, found, (), sourced, (), follows, projection, recomputed, (), rfl,
    historical, frozen, rfl⟩

/-- The rows of an account extended by one event replay to the new head. -/
theorem Extended.replays {projection : Projection}
    (extended : Extended host store next binding book view command fact projection)
    (kept : Kept host store binding.accountId book) :
    Replays host next
      (book.extend (view.nextRow host binding.accountId command fact)
        (view.nextHead host binding.accountId command fact projection))
      (book.events ++ [view.nextRow host binding.accountId command fact])
      ⟨host.eventHash binding.accountId (view.version + 1) command view.eventHash fact,
        some projection, view.version + 1⟩ := by
  obtain ⟨view', head, replays⟩ := kept.replays
  obtain rfl : view' = view := Option.some.inj (head.symm.trans extended.loaded.head)
  obtain ⟨version, numbered⟩ := replays_numbered replays
  simp only at version
  have grown := extended.origin.grown
  refine replays_append_one.mpr ⟨_, replays_grown grown rfl rfl ?_ ?_ replays, ?_⟩
  · -- A fill among the appended row has a trade identity of its own.
    intro row member id order filled
    rw [List.mem_singleton.mp member] at filled
    rw [(extended.origin.filledOrder rfl filled).1]
    exact nextRowId_fresh _
  · intro row member
    rw [List.mem_singleton.mp member]
    simp only [PaperView.nextRow, eventRow]
    omega
  · have bound : seedBinding host book.manifest = binding := extended.loaded.bound.symm
    refine replayStep_eq_ok.mpr ⟨?_, ?_, projection, ?_, rfl⟩
    · simp only [Book.extend, bound, validateNextEvent, bind_eq_ok, require_eq_ok]
      exact ⟨(), ⟨rfl, rfl, rfl⟩, rfl⟩
    · unfold verifyPending
      split
      · rename_i ruling payload
        have same : fact = .adjudicatedV1 ruling := payload
        subst same
        simp only [okOr, ok_bind, Book.extend, bound]
        cases extended.origin with
        | ruling request now _ sameBinding prepared trades audits =>
          rw [← sameBinding]
          exact prepareRuling_verified grown prepared
            (fun event member => by have := numbered event member; omega) rfl rfl
      · rfl
    · have applied := extended.appended.applied
      have later : 1 < view'.version + 1 := by
        rcases events : book.events with _ | ⟨first, rest⟩
        · rw [events] at replays
          simp [Replays, each] at replays
        · rw [events] at version
          simp only [List.length_cons] at version
          omega
      have notFirst : ¬ (view'.version + 1 = 1) := by omega
      simp only [applyPending, PaperView.nextRow, eventRow]
      split <;> simp_all [okOr]

theorem reachable_kept (reachable : Reachable host store) :
    ∀ accountId book, store.books.get? accountId = some book → Kept host store accountId book := by
  refine reachable.accounts (Kept host) ?_ ?_ fun _ _ _ _ grown kept => kept.untouched grown
  · intro store next seed projection fact opened
    obtain ⟨legacy, highWater, rfl⟩ := opened.seeded
    refine ⟨rfl, rfl, rfl, _, rfl, ?_⟩
    change Replays host next _ ([] ++ [_]) _
    refine replays_append_one.mpr ⟨_, rfl, replayStep_eq_ok.mpr ?_⟩
    refine ⟨?_, rfl, projection, ?_, rfl⟩
    · simp only [validateNextEvent, bind_eq_ok, require_eq_ok]
      exact ⟨(), ⟨rfl, rfl, rfl⟩, rfl⟩
    · simp only [applyPending, eventRow, zero_add, Book.opened, and_self, if_true]
      exact opened.projected
  · intro store next binding book view command fact projection _ extended kept
    exact ⟨kept.account, kept.epoch, kept.hash, _, rfl, extended.replays kept⟩

end StockAnalysis.Ledger
