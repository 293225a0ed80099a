import Mathlib.Data.List.TakeWhile
import StockAnalysis.Ledger.Accounting

/-!
# Exactly-once execution

Commands carry two identities: the command identity, one event each, and the business plan, one
terminal order each. A plan may be tried again only while every earlier attempt was rejected, and
only with the intent it was first submitted with. Resubmitted commands are answered from the
chain, so the answer depends on `load` succeeding, which `Integrity` provides.
-/

namespace StockAnalysis.Ledger

/-! ## Loading a kept account -/

theorem replayStep_access {host : Host} {access : Access} (catalog : access.catalog = .ok ())
    (store : Store) (book : Book) (binding : AccountBinding) :
    replayStep host access store book binding = replayStep host openAccess store book binding := by
  funext cursor row
  have verified : verifyPending host access store book binding cursor row =
      verifyPending host openAccess store book binding cursor row := by
    unfold verifyPending verifyRuling
    rw [catalog]
    rfl
  unfold replayStep
  rw [verified]

/-- Every kept account loads as its head, whenever the catalog is in order. -/
theorem Kept.load {host : Host} {access : Access} {store : Store} {accountId : String}
    {book : Book} (kept : Kept host store accountId book)
    (found : store.books.get? accountId = some book) (catalog : access.catalog = .ok ()) :
    ∃ view, book.head = some view ∧
      Ledger.load host access store (seedBinding host book.manifest) = .ok view := by
  obtain ⟨view, head, replays⟩ := kept.replays
  refine ⟨view, head, ?_⟩
  have account : (seedBinding host book.manifest).accountId = accountId := kept.account
  have started : startReplay host (seedBinding host book.manifest) book =
      .ok ⟨genesisHash, none, 0⟩ := by
    simp only [startReplay, bind_eq_ok, require_eq_ok, pure_eq_ok]
    exact ⟨(), ⟨kept.epoch, kept.hash, rfl⟩, trivial⟩
  have whole : (book.events.takeWhile fun row => (none : Option Int).all fun version =>
      row.seq ≤ version) = book.events := by
    rw [List.takeWhile_eq_self_iff]
    simp
  have replayed : replayThrough host access store (seedBinding host book.manifest) none =
      .ok view := by
    simp only [replayThrough, bookOf, account, found, okOr, ok_bind, started, whole,
      replayStep_access catalog]
    rw [replays]
    rfl
  simp only [Ledger.load, replayed, bookOf, account, found, okOr, ok_bind, head]
  simp [require, pure, Except.pure]

/-! ## The identity scan -/

variable {plan : Option (String × String)} {row other : EventRow} {order : OrderFact}
  {command planId hash : String} {mark : Option ValuationBatch} {known : PaperReceipt}
  {batch : ValuationBatch} {binding : AccountBinding} {error : LedgerError}
  {before after events : List EventRow} {next : Store} {view : PaperView} {fact : Fact}
  {earlier later : EventRow}

theorem matchOrder_error {sameCommand : Bool}
    (failed : matchOrder sameCommand plan row order = .error error) :
    error = .identityConflict := by
  unfold matchOrder at failed
  split at failed
  · exact (Except.error.inj failed).symm
  · split at failed
    · exact (Except.error.inj failed).symm
    · split at failed <;> cases failed

/-- The identity scan fails only with an identity conflict. -/
theorem matchEvent_error (failed : matchEvent command plan mark row = .error error) :
    error = .identityConflict := by
  unfold matchEvent at failed
  dsimp only at failed
  split at failed
  · split at failed
    · exact matchOrder_error failed
    · cases failed
  · split at failed
    · unfold matchMarked at failed
      split at failed
      · exact (Except.error.inj failed).symm
      · split at failed
        · cases failed
        · exact (Except.error.inj failed).symm
    · cases failed
  · split at failed
    · exact (Except.error.inj failed).symm
    · cases failed

/-- The scan is decided by its first event that decides anything. -/
theorem replayCommand_cases (command : String) (plan : Option (String × String))
    (mark : Option ValuationBatch) (rows : List EventRow) :
    ((∀ row ∈ rows, matchEvent command plan mark row = .ok none) ∧
        replayCommand command plan mark rows = .ok none) ∨
      replayCommand command plan mark rows = .error .identityConflict ∨
      ∃ row ∈ rows, ∃ found, matchEvent command plan mark row = .ok (some found) ∧
        replayCommand command plan mark rows = .ok (some found) := by
  induction rows with
  | nil => exact Or.inl ⟨by simp, rfl⟩
  | cons row rows ih =>
    unfold replayCommand
    cases decided : matchEvent command plan mark row with
    | error error =>
      rw [matchEvent_error decided]
      exact Or.inr (Or.inl rfl)
    | ok outcome =>
      cases outcome with
      | some found =>
        exact Or.inr (Or.inr ⟨row, List.mem_cons_self, found, decided, rfl⟩)
      | none =>
        rcases ih with ⟨silent, result⟩ | result | ⟨other, member, found, matched, result⟩
        · exact Or.inl ⟨by simpa [decided] using silent, result⟩
        · exact Or.inr (Or.inl result)
        · exact Or.inr (Or.inr
            ⟨other, List.mem_cons_of_mem row member, found, matched, result⟩)

theorem replayCommand_none {rows : List EventRow}
    (unseen : replayCommand command plan mark rows = .ok none) (member : row ∈ rows) :
    matchEvent command plan mark row = .ok none := by
  rcases replayCommand_cases command plan mark rows with ⟨silent, _⟩ | failed | ⟨_, _, _, _, some_⟩
  · exact silent row member
  · rw [failed] at unseen
    cases unseen
  · rw [some_] at unseen
    cases unseen

/-- The scan answers from an event once everything before it is silent. -/
theorem replayCommand_found
    (silent : ∀ other ∈ before, matchEvent command plan mark other = .ok none)
    (matched : matchEvent command plan mark row = .ok (some known)) :
    replayCommand command plan mark (before ++ row :: after) = .ok (some known) := by
  induction before with
  | nil => simp [replayCommand, matched, pure, Except.pure]
  | cons other before ih =>
    have rest := ih fun item member => silent item (List.mem_cons_of_mem other member)
    simp only [List.cons_append, replayCommand, silent other List.mem_cons_self, ok_bind]
    exact rest

/-- An event of the scanned command is never silent. -/
theorem matchEvent_sameCommand : matchEvent row.commandId plan mark row ≠ .ok none := by
  unfold matchEvent
  simp only [decide_true, true_or, if_true]
  split
  · unfold matchOrder
    split
    · simp
    · split
      · simp
      · simp [pure, Except.pure]
  · unfold matchMarked
    split
    · simp
    · split <;> simp [pure, Except.pure]
  · simp

/-- What the scan found in an order of the wanted plan, when the order is of another command. -/
theorem matchEvent_plan (payload : row.payload = .order order) (same : order.planId = planId)
    (silent : matchEvent command (some (planId, hash)) none row = .ok none) :
    order.intentHash = hash ∧ order.status = .rejected := by
  simp only [matchEvent, payload, Option.any_some, same, decide_true, or_true, if_true,
    matchOrder, ne_eq, not_true_eq_false, false_or] at silent
  split at silent
  · cases silent
  · rename_i hashes
    split at silent
    · cases silent
    · rename_i neither
      push Not at hashes neither
      exact ⟨hashes, neither.2⟩

/-- An event of another command is silent, unless it is an order of the plan that was not a
rejected attempt with the same intent. -/
theorem matchEvent_silent (other : row.commandId ≠ command)
    (retry : ∀ order, row.payload = .order order → order.planId = planId →
      order.intentHash = hash ∧ order.status = .rejected) :
    matchEvent command (some (planId, hash)) none row = .ok none := by
  unfold matchEvent
  simp only [other, decide_false, Bool.false_eq_true, false_or, if_false]
  split
  · rename_i order payload
    by_cases same : order.planId = planId
    · obtain ⟨hashes, rejected⟩ := retry order payload same
      simp [matchOrder, same, hashes, rejected, pure, Except.pure]
    · simp [same, pure, Except.pure]
  · rfl
  · rfl

/-- What the scan of an order intent answers with: the event of the command itself, or a
terminal order of the plan. -/
theorem matchEvent_answer
    (matched : matchEvent command (some (planId, hash)) none row = .ok (some known)) :
    ∃ order, row.payload = .order order ∧ order.planId = planId ∧ order.intentHash = hash ∧
      (row.commandId = command ∨ order.status ≠ .rejected) ∧
      known = receipt row.seq row.eventHash row.payload true := by
  unfold matchEvent at matched
  dsimp only at matched
  split at matched
  · rename_i order payload
    split at matched
    · unfold matchOrder at matched
      dsimp only at matched
      split at matched
      · cases matched
      · rename_i agrees
        split at matched
        · rename_i decided
          push Not at agrees
          refine ⟨order, payload, agrees.1, agrees.2, ?_, ?_⟩
          · simpa using decided
          · exact (Option.some.inj (pure_eq_ok.mp matched)).symm
        · cases pure_eq_ok.mp matched
    · cases pure_eq_ok.mp matched
  · split at matched
    · cases matched
    · cases pure_eq_ok.mp matched
  · split at matched
    · cases matched
    · cases pure_eq_ok.mp matched

theorem matchEvent_mark (matched : matchEvent command none (some batch) row = .ok (some known)) :
    row.commandId = command ∧ ∃ original, row.payload = .marked original ∧
      (original.asOf, original.closing, original.marks) =
        (batch.asOf, batch.closing, batch.marks) := by
  unfold matchEvent at matched
  dsimp only at matched
  split at matched
  · split at matched
    · cases matched
    · cases pure_eq_ok.mp matched
  · rename_i original payload
    split at matched
    · rename_i same
      unfold matchMarked at matched
      dsimp only at matched
      split at matched
      · rename_i agrees
        exact ⟨by simpa using same, original, payload, agrees⟩
      · cases matched
    · cases pure_eq_ok.mp matched
  · split at matched
    · cases matched
    · cases pure_eq_ok.mp matched

/-! ## The identities of a chain -/

/-- A plan is tried again only after rejections, and only with the same intent. -/
def PlanRetry (earlier later : EventRow) : Prop :=
  ∀ order retry, earlier.payload = .order order → later.payload = .order retry →
    order.planId = retry.planId → order.intentHash = retry.intentHash ∧ order.status = .rejected

/-- The identities of the events of an account: it starts with its seed and has no other, and
its orders retry plans as they may. -/
structure Identified (host : Host) (accountId : String) (book : Book) : Prop where
  genesis : ∃ legacy highWater rest, book.events =
      eventRow host accountId 1 book.manifest.commandId genesisHash
        (.seeded book.manifest legacy highWater) :: rest ∧
      ∀ row ∈ rest, ∀ seed id hash, row.payload ≠ .seeded seed id hash
  plans : book.events.Pairwise PlanRetry

theorem Origin.not_seeded {host : Host} {store : Store} {book : Book}
    (origin : Origin host store next book view binding command fact) (seed : SeedManifest)
    (id : Int) (hash : String) : fact ≠ .seeded seed id hash := by
  cases origin <;> exact fun same => by cases same

/-- An appended order retries every plan it shares with an earlier order. -/
theorem Origin.planRetry {host : Host} {store : Store} {book : Book}
    (origin : Origin host store next book view binding command fact)
    (member : earlier ∈ book.events) (payload : later.payload = fact) :
    PlanRetry earlier later := by
  intro order retry earlierOrder laterOrder same
  rw [payload] at laterOrder
  cases origin with
  | order intent intentHash now terms verdict effect tradeId audit named placed =>
    obtain rfl := Fact.order.inj laterOrder
    exact matchEvent_plan earlierOrder same (replayCommand_none placed.unseen member)
  | mark batch taken trades audits => cases laterOrder
  | ruling request now fact bound prepared trades audits => cases laterOrder
  | snapshot revision trades audits => cases laterOrder

theorem reachable_identified {host : Host} {store : Store} (reachable : Reachable host store) :
    ∀ accountId book, store.books.get? accountId = some book →
      Identified host accountId book := by
  refine Reachable.accounts (fun _ => Identified host) ?_ ?_
    (fun _ _ _ _ _ identified => identified) reachable
  · intro store next seed projection fact opened
    obtain ⟨legacy, highWater, rfl⟩ := opened.seeded
    exact ⟨⟨legacy, highWater, [], rfl, by simp⟩, List.pairwise_singleton _ _⟩
  · intro store next binding book view command fact projection _ extended identified
    obtain ⟨legacy, highWater, rest, events, unseeded⟩ := identified.genesis
    constructor
    · refine ⟨legacy, highWater, rest ++ [view.nextRow host binding.accountId command fact], ?_, ?_⟩
      · simp only [Book.extend, events, List.cons_append]
      · intro row member
        rcases mem_concat.mp member with old | new
        · exact unseeded row old
        · rw [new]
          exact extended.origin.not_seeded
    · refine List.pairwise_append.mpr ⟨identified.plans, List.pairwise_singleton _ _, ?_⟩
      intro earlier member later new
      rw [List.mem_singleton.mp new]
      exact extended.origin.planRetry member rfl

/-- Two orders of one plan that were not rejected are the same event. -/
def TerminalPlansDiffer (earlier later : EventRow) : Prop :=
  ∀ order other, earlier.payload = .order order → later.payload = .order other →
    order.status ≠ .rejected → other.status ≠ .rejected → order.planId ≠ other.planId

theorem PlanRetry.terminalPlansDiffer (retry : PlanRetry earlier later) :
    TerminalPlansDiffer earlier later :=
  fun order other first second terminal _ same => terminal (retry order other first second same).2

/-- The two events, if they are orders of one plan, carry one intent. -/
def OneIntent (row other : EventRow) : Prop :=
  ∀ order another, row.payload = .order order → other.payload = .order another →
    order.planId = another.planId → order.intentHash = another.intentHash

theorem Identified.oneIntent {host : Host} {accountId : String} {book : Book}
    (identified : Identified host accountId book) (member : row ∈ book.events)
    (otherMember : other ∈ book.events) : OneIntent row other := by
  have forward : book.events.Pairwise OneIntent :=
    identified.plans.imp fun retry order another first second same =>
      (retry order another first second same).1
  have backward : book.events.Pairwise (flip OneIntent) :=
    identified.plans.imp fun retry order another first second same =>
      (retry another order second first same.symm).1.symm
  refine List.Pairwise.forall_of_forall_of_flip ?_ forward backward member otherMember
  intro event _ order another first second _
  rw [Fact.order.inj (first.symm.trans second)]

/-! ## Resubmitted commands -/

/-- The identity under which a command is filed. -/
def PaperCommand.commandId : PaperCommand → String
  | .seed manifest => manifest.commandId
  | .execute intent => intent.commandId
  | .mark batch => batch.commandId
  | .adjudicate request => request.requestId

/-- The command is addressed to the account: a seed by its name, any other command by the whole
binding. -/
def PaperCommand.Addresses (host : Host) (book : Book) : PaperCommand → Prop
  | .seed manifest => manifest.accountId = book.manifest.accountId
  | .execute intent => intent.binding = seedBinding host book.manifest
  | .mark batch => batch.binding = seedBinding host book.manifest
  | .adjudicate request => request.binding = seedBinding host book.manifest

/-- The event commits the intent of the command. -/
def PaperCommand.CommittedBy (host : Host) (row : EventRow) : PaperCommand → Prop
  | .seed manifest => ∃ legacy highWater, row.payload = .seeded manifest legacy highWater
  | .execute intent => ∃ order, row.payload = .order order ∧
      order.planId = intent.signal.planId ∧
      orderIntentHash host intent.binding intent.signal intent.priceIntent = .ok order.intentHash
  | .mark batch => ∃ original, row.payload = .marked original ∧
      (original.asOf, original.closing, original.marks) = (batch.asOf, batch.closing, batch.marks)
  | .adjudicate request => ∃ ruling, row.payload = .adjudicatedV1 ruling ∧
      ruling.request = request

/-- The command gets as far as the identity scan. The intent hash of an order exists only for a
plan in the namespace of the epoch with a representable price, and a seed is told from that of
the account by its digest. -/
def PaperCommand.ReachesScan (host : Host) (book : Book) : PaperCommand → Prop
  | .seed manifest =>
    host.manifestHash manifest = host.manifestHash book.manifest → manifest = book.manifest
  | .execute intent => ∃ hash,
      orderIntentHash host intent.binding intent.signal intent.priceIntent = .ok hash
  | .mark _ => True
  | .adjudicate _ => True

/-- The answer to a resubmitted command: the receipt of the committed event. -/
def committedReceipt (row : EventRow) : PaperReceipt :=
  receipt row.seq row.eventHash row.payload true

theorem find?_commandId (distinct : (events.map EventRow.commandId).Nodup) (member : row ∈ events) :
    events.find? (fun event => event.commandId = row.commandId) = some row := by
  induction events with
  | nil => cases member
  | cons event events ih =>
    simp only [List.map_cons, List.nodup_cons, List.mem_map, not_exists, not_and] at distinct
    rcases List.mem_cons.mp member with rfl | later
    · simp
    · have different : event.commandId ≠ row.commandId :=
        fun same => distinct.1 row later same.symm
      simpa [different] using ih distinct.2 later

theorem eq_of_commandId (distinct : (events.map EventRow.commandId).Nodup) (member : row ∈ events)
    (otherMember : other ∈ events) (same : row.commandId = other.commandId) : row = other := by
  have known := find?_commandId distinct member
  rw [same, find?_commandId distinct otherMember] at known
  exact (Option.some.inj known).symm

/-- An event before the committed one belongs to another command. -/
theorem other_command (distinct : ((before ++ row :: after).map EventRow.commandId).Nodup)
    (member : other ∈ before) :
    other.commandId ≠ row.commandId := by
  rw [List.map_append, List.nodup_append] at distinct
  exact distinct.2.2 _ (List.mem_map_of_mem member) _ (by simp)

variable {intent : ExecuteIntent} {now : Instant} {createdAt : String}

section Answers

variable {host : Host} {access : Access} {store : Store} {accountId : String} {book : Book}

section

variable (kept : Kept host store accountId book) (found : store.books.get? accountId = some book)

include kept found

theorem Kept.located (bound : binding = seedBinding host book.manifest) :
    bookOf store binding.accountId = .ok book := by
  have account : binding.accountId = accountId := by rw [bound]; exact kept.account
  rw [account]
  exact bookOf_eq_ok.mpr found

section

variable (catalog : access.catalog = .ok ())

include catalog

/-- An order intent whose hash can be computed is answered by the identity scan, if the scan
decides it. -/
theorem execute_scanned (bound : intent.binding = seedBinding host book.manifest)
    (hashed : orderIntentHash host intent.binding intent.signal intent.priceIntent = .ok hash) :
    (∀ answer, replayCommand intent.commandId (some (intent.signal.planId, hash)) none
        book.events = .ok (some answer) →
      execute host access store intent now createdAt = .ok (store, answer)) ∧
    ∀ error, replayCommand intent.commandId (some (intent.signal.planId, hash)) none
        book.events = .error error →
      execute host access store intent now createdAt = .error error := by
  obtain ⟨view, _, loads⟩ := kept.load found catalog
  have located := kept.located found bound
  constructor
  · intro answer scanned
    simp only [execute, hashed, located, scanned, ok_bind]
    rw [bound, loads]
    rfl
  · intro error scanned
    simp only [execute, hashed, located, scanned, ok_bind, error_bind]
    rw [bound, loads]
    rfl

theorem markOn_scanned (bound : batch.binding = seedBinding host book.manifest) :
    (∀ answer, replayCommand batch.commandId none (some batch) book.events = .ok (some answer) →
      markOn host access store batch now = .ok (store, answer)) ∧
    ∀ error, replayCommand batch.commandId none (some batch) book.events = .error error →
      markOn host access store batch now = .error error := by
  obtain ⟨view, _, loads⟩ := kept.load found catalog
  have located := kept.located found bound
  constructor
  · intro answer scanned
    simp only [markOn, located, scanned, ok_bind]
    rw [bound, loads]
    rfl
  · intro error scanned
    simp only [markOn, located, scanned, ok_bind, error_bind]
    rw [bound, loads]
    rfl

section

variable (distinct : (book.events.map EventRow.commandId).Nodup)

include distinct

theorem execute_resubmitted (identified : Identified host accountId book)
    (bound : intent.binding = seedBinding host book.manifest) (member : row ∈ book.events)
    (named : row.commandId = intent.commandId)
    (committed : (PaperCommand.execute intent).CommittedBy host row) :
    execute host access store intent now createdAt = .ok (store, committedReceipt row) := by
  obtain ⟨order, payload, plan, hashed⟩ := committed
  refine (execute_scanned kept found catalog bound hashed).1 _ ?_
  obtain ⟨before, after, events⟩ := List.append_of_mem member
  rw [events] at distinct ⊢
  refine replayCommand_found (fun other earlier => ?_) ?_
  · -- An earlier event is of another command, and at most a rejected attempt at the plan.
    refine matchEvent_silent (named ▸ other_command distinct earlier) ?_
    intro attempt attempted same
    have retry := identified.plans
    rw [events, List.pairwise_append] at retry
    exact retry.2.2 other earlier row List.mem_cons_self attempt order attempted payload
      (same.trans plan.symm)
  · simp [matchEvent, matchOrder, payload, named, plan, committedReceipt, pure, Except.pure]

theorem markOn_resubmitted (bound : batch.binding = seedBinding host book.manifest)
    (member : row ∈ book.events) (named : row.commandId = batch.commandId)
    (committed : (PaperCommand.mark batch).CommittedBy host row) :
    markOn host access store batch now = .ok (store, committedReceipt row) := by
  obtain ⟨original, payload, same⟩ := committed
  refine (markOn_scanned kept found catalog bound).1 _ ?_
  obtain ⟨before, after, events⟩ := List.append_of_mem member
  rw [events] at distinct ⊢
  refine replayCommand_found (fun other earlier => ?_) ?_
  · have different := other_command distinct earlier
    rw [named] at different
    unfold matchEvent
    split <;> simp [different, pure, Except.pure]
  · simp [matchEvent, matchMarked, payload, named, same, committedReceipt, pure, Except.pure]

theorem adjudicateOn_known {request : Adjudication}
    (bound : request.binding = seedBinding host book.manifest) (member : row ∈ book.events)
    (named : row.commandId = request.requestId) :
    ((PaperCommand.adjudicate request).CommittedBy host row →
      adjudicateOn host access store request now = .ok (store, committedReceipt row)) ∧
    (¬ (PaperCommand.adjudicate request).CommittedBy host row →
      adjudicateOn host access store request now = .error .identityConflict) := by
  obtain ⟨view, _, loads⟩ := kept.load found catalog
  have located := kept.located found bound
  have known := find?_commandId distinct member
  rw [named] at known
  simp only [adjudicateOn, catalog, located, ok_bind, known]
  rw [bound, loads]
  simp only [ok_bind]
  constructor
  · rintro ⟨ruling, payload, rfl⟩
    simp [payload, committedReceipt, pure, Except.pure]
  · intro uncommitted
    split
    · rename_i ruling payload
      have different : ruling.request ≠ request :=
        fun same => uncommitted ⟨ruling, payload, same⟩
      simp [different]
    · rfl

end

theorem seedOn_resubmitted (identified : Identified host accountId book)
    (member : row ∈ book.events)
    (seeded : ∃ seed legacy highWater, row.payload = .seeded seed legacy highWater) :
    seedOn host access store book.manifest now = .ok (store, committedReceipt row) := by
  obtain ⟨legacy, highWater, rest, events, unseeded⟩ := identified.genesis
  obtain ⟨view, _, loads⟩ := kept.load found catalog
  have first : row = eventRow host accountId 1 book.manifest.commandId genesisHash
      (.seeded book.manifest legacy highWater) := by
    rw [events] at member
    rcases List.mem_cons.mp member with first | later
    · exact first
    · obtain ⟨seed, id, hash, payload⟩ := seeded
      exact absurd payload (unseeded row later seed id hash)
  have existing : store.books.get? book.manifest.accountId = some book := kept.account.symm ▸ found
  simp only [seedOn, existing, loads, events, first, kept.hash]
  simp [require, okOr, committedReceipt, eventRow, seedBinding, pure, Except.pure]

end

theorem seedOn_conflict {manifest : SeedManifest}
    (addressed : manifest.accountId = book.manifest.accountId)
    (different : host.manifestHash manifest ≠ host.manifestHash book.manifest) :
    seedOn host access store manifest now = .error .identityConflict := by
  have existing : store.books.get? manifest.accountId = some book := by
    rw [addressed, kept.account]
    exact found
  simp [seedOn, existing, kept.hash, seedBinding, different.symm, require]

section

variable (catalog : access.catalog = .ok ())

include catalog

/-- An order intent under a known command identity, but with another intent, is answered with a
conflict or from a terminal order of its plan. -/
theorem execute_reused (distinct : (book.events.map EventRow.commandId).Nodup)
    (bound : intent.binding = seedBinding host book.manifest)
    (hashed : orderIntentHash host intent.binding intent.signal intent.priceIntent = .ok hash)
    (member : row ∈ book.events) (named : row.commandId = intent.commandId)
    (uncommitted : ¬ (PaperCommand.execute intent).CommittedBy host row) :
    execute host access store intent now createdAt = .error .identityConflict ∨
      ∃ terminal ∈ book.events, ∃ order, terminal.payload = .order order ∧
        order.planId = intent.signal.planId ∧ order.status ≠ .rejected ∧
        execute host access store intent now createdAt = .ok (store, committedReceipt terminal) := by
  obtain ⟨answers, fails⟩ := @execute_scanned hash intent now createdAt host access store
    accountId book kept found catalog bound hashed
  rcases replayCommand_cases intent.commandId (some (intent.signal.planId, hash)) none
    book.events with ⟨silent, _⟩ | failed | ⟨terminal, inEvents, answer, matched, scanned⟩
  · exact absurd (silent row member) (named ▸ matchEvent_sameCommand)
  · exact Or.inl (fails _ failed)
  · obtain ⟨order, payload, plan, same, decided, rfl⟩ := matchEvent_answer matched
    refine Or.inr ⟨terminal, inEvents, order, payload, plan, ?_, answers _ scanned⟩
    rcases decided with ownCommand | terminalStatus
    · -- The answering event would be the given one, which does not commit this intent.
      obtain rfl := eq_of_commandId distinct member inEvents (named.trans ownCommand.symm)
      exact absurd ⟨order, payload, plan, same ▸ hashed⟩ uncommitted
    · exact terminalStatus

/-- A plan that was submitted before with another intent is a conflict. -/
theorem execute_changed (identified : Identified host accountId book)
    (bound : intent.binding = seedBinding host book.manifest)
    (hashed : orderIntentHash host intent.binding intent.signal intent.priceIntent = .ok hash)
    (member : row ∈ book.events) (payload : row.payload = .order order)
    (plan : order.planId = intent.signal.planId) (different : order.intentHash ≠ hash) :
    execute host access store intent now createdAt = .error .identityConflict := by
  refine (execute_scanned kept found catalog bound hashed).2 _ ?_
  rcases replayCommand_cases intent.commandId (some (intent.signal.planId, hash)) none
    book.events with ⟨silent, _⟩ | failed | ⟨other, inEvents, answer, matched, _⟩
  · exact absurd (matchEvent_plan payload plan (silent row member)).1 different
  · exact failed
  · obtain ⟨another, otherPayload, otherPlan, same, _, _⟩ := matchEvent_answer matched
    have oneIntent := identified.oneIntent member inEvents order another payload otherPayload
      (plan.trans otherPlan.symm)
    exact absurd (oneIntent.trans same) different

theorem markOn_reused (distinct : (book.events.map EventRow.commandId).Nodup)
    (bound : batch.binding = seedBinding host book.manifest) (member : row ∈ book.events)
    (named : row.commandId = batch.commandId)
    (uncommitted : ¬ (PaperCommand.mark batch).CommittedBy host row) :
    markOn host access store batch now = .error .identityConflict := by
  refine (markOn_scanned kept found catalog bound).2 _ ?_
  rcases replayCommand_cases batch.commandId none (some batch) book.events with
    ⟨silent, _⟩ | failed | ⟨other, inEvents, answer, matched, _⟩
  · exact absurd (silent row member) (named ▸ matchEvent_sameCommand)
  · exact failed
  · obtain ⟨ownCommand, original, payload, same⟩ := matchEvent_mark matched
    obtain rfl := eq_of_commandId distinct member inEvents (named.trans ownCommand.symm)
    exact absurd ⟨original, payload, same⟩ uncommitted

variable {command : PaperCommand} (distinct : (book.events.map EventRow.commandId).Nodup)
  (identified : Identified host accountId book) (addressed : command.Addresses host book)
  (owned : access.owner (command.binding host) = .ok ()) (member : row ∈ book.events)
  (named : row.commandId = command.commandId)

include distinct identified addressed owned member named

/-- A command whose identity and intent are those of a committed event is answered with the
receipt of that event. -/
theorem apply_resubmitted (committed : command.CommittedBy host row) :
    apply host access now createdAt store command = .ok (store, committedReceipt row) := by
  simp only [apply, owned, ok_bind]
  cases command with
  | seed manifest =>
    obtain ⟨legacy, highWater, payload⟩ := committed
    have seeded : ∃ seed legacy highWater, row.payload = .seeded seed legacy highWater :=
      ⟨manifest, legacy, highWater, payload⟩
    have own : manifest = book.manifest := by
      obtain ⟨legacy', highWater', rest, events, unseeded⟩ := identified.genesis
      rw [events] at member
      rcases List.mem_cons.mp member with rfl | later
      · cases payload
        rfl
      · exact absurd payload (unseeded row later _ _ _)
    subst own
    exact seedOn_resubmitted kept found catalog identified member seeded
  | execute intent =>
    exact execute_resubmitted kept found catalog distinct identified addressed member named
      committed
  | mark batch =>
    exact markOn_resubmitted kept found catalog distinct addressed member named committed
  | adjudicate request =>
    exact (adjudicateOn_known kept found catalog distinct addressed member named).1 committed

/-- A command under the identity of an event with another intent is a conflict, unless it is an
order whose plan is settled. -/
theorem apply_reused (uncommitted : ¬ command.CommittedBy host row)
    (reaches : command.ReachesScan host book) :
    apply host access now createdAt store command = .error .identityConflict ∨
      ∃ intent, command = .execute intent ∧ ∃ terminal ∈ book.events, ∃ order,
        terminal.payload = .order order ∧ order.planId = intent.signal.planId ∧
        order.status ≠ .rejected ∧
        apply host access now createdAt store command =
          .ok (store, committedReceipt terminal) := by
  simp only [apply, owned, ok_bind]
  cases command with
  | seed manifest =>
    refine Or.inl (seedOn_conflict kept found addressed fun same => ?_)
    obtain rfl := reaches same
    obtain ⟨legacy, highWater, rest, events, _⟩ := identified.genesis
    have first := eq_of_commandId distinct member (by rw [events]; exact List.mem_cons_self) named
    exact uncommitted ⟨legacy, highWater, by rw [first]; rfl⟩
  | execute intent =>
    obtain ⟨hash, hashed⟩ := reaches
    rcases execute_reused kept found catalog distinct addressed hashed member named
      uncommitted with conflict | ⟨terminal, inEvents, order, payload, plan, status, answered⟩
    · exact Or.inl conflict
    · exact Or.inr ⟨intent, rfl, terminal, inEvents, order, payload, plan, status, answered⟩
  | mark batch =>
    exact Or.inl (markOn_reused kept found catalog distinct addressed member named uncommitted)
  | adjudicate request =>
    exact Or.inl
      ((adjudicateOn_known kept found catalog distinct addressed member named).2 uncommitted)

end

end

end Answers

/-- Exactly-once execution in every reachable store. No two events of an account share a command
identity, and no two orders of one plan were settled. A command that was committed before is
answered with its receipt and changes nothing; a reused command identity or a changed plan is a
conflict, or answered with the settled order of the plan, wherever the command reaches the
identity scan. -/
theorem ledger_exactly_once (host : Host) (store : Store) (reachable : Reachable host store)
    (accountId : String) (book : Book) (found : store.books.get? accountId = some book) :
    (book.events.map EventRow.commandId).Nodup ∧
    book.events.Pairwise TerminalPlansDiffer ∧
    ∀ (access : Access) (now : Instant) (createdAt : String) (command : PaperCommand),
      command.Addresses host book → access.owner (command.binding host) = .ok () →
      access.catalog = .ok () →
      (∀ row ∈ book.events, row.commandId = command.commandId →
        (command.CommittedBy host row →
          apply host access now createdAt store command = .ok (store, committedReceipt row)) ∧
        (¬ command.CommittedBy host row → command.ReachesScan host book →
          apply host access now createdAt store command = .error .identityConflict ∨
          ∃ intent, command = .execute intent ∧ ∃ terminal ∈ book.events, ∃ order,
            terminal.payload = .order order ∧ order.planId = intent.signal.planId ∧
            order.status ≠ .rejected ∧
            apply host access now createdAt store command =
              .ok (store, committedReceipt terminal))) ∧
      ∀ intent hash row order, command = .execute intent →
        orderIntentHash host intent.binding intent.signal intent.priceIntent = .ok hash →
        row ∈ book.events → row.payload = .order order → order.planId = intent.signal.planId →
        order.intentHash ≠ hash →
        apply host access now createdAt store command = .error .identityConflict := by
  have kept := reachable_kept reachable accountId book found
  have distinct := (reachable_bookSound reachable accountId book found).commands
  have identified := reachable_identified reachable accountId book found
  refine ⟨distinct, identified.plans.imp PlanRetry.terminalPlansDiffer, ?_⟩
  intro access now createdAt command addressed owned catalog
  refine ⟨fun row member named => ⟨?_, ?_⟩, ?_⟩
  · exact apply_resubmitted kept found catalog distinct identified addressed owned member named
  · exact apply_reused kept found catalog distinct identified addressed owned member named
  · rintro intent hash row order rfl hashed member payload plan different
    simp only [apply, owned, ok_bind]
    exact execute_changed kept found catalog identified addressed hashed member payload plan
      different

/-- The store after a seed and a buy, and the buy's event in it. -/
theorem sampleStore_bought : ∃ book row,
    Reachable sampleHost (sampleStore [.seed sampleSeed, .execute (sampleBuy 1)]) ∧
    (sampleStore [.seed sampleSeed, .execute (sampleBuy 1)]).books.get? "a" = some book ∧
    book.manifest = sampleSeed ∧ row ∈ book.events ∧ row.commandId = "buy" ∧
    (PaperCommand.execute (sampleBuy 1)).CommittedBy sampleHost row := by
  have ran : sampleRun [.seed sampleSeed, .execute (sampleBuy 1)] =
      .ok (sampleStore [.seed sampleSeed, .execute (sampleBuy 1)]) := by decide +kernel
  have bought : ((sampleStore [.seed sampleSeed, .execute (sampleBuy 1)]).books.get? "a").any
      (fun book => decide (book.manifest = sampleSeed) && book.events.any fun row =>
        decide (row.commandId = "buy") && (filledOrder? 1 row).any fun order =>
          decide (order.planId = "paper:e:1" ∧
            orderIntentHash sampleHost sampleBinding sampleSignal .fixedSignalPriceV1 =
              .ok order.intentHash)) = true := by decide +kernel
  simp only [Option.any_eq_true, Bool.and_eq_true, decide_eq_true_eq, List.any_eq_true] at bought
  obtain ⟨book, found, manifest, row, member, named, order, ordered, plan, hashed⟩ := bought
  refine ⟨book, row, sampleRun_reachable ran, found, manifest, member, named, order, ?_, plan,
    hashed⟩
  unfold filledOrder? at ordered
  split at ordered
  · rename_i payload
    rw [payload, Option.some.inj (Option.ite_none_right_eq_some.mp ordered).2]
  · cases ordered

/-- The buy, submitted again, is answered with the receipt of its event. -/
theorem ledger_exactly_once_resubmitted_buy : ∃ book row,
    (sampleStore [.seed sampleSeed, .execute (sampleBuy 1)]).books.get? "a" = some book ∧
    row ∈ book.events ∧ row.commandId = "buy" ∧
    apply sampleHost openAccess 0 "later"
        (sampleStore [.seed sampleSeed, .execute (sampleBuy 1)]) (.execute (sampleBuy 1)) =
      .ok (sampleStore [.seed sampleSeed, .execute (sampleBuy 1)], committedReceipt row) := by
  obtain ⟨book, row, reachable, found, manifest, member, named, committed⟩ := sampleStore_bought
  refine ⟨book, row, found, member, named, ?_⟩
  obtain ⟨_, _, answers⟩ := ledger_exactly_once sampleHost _ reachable "a" book found
  have addressed : (PaperCommand.execute (sampleBuy 1)).Addresses sampleHost book := by
    rw [PaperCommand.Addresses, manifest]
    rfl
  exact ((answers openAccess 0 "later" _ addressed rfl rfl).1 row member named).1 committed

/-- The buy with a plan outside the namespace of its epoch. -/
def misnamedBuy : ExecuteIntent :=
  { sampleBuy 1 with signal := { sampleSignal with planId := "elsewhere" } }

/-- A reused command identity is refused as invalid input, not as a conflict, when its plan is
outside the namespace of the epoch: the intent hash is computed before the identity scan. -/
theorem reused_command_outside_namespace : ∃ book row,
    Reachable sampleHost (sampleStore [.seed sampleSeed, .execute (sampleBuy 1)]) ∧
    (sampleStore [.seed sampleSeed, .execute (sampleBuy 1)]).books.get? "a" = some book ∧
    row ∈ book.events ∧ row.commandId = misnamedBuy.commandId ∧
    misnamedBuy.binding = seedBinding sampleHost book.manifest ∧
    ¬ (PaperCommand.execute misnamedBuy).CommittedBy sampleHost row ∧
    apply sampleHost openAccess (7 * nanosPerHour) "later"
        (sampleStore [.seed sampleSeed, .execute (sampleBuy 1)]) (.execute misnamedBuy) =
      .error (.invalidInput "plan lacks active epoch namespace") := by
  obtain ⟨book, row, reachable, found, manifest, member, named, _⟩ := sampleStore_bought
  refine ⟨book, row, reachable, found, member, named, ?_, ?_, by decide +kernel⟩
  · rw [manifest]
    rfl
  · rintro ⟨order, _, _, hashed⟩
    have refused : orderIntentHash sampleHost misnamedBuy.binding misnamedBuy.signal
        misnamedBuy.priceIntent = .error (.invalidInput "plan lacks active epoch namespace") := by
      decide +kernel
    rw [refused] at hashed
    cases hashed

end StockAnalysis.Ledger
