import StockAnalysis.Ledger.Agreement

/-!
# Committed versions stay readable

An account is only ever extended at its end. Replayed up to a version that was once its head, it
gives that head in every later store, whatever was executed, marked, ruled on or settled since.
-/

namespace StockAnalysis.Ledger

variable {host : Host} {store next : Store} {book later : Book} {rows more : List EventRow}
  {first second : ReplayCursor} {accountId : String} {access : Access} {view : PaperView}

/-- The later account keeps the manifest, and begins with the events that were there. -/
structure Book.Continues (book later : Book) : Prop where
  manifest : later.manifest = book.manifest
  events : book.events <+: later.events

theorem Step.continues (step : Step host store next)
    (found : store.books.get? accountId = some book) :
    ∃ later, next.books.get? accountId = some later ∧ book.Continues later := by
  cases step_cases step with
  | none same => exact ⟨book, same ▸ found, rfl, List.prefix_rfl⟩
  | opened seed projection fact opened =>
    have other : seed.accountId ≠ accountId := by
      rintro rfl
      cases found.symm.trans opened.absent
    exact ⟨book, by rw [opened.books, OrdMap.get?_insert, if_neg other, found], rfl,
      List.prefix_rfl⟩
  | extended binding old view command fact projection extended =>
    have books := extended.appended.books
    by_cases own : binding.accountId = accountId
    · subst own
      obtain rfl : old = book := Option.some.inj (extended.appended.found.symm.trans found)
      rw [books]
      exact ⟨_, OrdMap.get?_insert_self .., rfl, List.prefix_append _ _⟩
    · exact ⟨book, by rw [books, OrdMap.get?_insert, if_neg own, found], rfl, List.prefix_rfl⟩

theorem run_continues (run : Relation.ReflTransGen (Step host) store next)
    (found : store.books.get? accountId = some book) :
    ∃ later, next.books.get? accountId = some later ∧ book.Continues later := by
  induction run with
  | refl => exact ⟨book, found, rfl, List.prefix_rfl⟩
  | tail _ step ih =>
    obtain ⟨middle, isMiddle, earlier⟩ := ih
    obtain ⟨later, isLater, further⟩ := step.continues isMiddle
    exact ⟨later, isLater, further.manifest.trans earlier.manifest,
      earlier.events.trans further.events⟩

/-- Where rows replay to does not depend on the store that the rulings are verified against. -/
theorem replays_agree (manifest : later.manifest = book.manifest)
    (before : Replays host store book rows first) (after : Replays host next later rows second) :
    first = second := by
  induction rows using List.reverseRecOn generalizing first second with
  | nil =>
    simp only [Replays, each, Except.ok.injEq] at before after
    exact before.symm.trans after
  | append_singleton rows row ih =>
    obtain ⟨_, earlier, stepped⟩ := replays_append_one.mp before
    obtain ⟨_, laterEarlier, laterStepped⟩ := replays_append_one.mp after
    obtain rfl := ih earlier laterEarlier
    obtain ⟨state, applied, rfl⟩ := (replayStep_eq_ok.mp stepped).state
    obtain ⟨laterState, laterApplied, rfl⟩ := (replayStep_eq_ok.mp laterStepped).state
    unfold applyPending at applied laterApplied
    rw [manifest] at laterApplied
    rw [Except.ok.inj (applied.symm.trans laterApplied)]

/-- Rows that follow others have later numbers. -/
theorem replays_behind (replays : Replays host store book (rows ++ more) first) :
    ∀ row ∈ more, (rows.length : Int) < row.seq := by
  induction more using List.reverseRecOn generalizing first with
  | nil => simp
  | append_singleton more row ih =>
    rw [← List.append_assoc] at replays
    obtain ⟨_, earlier, stepped⟩ := replays_append_one.mp replays
    have seq := validateNextEvent_seq (replayStep_eq_ok.mp stepped).linked
    have version := (replays_numbered earlier).1
    intro other member
    rcases mem_concat.mp member with old | rfl
    · exact ih earlier other old
    · rw [seq, version, List.length_append]
      omega

/-- A view that was committed is read back, under its version, from every later store.

Proof: a book only grows, a replay is determined by its rows, and the rows up to the version are
those committed with the view. -/
theorem committed_view_readable (reachable : Reachable host store)
    (run : Relation.ReflTransGen (Step host) store next) (catalog : access.catalog = .ok ())
    (found : store.books.get? accountId = some book) (head : book.head = some view) :
    replayThrough host access next (seedBinding host book.manifest) (some view.version) =
      .ok view := by
  obtain ⟨grown, isGrown, manifest, more, events⟩ := run_continues run found
  obtain ⟨start, initial, earlier⟩ := reachable
  have kept := reachable_kept ⟨start, initial, earlier⟩ accountId book found
  have keptLater := reachable_kept ⟨start, initial, earlier.trans run⟩ accountId grown isGrown
  obtain ⟨_, isHead, replays⟩ := kept.replays
  obtain rfl := Option.some.inj (head.symm.trans isHead)
  obtain ⟨_, _, replaysLater⟩ := keptLater.replays
  rw [← events] at replaysLater
  have behind := replays_behind replaysLater
  obtain ⟨version, numbered⟩ := replays_numbered replays
  rw [Replays, each_append] at replaysLater
  obtain ⟨middle, replayed, _⟩ := bind_eq_ok.mp replaysLater
  obtain rfl := replays_agree manifest replays replayed
  have rows : (grown.events.takeWhile fun row => (some view.version).all fun version =>
      row.seq ≤ version) = book.events := by
    rw [← events, List.takeWhile_append_of_pos fun row member => ?_]
    · cases more with
      | nil => simp
      | cons row more =>
        have after := behind row List.mem_cons_self
        simp only at version
        simp [version, after]
    · have := numbered row member
      simp only at version
      simp only [Option.all_some, decide_eq_true_eq]
      omega
  have started : startReplay host (seedBinding host grown.manifest) grown =
      .ok ⟨genesisHash, none, 0⟩ := by
    simp only [startReplay, bind_eq_ok, require_eq_ok, pure_eq_ok]
    exact ⟨(), ⟨keptLater.epoch, keptLater.hash, rfl⟩, trivial⟩
  have account : (seedBinding host grown.manifest).accountId = accountId := keptLater.account
  rw [← manifest]
  simp only [replayThrough, bookOf, account, isGrown, okOr, ok_bind, started, rows,
    replayStep_access catalog]
  rw [replayed]
  rfl

/-- The seeded view is still read at version one after a buy. -/
theorem seeded_view_after_buy : ∃ later receipt view,
    apply sampleHost openAccess (7 * nanosPerHour) "created" (sampleStore [.seed sampleSeed])
      (.execute (sampleBuy 1)) = .ok (later, receipt) ∧ view.version = 1 ∧
    replayThrough sampleHost openAccess later sampleBinding (some view.version) = .ok view := by
  have ran : sampleRun [.seed sampleSeed] = .ok (sampleStore [.seed sampleSeed]) := by
    decide +kernel
  have seeded : ((sampleStore [.seed sampleSeed]).books.get? "a").any (fun book =>
      book.manifest = sampleSeed && book.head.any fun view => view.version = 1) = true := by
    decide +kernel
  have succeeds : (apply sampleHost openAccess (7 * nanosPerHour) "created"
      (sampleStore [.seed sampleSeed]) (.execute (sampleBuy 1))).isOk = true := by
    decide +kernel
  obtain ⟨book, found, isBook⟩ := (Option.any_eq_true ..).mp seeded
  obtain ⟨manifest, headed⟩ := (Bool.and_eq_true _ _).mp isBook
  obtain ⟨view, head, version⟩ := (Option.any_eq_true ..).mp headed
  obtain ⟨⟨later, receipt⟩, applied⟩ := isOk_iff.mp succeeds
  refine ⟨later, receipt, view, applied, of_decide_eq_true version, ?_⟩
  have catalog : openAccess.catalog = .ok () := rfl
  have read := committed_view_readable (sampleRun_reachable ran)
    (.single (.command _ _ _ _ receipt applied)) catalog found head
  rwa [of_decide_eq_true manifest] at read

end StockAnalysis.Ledger
