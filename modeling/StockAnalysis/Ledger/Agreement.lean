import StockAnalysis.Ledger.Fills

/-!
# The fold over events and the recomputation agree

Two implementations build the projection of an account: `apply_fact` folds the events in chain
order, and `recompute_available` merges fills and observations by time. They agree as long as
each event is the last of both orders, which its time and trade identity ensure, and as long as
no fill comes at the very time of an earlier closing batch: the merge takes the fill before that
batch, the fold took it after.
-/

namespace StockAnalysis.Ledger

/-! ## Fills and observations -/

variable {host : Host} {state next projection : Projection} {fill : RecomputeFill}
  {entry : RecomputeMarket} {lots : List Lot} {rows : List EventRow} {manifest : SeedManifest}
  {actions : Rulings} {row : EventRow} {order : OrderFact} {id : Int} {view : PaperView}
  {intent : ExecuteIntent} {now : Instant} {terms : OrderTerms} {effect : FillEffect}
  {store : Store} {accountId intentHash : String} {book : Book}
  {verdict : LedgerStatus × Option String} {tradeId : Option Int} {audit : AuditLink}

/-- A fill does not look at the marks or the time of the account. -/
theorem applyEconomics_frame {result : Projection} (marks : OrdMap String Mark) (asOf : Instant) :
    applyEconomics host { state with marks := marks, asOf := asOf } fill = .ok result ↔
      ∃ next, applyEconomics host state fill = .ok next ∧
        result = { next with marks := marks, asOf := max asOf fill.time } := by
  by_cases buying : fill.order.direction = "buy"
  · simp only [applyEconomics, recomputeTrade, recomputeBuy, buying, if_true, bind_eq_ok,
      pure_eq_ok, require_eq_ok]
    constructor
    · rintro ⟨notional, priced, charge, charged, _, ⟨spent, spends, cash, pays, name, named,
        sellableFrom, next, rfl⟩, _, solvent, fees, feed, rfl⟩
      exact ⟨_, ⟨notional, priced, charge, charged, _, ⟨spent, spends, cash, pays, name, named,
        sellableFrom, next, rfl⟩, (), solvent, fees, feed, rfl⟩, rfl⟩
    · rintro ⟨_, ⟨notional, priced, charge, charged, _, ⟨spent, spends, cash, pays, name, named,
        sellableFrom, next, rfl⟩, _, solvent, fees, feed, rfl⟩, rfl⟩
      exact ⟨notional, priced, charge, charged, _, ⟨spent, spends, cash, pays, name, named,
        sellableFrom, next, rfl⟩, (), solvent, fees, feed, rfl⟩
  · by_cases selling : fill.order.direction = "sell"
    · simp only [applyEconomics, recomputeTrade, recomputeSell, selling, if_true, if_false,
        bind_eq_ok, pure_eq_ok, require_eq_ok, Prod.exists, String.reduceEq]
      constructor
      · rintro ⟨notional, priced, charge, charged, _, ⟨tally, left, sold, _, done, gross, earns,
          cash, pays, gain, gained, realized, adds, rfl⟩, _, solvent, fees, feed, rfl⟩
        exact ⟨_, ⟨notional, priced, charge, charged, _, ⟨tally, left, sold, (), done, gross,
          earns, cash, pays, gain, gained, realized, adds, rfl⟩, (), solvent, fees, feed, rfl⟩,
          rfl⟩
      · rintro ⟨_, ⟨notional, priced, charge, charged, _, ⟨tally, left, sold, _, done, gross,
          earns, cash, pays, gain, gained, realized, adds, rfl⟩, _, solvent, fees, feed, rfl⟩,
          rfl⟩
        exact ⟨notional, priced, charge, charged, _, ⟨tally, left, sold, (), done, gross, earns,
          cash, pays, gain, gained, realized, adds, rfl⟩, (), solvent, fees, feed, rfl⟩
    · simp only [applyEconomics, recomputeTrade, buying, selling, if_false, bind_eq_ok]
      constructor
      · rintro ⟨_, _, _, _, _, unknown, _⟩
        cases unknown
      · rintro ⟨_, ⟨_, _, _, _, _, unknown, _⟩, _⟩
        cases unknown

/-- An observation that closes nothing only records. -/
theorem observeMarket_open (open_ : entry.closing = false) :
    observeMarket state entry = .ok { state with
      marks := state.marks.extend entry.marks, asOf := max state.asOf entry.time } := by
  simp [observeMarket, open_, pure, Except.pure]

/-- A fill can be applied before an observation of its time that closes nothing. -/
theorem observeMarket_swaps (open_ : entry.closing = false) :
    TimedMerge.Swaps (applyEconomics host) observeMarket entry fill := by
  intro state seen result observed applied
  rw [observeMarket_open open_, Except.ok.injEq] at observed
  subst observed
  obtain ⟨next, before, rfl⟩ := (applyEconomics_frame _ _).mp applied
  refine ⟨next, before, ?_⟩
  have marks : next.marks = state.marks ∧ next.asOf = max state.asOf fill.time := by
    obtain ⟨charge, buy | sell⟩ := applyEconomics_cases before
    · rw [buy.rest]
      exact ⟨rfl, rfl⟩
    · rw [sell.rest]
      exact ⟨rfl, rfl⟩
  rw [observeMarket_open open_, marks.1, marks.2, max_right_comm]

theorem applyEconomics_asOf (applied : applyEconomics host state fill = .ok next) :
    next.asOf = max state.asOf fill.time := by
  obtain ⟨charge, buy | sell⟩ := applyEconomics_cases applied
  · rw [buy.rest]
  · rw [sell.rest]

theorem observeMarket_asOf (observed : observeMarket state entry = .ok next) :
    next.asOf = max state.asOf entry.time := by
  unfold observeMarket at observed
  split at observed
  · obtain ⟨equity, _, result⟩ := bind_eq_ok.mp observed
    rw [← pure_eq_ok.mp result]
  · rw [← pure_eq_ok.mp observed]

/-- What is behind the account in time, while the merge runs. -/
structure Timed (fills : List RecomputeFill) (market : List RecomputeMarket) (start : Instant)
    (state : Projection) (rest : List RecomputeFill) (left : List RecomputeMarket) : Prop where
  start : start ≤ state.asOf
  fills : ∀ fill ∈ fills, fill ∈ rest ∨ fill.time ≤ state.asOf
  market : ∀ entry ∈ market, entry ∈ left ∨ entry.time ≤ state.asOf

variable {merged : Projection} {fills : List RecomputeFill} {history : History}
  {batch : ValuationBatch} {lot : Lot} {request : Adjudication} {fact : AdjudicatedFact}
  {start : Store}

/-- The time of a merged account is not before its start, its fills or its observations. -/
theorem mergeHistory_timed {market : List RecomputeMarket}
    (merges : mergeHistory host state fills market = .ok merged) :
    Timed fills market state.asOf merged [] [] := by
  refine TimedMerge.merge_invariant (Timed fills market state.asOf) ?_ ?_
    ⟨le_refl _, fun _ member => Or.inl member, fun _ member => Or.inl member⟩ merges
  · intro before fill rest left next timed applied
    have later := applyEconomics_asOf applied
    have grows : before.asOf ≤ next.asOf := later ▸ le_max_left _ _
    refine ⟨timed.start.trans grows, fun other member => ?_, fun entry member => ?_⟩
    · rcases timed.fills other member with pending | past
      · rcases List.mem_cons.mp pending with rfl | waiting
        · exact Or.inr (later ▸ le_max_right _ _)
        · exact Or.inl waiting
      · exact Or.inr (past.trans grows)
    · exact (timed.market entry member).imp_right fun past => past.trans grows
  · intro before rest entry left next timed observed
    have later := observeMarket_asOf observed
    have grows : before.asOf ≤ next.asOf := later ▸ le_max_left _ _
    refine ⟨timed.start.trans grows, fun fill member => ?_, fun other member => ?_⟩
    · exact (timed.fills fill member).imp_right fun past => past.trans grows
    · rcases timed.market other member with pending | past
      · rcases List.mem_cons.mp pending with rfl | waiting
        · exact Or.inr (later ▸ le_max_right _ _)
        · exact Or.inl waiting
      · exact Or.inr (past.trans grows)

/-! ## Marks -/

/-- New marks of every held code replace the old ones. -/
theorem heldMarks_extend {old new : OrdMap String Mark}
    (covers : ∀ lot ∈ lots, ∃ mark, new.get? lot.code = some mark) :
    heldMarks (old.extend new) lots = heldMarks new lots := by
  refine OrdMap.ext fun code => ?_
  simp only [heldMarks, OrdMap.get?_retain, OrdMap.get?_extend]
  split
  · rename_i held
    obtain ⟨lot, member, same⟩ := List.any_eq_true.mp held
    obtain ⟨mark, marked⟩ := covers lot member
    rw [of_decide_eq_true same] at marked
    rw [marked]
    rfl
  · rfl

theorem heldMarks_self {marks : OrdMap String Mark}
    (within : ∀ code mark, marks.get? code = some mark → code ∈ lots.map Lot.code) :
    heldMarks marks lots = marks := by
  refine OrdMap.ext fun code => ?_
  simp only [heldMarks, OrdMap.get?_retain]
  split
  · rfl
  · rename_i unheld
    cases found : marks.get? code with
    | none => rfl
    | some mark =>
      obtain ⟨lot, member, same⟩ := List.mem_map.mp (within code mark found)
      exact absurd (List.any_eq_true.mpr ⟨lot, member, by simp [same]⟩) unheld

/-- The value of an account depends on its cash, its lots and the marks of these lots. -/
theorem equity_congr {first second : Projection} (cash : first.cash = second.cash)
    (lots : first.lots = second.lots)
    (marks : ∀ lot ∈ first.lots, first.marks.get? lot.code = second.marks.get? lot.code) :
    first.equity = second.equity := by
  unfold Projection.equity
  rw [← lots, ← cash]
  generalize first.cash = start
  generalize first.lots = held at marks
  induction held generalizing start with
  | nil => rfl
  | cons lot held ih =>
    have same : Projection.addMarketValue first.marks start lot =
        Projection.addMarketValue second.marks start lot := by
      simp only [Projection.addMarketValue, Projection.markOf, marks lot List.mem_cons_self]
    simp only [each, same]
    cases Projection.addMarketValue second.marks start lot with
    | error error => rfl
    | ok next => exact ih next fun other member => marks other (List.mem_cons_of_mem lot member)

/-! ## One more event -/

theorem seedOf_append {more : List EventRow} (begins : seedOf rows = .ok manifest) :
    seedOf (rows ++ more) = .ok manifest := by
  cases rows with
  | nil => cases begins
  | cons row rows => exact begins

/-- An event that contributes nothing leaves the recomputation as it is. -/
theorem recomputeAvailable_quiet (quiet : ∀ manifest, rowHistory manifest actions row = .ok .nil)
    (recomputed : recomputeAvailable host rows actions = .ok state) :
    recomputeAvailable host (rows ++ [row]) actions = .ok state := by
  obtain ⟨manifest, seed, history, merged, done, rfl⟩ := recomputeAvailable_eq_ok.mp recomputed
  have same : history.append .nil = history := by simp [History.append, History.nil]
  refine recomputeAvailable_eq_ok.mpr ⟨manifest, seed, history, merged,
    ⟨seedOf_append done.begins, done.seeded, ?_, done.merges, done.valued⟩, rfl⟩
  exact collectHistory_append_one.mpr ⟨history, .nil, done.collected, quiet manifest, same⟩

/-- An observation that nothing follows is observed last. -/
theorem Recomputed.observe {seed seen : Projection} (begins : seedOf rows = .ok manifest)
    (seeded : seedProjection host manifest = .ok seed)
    (collected : collectHistory manifest actions rows = .ok history)
    (contributes : rowHistory manifest actions row = .ok ⟨fills, [entry]⟩)
    (merges : mergeHistory host seed (sortRecomputeFills (history.fills ++ fills))
      (sortRecomputeMarkets history.market) = .ok merged) (last : merged.asOf ≤ entry.time)
    (observed : observeMarket merged entry = .ok seen)
    (valued : ∃ equity, (keepHeld seen).equity = .ok equity) :
    recomputeAvailable host (rows ++ [row]) actions = .ok (keepHeld seen) := by
  have timed := mergeHistory_timed merges
  have past : ∀ other ∈ history.market, marketBefore other entry := by
    intro other member
    have sorted : other ∈ sortRecomputeMarkets history.market :=
      (List.perm_insertionSort _ _).mem_iff.mpr member
    rcases timed.market other sorted with pending | before
    · cases pending
    · exact before.trans last
  have due : ∀ fill ∈ sortRecomputeFills (history.fills ++ fills), fill.time ≤ entry.time := by
    intro fill member
    rcases timed.fills fill member with pending | before
    · cases pending
    · exact before.trans last
  have sortedLast : sortRecomputeMarkets (history.market ++ [entry]) =
      sortRecomputeMarkets history.market ++ [entry] :=
    TimedMerge.insertionSort_append_last past
  refine recomputeAvailable_eq_ok.mpr ⟨manifest, seed, history.append ⟨fills, [entry]⟩, seen,
    ⟨seedOf_append begins, seeded, ?_, ?_, valued⟩, rfl⟩
  · exact collectHistory_append_one.mpr ⟨history, _, collected, contributes, rfl⟩
  · unfold mergeHistory at merges ⊢
    simp only [History.append, sortedLast]
    rw [TimedMerge.merge_append_observation due, merges]
    exact observed

/-- A valuation batch in the fold is the last observation of the recomputation. -/
theorem recomputeAvailable_mark (recomputed : recomputeAvailable host rows actions = .ok state)
    (payload : row.payload = .marked batch) (marked : MarkApplied host state batch next)
    (forward : state.asOf ≤ batch.asOf) (valued : ∃ equity, next.equity = .ok equity) :
    recomputeAvailable host (rows ++ [row]) actions = .ok next := by
  obtain ⟨manifest, seed, history, merged, done, rfl⟩ := recomputeAvailable_eq_ok.mp recomputed
  have admitted := marked.admitted
  have covers : ∀ lot ∈ merged.lots, ∃ mark, next.marks.get? lot.code = some mark :=
    fun lot member => admitted.covers lot.code (Or.inl (List.mem_map_of_mem member))
  have held : heldMarks (merged.marks.extend next.marks) merged.lots = next.marks := by
    rw [heldMarks_extend covers]
    refine heldMarks_self fun code mark found => ?_
    rcases admitted.within code mark found with inLots | extra
    · exact inLots
    · cases extra
  have time : max merged.asOf batch.asOf = batch.asOf := max_eq_right forward
  have frame := marked.rest
  let base : Projection := { merged with
    marks := merged.marks.extend next.marks, asOf := max merged.asOf batch.asOf }
  have contributes : rowHistory manifest actions row =
      .ok ⟨[], [⟨batch.asOf, batch.closing, next.marks⟩]⟩ := by
    simp only [rowHistory, payload, admitted.collected]
    rfl
  have merges : mergeHistory host seed (sortRecomputeFills (history.fills ++ []))
      (sortRecomputeMarkets history.market) = .ok merged := by
    rw [List.append_nil]
    exact done.merges
  -- It remains to observe the batch; only a closing batch computes the account's value.
  have observes : ∃ seen, observeMarket merged ⟨batch.asOf, batch.closing, next.marks⟩ =
      .ok seen ∧ keepHeld seen = next := by
    rcases marked.closes with ⟨sameCloses, open_⟩ | ⟨closing, _, equity, equals, newCloses⟩
    · refine ⟨base, observeMarket_open open_, ?_⟩
      rw [frame]
      simp only [keepHeld, base, held, time, sameCloses]
    · have agree : base.equity = next.equity := by
        refine equity_congr (by rw [frame]; rfl) (by rw [frame]; rfl) fun lot member => ?_
        obtain ⟨mark, found⟩ := covers lot member
        simp only [base, OrdMap.get?_extend, found, Option.some_or]
      refine ⟨{ base with closes := base.closes.insert (day batch.asOf) equity }, ?_, ?_⟩
      · simp only [observeMarket, closing, if_true]
        change (base.equity >>= fun equity => pure
          { base with closes := base.closes.insert (day batch.asOf) equity }) = _
        rw [agree, equals]
        rfl
      · rw [frame]
        simp only [keepHeld, base, held, time, newCloses]
  obtain ⟨seen, observed, same⟩ := observes
  rw [← same] at valued ⊢
  exact Recomputed.observe done.begins done.seeded done.collected contributes merges forward
    observed valued

/-- A closing observation comes from a closing batch of the chain. -/
theorem collectHistory_closing (collected : collectHistory manifest actions rows = .ok history)
    (member : entry ∈ history.market) (closing : entry.closing = true) :
    ∃ row ∈ rows, ∃ batch, row.payload = .marked batch ∧ batch.closing = true ∧
      batch.asOf = entry.time := by
  induction rows using List.reverseRecOn generalizing history with
  | nil =>
    simp only [collectHistory, each, Except.ok.injEq] at collected
    rw [← collected] at member
    cases member
  | append_singleton rows row ih =>
    obtain ⟨before, own, earlier, contributed, rfl⟩ := collectHistory_append_one.mp collected
    rcases List.mem_append.mp member with old | new
    · obtain ⟨source, inRows, found⟩ := ih earlier old
      exact ⟨source, List.mem_append_left _ inRows, found⟩
    · refine ⟨row, by simp, ?_⟩
      unfold rowHistory at contributed
      split at contributed
      · -- A filled order is observed, but closes nothing.
        split at contributed
        · simp only [orderHistory, bind_eq_ok] at contributed
          obtain ⟨id, _, rest⟩ := contributed
          have open_ : ∀ fills : List RecomputeFill, ∀ order : OrderFact,
              own = ⟨fills, [⟨order.occurredAt, false, order.marks⟩]⟩ → False := by
            rintro fills order rfl
            rw [List.mem_singleton.mp new] at closing
            cases closing
          split at rest
          · exact absurd (pure_eq_ok.mp rest).symm (open_ _ _)
          · obtain ⟨_, _, result⟩ := bind_eq_ok.mp rest
            exact absurd (pure_eq_ok.mp result).symm (open_ _ _)
        · rw [← pure_eq_ok.mp contributed] at new
          cases new
      · rename_i batch payload
        rw [← pure_eq_ok.mp contributed] at new
        rw [List.mem_singleton.mp new] at closing ⊢
        exact ⟨batch, payload, closing, rfl⟩
      · rw [← pure_eq_ok.mp contributed] at new
        cases new

instance : Std.Total marketBefore :=
  ⟨fun a b => le_total a.time b.time⟩

instance : IsTrans RecomputeMarket marketBefore :=
  ⟨fun _ _ _ first second => Int.le_trans first second⟩

/-- The fill of an order that no ruling names. -/
def unruledFill (row : EventRow) (order : OrderFact) (id : Int) : RecomputeFill :=
  ⟨order.occurredAt, id, row.commandId, order, order.requestedPrice, order.quantity⟩

/-- What makes a filled order the last of both orders of the merge. -/
structure LastFill (rows : List EventRow) (actions : Rulings) (state : Projection)
    (order : OrderFact) (id : Int) : Prop where
  filled : order.status = .filled
  traded : order.paperTradeId = some id
  unruled : actions.get? id = none
  price : 0 < order.requestedPrice.val
  quantity : order.quantity ≠ 0
  boardLots : order.quantity % 100 = 0
  forward : state.asOf ≤ order.occurredAt
  newest : ∀ row ∈ rows, ∀ other earlier, filledOrder? other row = some earlier → other ≤ id
  noClose : ∀ row ∈ rows, ∀ batch, row.payload = .marked batch → batch.closing = true →
    batch.asOf ≠ order.occurredAt

theorem CollectedFill.filledOrder (collected : CollectedFill manifest actions row fill) :
    ∃ order, filledOrder? fill.id row = some order := by
  obtain ⟨order, id, payload, filled, traded, ruled⟩ := collected.order
  refine ⟨order, ?_⟩
  rw [(ruledFill_command ruled).2.1]
  simp [filledOrder?, payload, traded, filled]

/-- The account once the marks observed with a fill are recorded. -/
def withMarksOf (order : OrderFact) (acted : Projection) : Projection :=
  { acted with marks := heldMarks order.marks acted.lots, asOf := order.occurredAt }

/-- A fill in the fold is the last fill of the recomputation, followed by its own marks. -/
theorem recomputeAvailable_fill {acted : Projection}
    (recomputed : recomputeAvailable host rows actions = .ok state)
    (payload : row.payload = .order order) (last : LastFill rows actions state order id)
    (applied : applyEconomics host state (unruledFill row order id) = .ok acted)
    (covers : ∀ lot ∈ acted.lots, ∃ mark, order.marks.get? lot.code = some mark)
    (valued : ∃ equity, (withMarksOf order acted).equity = .ok equity) :
    recomputeAvailable host (rows ++ [row]) actions = .ok (withMarksOf order acted) := by
  obtain ⟨manifest, seed, history, merged, done, rfl⟩ := recomputeAvailable_eq_ok.mp recomputed
  have timed := mergeHistory_timed done.merges
  have forward : merged.asOf ≤ order.occurredAt := last.forward
  -- The fold's account differs from the merged one in its marks only.
  obtain ⟨next, nextApplied, rfl⟩ :=
    (applyEconomics_frame (heldMarks merged.marks merged.lots) merged.asOf).mp applied
  have nextTime : next.asOf = order.occurredAt := by
    rw [applyEconomics_asOf nextApplied]
    exact max_eq_right forward
  have fillPast : ∀ fill ∈ sortRecomputeFills history.fills, fill.time ≤ order.occurredAt := by
    intro fill member
    rcases timed.fills fill member with pending | past
    · cases pending
    · exact past.trans forward
  have entryPast : ∀ entry ∈ sortRecomputeMarkets history.market,
      entry.time ≤ order.occurredAt := by
    intro entry member
    rcases timed.market entry member with pending | past
    · cases pending
    · exact past.trans forward
  have sortedLast : sortRecomputeFills (history.fills ++ [unruledFill row order id]) =
      sortRecomputeFills history.fills ++ [unruledFill row order id] := by
    refine TimedMerge.insertionSort_append_last fun fill member => ?_
    obtain ⟨source, inRows, collected⟩ := (collectHistory_fills done.collected).2 fill member
    obtain ⟨earlier, found⟩ := collected.filledOrder
    rcases lt_or_eq_of_le (fillPast fill ((List.mem_insertionSort _).mpr member)) with lt | eq
    · exact Or.inl lt
    · exact Or.inr ⟨eq, last.newest source inRows fill.id earlier found⟩
  have contributes : rowHistory manifest actions row = .ok ⟨[unruledFill row order id],
      [⟨order.occurredAt, false, order.marks⟩]⟩ := by
    have cutover : manifest.cutoverAt ≤ order.occurredAt := by
      rw [← (seedProjection_seeded done.seeded).asOf]
      exact timed.start.trans forward
    have checked : checkFill manifest (unruledFill row order id) = .ok () :=
      require_pos ⟨last.price, last.quantity, last.boardLots, cutover⟩
    have ruled : ruledFill actions id row.commandId order = some (unruledFill row order id) := by
      simp [ruledFill, last.unruled, unruledFill]
    simp only [rowHistory, payload, last.filled, if_true, orderHistory, last.traded, okOr, ok_bind,
      ruled, checked]
    rfl
  have merges : mergeHistory host seed
      (sortRecomputeFills (history.fills ++ [unruledFill row order id]))
      (sortRecomputeMarkets history.market) = .ok next := by
    rw [sortedLast]
    refine TimedMerge.merge_append_action (List.pairwise_insertionSort marketBefore _) fillPast
      entryPast (fun entry member together => observeMarket_swaps ?_) done.merges nextApplied
    -- An observation at the time of the fill does not close a day.
    by_contra closing
    obtain ⟨source, inRows, batch, marked, closes, same⟩ := collectHistory_closing done.collected
      ((List.mem_insertionSort _).mp member) (by simpa using closing)
    exact last.noClose source inRows batch marked closes (same.trans together)
  have held : heldMarks (next.marks.extend order.marks) next.lots =
      heldMarks order.marks next.lots := heldMarks_extend covers
  have observed := @observeMarket_open next ⟨order.occurredAt, false, order.marks⟩ rfl
  have time : max next.asOf order.occurredAt = order.occurredAt := by rw [nextTime, max_self]
  have result := Recomputed.observe done.begins done.seeded done.collected contributes merges
    nextTime.le observed
  simp only [keepHeld, held, time] at result
  exact result valued

/-! ## Executed orders -/

/-- The recorded changes of a buy name the lot it opened. -/
theorem lotChanges_newLotName (fresh : lot.lotId ∉ lots.map Lot.lotId) :
    (lotChanges lots (lots ++ [lot])).findSome? newLotName = some lot.name := by
  have unnamed : (lots.filterMap (KeyedPatch.changeOf Lot.lotId (lots ++ [lot]))).findSome?
      newLotName = none := by
    rw [List.findSome?_eq_none_iff]
    intro change member
    obtain ⟨old, _, changed⟩ := List.mem_filterMap.mp member
    unfold KeyedPatch.changeOf at changed
    dsimp only at changed
    split at changed
    · cases changed
    · obtain rfl := Option.some.inj changed
      rfl
  have added : ((lots ++ [lot]).filter fun item =>
      !lots.any fun old => decide (old.lotId = item.lotId)) = [lot] := by
    have none_ : (lots.filter fun item => !lots.any fun old => decide (old.lotId = item.lotId)) =
        [] := by
      simp only [List.filter_eq_nil_iff, Bool.not_eq_true', Bool.not_eq_false, List.any_eq_true,
        decide_eq_true_eq]
      exact fun item member => ⟨item, member, rfl⟩
    have kept : (!lots.any fun old => decide (old.lotId = lot.lotId)) = true := by
      simp only [Bool.not_eq_true', List.any_eq_false, decide_eq_true_eq]
      exact fun old member same => fresh (List.mem_map.mpr ⟨old, member, same⟩)
    rw [List.filter_append, none_]
    simp [kept]
  unfold lotChanges KeyedPatch.diff
  rw [List.findSome?_append, unnamed, added]
  rfl

theorem commissionOf_nonneg {notional commission : Money}
    (charged : commissionOf notional = .ok commission) : 0 ≤ commission.val := by
  simp only [commissionOf, bind_eq_ok, pure_eq_ok] at charged
  obtain ⟨proportional, _, rfl⟩ := charged
  rw [I64.val_max]
  exact le_max_of_le_right (by decide)

/-- A filled order, as execution decided it and the fold applied it. -/
structure FilledOrder (host : Host) (view : PaperView) (intent : ExecuteIntent) (now : Instant)
    (terms : OrderTerms) (effect : FillEffect) (order : OrderFact) (next : Projection) : Prop where
  termed : Termed host view intent now terms
  effected : fillEffect host view.projection.lots intent terms now .filled = .ok effect
  applied : OrderApplied view.projection order next
  lots : next.lots = effect.lots
  recorded : order.code = intent.signal.code ∧
    order.direction = intent.signal.direction.asStr ∧ order.requestedPrice = terms.price ∧
    order.quantity = intent.signal.quantity ∧ order.occurredAt = now ∧
    order.cashDelta = effect.cashDelta ∧ order.commission = terms.commission ∧
    order.stamp = terms.stamp ∧ order.realizedDelta = effect.realizedDelta ∧
    order.lotChanges = lotChanges view.projection.lots effect.lots ∧ order.marks = terms.marks

/-- The recomputed account of a filled order before its marks are recorded. -/
def actedState (view : Projection) (order : OrderFact) (next : Projection) : Projection :=
  { view with
    cash := next.cash
    lots := next.lots
    fees := next.fees
    realizedPnl := next.realizedPnl
    asOf := max view.asOf order.occurredAt }

section

variable (filled : FilledOrder host view intent now terms effect order next)

include filled

theorem FilledOrder.withMarksOf :
    Ledger.withMarksOf order (actedState view.projection order next) = next := by
  rw [filled.applied.rest]
  rfl

theorem FilledOrder.buy (buying : intent.signal.direction = .buy)
    (named : row.commandId = intent.commandId)
    (fresh : fillLotId intent.commandId ∉ view.projection.lots.map Lot.lotId) :
    applyEconomics host view.projection (unruledFill row order id) =
      .ok (actedState view.projection order next) := by
  obtain ⟨code, direction, price, quantity, occurred, cashDelta, commission, stamp, realized,
    changes, _⟩ := filled.recorded
  obtain ⟨cashEq, realizedEq, sellableFrom, settles, lotsEq⟩ :=
    fillEffect_buy buying filled.effected
  have termed := filled.termed
  have noStamp : terms.stamp = 0 := stampOf_buy (by
    have charged := termed.stamp
    rwa [buying] at charged)
  have total : terms.totalFee = terms.commission := I64.ext (by
    rw [termed.totalFee, noStamp, I64.val_zero, add_zero])
  have cash := filled.applied.cash
  have fees := filled.applied.fees
  have gained := filled.applied.realizedPnl
  rw [cashDelta, cashEq] at cash
  rw [commission, stamp, noStamp, I64.val_zero, add_zero] at fees
  rw [realized, realizedEq, I64.val_zero, add_zero] at gained
  have notional : order.requestedPrice.mul order.quantity = .ok terms.notional := by
    rw [price, quantity]
    exact Money.mul_eq_ok.mpr termed.notional
  have charged : fee order.requestedPrice order.quantity order.direction = .ok terms.totalFee := by
    rw [price, quantity, direction]
    exact termed.fee_eq
  -- What is left after the notional lies between the final and the initial cash.
  have above : next.cash.val ≤ view.projection.cash.val - terms.notional.val := by
    have := commissionOf_nonneg termed.commission
    rw [cash, total]
    omega
  have below : view.projection.cash.val - terms.notional.val ≤ view.projection.cash.val := by
    have := Int.mul_nonneg termed.positive.le (Int.natCast_nonneg intent.signal.quantity)
    rw [termed.notional]
    omega
  obtain ⟨spent, _, spentVal⟩ := I64.ofInt?_between next.cash view.projection.cash above below
  have spending : view.projection.cash.sub terms.notional = .ok spent :=
    Money.sub_eq_ok.mpr spentVal
  have paying : Money.sub spent terms.totalFee = .ok next.cash :=
    Money.sub_eq_ok.mpr (by omega)
  have feeing : view.projection.fees.add terms.totalFee = .ok next.fees :=
    Money.add_eq_ok.mpr (by rw [fees, total])
  have name : order.lotChanges.findSome? newLotName = some intent.signal.name := by
    rw [changes, lotsEq]
    exact lotChanges_newLotName fresh
  have side : order.direction = "buy" := by rw [direction, buying]; rfl
  have lot : boughtLot (unruledFill row order id) intent.signal.name terms.totalFee sellableFrom =
      openedLot intent terms now sellableFrom := by
    simp only [boughtLot, openedLot, unruledFill, named, code, quantity, price, total, occurred]
  have settlesAt : host.calendarNext (day order.occurredAt) = .ok sellableFrom := by
    rw [occurred]
    exact settles
  have solvent := filled.applied.solvent
  have realizedSame : next.realizedPnl = view.projection.realizedPnl := I64.ext gained
  rw [side] at charged
  simp only [applyEconomics, recomputeTrade, recomputeBuy, unruledFill, notional, charged, side,
    if_true, ok_bind, spending, paying, name, okOr, settlesAt] at lot ⊢
  simp only [lot, require, solvent, if_true, ok_bind, feeing, pure, Except.pure, actedState,
    filled.lots, lotsEq, realizedSame]

/-- The fold and the recomputation agree on a sale whose gross proceeds fit. -/
theorem FilledOrder.sell {gross : Money} (selling : intent.signal.direction = .sell)
    (fits : gross.val = view.projection.cash.val + terms.notional.val) :
    applyEconomics host view.projection (unruledFill row order id) =
      .ok (actedState view.projection order next) := by
  obtain ⟨code, direction, price, quantity, occurred, cashDelta, commission, stamp, realized,
    _, _⟩ := filled.recorded
  obtain ⟨cashEq, tally, left, sold, done, lotsEq, gain⟩ := fillEffect_sell selling filled.effected
  have termed := filled.termed
  have cash := filled.applied.cash
  have fees := filled.applied.fees
  have gained := filled.applied.realizedPnl
  rw [cashDelta, cashEq] at cash
  rw [commission, stamp] at fees
  rw [realized] at gained
  have side : order.direction = "sell" := by rw [direction, selling]; rfl
  have notional : order.requestedPrice.mul order.quantity = .ok terms.notional := by
    rw [price, quantity]
    exact Money.mul_eq_ok.mpr termed.notional
  have charged : fee order.requestedPrice order.quantity "sell" = .ok terms.totalFee := by
    rw [price, quantity, ← side, direction]
    exact termed.fee_eq
  have soldSame : sellFrom order.code (day order.occurredAt) (.start order.quantity)
      view.projection.lots = .ok (tally, left) := by
    rw [code, occurred, quantity]
    exact sold
  have earning : view.projection.cash.add terms.notional = .ok gross := Money.add_eq_ok.mpr fits
  have paying : gross.sub terms.totalFee = .ok next.cash := Money.sub_eq_ok.mpr (by omega)
  have realizing : view.projection.realizedPnl.add effect.realizedDelta = .ok next.realizedPnl :=
    Money.add_eq_ok.mpr gained
  have feeing : view.projection.fees.add terms.totalFee = .ok next.fees := by
    have total := termed.totalFee
    exact Money.add_eq_ok.mpr (by omega)
  have solvent := filled.applied.solvent
  simp only [applyEconomics, recomputeTrade, recomputeSell, unruledFill, notional, charged, side,
    String.reduceEq, if_false, if_true, ok_bind, soldSame, require, done, earning, paying, gain,
    realizing, pure, Except.pure, solvent, feeing, actedState, filled.lots, lotsEq]

theorem FilledOrder.economics (named : row.commandId = intent.commandId)
    (fresh : fillLotId intent.commandId ∉ view.projection.lots.map Lot.lotId)
    (fits : order.direction = "sell" → ∃ gross : Money, gross.val =
      view.projection.cash.val + order.requestedPrice.val * order.quantity) :
    applyEconomics host view.projection (unruledFill row order id) =
      .ok (actedState view.projection order next) := by
  cases direction : intent.signal.direction with
  | buy => exact filled.buy direction named fresh
  | sell =>
    obtain ⟨_, side, price, quantity, _⟩ := filled.recorded
    obtain ⟨gross, grossVal⟩ := fits (by rw [side, direction]; rfl)
    rw [price, quantity, ← filled.termed.notional] at grossVal
    exact filled.sell direction grossVal

/-- Every lot after a fill is of a code that the order was valued with. -/
theorem FilledOrder.covers (member : lot ∈ next.lots) :
    ∃ mark, order.marks.get? lot.code = some mark := by
  obtain ⟨_, _, _, _, _, _, _, _, _, _, marks⟩ := filled.recorded
  rw [marks]
  refine filled.termed.admitted.covers lot.code ?_
  rw [filled.lots] at member
  cases direction : intent.signal.direction with
  | buy =>
    obtain ⟨_, _, sellableFrom, _, lotsEq⟩ := fillEffect_buy direction filled.effected
    rw [lotsEq] at member
    rcases mem_concat.mp member with old | new
    · exact Or.inl (List.mem_map_of_mem old)
    · rw [new]
      exact Or.inr rfl
  | sell =>
    obtain ⟨_, tally, left, sold, _, lotsEq, _⟩ := fillEffect_sell direction filled.effected
    rw [lotsEq] at member
    have inLeft : lot ∈ left := (List.mem_filter.mp member).1
    rw [← (sellFrom_sold sold).codes]
    exact Or.inl (List.mem_map_of_mem inLeft)

end

/-! ## Runs in which the two agree -/

/-- The event is a closing batch of the given time. -/
def closesAt (time : Instant) (row : EventRow) : Bool :=
  match row.payload with
  | .marked batch => batch.closing && decide (batch.asOf = time)
  | _ => false

/-- The cash of the account with the whole proceeds of a sale, before its fee. -/
def grossCash (state : Projection) (order : OrderFact) : Outcome Money := do
  let notional ← order.requestedPrice.mul order.quantity
  state.cash.add notional

/-- What an appended event must meet for the two implementations to agree on it. A fill must not
come at the time of an earlier closing batch, the gross proceeds of a sale must fit the machine,
and so must the value of the account at new marks. -/
def Clear (book : Book) (view : PaperView) : Fact → Prop
  | .order order => order.status = .filled →
      book.events.any (closesAt order.occurredAt) = false ∧
      (order.direction = "sell" → (grossCash view.projection order).isOk = true)
  | .marked batch =>
    ({ view.projection with marks := collectMarks batch.marks } : Projection).equity.isOk = true
  | _ => True

instance (book : Book) (view : PaperView) (fact : Fact) : Decidable (Clear book view fact) :=
  match fact with
  | .order order => inferInstanceAs (Decidable (order.status = .filled → _ ∧ (_ → _)))
  | .marked _ => inferInstanceAs (Decidable (_ = true))
  | .seeded _ _ _ => inferInstanceAs (Decidable True)
  | .adjudicatedV1 _ => inferInstanceAs (Decidable True)
  | .derivedSnapshotV1 _ => inferInstanceAs (Decidable True)

theorem grossCash_isOk (fits : (grossCash state order).isOk = true) :
    ∃ gross : Money, gross.val = state.cash.val + order.requestedPrice.val * order.quantity := by
  obtain ⟨gross, computed⟩ := isOk_iff.mp fits
  simp only [grossCash, bind_eq_ok, Money.mul_eq_ok, Money.add_eq_ok] at computed
  obtain ⟨notional, notionalEq, grossEq⟩ := computed
  exact ⟨gross, by rw [grossEq, notionalEq]⟩

theorem any_closesAt {time : Instant} (none_ : rows.any (closesAt time) = false)
    (member : row ∈ rows) (payload : row.payload = .marked batch) (closing : batch.closing = true) :
    batch.asOf ≠ time := by
  intro same
  have open_ := List.any_eq_false.mp none_ row member
  simp [closesAt, payload, closing, same] at open_

/-- A committed transaction whose event, if it appends one, is clear. -/
structure ClearStep (host : Host) (store next : Store) : Prop where
  step : Step host store next
  clear : ∀ accountId book view row after, store.books.get? accountId = some book →
    book.head = some view → next.books.get? accountId = some after →
    after.events = book.events ++ [row] → Clear book view row.payload

/-- The recomputation of an available account gives its head. -/
def Agrees (host : Host) (book : Book) : Prop :=
  ∀ view, book.head = some view → view.projection.economicUnavailable = none →
    recomputeAvailable host book.events (latestRulings book.events) = .ok view.projection

/-- Trade identities of the chain are known and distinct. -/
structure TradeBook (store : Store) (book : Book) : Prop where
  known : ∀ row ∈ book.events, ∀ id order, filledOrder? id row = some order →
    id ∈ store.trades.map RawTrade.id
  distinct : book.events.Pairwise fun earlier later => ∀ id order another,
    filledOrder? id earlier = some order → filledOrder? id later ≠ some another

theorem reachable_tradeBook (reachable : Reachable host store) :
    ∀ accountId book, store.books.get? accountId = some book → TradeBook store book := by
  refine Reachable.accounts (fun store _ book => TradeBook store book) ?_ ?_ ?_
    reachable
  · intro store next seed projection fact opened
    obtain ⟨legacy, highWater, rfl⟩ := opened.seeded
    refine ⟨fun row member id order filled => ?_, List.pairwise_singleton _ _⟩
    rw [List.mem_singleton.mp member] at filled
    cases filled
  · intro store next binding book view command fact projection _ extended tradeBook
    obtain ⟨more, trades⟩ := extended.origin.grown.trades
    refine ⟨fun row member id order filled => ?_, ?_⟩
    · rcases mem_concat.mp member with old | new
      · rw [trades, List.map_append]
        exact List.mem_append_left _ (tradeBook.known row old id order filled)
      · rw [new] at filled
        exact (extended.origin.filledOrder rfl filled).2
    · refine List.pairwise_append.mpr ⟨tradeBook.distinct, List.pairwise_singleton _ _, ?_⟩
      intro earlier old later new id order another filledEarlier filledLater
      rw [List.mem_singleton.mp new] at filledLater
      have known := tradeBook.known earlier old id order filledEarlier
      rw [(extended.origin.filledOrder rfl filledLater).1] at known
      exact nextRowId_fresh _ known
  · intro store next accountId book grown tradeBook
    obtain ⟨more, trades⟩ := grown.trades
    refine ⟨fun row member id order filled => ?_, tradeBook.distinct⟩
    rw [trades, List.map_append]
    exact List.mem_append_left _ (tradeBook.known row member id order filled)

/-- What the earlier modules establish of an account, gathered for the agreement. -/
structure Established (host : Host) (store : Store) (accountId : String) (book : Book) : Prop where
  sound : BookSound book
  identified : Identified host accountId book
  fills : FillBook store book
  trades : TradeBook store book

theorem reachable_established (reachable : Reachable host store)
    (found : store.books.get? accountId = some book) :
    Established host store accountId book :=
  ⟨reachable_bookSound reachable accountId book found,
    reachable_identified reachable accountId book found,
    reachable_fillBook reachable accountId book found,
    reachable_tradeBook reachable accountId book found⟩

variable {next : Store}

section

variable
  (placed : OrderPlaced host store next book view intent intentHash now terms verdict effect tradeId
    audit)

include placed

/-- The order that execution appends is the last of both orders of the merge. -/
theorem OrderPlaced.lastFill
    (established : Established host store accountId book)
    (filled : verdict.1 = .filled)
    (noClose : ∀ row ∈ book.events, ∀ batch, row.payload = .marked batch →
      batch.closing = true → batch.asOf ≠ now) :
    LastFill book.events (latestRulings book.events) view.projection
      (orderFact intent view intentHash terms now verdict.1 verdict.2 effect tradeId audit)
      (nextRowId (store.trades.map RawTrade.id)) := by
  have termed := orderTerms_termed placed.termed
  rcases insertTrade_grows placed.traded with ⟨rejected, _⟩ | ⟨_, _, traded⟩
  · rw [filled] at rejected
    cases rejected
  refine ⟨filled, traded, ?_, termed.positive, termed.quantity.ne', termed.boardLots,
    termed.forward, ?_, noClose⟩
  · cases ruled : (latestRulings book.events).get? (nextRowId (store.trades.map RawTrade.id)) with
    | none => rfl
    | some action =>
      exact absurd (established.fills.ruled _ action ruled) (nextRowId_fresh _)
  · intro row member other earlier found
    exact (lt_nextRowId (established.trades.known row member other earlier found)).le

/-- The order that execution appends, as the fold applied it. -/
theorem OrderPlaced.filledOrder
    (filled : verdict.1 = .filled) (ids : LotIds book.events view.projection.lots)
    (new : ∀ event ∈ book.events, event.commandId ≠ intent.commandId)
    (applied : applyOrder view.projection
      (orderFact intent view intentHash terms now verdict.1 verdict.2 effect tradeId audit) =
        .ok projection) :
    FilledOrder host view intent now terms effect
      (orderFact intent view intentHash terms now verdict.1 verdict.2 effect tradeId audit)
      projection := by
  have effected := placed.effected
  rw [filled] at effected
  have order := applyOrder_filled filled applied
  have lots : projection.lots = effect.lots :=
    Except.ok.inj (order.lots.symm.trans
      (lotChanges_rebuild ids.distinct (ids.fresh new) effected))
  refine ⟨orderTerms_termed placed.termed, effected, order, lots, rfl, rfl, rfl, rfl, rfl, rfl,
    ?_, ?_, rfl, rfl, rfl⟩
  · simp [orderFact, filled]
  · simp [orderFact, filled]

/-- An executed order that is clear keeps the agreement. -/
theorem OrderPlaced.agrees
    (established : Established host store accountId book)
    (head : book.head = some view) (payload : row.payload = .order
      (orderFact intent view intentHash terms now verdict.1 verdict.2 effect tradeId audit))
    (named : row.commandId = intent.commandId)
    (new : ∀ event ∈ book.events, event.commandId ≠ intent.commandId)
    (clear : Clear book view row.payload) (agrees : Agrees host book)
    (applied : applyOrder view.projection
      (orderFact intent view intentHash terms now verdict.1 verdict.2 effect tradeId audit) =
        .ok projection) :
    recomputeAvailable host (book.events ++ [row]) (latestRulings (book.events ++ [row])) =
      .ok projection := by
  have before := agrees view head placed.available
  have rulings : latestRulings (book.events ++ [row]) = latestRulings book.events := by
    rw [latestRulings_append_one, payload]
  rw [rulings]
  by_cases filled : verdict.1 = .filled
  · obtain ⟨_, ids⟩ := established.sound.head view head
    have order := placed.filledOrder filled ids new applied
    rw [payload] at clear
    obtain ⟨noClose, fits⟩ := clear filled
    have last := placed.lastFill established filled
      fun other member batch => any_closesAt noClose member
    have result := recomputeAvailable_fill before payload last
      (order.economics named (ids.fresh new) fun selling => grossCash_isOk (fits selling))
      (fun lot member => order.covers member) (order.withMarksOf.symm ▸ order.applied.valued)
    rw [order.withMarksOf] at result
    exact result
  · obtain rfl := applyOrder_unfilled filled applied
    refine recomputeAvailable_quiet (fun manifest => ?_) before
    simp only [rowHistory, payload]
    simp [orderFact, filled, pure, Except.pure]

end

/-! ## Rulings -/

/-- Rulings that leave what every event contributes leave the recomputation. -/
theorem recomputeAvailable_rulings {others : Rulings}
    (same : ∀ row ∈ rows, ∀ manifest, rowHistory manifest others row =
      rowHistory manifest actions row)
    (recomputed : recomputeAvailable host rows actions = .ok state) :
    recomputeAvailable host rows others = .ok state := by
  obtain ⟨manifest, seed, history, merged, done, rfl⟩ := recomputeAvailable_eq_ok.mp recomputed
  refine recomputeAvailable_eq_ok.mpr ⟨manifest, seed, history, merged,
    ⟨done.begins, done.seeded, ?_, done.merges, done.valued⟩, rfl⟩
  refine each_mono (fun row member before after stepped => ?_) done.collected
  rw [same row member]
  exact stepped

/-- A ruling contributes through the fills of its trade only. -/
theorem rowHistory_insert {action : AdjudicationAction}
    (own : ∀ order, filledOrder? id row = some order →
      ruledFill (actions.insert id action) id row.commandId order =
        ruledFill actions id row.commandId order) :
    rowHistory manifest (actions.insert id action) row = rowHistory manifest actions row := by
  unfold rowHistory
  split
  · rename_i order payload
    split
    · rename_i filled
      unfold orderHistory
      cases traded : order.paperTradeId with
      | none => rfl
      | some other =>
        have same : ruledFill (actions.insert id action) other row.commandId order =
            ruledFill actions other row.commandId order := by
          by_cases named : id = other
          · subst named
            exact own order (by simp [filledOrder?, payload, traded, filled])
          · simp only [ruledFill, OrdMap.get?_insert, named, if_false]
        simp only [okOr, ok_bind, same]
    · rfl
  · rfl
  · rfl

/-- Rulings contribute nothing themselves. -/
theorem recomputeAvailable_ruling {ruling : AdjudicatedFact}
    (payload : row.payload = .adjudicatedV1 ruling)
    (recomputed : recomputeAvailable host rows actions = .ok state) :
    recomputeAvailable host (rows ++ [row]) actions = .ok state :=
  recomputeAvailable_quiet (fun manifest => by simp [rowHistory, payload, pure, Except.pure])
    recomputed

/-- A ruling that leaves the account available leads to the recomputation it made. -/
theorem prepareRuling_agrees (head : book.head = some view) (agrees : Agrees host book)
    (prepared : prepareRuling host store book view request now = .ok fact)
    (payload : row.payload = .adjudicatedV1 fact)
    (available : fact.projection.economicUnavailable = none) :
    recomputeAvailable host (book.events ++ [row]) (latestRulings (book.events ++ [row])) =
      .ok fact.projection := by
  obtain ⟨rfl, _, foreign, recomputed⟩ := prepareRuling_trade prepared
  have rulings : latestRulings (book.events ++ [row]) =
      (latestRulings book.events).insert fact.request.original.paperTradeId
        fact.request.action := by
    rw [latestRulings_append_one, payload]
  rw [rulings]
  refine recomputeAvailable_ruling payload ?_
  unfold recompute at recomputed
  split at recomputed
  · rename_i legacy
    have same := pure_eq_ok.mp recomputed
    rw [← same] at available ⊢
    refine recomputeAvailable_rulings (fun other member manifest => ?_)
      (agrees view head available)
    refine rowHistory_insert fun order filled => ?_
    rw [findFill_eq_none.mp (foreign legacy) other member] at filled
    cases filled
  · split at recomputed
    · rename_i state result
      rw [← pure_eq_ok.mp recomputed]
      exact result
    · have same := pure_eq_ok.mp recomputed
      rw [← same] at available
      cases available
    · cases recomputed

theorem Extended.agrees {binding : AccountBinding} {command : String} {fact : Fact}
    (extended : Extended host store next binding book view command fact projection)
    (established : Established host store binding.accountId book) (clear : Clear book view fact)
    (agrees : Agrees host book) :
    Agrees host (book.extend (view.nextRow host binding.accountId command fact)
      (view.nextHead host binding.accountId command fact projection)) := by
  intro after headed available
  obtain rfl := Option.some.inj headed
  have applied := extended.appended.applied
  have head := extended.loaded.head
  have unruled : ∀ row : EventRow, (∀ ruling, row.payload ≠ .adjudicatedV1 ruling) →
      latestRulings (book.events ++ [row]) = latestRulings book.events := by
    intro row notRuling
    rw [latestRulings_append_one]
    split
    · rename_i ruling payload
      exact absurd payload (notRuling ruling)
    · rfl
  cases extended.origin with
  | order intent intentHash now terms verdict effect tradeId audit named placed =>
    exact placed.agrees established head rfl named.symm (named ▸ extended.appended.newCommand)
      clear agrees applied
  | mark batch taken trades audits =>
    have marked := applyMarked_applied applied
    obtain ⟨equity, valued⟩ := isOk_iff.mp clear
    have sameValue : projection.equity =
        ({ view.projection with marks := collectMarks batch.marks } : Projection).equity := by
      refine equity_congr (by rw [marked.rest]) (by rw [marked.rest]) fun lot _ => ?_
      rw [marked.admitted.collected]
    have payload : (view.nextRow host binding.accountId command (.marked batch)).payload =
      .marked batch := rfl
    have result := recomputeAvailable_mark (agrees view head taken.available) payload marked
      taken.forward ⟨equity, sameValue.trans valued⟩
    simp only [Book.extend]
    rw [unruled _ (fun _ payload => by cases payload)]
    exact result
  | ruling request now ruling bound prepared trades audits =>
    obtain rfl := pure_eq_ok.mp applied
    exact prepareRuling_agrees head agrees prepared rfl available
  | snapshot revision trades audits =>
    obtain ⟨_, _, same⟩ := bind_eq_ok.mp applied
    obtain rfl := pure_eq_ok.mp same
    simp only [Book.extend]
    rw [unruled _ (fun _ payload => by cases payload)]
    exact recomputeAvailable_quiet (fun manifest => rfl) (agrees view head available)

/-! ## Whole runs -/

theorem ClearStep.reachable (initial : Initial start)
    (run : Relation.ReflTransGen (ClearStep host) start store) : Reachable host store :=
  ⟨start, initial, run.lift id fun _ _ clear => clear.step⟩

theorem clearRun_agrees (initial : Initial start)
    (run : Relation.ReflTransGen (ClearStep host) start store) :
    ∀ accountId book, store.books.get? accountId = some book → Agrees host book := by
  induction run with
  | refl =>
    intro accountId book found
    rw [initial] at found
    simp at found
  | tail earlier clear ih =>
    rename_i store next
    intro accountId book found
    have reachable := ClearStep.reachable initial earlier
    cases step_cases clear.step with
    | none same =>
      subst same
      exact ih accountId book found
    | opened seed projection fact opened =>
      rw [opened.books, OrdMap.get?_insert] at found
      split at found
      · obtain rfl := Option.some.inj found
        intro view headed _
        obtain rfl := Option.some.inj headed
        obtain ⟨legacy, highWater, rfl⟩ := opened.seeded
        have seeded := seedProjection_seeded opened.projected
        have held : keepHeld projection = projection := by
          simp only [keepHeld, heldMarks_self fun code mark stored =>
            seeded.held code ⟨mark, stored⟩]
        refine recomputeAvailable_eq_ok.mpr ⟨seed, projection, .nil, projection,
          ⟨rfl, opened.projected, rfl, rfl, ?_⟩, held.symm⟩
        rw [held]
        exact ⟨_, seeded.valued⟩
      · exact ih accountId book found
    | extended binding old view command fact projection extended =>
      have present := extended.appended.found
      have written : next.books.get? binding.accountId = some
          (old.extend (view.nextRow host binding.accountId command fact)
            (view.nextHead host binding.accountId command fact projection)) := by
        rw [extended.appended.books, OrdMap.get?_insert, if_pos rfl]
        rfl
      rw [extended.appended.books, OrdMap.get?_insert] at found
      split at found
      · obtain rfl := Option.some.inj found
        exact extended.agrees (reachable_established reachable present)
          (clear.clear _ old view _ _ present extended.loaded.head written rfl)
          (ih _ old present)
      · exact ih accountId book found

/-- Two events of the chain that fill one trade are the same event. -/
theorem TradeBook.unique (trades : TradeBook store book) {other : EventRow} {another : OrderFact}
    (member : row ∈ book.events) (otherMember : other ∈ book.events)
    (filled : filledOrder? id row = some order) (otherFilled : filledOrder? id other = some another)
    : row = other := by
  let SameTrade (a b : EventRow) : Prop := ∀ id order another,
    filledOrder? id a = some order → filledOrder? id b = some another → a = b
  have forward : book.events.Pairwise SameTrade :=
    trades.distinct.imp fun distinct id order another first second =>
      absurd second (distinct id order another first)
  have backward : book.events.Pairwise (flip SameTrade) :=
    trades.distinct.imp fun distinct id order another first second =>
      absurd first (distinct id another order second)
  exact List.Pairwise.forall_of_forall_of_flip (fun _ _ _ _ _ _ _ => rfl) forward backward member
    otherMember id order another filled otherFilled

/-- A correction of an unruled fill to its own terms changes nothing. -/
theorem prepareRuling_restated (established : Established host store accountId book)
    (head : book.head = some view) (available : view.projection.economicUnavailable = none)
    (agrees : Agrees host book) (member : row ∈ book.events)
    (filled : filledOrder? request.original.paperTradeId row = some order)
    (unruled : (latestRulings book.events).get? request.original.paperTradeId = none)
    (restates : request.action =
      .correctionDeclared order.requestedPrice order.quantity order.occurredAt)
    (prepared : prepareRuling host store book view request now = .ok fact) :
    fact.projection = view.projection := by
  obtain ⟨_, _, _, recomputed⟩ := prepareRuling_trade prepared
  have unchanged : recomputeAvailable host book.events (rulingsWith book.events request) =
      .ok view.projection := by
    refine recomputeAvailable_rulings (fun other inEvents manifest => ?_)
      (agrees view head available)
    refine rowHistory_insert fun another otherFilled => ?_
    obtain rfl := established.trades.unique member inEvents filled otherFilled
    obtain rfl := Option.some.inj (filled.symm.trans otherFilled)
    simp [ruledFill, restates, unruled]
  unfold recompute at recomputed
  split at recomputed
  · exact (pure_eq_ok.mp recomputed).symm
  · rw [unchanged] at recomputed
    exact (pure_eq_ok.mp recomputed).symm

/-- In every run of clear transactions, the events of an available account replay to its head, and
the recomputation under the rulings in force gives the same projection, in every field. A correction
of a fill that no ruling names to its own price, quantity and time leaves the projection as it is.

Proof: a clear event is the last one in the order of the merge, so a recomputation that agreed
before it agrees after it. The replay is the one behind `load`. -/
theorem replay_agrees_with_recompute (host : Host) (start store : Store) (initial : Initial start)
    (run : Relation.ReflTransGen (ClearStep host) start store) (accountId : String) (book : Book)
    (found : store.books.get? accountId = some book) (view : PaperView)
    (head : book.head = some view) (available : view.projection.economicUnavailable = none) :
    replayThrough host openAccess store (seedBinding host book.manifest) none = .ok view ∧
    recomputeAvailable host book.events (latestRulings book.events) = .ok view.projection ∧
    ∀ row ∈ book.events, ∀ order request now fact,
      filledOrder? request.original.paperTradeId row = some order →
      (latestRulings book.events).get? request.original.paperTradeId = none →
      request.action = .correctionDeclared order.requestedPrice order.quantity order.occurredAt →
      prepareRuling host store book view request now = .ok fact →
      fact.projection = view.projection := by
  have reachable := ClearStep.reachable initial run
  have agrees := clearRun_agrees initial run accountId book found
  have established := reachable_established reachable found
  refine ⟨?_, agrees view head available, ?_⟩
  · obtain ⟨view', head', loads⟩ := @Kept.load host openAccess store accountId book
      (reachable_kept reachable accountId book found) found rfl
    obtain rfl : view' = view := Option.some.inj (head'.symm.trans head)
    simp only [load, bind_eq_ok, pure_eq_ok] at loads
    obtain ⟨_, replayed, _, _, _, _, _, _, rfl⟩ := loads
    exact replayed
  · intro row member order request now fact filled unruled restates prepared
    exact prepareRuling_restated established head available agrees member filled unruled restates
      prepared

/-! ## Concrete runs -/

/-- Every event that the second store appends to the accounts of the first is clear. -/
def appendedClear (store next : Store) : Bool :=
  store.books.entries.all fun entry =>
    match entry.2.head, next.books.get? entry.1 with
    | some view, some after => (after.events.drop entry.2.events.length).all fun row =>
      decide (Clear entry.2 view row.payload)
    | _, _ => true

theorem appendedClear_clear (clear : appendedClear store next = true) {after : Book}
    (found : store.books.get? accountId = some book) (head : book.head = some view)
    (written : next.books.get? accountId = some after)
    (events : after.events = book.events ++ [row]) : Clear book view row.payload := by
  have entry := List.all_eq_true.mp clear _ (OrdMap.get?_eq_some_iff.mp found)
  simpa [head, written, events] using entry

/-- Clear commands at fifteen o'clock, one after the other. -/
def sampleClearRun (commands : List PaperCommand) : Outcome Store :=
  each (fun store command => do
    let (next, _) ← apply sampleHost openAccess (7 * nanosPerHour) "created" store command
    require (appendedClear store next = true) (.invalidInput "unclear")
    pure next) emptyStore commands

theorem sampleClearRun_clear {commands : List PaperCommand}
    (ran : sampleClearRun commands = .ok store) :
    Relation.ReflTransGen (ClearStep sampleHost) emptyStore store := by
  refine each_induction (Relation.ReflTransGen (ClearStep sampleHost) emptyStore) ?_ .refl ran
  intro before command next run applied
  simp only [bind_eq_ok, Prod.exists, require_eq_ok, pure_eq_ok] at applied
  obtain ⟨after, receipt, applied, _, clear, rfl⟩ := applied
  exact run.tail ⟨.command _ _ _ command receipt applied,
    fun _ _ _ _ _ found head written events => appendedClear_clear clear found head written events⟩

/-- The buy and its correction are clear, and the recomputation gives the head. -/
theorem replay_agrees_with_recompute_corrected : ∃ book view,
    (sampleStore correctedRun).books.get? "a" = some book ∧ book.head = some view ∧
    recomputeAvailable sampleHost book.events (latestRulings book.events) =
      .ok view.projection := by
  have ran : sampleClearRun correctedRun = .ok (sampleStore correctedRun) := by decide +kernel
  have usable : (headOf (sampleStore correctedRun) "a").any (fun view =>
      view.projection.economicUnavailable.isNone) = true := by decide +kernel
  obtain ⟨view, inHead, available⟩ := Option.any_eq_true _ _ |>.mp usable
  obtain ⟨book, found, head⟩ := Option.bind_eq_some_iff.mp inHead
  exact ⟨book, view, found, head, (replay_agrees_with_recompute sampleHost emptyStore _ rfl
    (sampleClearRun_clear ran) "a" book found view head
    (Option.isNone_iff_eq_none.mp available)).2.1⟩

/-- A closing batch without positions at fifteen o'clock. -/
def sampleClose : ValuationBatch where
  binding := sampleBinding
  commandId := "close"
  expectedVersion := 1
  inventoryFingerprint := "0 lots"
  asOf := 7 * nanosPerHour
  closing := true
  marks := []

/-- The day is closed, and a buy follows at the same instant. -/
def closedRun : List PaperCommand :=
  [.seed sampleSeed, .mark sampleClose, .execute (sampleBuy 2)]

/-- The ruling that declares the buy as it was. -/
def restatement : PaperCommand :=
  .adjudicate (sampleRuling 3 (genesisHash ++ "/seed/close/buy")
    (.correctionDeclared (I64.lit 10000000) 100 (7 * nanosPerHour)))

/-- After a closing batch and a buy of the same instant, the account is available, yet its
recomputation fails: the buy is taken before the close, when its code has no mark. Declaring the
buy as it was makes the account unavailable. -/
theorem recompute_fails_after_close : ∃ book view,
    Reachable sampleHost (sampleStore closedRun) ∧
    (sampleStore closedRun).books.get? "a" = some book ∧ book.head = some view ∧
    view.projection.economicUnavailable = none ∧
    recomputeAvailable sampleHost book.events (latestRulings book.events) =
      .error (.evidenceUnavailable "missing mark x") ∧
    (headOf (sampleStore (closedRun ++ [restatement])) "a").any
      (fun after => after.projection.economicUnavailable.isSome) = true := by
  have ran : sampleRun closedRun = .ok (sampleStore closedRun) := by decide +kernel
  have diverges : ((sampleStore closedRun).books.get? "a").any (fun book =>
      book.head.any (fun view => view.projection.economicUnavailable.isNone) &&
      decide (recomputeAvailable sampleHost book.events (latestRulings book.events) =
        .error (.evidenceUnavailable "missing mark x"))) = true := by decide +kernel
  simp only [Option.any_eq_true, Bool.and_eq_true, decide_eq_true_eq] at diverges
  obtain ⟨book, found, ⟨view, head, available⟩, fails⟩ := diverges
  exact ⟨book, view, sampleRun_reachable ran, found, head,
    Option.isNone_iff_eq_none.mp available, fails, by decide +kernel⟩

end StockAnalysis.Ledger
