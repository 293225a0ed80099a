import StockAnalysis.Ledger.Agreement

/-!
# The structure of every account

What holds of the parts of a projection, whatever the amounts: cash is not negative, lots are
whole board lots with a buy fee that is not overdrawn, the marks are those of the open lots and no
other, the time of the account is not before anything in its chain, and its closes are the days
that the chain closed, each of them once.

Every part is kept by two implementations. The fold replaces the marks with each event and refuses
a second close of a day; the recomputation collects marks, drops those of closed lots at the end,
and overwrites closes. Rulings may move fills in time, but the observations of a fill stay at the
time they were made.
-/

namespace StockAnalysis.Ledger

/-! ## Lots -/

/-- Whole board lots, with a buy fee that is not overdrawn. -/
structure BoardLot (lot : Lot) : Prop where
  quantity : lot.quantity % 100 = 0
  fee : 0 ≤ lot.buyFeeRemaining.val

variable {lot : Lot} {date : Day} {lots : List Lot} {host : Host} {state next : Projection}
  {view : PaperView} {fact : Fact} {manifest : SeedManifest} {actions : Rulings} {row : EventRow}
  {history : History} {rows events : List EventRow}

/-- A share of a lot's buy fee is within it. -/
theorem allocatedBuyFee_within {taken : Nat} {allocated : Money} (fee : 0 ≤ lot.buyFeeRemaining.val)
    (within : taken ≤ lot.quantity) (share : allocatedBuyFee lot taken = .ok allocated) :
    allocated.val ≤ lot.buyFeeRemaining.val := by
  unfold allocatedBuyFee at share
  split at share
  · rw [← pure_eq_ok.mp share]
  · rename_i part
    have product : 0 ≤ lot.buyFeeRemaining.val * taken :=
      Int.mul_nonneg fee (Int.natCast_nonneg _)
    rw [Money.exact_eq_ok.mp share, Int.tdiv_eq_ediv_of_nonneg product]
    refine Int.ediv_le_of_le_mul (by omega) ?_
    exact Int.mul_le_mul_of_nonneg_left (by omega) fee

variable {code : String} {tally : SaleTally} {intent : ExecuteIntent} {now : Instant}
  {terms : OrderTerms} {effect : FillEffect} {order : OrderFact}
  {market left : List RecomputeMarket} {rest : List RecomputeFill} {entry : RecomputeMarket}
  {store : Store}

theorem sellLot_board {next : SaleTally} {left : Lot}
    (sold : sellLot code date tally lot = .ok (next, left)) (whole : tally.left % 100 = 0)
    (board : BoardLot lot) : BoardLot left ∧ next.left % 100 = 0 := by
  unfold sellLot at sold
  split at sold
  · cases pure_eq_ok.mp sold
    exact ⟨board, whole⟩
  · simp only [bind_eq_ok, Money.sub_eq_ok, pure_eq_ok, Prod.mk.injEq] at sold
    obtain ⟨allocated, share, _, _, _, _, _, _, remaining, remainingEq, rfl, rfl⟩ := sold
    have lotWhole := board.quantity
    have within := allocatedBuyFee_within board.fee (min_le_left _ _) share
    refine ⟨⟨?_, ?_⟩, ?_⟩
    · simp only
      omega
    · simp only [remainingEq]
      omega
    · simp only
      omega

/-- A sale of board lots leaves board lots. -/
theorem sellFrom_board {next : SaleTally} {left : List Lot}
    (sold : sellFrom code date tally lots = .ok (next, left)) (whole : tally.left % 100 = 0)
    (board : ∀ lot ∈ lots, BoardLot lot) :
    ∀ lot ∈ left, BoardLot lot := by
  induction lots generalizing tally left with
  | nil =>
    cases pure_eq_ok.mp sold
    exact board
  | cons lot lots ih =>
    simp only [sellFrom, bind_eq_ok, pure_eq_ok, Prod.exists, Prod.mk.injEq] at sold
    obtain ⟨middle, first, firstSold, final, rest, restSold, rfl, rfl⟩ := sold
    obtain ⟨firstBoard, middleWhole⟩ :=
      sellLot_board firstSold whole (board lot List.mem_cons_self)
    have others := ih restSold middleWhole fun other member =>
      board other (List.mem_cons_of_mem lot member)
    exact List.forall_mem_cons.mpr ⟨firstBoard, others⟩

theorem openLots_board (board : ∀ lot ∈ lots, BoardLot lot) :
    ∀ lot ∈ openLots lots, BoardLot lot :=
  fun lot member => board lot (List.mem_filter.mp member).1

theorem append_board (board : ∀ lot ∈ lots, BoardLot lot) (one : BoardLot lot) :
    ∀ other ∈ lots ++ [lot], BoardLot other := by
  intro other member
  rcases mem_concat.mp member with old | new
  · exact board other old
  · exact new ▸ one

theorem fee_buy_nonneg {price charge : Money} {quantity : Nat}
    (charged : fee price quantity "buy" = .ok charge) : 0 ≤ charge.val := by
  simp only [fee, bind_eq_ok, Money.add_eq_ok] at charged
  obtain ⟨notional, _, commission, commissionEq, stamp, stampEq, chargeEq⟩ := charged
  rw [chargeEq, stampOf_buy stampEq, I64.val_zero, Int.add_zero]
  exact commissionOf_nonneg commissionEq

theorem applyEconomics_board {fill : RecomputeFill}
    (applied : applyEconomics host state fill = .ok next) (whole : fill.quantity % 100 = 0)
    (board : ∀ lot ∈ state.lots, BoardLot lot) : ∀ lot ∈ next.lots, BoardLot lot := by
  obtain ⟨charge, buy | sell⟩ := applyEconomics_cases applied
  · obtain ⟨name, sellableFrom, _, _, lots⟩ := buy.lots
    have charged := buy.fee
    rw [buy.side] at charged
    rw [lots]
    exact append_board board ⟨whole, fee_buy_nonneg charged⟩
  · obtain ⟨tally, left, sold, _, lots, _⟩ := sell.lots
    rw [lots]
    exact openLots_board (sellFrom_board sold whole board)

theorem FilledOrder.board (filled : FilledOrder host view intent now terms effect order next)
    (board : ∀ lot ∈ view.projection.lots, BoardLot lot) : ∀ lot ∈ next.lots, BoardLot lot := by
  rw [filled.lots]
  cases direction : intent.signal.direction with
  | buy =>
    obtain ⟨_, _, sellableFrom, _, lots⟩ := fillEffect_buy direction filled.effected
    rw [lots]
    exact append_board board
      ⟨filled.termed.boardLots, commissionOf_nonneg filled.termed.commission⟩
  | sell =>
    obtain ⟨_, tally, left, sold, _, lots, _⟩ := fillEffect_sell direction filled.effected
    rw [lots]
    exact openLots_board (sellFrom_board sold filled.termed.boardLots board)

/-! ## Marks -/

/-- The marks are those of the open lots and no other. -/
def MarksHeld (marks : OrdMap String Mark) (lots : List Lot) : Prop :=
  ∀ code, (∃ mark, marks.get? code = some mark) ↔ code ∈ lots.map Lot.code

/-- The marks of held codes are the marks of the open lots, when every open lot has one. -/
theorem heldMarks_held {marks : OrdMap String Mark}
    (covers : ∀ lot ∈ lots, ∃ mark, marks.get? lot.code = some mark) :
    MarksHeld (heldMarks marks lots) lots := by
  intro code
  simp only [heldMarks, OrdMap.get?_retain]
  constructor
  · rintro ⟨mark, found⟩
    split at found
    · rename_i held
      obtain ⟨lot, member, same⟩ := List.any_eq_true.mp held
      exact List.mem_map.mpr ⟨lot, member, of_decide_eq_true same⟩
    · cases found
  · intro member
    obtain ⟨lot, inLots, rfl⟩ := List.mem_map.mp member
    rw [if_pos (List.any_eq_true.mpr ⟨lot, inLots, by simp⟩)]
    exact covers lot inLots

/-- An account that can be valued has a mark for every lot. -/
theorem equity_covers {equity : Money} (valued : state.equity = .ok equity) :
    ∀ lot ∈ state.lots, ∃ mark, state.marks.get? lot.code = some mark := by
  unfold Projection.equity at valued
  generalize state.cash = start at valued
  generalize state.lots = lots at valued
  induction lots generalizing start with
  | nil => simp
  | cons lot lots ih =>
    simp only [each, Projection.addMarketValue, bind_eq_ok, markOf_eq_ok] at valued
    obtain ⟨next, ⟨mark, marked, _⟩, rest⟩ := valued
    exact List.forall_mem_cons.mpr ⟨⟨mark, marked⟩, ih next rest⟩

/-- With a mark for every lot, only an overflow keeps an account from being valued. -/
theorem equity_fails_overflow
    (covers : ∀ lot ∈ state.lots, ∃ mark, state.marks.get? lot.code = some mark) :
    FailsOnly (· = .overflow) state.equity := by
  refine FailsOnly.each _ fun lot member start => ?_
  obtain ⟨mark, marked⟩ := covers lot member
  refine FailsOnly.bind (FailsOnly.okOr (Or.inl (by rw [marked]; rfl))) fun mark _ => ?_
  exact FailsOnly.bind (FailsOnly.okOr (Or.inr rfl)) fun _ _ => FailsOnly.okOr (Or.inr rfl)

/-! ## Observations of the chain -/

/-- The time at which a fact observed the market, and whether it closed the day. -/
def observation : Fact → Option (Instant × Bool)
  | .order order => if order.status = .filled then some (order.occurredAt, false) else none
  | .marked batch => some (batch.asOf, batch.closing)
  | _ => none

/-- The day that a fact closed. -/
def closingDay (fact : Fact) : Option Day :=
  (observation fact).bind fun observed => if observed.2 then some (day observed.1) else none

theorem closingDay_eq_some :
    closingDay fact = some date ↔ ∃ time, observation fact = some (time, true) ∧ day time = date := by
  simp [closingDay, Option.bind_eq_some_iff]

theorem rowHistory_observed (collected : rowHistory manifest actions row = .ok history) :
    history.market.map (fun entry => (entry.time, entry.closing)) =
      (observation row.payload).toList := by
  unfold rowHistory at collected
  split at collected
  · rename_i order payload
    rw [payload, observation]
    split at collected
    · rename_i filled
      simp only [orderHistory, bind_eq_ok] at collected
      obtain ⟨id, _, rest⟩ := collected
      rw [if_pos filled]
      split at rest
      · rw [← pure_eq_ok.mp rest]
        rfl
      · obtain ⟨_, _, result⟩ := bind_eq_ok.mp rest
        rw [← pure_eq_ok.mp result]
        rfl
    · rename_i unfilled
      rw [← pure_eq_ok.mp collected, if_neg unfilled]
      rfl
  · rename_i batch payload
    rw [payload, ← pure_eq_ok.mp collected]
    rfl
  · rename_i other otherwise
    rw [← pure_eq_ok.mp collected]
    cases payload : row.payload with
    | order order => exact absurd payload (other order)
    | marked batch => exact absurd payload (otherwise batch)
    | _ => rfl

/-- The recomputation observes the market exactly as the chain did. -/
theorem collectHistory_observed (collected : collectHistory manifest actions rows = .ok history) :
    history.market.map (fun entry => (entry.time, entry.closing)) =
      rows.filterMap fun row => observation row.payload := by
  induction rows using List.reverseRecOn generalizing history with
  | nil =>
    simp only [collectHistory, each, Except.ok.injEq] at collected
    rw [← collected]
    rfl
  | append_singleton rows row ih =>
    obtain ⟨before, own, earlier, contributed, rfl⟩ := collectHistory_append_one.mp collected
    simp only [History.append, List.map_append, ih earlier, rowHistory_observed contributed,
      List.filterMap_append]
    cases observed : observation row.payload <;> simp [observed]

/-- An observation of the merged market is one of the chain. -/
theorem mem_sorted_market (collected : collectHistory manifest actions rows = .ok history)
    {time : Instant} {closing : Bool} :
    (∃ entry ∈ sortRecomputeMarkets history.market, entry.time = time ∧ entry.closing = closing) ↔
      ∃ row ∈ rows, observation row.payload = some (time, closing) := by
  have observed := collectHistory_observed collected
  have perm : (sortRecomputeMarkets history.market).Perm history.market :=
    List.perm_insertionSort _ _
  have listed : (time, closing) ∈ history.market.map (fun entry => (entry.time, entry.closing)) ↔
      ∃ row ∈ rows, observation row.payload = some (time, closing) := by
    rw [observed, List.mem_filterMap]
  rw [← listed, List.mem_map]
  simp only [Prod.mk.injEq, perm.mem_iff]

/-! ## The recomputed account -/

/-- What the recomputation keeps while fills and observations remain. -/
structure Forming (market : List RecomputeMarket) (state : Projection)
    (fills : List RecomputeFill) (left : List RecomputeMarket) : Prop where
  solvent : 0 ≤ state.cash.val
  board : ∀ lot ∈ state.lots, BoardLot lot
  fills : ∀ fill ∈ fills, fill.quantity % 100 = 0
  pending : ∀ entry ∈ left, entry ∈ market
  closed : ∀ entry ∈ market, entry.closing = true →
    entry ∈ left ∨ day entry.time ∈ state.closes.keys
  known : ∀ date ∈ state.closes.keys, ∃ entry ∈ market,
    entry.closing = true ∧ day entry.time = date

theorem Forming.fill {fill : RecomputeFill} (forming : Forming market state (fill :: rest) left)
    (applied : applyEconomics host state fill = .ok next) : Forming market next rest left := by
  have board := applyEconomics_board applied (forming.fills fill List.mem_cons_self) forming.board
  have solvent : 0 ≤ next.cash.val := by
    obtain ⟨charge, buy | sell⟩ := applyEconomics_cases applied
    · exact buy.solvent
    · exact sell.solvent
  have closes : next.closes = state.closes := by
    obtain ⟨charge, buy | sell⟩ := applyEconomics_cases applied
    · rw [buy.rest]
    · rw [sell.rest]
  exact ⟨solvent, board, fun other member => forming.fills other (List.mem_cons_of_mem _ member),
    forming.pending, closes ▸ forming.closed, closes ▸ forming.known⟩

/-- The closes after an observation: one more day if it closes the day. -/
theorem observeMarket_closes (observed : observeMarket state entry = .ok next) (date : Day) :
    date ∈ next.closes.keys ↔
      date ∈ state.closes.keys ∨ (entry.closing = true ∧ day entry.time = date) := by
  unfold observeMarket at observed
  split at observed
  · rename_i closing
    obtain ⟨equity, _, result⟩ := bind_eq_ok.mp observed
    rw [← pure_eq_ok.mp result]
    simp only [OrdMap.mem_keys_iff, OrdMap.get?_insert, closing, true_and]
    by_cases same : day entry.time = date
    · simp [same]
    · simp [same]
  · rename_i open_
    rw [← pure_eq_ok.mp observed]
    simp [open_]

theorem Forming.observe (forming : Forming market state rest (entry :: left))
    (observed : observeMarket state entry = .ok next) : Forming market next rest left := by
  have closes := observeMarket_closes observed
  have frame := observeMarket_frame observed
  have cash : next.cash = state.cash := by rw [frame]
  have lots : next.lots = state.lots := by rw [frame]
  refine ⟨cash ▸ forming.solvent, lots ▸ forming.board, forming.fills,
    fun other member => forming.pending other (List.mem_cons_of_mem _ member),
    fun other member closing => ?_, fun date stored => ?_⟩
  · rcases forming.closed other member closing with waiting | stored
    · rcases List.mem_cons.mp waiting with rfl | later
      · exact Or.inr ((closes _).mpr (Or.inr ⟨closing, rfl⟩))
      · exact Or.inl later
    · exact Or.inr ((closes _).mpr (Or.inl stored))
  · rcases (closes date).mp stored with old | ⟨closing, same⟩
    · exact forming.known date old
    · exact ⟨entry, forming.pending entry List.mem_cons_self, closing, same⟩

/-! ## The invariant -/

/-- The structure of a projection, beside the distinct identities and positive quantities of its
lots. -/
structure Formed (events : List EventRow) (state : Projection) : Prop where
  solvent : 0 ≤ state.cash.val
  board : ∀ lot ∈ state.lots, BoardLot lot
  marked : MarksHeld state.marks state.lots
  timed : ∀ row ∈ events, ∀ time closing,
    observation row.payload = some (time, closing) → time ≤ state.asOf
  closes : ∀ date, date ∈ state.closes.keys ↔
    ∃ row ∈ events, closingDay row.payload = some date

theorem CollectedFill.boardLots {fill : RecomputeFill}
    (collected : CollectedFill manifest actions row fill) :
    fill.quantity % 100 = 0 :=
  (require_eq_ok.mp collected.checked).2.2.1

theorem Seeded.board {seed : SeedManifest} (seeded : Seeded seed state) :
    ∀ lot ∈ state.lots, BoardLot lot := by
  intro lot member
  obtain ⟨_, at_⟩ := seeded.lots lot member
  exact ⟨at_.boardLots, by rw [at_.fee, I64.val_zero]⟩

theorem recomputeAvailable_formed (recomputed : recomputeAvailable host rows actions = .ok state) :
    Formed rows state := by
  obtain ⟨manifest, seed, history, merged, done, rfl⟩ := recomputeAvailable_eq_ok.mp recomputed
  have seeded := seedProjection_seeded done.seeded
  have fills : ∀ fill ∈ sortRecomputeFills history.fills, fill.quantity % 100 = 0 := by
    intro fill member
    have inHistory := (List.perm_insertionSort _ _).mem_iff.mp member
    obtain ⟨row, _, source⟩ := (collectHistory_fills done.collected).2 fill inHistory
    exact source.boardLots
  have start : Forming (sortRecomputeMarkets history.market) seed
      (sortRecomputeFills history.fills) (sortRecomputeMarkets history.market) := by
    refine ⟨seeded.solvent, seeded.board, fills, fun _ member => member,
      fun _ member _ => Or.inl member, fun date stored => ?_⟩
    rw [seeded.closes] at stored
    cases stored
  have formed : Forming (sortRecomputeMarkets history.market) merged [] [] :=
    TimedMerge.merge_invariant (Forming (sortRecomputeMarkets history.market))
      (fun _ _ _ _ _ forming applied => forming.fill applied)
      (fun _ _ _ _ _ forming observed => forming.observe observed) start done.merges
  have timed := mergeHistory_timed done.merges
  obtain ⟨equity, valued⟩ := done.valued
  have covers : ∀ lot ∈ merged.lots, ∃ mark, merged.marks.get? lot.code = some mark := by
    intro lot member
    obtain ⟨mark, found⟩ := equity_covers valued lot member
    simp only [keepHeld, heldMarks, OrdMap.get?_retain] at found
    split at found
    · exact ⟨mark, found⟩
    · cases found
  refine ⟨formed.solvent, formed.board, heldMarks_held covers,
    fun row member time closing observed => ?_, fun date => ⟨fun stored => ?_, ?_⟩⟩
  · obtain ⟨entry, inMarket, rfl, _⟩ :=
      (mem_sorted_market done.collected).mpr ⟨row, member, observed⟩
    rcases timed.market entry inMarket with waiting | past
    · cases waiting
    · exact past
  · obtain ⟨entry, inMarket, closing, same⟩ := formed.known date stored
    obtain ⟨row, member, observed⟩ :=
      (mem_sorted_market done.collected).mp ⟨entry, inMarket, rfl, closing⟩
    exact ⟨row, member, closingDay_eq_some.mpr ⟨entry.time, observed, same⟩⟩
  · rintro ⟨row, member, closed⟩
    obtain ⟨time, observed, rfl⟩ := closingDay_eq_some.mp closed
    obtain ⟨entry, inMarket, rfl, closing⟩ :=
      (mem_sorted_market done.collected).mpr ⟨row, member, observed⟩
    rcases formed.closed entry inMarket closing with waiting | stored
    · cases waiting
    · exact stored

/-- An event that observes nothing changes nothing. -/
theorem Formed.quiet (formed : Formed events state) (nothing : observation row.payload = none) :
    Formed (events ++ [row]) state := by
  refine ⟨formed.solvent, formed.board, formed.marked, fun other member time closing observed => ?_,
    fun date => ?_⟩
  · rcases mem_concat.mp member with old | new
    · exact formed.timed other old time closing observed
    · rw [new, nothing] at observed
      cases observed
  · rw [formed.closes]
    simp [or_and_right, exists_or, closingDay, nothing]

/-- A filled order keeps the structure: its marks cover the lots it leaves. -/
theorem FilledOrder.formed (filled : FilledOrder host view intent now terms effect order next)
    (status : order.status = .filled) (payload : row.payload = .order order)
    (formed : Formed events view.projection) :
    Formed (events ++ [row]) next := by
  have rest := filled.applied.rest
  have marks : next.marks = heldMarks order.marks next.lots := by rw [rest]
  have asOf : next.asOf = now := by
    rw [rest]
    exact filled.recorded.2.2.2.2.1
  have closes : next.closes = view.projection.closes := by rw [rest]
  have observed : observation row.payload = some (order.occurredAt, false) := by
    rw [payload, observation, if_pos status]
  refine ⟨filled.applied.solvent, filled.board formed.board, ?_, ?_, fun date => ?_⟩
  · rw [marks]
    exact heldMarks_held fun lot member => filled.covers member
  · intro other member time closing seen
    rw [asOf]
    rcases mem_concat.mp member with old | new
    · exact (formed.timed other old time closing seen).trans filled.termed.forward
    · rw [new, observed] at seen
      rw [← (Prod.mk.inj (Option.some.inj seen)).1, filled.recorded.2.2.2.2.1]
  · rw [closes, formed.closes]
    simp [or_and_right, exists_or, closingDay, observed]

/-- A valuation batch keeps the structure: it marks exactly the open lots. -/
theorem MarkApplied.formed {batch : ValuationBatch} (applied : MarkApplied host state batch next)
    (forward : state.asOf ≤ batch.asOf) (payload : row.payload = .marked batch)
    (formed : Formed events state) : Formed (events ++ [row]) next := by
  have rest := applied.rest
  have cash : next.cash = state.cash := by rw [rest]
  have lots : next.lots = state.lots := by rw [rest]
  have asOf : next.asOf = batch.asOf := by rw [rest]
  have observed : observation row.payload = some (batch.asOf, batch.closing) := by
    rw [payload, observation]
  refine ⟨cash ▸ formed.solvent, lots ▸ formed.board, fun code => ?_, ?_, fun date => ?_⟩
  · rw [lots]
    constructor
    · rintro ⟨mark, found⟩
      rcases applied.admitted.within code mark found with held | extra
      · exact held
      · cases extra
    · exact fun held => applied.admitted.covers code (Or.inl held)
  · intro other member time closing seen
    rw [asOf]
    rcases mem_concat.mp member with old | new
    · exact (formed.timed other old time closing seen).trans forward
    · rw [new, observed] at seen
      rw [← (Prod.mk.inj (Option.some.inj seen)).1]
  · rcases applied.closes with ⟨same, open_⟩ | ⟨closing, _, equity, _, inserted⟩
    · rw [same, formed.closes]
      simp [or_and_right, exists_or, closingDay, observed, open_]
    · have keys : date ∈ next.closes.keys ↔ date ∈ state.closes.keys ∨ day batch.asOf = date := by
        simp only [inserted, OrdMap.mem_keys_iff, OrdMap.get?_insert]
        by_cases same : day batch.asOf = date
        · simp [same]
        · simp [same]
      rw [keys, formed.closes]
      simp [or_and_right, exists_or, closingDay, observed, closing]

theorem recompute_formed {request : Adjudication} {before : Projection}
    (formed : Formed rows before) (recomputed : recompute host rows request before = .ok state) :
    Formed rows state := by
  unfold recompute at recomputed
  split at recomputed
  · exact pure_eq_ok.mp recomputed ▸ formed
  · split at recomputed
    · rename_i available result
      exact pure_eq_ok.mp recomputed ▸ recomputeAvailable_formed result
    · rw [← pure_eq_ok.mp recomputed]
      exact ⟨formed.solvent, formed.board, formed.marked, formed.timed, formed.closes⟩
    · cases recomputed

/-- What holds of every account: its head projection is formed, and each day closed once. -/
structure BookFormed (book : Book) : Prop where
  head : ∀ view, book.head = some view → Formed book.events view.projection
  once : (book.events.filterMap fun row => closingDay row.payload).Nodup

theorem Extended.formed {next : Store} {binding : AccountBinding} {book : Book} {command : String}
    {projection : Projection}
    (extended : Extended host store next binding book view command fact projection)
    (payload : row.payload = fact) (sound : BookSound book)
    (formed : Formed book.events view.projection) : Formed (book.events ++ [row]) projection := by
  have applied := extended.appended.applied
  cases extended.origin with
  | order intent intentHash now terms verdict effect tradeId audit same placed =>
    obtain ⟨_, ids⟩ := sound.head view extended.loaded.head
    by_cases filled : verdict.1 = .filled
    · have order := placed.filledOrder filled ids (same ▸ extended.appended.newCommand) applied
      exact order.formed filled payload formed
    · obtain rfl := applyOrder_unfilled filled applied
      refine formed.quiet ?_
      rw [payload, observation]
      exact if_neg filled
  | mark batch taken trades audits =>
    exact (applyMarked_applied applied).formed taken.forward payload formed
  | ruling request now ruling bound prepared trades audits =>
    obtain rfl := pure_eq_ok.mp applied
    simp only [prepareRuling, bind_eq_ok, pure_eq_ok] at prepared
    obtain ⟨_, _, _, _, _, _, _, _, _, _, _, _, state, recomputed, _, _, rfl⟩ := prepared
    exact (recompute_formed formed recomputed).quiet (by rw [payload]; rfl)
  | snapshot revision trades audits =>
    obtain ⟨_, _, same⟩ := bind_eq_ok.mp applied
    rw [← pure_eq_ok.mp same]
    exact formed.quiet (by rw [payload]; rfl)

/-- A fact that closes a day was applied to an account that had not closed it. -/
theorem applyFact_closes_new (applied : applyFact host state fact = .ok next)
    (closes : closingDay fact = some date) :
    date ∉ state.closes.keys := by
  obtain ⟨time, observed, rfl⟩ := closingDay_eq_some.mp closes
  cases fact with
  | order order =>
    simp only [observation] at observed
    split at observed <;> cases observed
  | marked batch =>
    simp only [observation, Option.some.injEq, Prod.mk.injEq] at observed
    obtain ⟨rfl, closing⟩ := observed
    rcases (applyMarked_applied applied).closes with ⟨_, open_⟩ | ⟨_, absent, _⟩
    · rw [closing] at open_
      cases open_
    · intro stored
      obtain ⟨equity, found⟩ := OrdMap.mem_keys_iff.mp stored
      simp [OrdMap.contains, found] at absent
  | seeded manifest legacy highWater => cases observed
  | adjudicatedV1 ruling => cases observed
  | derivedSnapshotV1 revision => cases observed

theorem reachable_bookFormed (reachable : Reachable host store) :
    ∀ accountId book, store.books.get? accountId = some book → BookFormed book := by
  refine Reachable.accounts (fun _ _ book => BookFormed book) ?_ ?_
    (fun _ _ _ _ _ formed => formed) reachable
  · intro store next seed projection fact opened
    have seeded := seedProjection_seeded opened.projected
    obtain ⟨legacy, highWater, rfl⟩ := opened.seeded
    refine ⟨fun view headed => ?_, ?_⟩
    · obtain rfl := Option.some.inj headed
      refine ⟨seeded.solvent, seeded.board, fun code => ⟨seeded.held code, fun held => ?_⟩, ?_, ?_⟩
      · obtain ⟨lot, member, rfl⟩ := List.mem_map.mp held
        obtain ⟨_, at_⟩ := seeded.lots lot member
        obtain ⟨mark, marked, _⟩ := at_.marked
        exact ⟨mark, marked⟩
      · intro row member time closing observed
        rw [List.mem_singleton.mp member] at observed
        cases observed
      · intro date
        simp [seeded.closes, Book.opened, eventRow, closingDay, observation, OrdMap.keys,
          OrdMap.empty]
    · simp [Book.opened, eventRow, closingDay, observation]
  · intro store next binding book view command fact projection reached extended formed
    have sound := reachable_bookSound reached _ _ extended.appended.found
    have before := formed.head view extended.loaded.head
    refine ⟨fun view' headed => ?_, ?_⟩
    · obtain rfl := Option.some.inj headed
      exact extended.formed rfl sound before
    · simp only [Book.extend, List.filterMap_append]
      refine List.nodup_append.mpr ⟨formed.once, ?_, ?_⟩
      · cases closes : closingDay fact <;> simp [PaperView.nextRow, eventRow, closes]
      · intro date earlier other atEnd same
        have closes : closingDay fact = some date := by
          simpa [PaperView.nextRow, eventRow, same, eq_comm] using atEnd
        obtain ⟨row, member, closed⟩ := List.mem_filterMap.mp earlier
        exact applyFact_closes_new extended.appended.applied closes
          ((before.closes date).mpr ⟨row, member, closed⟩)

/-- The structure of every account of every reachable store: cash is not negative, the lots are
distinct and of whole boards, exactly the held codes are marked, the equity fails only by overflow,
no fill or valuation is later than the projection, and a day is closed once.

Proof: an appended event keeps `BookFormed` and `BookSound`; the parts are read off them. -/
theorem ledger_structure (host : Host) (store : Store) (reachable : Reachable host store)
    (accountId : String) (book : Book) (found : store.books.get? accountId = some book)
    (view : PaperView) (head : book.head = some view) :
    0 ≤ view.projection.cash.val ∧ (view.projection.lots.map Lot.lotId).Nodup ∧
    (∀ lot ∈ view.projection.lots,
      0 < lot.quantity ∧ lot.quantity % 100 = 0 ∧ 0 ≤ lot.buyFeeRemaining.val) ∧
    (∀ code, code ∈ view.projection.marks.keys ↔ code ∈ view.projection.lots.map Lot.code) ∧
    FailsOnly (· = .overflow) view.projection.equity ∧
    (∀ row ∈ book.events, ∀ order, row.payload = .order order → order.status = .filled →
      order.occurredAt ≤ view.projection.asOf) ∧
    (∀ row ∈ book.events, ∀ batch, row.payload = .marked batch →
      batch.asOf ≤ view.projection.asOf) ∧
    (∀ date, date ∈ view.projection.closes.keys ↔ ∃ row ∈ book.events, ∃ batch,
      row.payload = .marked batch ∧ batch.closing = true ∧ day batch.asOf = date) ∧
    (book.events.filterMap fun row => closingDay row.payload).Nodup := by
  obtain ⟨sound, ids⟩ := (reachable_bookSound reachable accountId book found).head view head
  have bookFormed := reachable_bookFormed reachable accountId book found
  have formed := bookFormed.head view head
  have covers : ∀ lot ∈ view.projection.lots, ∃ mark,
      view.projection.marks.get? lot.code = some mark :=
    fun lot member => (formed.marked lot.code).mpr (List.mem_map_of_mem member)
  refine ⟨formed.solvent, ids.distinct, fun lot member => ?_, fun code => ?_,
    equity_fails_overflow covers, fun row member order payload filled => ?_,
    fun row member batch payload => ?_, fun date => ?_, bookFormed.once⟩
  · have board := formed.board lot member
    exact ⟨sound.positive lot member, board.quantity, board.fee⟩
  · rw [OrdMap.mem_keys_iff]
    exact formed.marked code
  · exact formed.timed row member order.occurredAt false (by rw [payload, observation, if_pos filled])
  · exact formed.timed row member batch.asOf batch.closing (by rw [payload, observation])
  · rw [formed.closes]
    constructor
    · rintro ⟨row, member, closed⟩
      obtain ⟨time, observed, rfl⟩ := closingDay_eq_some.mp closed
      cases payload : row.payload with
      | marked batch =>
        simp only [payload, observation, Option.some.injEq, Prod.mk.injEq] at observed
        obtain ⟨rfl, closing⟩ := observed
        exact ⟨row, member, batch, payload, closing, rfl⟩
      | order order =>
        simp only [payload, observation] at observed
        split at observed <;> cases observed
      | _ => simp [payload, observation] at observed
    · rintro ⟨row, member, batch, payload, closing, rfl⟩
      exact ⟨row, member, closingDay_eq_some.mpr ⟨batch.asOf, by rw [payload, observation, closing],
        rfl⟩⟩

/-- A closing valuation after the sample buy. -/
def closeAfterBuy : ValuationBatch where
  binding := sampleBinding
  commandId := "close"
  expectedVersion := 2
  inventoryFingerprint := "1 lots"
  asOf := 7 * nanosPerHour
  closing := true
  marks := [⟨"x", I64.lit 10000000, 7 * nanosPerHour, "feed"⟩]

/-- After a buy and a close the account holds one marked lot and one close. -/
theorem ledger_structure_after_close : ∃ book view,
    (sampleStore [.seed sampleSeed, .execute (sampleBuy 1), .mark closeAfterBuy]).books.get? "a" =
      some book ∧ book.head = some view ∧ book.events.length = 3 ∧
    0 ≤ view.projection.cash.val ∧
    ∀ date, date ∈ view.projection.closes.keys ↔ ∃ row ∈ book.events, ∃ batch,
      row.payload = .marked batch ∧ batch.closing = true ∧ day batch.asOf = date := by
  have ran : sampleRun [.seed sampleSeed, .execute (sampleBuy 1), .mark closeAfterBuy] =
      .ok (sampleStore [.seed sampleSeed, .execute (sampleBuy 1), .mark closeAfterBuy]) := by
    decide +kernel
  obtain ⟨book, view, found, head⟩ := headOf_isSome (by decide +kernel : (headOf
    (sampleStore [.seed sampleSeed, .execute (sampleBuy 1), .mark closeAfterBuy]) "a").isSome = true)
  have length : ((sampleStore [.seed sampleSeed, .execute (sampleBuy 1),
      .mark closeAfterBuy]).books.get? "a").all (fun book => book.events.length = 3) = true := by
    decide +kernel
  rw [found] at length
  have formed := ledger_structure sampleHost _ (sampleRun_reachable ran) "a" book found view head
  exact ⟨book, view, found, head, by simpa using length, formed.1, formed.2.2.2.2.2.2.2.1⟩

end StockAnalysis.Ledger
