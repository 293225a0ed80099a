import StockAnalysis.Ledger.Identity

/-!
# Effective fills

`effective_fills` lists the fills of an account as its rulings leave them: quarantined fills are
dropped and corrected fills carry the declared terms with a fee computed anew. The list is read
off the chain and never off the projection; this module shows that the two agree. Each fill
moves cash by its notional and fee, the incremental fold and the recomputation move it by the
same amounts, and the last ruling on a trade is the one that both of them see.
-/

namespace StockAnalysis.Ledger

structure EffectiveFill where
  version : Int
  eventHash : String
  paperTradeId : Int
  planId : String
  code : String
  direction : String
  quantity : Nat
  fillPrice : Money
  fee : Money
  occurredAt : Instant
  audit : AuditLink

/-- A fill as its event recorded it. -/
def recordedFill (row : EventRow) (order : OrderFact) (id : Int) (charge : Money) :
    EffectiveFill where
  version := row.seq
  eventHash := row.eventHash
  paperTradeId := id
  planId := order.planId
  code := order.code
  direction := order.direction
  quantity := order.quantity
  fillPrice := order.requestedPrice
  fee := charge
  occurredAt := order.occurredAt
  audit := order.audit

/-- A fill under its ruling, if it has one. -/
def effectiveFill (rulings : Rulings) (row : EventRow) (order : OrderFact) :
    Outcome (List EffectiveFill) := do
  let id ← okOr order.paperTradeId (.integrityFailure "filled event lacks compatible identity")
  let charge ← order.commission.add order.stamp
  let fill := recordedFill row order id charge
  match rulings.get? id with
  | some .quarantine => pure []
  | some (.correctionDeclared price quantity factAt) => do
      let corrected ← Ledger.fee price quantity order.direction
      pure [{ fill with
        fillPrice := price, quantity := quantity, occurredAt := factAt, fee := corrected }]
  | none => pure [fill]

/-- The effective fill of an event, if it is a fill that counts. -/
def rowFills (rulings : Rulings) (row : EventRow) : Outcome (List EffectiveFill) :=
  match row.payload with
  | .order order => if order.status = .filled then effectiveFill rulings row order else pure []
  | _ => pure []

def chainFills (rulings : Rulings) (rows : List EventRow) : Outcome (List EffectiveFill) :=
  each (fun fills row => do
    let own ← rowFills rulings row
    pure (fills ++ own)) [] rows

/-- `effective_fills`. A read transaction verifies the catalog of its own. -/
def effectiveFills (host : Host) (access : Access) (readCatalog : Outcome Unit) (store : Store)
    (binding : AccountBinding) : Outcome (List EffectiveFill) := do
  readCatalog
  let view ← load host access store binding
  view.projection.requireAvailable
  let book ← bookOf store binding.accountId
  chainFills (latestRulings book.events) book.events

variable {rulings actions : Rulings} {rows : List EventRow} {row : EventRow} {host : Host}
  {state : Projection} {manifest : SeedManifest} {book : Book} {view : PaperView}
  {intent : ExecuteIntent} {intentHash : String} {now : Instant} {terms : OrderTerms}
  {effect : FillEffect} {audit : AuditLink} {store next : Store} {fills : List EffectiveFill}

theorem chainFills_append_one {own : List EffectiveFill}
    (earlier : chainFills rulings rows = .ok fills) (last : rowFills rulings row = .ok own) :
    chainFills rulings (rows ++ [row]) = .ok (fills ++ own) := by
  unfold chainFills at earlier ⊢
  rw [each_append, earlier]
  simp [each, last, pure, Except.pure]

/-! ## What a fill moves -/

/-- The cash that a fill moves: in on a sale, out on a buy. -/
def cashFlow (direction : String) (notional charge : Int) : Int :=
  if direction = "sell" then notional - charge
  else if direction = "buy" then -(notional + charge)
  else 0

def EffectiveFill.cashFlow (fill : EffectiveFill) : Int :=
  Ledger.cashFlow fill.direction (fill.fillPrice.val * fill.quantity) fill.fee.val

/-- What fills add up to: the cash they move and the fees they pay. -/
structure Flows where
  cash : Int
  fees : Int

def Flows.of (fills : List EffectiveFill) : Flows :=
  ⟨(fills.map EffectiveFill.cashFlow).sum, (fills.map fun fill => fill.fee.val).sum⟩

/-- The fee of a recomputed fill; zero if it cannot be computed. -/
def RecomputeFill.charge (fill : RecomputeFill) : Int :=
  match fee fill.price fill.quantity fill.order.direction with
  | .ok charge => charge.val
  | .error _ => 0

def RecomputeFill.cashFlow (fill : RecomputeFill) : Int :=
  Ledger.cashFlow fill.order.direction (fill.price.val * fill.quantity) fill.charge

/-- The fee of the fill can be computed. -/
def Charged (fill : RecomputeFill) : Prop :=
  ∃ charge, fee fill.price fill.quantity fill.order.direction = .ok charge

variable {fill : RecomputeFill} {id : Int} {headAfter : PaperView}
  {verdict : LedgerStatus × Option String} {tradeId : Option Int} {projection : Projection}
  {request : Adjudication} {fact : AdjudicatedFact} {accountId : String}

theorem RecomputeFill.charge_eq {charge : Money}
    (charged : fee fill.price fill.quantity fill.order.direction = .ok charge) :
    fill.charge = charge.val := by
  simp [RecomputeFill.charge, charged]

theorem applyEconomics_flow {next : Projection}
    (applied : applyEconomics host state fill = .ok next) :
    Charged fill ∧ next.cash.val = state.cash.val + fill.cashFlow ∧
      next.fees.val = state.fees.val + fill.charge := by
  obtain ⟨charge, buy | sell⟩ := applyEconomics_cases applied
  · refine ⟨⟨charge, buy.fee⟩, ?_, ?_⟩
    · rw [buy.cash, RecomputeFill.cashFlow, RecomputeFill.charge_eq buy.fee, buy.side]
      simp only [Ledger.cashFlow, String.reduceEq, if_false, if_true]
      ring
    · rw [buy.fees, RecomputeFill.charge_eq buy.fee]
  · refine ⟨⟨charge, sell.fee⟩, ?_, ?_⟩
    · rw [sell.cash, RecomputeFill.cashFlow, RecomputeFill.charge_eq sell.fee, sell.side]
      simp only [Ledger.cashFlow, if_true]
      ring
    · rw [sell.fees, RecomputeFill.charge_eq sell.fee]

/-- What the merge keeps while fills remain: the account and the fills to come add up. -/
structure Flowing (all : List RecomputeFill) (cash fees : Int) (state : Projection)
    (rest : List RecomputeFill) : Prop where
  cash : state.cash.val + (rest.map RecomputeFill.cashFlow).sum = cash
  fees : state.fees.val + (rest.map RecomputeFill.charge).sum = fees
  charged : ∀ fill ∈ all, fill ∈ rest ∨ Charged fill

/-- The merge applies every fill once. -/
theorem mergeHistory_flow {merged : Projection} {fills : List RecomputeFill}
    {market : List RecomputeMarket} (merges : mergeHistory host state fills market = .ok merged) :
    merged.cash.val = state.cash.val + (fills.map RecomputeFill.cashFlow).sum ∧
      merged.fees.val = state.fees.val + (fills.map RecomputeFill.charge).sum ∧
      ∀ fill ∈ fills, Charged fill := by
  have final : Flowing fills (state.cash.val + (fills.map RecomputeFill.cashFlow).sum)
      (state.fees.val + (fills.map RecomputeFill.charge).sum) merged [] := by
    refine TimedMerge.merge_invariant (fun state rest _ => Flowing fills _ _ state rest) ?_ ?_
      ⟨rfl, rfl, fun fill member => Or.inl member⟩ merges
    · intro before fill rest _ next flowing applied
      obtain ⟨charged, cash, fees⟩ := applyEconomics_flow applied
      have cashBefore := flowing.cash
      have feesBefore := flowing.fees
      simp only [List.map_cons, List.sum_cons] at cashBefore feesBefore
      refine ⟨by omega, by omega, fun other member => ?_⟩
      rcases flowing.charged other member with pending | done
      · rcases List.mem_cons.mp pending with rfl | later
        · exact Or.inr charged
        · exact Or.inl later
      · exact Or.inr done
    · intro before rest entry _ next flowing observed
      rw [observeMarket_frame observed]
      exact ⟨flowing.cash, flowing.fees, flowing.charged⟩
  have cash := final.cash
  have fees := final.fees
  simp only [List.map_nil, List.sum_nil, add_zero] at cash fees
  refine ⟨cash, fees, fun fill member => ?_⟩
  rcases final.charged fill member with pending | done
  · cases pending
  · exact done

/-! ## The two readings of a chain -/

/-- The recorded commission and duty of an order are the fee of its fill. -/
def OrderCharged (order : OrderFact) : Prop :=
  ∃ total, fee order.requestedPrice order.quantity order.direction = .ok total ∧
    order.commission.add order.stamp = .ok total

/-- Every fill of the chain is charged as recorded. -/
def ChainCharged (rows : List EventRow) : Prop :=
  ∀ row ∈ rows, ∀ order, row.payload = .order order → order.status = .filled → OrderCharged order

def Flows.recomputed (fills : List RecomputeFill) : Flows :=
  ⟨(fills.map RecomputeFill.cashFlow).sum, (fills.map RecomputeFill.charge).sum⟩

def Flows.add (a b : Flows) : Flows :=
  ⟨a.cash + b.cash, a.fees + b.fees⟩

theorem Flows.of_append (first second : List EffectiveFill) :
    Flows.of (first ++ second) = (Flows.of first).add (Flows.of second) := by
  simp [Flows.of, Flows.add]

theorem Flows.recomputed_append (first second : List RecomputeFill) :
    Flows.recomputed (first ++ second) =
      (Flows.recomputed first).add (Flows.recomputed second) := by
  simp [Flows.recomputed, Flows.add]

theorem Flows.recomputed_perm {first second : List RecomputeFill} (perm : first.Perm second) :
    Flows.recomputed first = Flows.recomputed second := by
  unfold Flows.recomputed
  rw [(perm.map _).sum_eq, (perm.map RecomputeFill.charge).sum_eq]

/-- The effective fill of an event adds up to what the recomputation collects from it. -/
theorem rowFills_of_history {own : History}
    (contributed : rowHistory manifest actions row = .ok own)
    (charged : ∀ fill ∈ own.fills, Charged fill)
    (recorded : ∀ order, row.payload = .order order → order.status = .filled →
      OrderCharged order) :
    ∃ fills, rowFills actions row = .ok fills ∧ Flows.of fills = Flows.recomputed own.fills := by
  unfold rowHistory at contributed
  unfold rowFills
  split at contributed
  · rename_i order payload
    simp only [payload]
    by_cases filled : order.status = .filled
    · obtain ⟨total, feeOf, summed⟩ := recorded order payload filled
      simp only [filled, if_true, orderHistory, bind_eq_ok, okOr_eq_ok] at contributed
      obtain ⟨id, traded, rest⟩ := contributed
      simp only [filled, if_true, effectiveFill, traded, okOr, ok_bind, summed]
      -- The ruling on the trade decides both readings in the same way.
      cases ruling : actions.get? id with
      | none =>
        simp only [ruledFill, ruling, bind_eq_ok, pure_eq_ok] at rest
        obtain ⟨_, _, rfl⟩ := rest
        refine ⟨_, rfl, ?_⟩
        simp [Flows.of, Flows.recomputed, EffectiveFill.cashFlow, RecomputeFill.cashFlow,
          RecomputeFill.charge, recordedFill, feeOf]
      | some action =>
        cases action with
        | quarantine =>
          simp only [ruledFill, ruling, pure_eq_ok] at rest
          subst rest
          exact ⟨[], rfl, rfl⟩
        | correctionDeclared price quantity factAt =>
          simp only [ruledFill, ruling, bind_eq_ok, pure_eq_ok] at rest
          obtain ⟨_, _, rfl⟩ := rest
          obtain ⟨charge, feeNow⟩ := charged _ (List.mem_singleton_self _)
          simp only at feeNow
          simp only [feeNow, ok_bind]
          refine ⟨_, rfl, ?_⟩
          simp [Flows.of, Flows.recomputed, EffectiveFill.cashFlow, RecomputeFill.cashFlow,
            RecomputeFill.charge, recordedFill, feeNow]
    · simp only [filled, if_false, pure_eq_ok] at contributed ⊢
      exact ⟨[], rfl, contributed ▸ rfl⟩
  · rename_i batch payload
    simp only [payload]
    exact ⟨[], rfl, pure_eq_ok.mp contributed ▸ rfl⟩
  · rename_i notOrder notMark
    split
    · rename_i order payload
      exact absurd payload (notOrder order)
    · exact ⟨[], rfl, pure_eq_ok.mp contributed ▸ rfl⟩

/-- The effective fills of a chain add up to what the recomputation collects from it. -/
theorem chainFills_of_history {history : History}
    (collected : collectHistory manifest actions rows = .ok history)
    (charged : ∀ fill ∈ history.fills, Charged fill) (recorded : ChainCharged rows) :
    ∃ fills, chainFills actions rows = .ok fills ∧
      Flows.of fills = Flows.recomputed history.fills := by
  induction rows using List.reverseRecOn generalizing history with
  | nil =>
    simp only [collectHistory, each, Except.ok.injEq] at collected
    exact ⟨[], rfl, by rw [← collected]; rfl⟩
  | append_singleton rows row ih =>
    obtain ⟨before, own, earlier, contributed, rfl⟩ := collectHistory_append_one.mp collected
    obtain ⟨fills, listed, flows⟩ := ih earlier
      (fun fill member => charged fill (List.mem_append_left _ member))
      (fun other member => recorded other (List.mem_append_left _ member))
    obtain ⟨more, last, lastFlows⟩ := rowFills_of_history contributed
      (fun fill member => charged fill (List.mem_append_right _ member))
      (recorded row (by simp))
    refine ⟨fills ++ more, chainFills_append_one listed last, ?_⟩
    rw [Flows.of_append, flows, lastFlows, ← Flows.recomputed_append]
    rfl

/-! ## Whole runs -/

theorem latestRulings_append_one (rows : List EventRow) (row : EventRow) :
    latestRulings (rows ++ [row]) = match row.payload with
      | .adjudicatedV1 fact =>
        (latestRulings rows).insert fact.request.original.paperTradeId fact.request.action
      | _ => latestRulings rows := by
  rw [latestRulings, List.foldl_append]
  rfl

/-- The effective fills of the account can be listed, and add up to its projection. -/
def Reconciles (book : Book) (state : Projection) : Prop :=
  ∃ fills, chainFills (latestRulings book.events) book.events = .ok fills ∧
    state.cash.val = book.manifest.cash.val + (Flows.of fills).cash ∧
    state.fees.val = (Flows.of fills).fees

/-- What every account keeps for its fills: charges as recorded, rulings on known trades, and
while it is available, fills that add up. -/
structure FillBook (store : Store) (book : Book) : Prop where
  charged : ChainCharged book.events
  ruled : ∀ id action, (latestRulings book.events).get? id = some action →
    id ∈ store.trades.map RawTrade.id
  head : ∀ view, book.head = some view → view.projection.economicUnavailable = none →
    Reconciles book view.projection

/-- An event that is neither a fill nor a ruling changes nothing here. -/
theorem Reconciles.quiet (reconciles : Reconciles book state)
    (rulings : latestRulings (book.events ++ [row]) = latestRulings book.events)
    (silent : rowFills (latestRulings book.events) row = .ok []) :
    Reconciles (book.extend row view) state := by
  obtain ⟨fills, listed, cash, fees⟩ := reconciles
  refine ⟨fills ++ [], ?_, ?_, ?_⟩
  · simp only [Book.extend, rulings]
    exact chainFills_append_one listed silent
  · rw [List.append_nil]
    exact cash
  · rw [List.append_nil]
    exact fees

/-- The cash and fees that a filled order records are those of its effective fill. -/
theorem orderFact_flow {reason : Option String} (termed : Termed host view intent now terms)
    (effected : fillEffect host view.projection.lots intent terms now .filled = .ok effect)
    (payload : row.payload = .order (orderFact intent view intentHash terms now .filled reason
      effect (some id) audit)) (unruled : rulings.get? id = none) :
    ∃ fill, rowFills rulings row = .ok [fill] ∧ fill.cashFlow = effect.cashDelta.val ∧
      fill.fee.val = terms.commission.val + terms.stamp.val := by
  have summed : terms.commission.add terms.stamp = .ok terms.totalFee :=
    Money.add_eq_ok.mpr termed.totalFee
  refine ⟨recordedFill row (orderFact intent view intentHash terms now .filled reason effect
    (some id) audit) id terms.totalFee, ?_, ?_, termed.totalFee⟩
  · simp only [rowFills, payload, effectiveFill]
    simp only [orderFact, if_true, okOr, ok_bind, summed, unruled]
    rfl
  · cases direction : intent.signal.direction with
    | buy =>
      obtain ⟨cash, _⟩ := fillEffect_buy direction effected
      simp only [EffectiveFill.cashFlow, recordedFill, orderFact, direction, Direction.asStr,
        cashFlow, String.reduceEq, if_false, if_true, cash, termed.notional]
    | sell =>
      obtain ⟨cash, _⟩ := fillEffect_sell direction effected
      simp only [EffectiveFill.cashFlow, recordedFill, orderFact, direction, Direction.asStr,
        cashFlow, if_true, cash, termed.notional]

/-- A filled order extends the list by its own fill, which no ruling names yet. -/
theorem OrderPlaced.reconciles
    (placed : OrderPlaced host store next book view intent intentHash now terms verdict effect
      tradeId audit)
    (payload : row.payload = .order (orderFact intent view intentHash terms now verdict.1
      verdict.2 effect tradeId audit))
    (ruled : ∀ id action, (latestRulings book.events).get? id = some action →
      id ∈ store.trades.map RawTrade.id) (before : Reconciles book view.projection)
    (applied : applyOrder view.projection (orderFact intent view intentHash terms now verdict.1
      verdict.2 effect tradeId audit) = .ok projection) :
    Reconciles (book.extend row headAfter) projection := by
  have rulings : latestRulings (book.events ++ [row]) = latestRulings book.events := by
    rw [latestRulings_append_one, payload]
  by_cases filled : verdict.1 = .filled
  · rcases insertTrade_grows placed.traded with ⟨rejected, _⟩ | ⟨_, _, traded⟩
    · rw [filled] at rejected
      cases rejected
    have unruled : (latestRulings book.events).get?
        (nextRowId (store.trades.map RawTrade.id)) = none := by
      cases found : (latestRulings book.events).get?
          (nextRowId (store.trades.map RawTrade.id)) with
      | none => rfl
      | some action => exact absurd (ruled _ action found) (nextRowId_fresh _)
    have effected := placed.effected
    have order := applyOrder_filled filled applied
    rw [filled] at effected
    rw [filled, traded] at payload
    obtain ⟨fill, own, flow, charge⟩ :=
      orderFact_flow (orderTerms_termed placed.termed) effected payload unruled
    obtain ⟨fills, listed, cash, fees⟩ := before
    refine ⟨fills ++ [fill], ?_, ?_, ?_⟩
    · simp only [Book.extend, rulings]
      exact chainFills_append_one listed own
    · have moved : projection.cash.val = view.projection.cash.val + effect.cashDelta.val :=
        order.cash
      rw [moved, cash, Flows.of_append, ← flow]
      simp [Flows.add, Flows.of, Book.extend, add_assoc]
    · have paid := order.fees
      simp only [orderFact, filled, if_true] at paid
      rw [paid, fees, Flows.of_append]
      simp [Flows.add, Flows.of, charge, add_assoc]
  · obtain rfl := applyOrder_unfilled filled applied
    refine before.quiet rulings ?_
    simp only [rowFills, payload]
    simp [orderFact, filled, pure, Except.pure]

/-- What a prepared ruling establishes about its trade: the raw row exists, and a ruling on a
trade of before the cutover names no fill of the chain. -/
theorem prepareRuling_trade (prepared : prepareRuling host store book view request now = .ok fact) :
    fact.request = request ∧
      request.original.paperTradeId ∈ store.trades.map RawTrade.id ∧
      (request.original.legacyBeforeCutover = true →
        findFill request.original.paperTradeId book.events = none) ∧
      recompute host book.events request view.projection = .ok fact.projection := by
  simp only [prepareRuling, bind_eq_ok, require_eq_ok, pure_eq_ok] at prepared
  obtain ⟨_, _, _, _, original, fingerprinted, _, sourced, _, _, _, _, projection, recomputed,
    historical, _, rfl⟩ := prepared
  refine ⟨rfl, ?_, ?_, recomputed⟩
  all_goals
    simp only [fingerprint, bind_eq_ok] at fingerprinted
    obtain ⟨_, _, rest⟩ := fingerprinted
    split at rest
  · simp only [currentFingerprint, bind_eq_ok] at rest
    obtain ⟨raw, found, _⟩ := rest
    exact rawTrade_mem found
  · simp only [legacyFingerprint, bind_eq_ok] at rest
    obtain ⟨_, _, raw, found, _⟩ := rest
    exact rawTrade_mem found
  · simp only [currentFingerprint, bind_eq_ok, pure_eq_ok] at rest
    obtain ⟨_, _, _, _, _, _, _, _, current⟩ := rest
    intro legacy
    rw [sourced, ← current] at legacy
    cases legacy
  · rename_i absent
    exact fun _ => absent

/-- A ruling on a trade that no event filled leaves the effective fills as they are. -/
theorem chainFills_foreign {action : AdjudicationAction} (absent : findFill id rows = none)
    (listed : chainFills rulings rows = .ok fills) :
    chainFills (rulings.insert id action) rows = .ok fills := by
  refine each_mono (fun row member before after stepped => ?_) listed
  have unfilled := findFill_eq_none.mp absent row member
  have same : rowFills (rulings.insert id action) row = rowFills rulings row := by
    unfold rowFills
    split
    · rename_i order payload
      split
      · rename_i filled
        unfold effectiveFill
        cases traded : order.paperTradeId with
        | none => rfl
        | some own =>
          have different : id ≠ own := by
            rintro rfl
            simp [filledOrder?, payload, traded, filled] at unfilled
          simp only [okOr, ok_bind, OrdMap.get?_insert, different, if_false]
      · rfl
    · rfl
  rw [same]
  exact stepped

/-- An available recomputation adds up to the effective fills under its rulings. -/
theorem recomputeAvailable_flow (begins : seedOf rows = .ok manifest) (recorded : ChainCharged rows)
    (recomputed : recomputeAvailable host rows actions = .ok state) :
    ∃ fills, chainFills actions rows = .ok fills ∧
      state.cash.val = manifest.cash.val + (Flows.of fills).cash ∧
      state.fees.val = (Flows.of fills).fees := by
  obtain ⟨manifest', seed, history, merged, done, rfl⟩ := recomputeAvailable_eq_ok.mp recomputed
  obtain rfl : manifest = manifest' := Except.ok.inj (begins.symm.trans done.begins)
  obtain ⟨cash, fees, charged⟩ := mergeHistory_flow done.merges
  have seeded := seedProjection_seeded done.seeded
  have perm : (sortRecomputeFills history.fills).Perm history.fills :=
    List.perm_insertionSort _ _
  obtain ⟨fills, listed, flows⟩ := chainFills_of_history done.collected
    (fun fill member => charged fill (perm.mem_iff.mpr member)) recorded
  refine ⟨fills, listed, ?_, ?_⟩
  · rw [flows, ← Flows.recomputed_perm perm]
    change merged.cash.val = _
    rw [cash, seeded.cash]
    rfl
  · rw [flows, ← Flows.recomputed_perm perm]
    change merged.fees.val = _
    rw [fees, seeded.fees, I64.val_zero, zero_add]
    rfl

theorem Identified.seedOf (identified : Identified host accountId book) :
    Ledger.seedOf book.events = .ok book.manifest := by
  obtain ⟨legacy, highWater, rest, events, _⟩ := identified.genesis
  rw [events]
  rfl

/-- A ruling that leaves the account available reconciles it, whatever it was before. -/
theorem prepareRuling_reconciles (identified : Identified host accountId book)
    (fillBook : FillBook store book) (head : book.head = some view)
    (prepared : prepareRuling host store book view request now = .ok fact)
    (payload : row.payload = .adjudicatedV1 fact)
    (available : fact.projection.economicUnavailable = none) :
    Reconciles (book.extend row headAfter) fact.projection := by
  obtain ⟨rfl, _, foreign, recomputed⟩ := prepareRuling_trade prepared
  have rulings : latestRulings (book.events ++ [row]) =
      (latestRulings book.events).insert fact.request.original.paperTradeId
        fact.request.action := by
    rw [latestRulings_append_one, payload]
  have silent : rowFills (latestRulings (book.events ++ [row])) row = .ok [] := by
    simp [rowFills, payload, pure, Except.pure]
  have extended : ∀ fills, chainFills (latestRulings (book.events ++ [row])) book.events =
      .ok fills → chainFills (latestRulings (book.events ++ [row])) (book.events ++ [row]) =
        .ok fills := by
    intro fills listed
    have appended := chainFills_append_one listed silent
    rwa [List.append_nil] at appended
  unfold recompute at recomputed
  split at recomputed
  · -- A ruling on a trade of before the cutover leaves the projection as it is.
    rename_i legacy
    have same := pure_eq_ok.mp recomputed
    rw [← same] at available ⊢
    obtain ⟨fills, listed, cash, fees⟩ := fillBook.head view head available
    refine ⟨fills, extended fills ?_, cash, fees⟩
    rw [rulings]
    exact chainFills_foreign (foreign legacy) listed
  · split at recomputed
    · rename_i state result
      have same := pure_eq_ok.mp recomputed
      rw [← same]
      obtain ⟨fills, listed, cash, fees⟩ :=
        recomputeAvailable_flow identified.seedOf fillBook.charged result
      refine ⟨fills, extended fills ?_, cash, fees⟩
      rw [rulings]
      exact listed
    · have same := pure_eq_ok.mp recomputed
      rw [← same] at available
      cases available
    · cases recomputed

theorem ChainCharged.append_one (charged : ChainCharged rows)
    (own : ∀ order, row.payload = .order order → order.status = .filled → OrderCharged order) :
    ChainCharged (rows ++ [row]) := by
  intro other member
  rcases mem_concat.mp member with old | new
  · exact charged other old
  · rw [new]
    exact own

theorem OrderPlaced.charged
    (placed : OrderPlaced host store next book view intent intentHash now terms verdict effect
      tradeId audit) (filled : verdict.1 = .filled) :
    OrderCharged (orderFact intent view intentHash terms now verdict.1 verdict.2 effect tradeId
      audit) := by
  have termed := orderTerms_termed placed.termed
  refine ⟨terms.totalFee, termed.fee_eq, ?_⟩
  simp only [orderFact, filled, if_true]
  exact Money.add_eq_ok.mpr termed.totalFee

theorem Extended.fillBook {binding : AccountBinding} {command : String} {fact : Fact}
    (extended : Extended host store next binding book view command fact projection)
    (identified : Identified host binding.accountId book) (fillBook : FillBook store book) :
    FillBook next (book.extend (view.nextRow host binding.accountId command fact)
      (view.nextHead host binding.accountId command fact projection)) := by
  have applied := extended.appended.applied
  have head := extended.loaded.head
  obtain ⟨more, trades⟩ := extended.origin.grown.trades
  have keptRuled : ∀ id action, (latestRulings book.events).get? id = some action →
      id ∈ next.trades.map RawTrade.id := by
    intro id action found
    rw [trades, List.map_append]
    exact List.mem_append_left _ (fillBook.ruled id action found)
  cases extended.origin with
  | order intent intentHash now terms verdict effect tradeId audit named placed =>
    refine ⟨fillBook.charged.append_one ?_, ?_, ?_⟩
    · intro order payload filled
      obtain rfl := Fact.order.inj payload
      exact placed.charged filled
    · intro id action found
      simp only [Book.extend, latestRulings_append_one] at found
      exact keptRuled id action found
    · intro after headed _
      obtain rfl := Option.some.inj headed
      exact placed.reconciles rfl fillBook.ruled
        (fillBook.head view head placed.available) applied
  | mark batch taken trades audits =>
    refine ⟨fillBook.charged.append_one (fun _ payload => by cases payload), ?_, ?_⟩
    · intro id action found
      simp only [Book.extend, latestRulings_append_one] at found
      exact keptRuled id action found
    · intro after headed _
      obtain rfl := Option.some.inj headed
      have reconciles := fillBook.head view head taken.available
      have marked := (applyMarked_applied applied).rest
      have same : Reconciles book projection := by
        rw [marked]
        exact reconciles
      exact same.quiet (by rw [latestRulings_append_one]; rfl) rfl
  | ruling request now ruling bound prepared trades audits =>
    obtain rfl := pure_eq_ok.mp applied
    refine ⟨fillBook.charged.append_one (fun _ payload => by cases payload), ?_, ?_⟩
    · intro id action found
      obtain ⟨_, known, _, _⟩ := prepareRuling_trade prepared
      simp only [Book.extend, latestRulings_append_one, PaperView.nextRow, eventRow,
        OrdMap.get?_insert] at found
      split at found
      · rename_i same
        obtain ⟨own, _⟩ := prepareRuling_trade prepared
        rw [← same, own, trades]
        exact known
      · exact keptRuled id action found
    · intro after headed available
      obtain rfl := Option.some.inj headed
      exact prepareRuling_reconciles identified fillBook head prepared rfl available
  | snapshot revision trades audits =>
    obtain ⟨_, _, same⟩ := bind_eq_ok.mp applied
    obtain rfl := pure_eq_ok.mp same
    refine ⟨fillBook.charged.append_one (fun _ payload => by cases payload), ?_, ?_⟩
    · intro id action found
      simp only [Book.extend, latestRulings_append_one] at found
      exact keptRuled id action found
    · intro after headed available
      obtain rfl := Option.some.inj headed
      exact (fillBook.head view head available).quiet (by rw [latestRulings_append_one]; rfl) rfl

theorem reachable_fillBook (reachable : Reachable host store) :
    ∀ accountId book, store.books.get? accountId = some book → FillBook store book := by
  refine Reachable.accounts (fun store _ book => FillBook store book) ?_ ?_ ?_
    reachable
  · intro store next seed projection fact opened
    obtain ⟨legacy, highWater, rfl⟩ := opened.seeded
    have seeded := seedProjection_seeded opened.projected
    refine ⟨?_, ?_, ?_⟩
    · intro row member order payload
      rw [List.mem_singleton.mp member] at payload
      cases payload
    · intro id action found
      simp [Book.opened, latestRulings, eventRow] at found
    · intro view headed _
      obtain rfl := Option.some.inj headed
      exact ⟨[], rfl, by rw [seeded.cash]; simp [Book.opened, Flows.of],
        by rw [seeded.fees]; rfl⟩
  · intro store next binding book view command fact projection reachable extended fillBook
    exact extended.fillBook
      (reachable_identified reachable _ book extended.loaded.found) fillBook
  · intro store next accountId book grown fillBook
    obtain ⟨more, trades⟩ := grown.trades
    refine ⟨fillBook.charged, fun id action found => ?_, fillBook.head⟩
    rw [trades, List.map_append]
    exact List.mem_append_left _ (fillBook.ruled id action found)

/-- The cash of effective fills, sales and buys apart. -/
theorem Flows.of_cash (fills : List EffectiveFill) :
    (Flows.of fills).cash =
      ((fills.filter fun fill => fill.direction = "sell").map fun fill : EffectiveFill =>
        fill.fillPrice.val * (fill.quantity : Int) - fill.fee.val).sum -
      ((fills.filter fun fill => fill.direction = "buy").map fun fill : EffectiveFill =>
        fill.fillPrice.val * (fill.quantity : Int) + fill.fee.val).sum := by
  simp only [Flows.of]
  induction fills with
  | nil => rfl
  | cons fill fills ih =>
    simp only [List.map_cons, List.sum_cons, ih, EffectiveFill.cashFlow, Ledger.cashFlow,
      List.filter_cons, decide_eq_true_eq]
    by_cases selling : fill.direction = "sell"
    · simp [selling]
      ring
    · by_cases buying : fill.direction = "buy"
      · simp [buying]
        ring
      · simp [selling, buying]

/-- The effective fills of an available account are listed, and the cash and the fees of its
projection are exactly those of the manifest and of the listed fills.

Proof: an appended event keeps `FillBook`: a fill adds its own cash and fee, and a ruling brings the
projection recomputed from the fills in force. -/
theorem effective_fills_reconcile (host : Host) (store : Store) (reachable : Reachable host store)
    (accountId : String) (book : Book) (found : store.books.get? accountId = some book)
    (view : PaperView) (head : book.head = some view)
    (available : view.projection.economicUnavailable = none)
    (access : Access) (catalog : access.catalog = .ok ()) :
    ∃ fills,
      effectiveFills host access (.ok ()) store (seedBinding host book.manifest) = .ok fills ∧
      view.projection.cash.val = book.manifest.cash.val +
        ((fills.filter fun fill => fill.direction = "sell").map fun fill : EffectiveFill =>
          fill.fillPrice.val * (fill.quantity : Int) - fill.fee.val).sum -
        ((fills.filter fun fill => fill.direction = "buy").map fun fill : EffectiveFill =>
          fill.fillPrice.val * (fill.quantity : Int) + fill.fee.val).sum ∧
      view.projection.fees.val = (fills.map fun fill => fill.fee.val).sum := by
  have kept := reachable_kept reachable accountId book found
  obtain ⟨view', head', loads⟩ := kept.load found catalog
  obtain rfl : view' = view := Option.some.inj (head'.symm.trans head)
  have located := kept.located found rfl
  obtain ⟨fills, listed, cash, fees⟩ :=
    (reachable_fillBook reachable accountId book found).head view' head available
  refine ⟨fills, ?_, ?_, fees⟩
  · have usable : view'.projection.requireAvailable = .ok () :=
      Projection.requireAvailable_eq_ok.mpr available
    simp only [effectiveFills, loads, located, ok_bind, usable]
    exact listed
  · rw [cash, Flows.of_cash]
    ring

/-- The buy and its correction to nine yuan and a half. -/
def correctedRun : List PaperCommand :=
  [.seed sampleSeed, .execute (sampleBuy 1),
    .adjudicate (sampleRuling 2 (genesisHash ++ "/seed/buy")
      (.correctionDeclared (I64.lit 9500000) 100 (7 * nanosPerHour)))]

/-- The listed fill is the corrected one. -/
theorem effective_fills_reconcile_corrected :
    ∃ book view fills, (sampleStore correctedRun).books.get? "a" = some book ∧
      book.head = some view ∧
      effectiveFills sampleHost openAccess (.ok ()) (sampleStore correctedRun)
        (seedBinding sampleHost book.manifest) = .ok fills ∧
      view.projection.fees.val = (fills.map fun fill => fill.fee.val).sum := by
  have ran : sampleRun correctedRun = .ok (sampleStore correctedRun) := by decide +kernel
  have usable : (headOf (sampleStore correctedRun) "a").any (fun view =>
      view.projection.economicUnavailable.isNone) = true := by decide +kernel
  obtain ⟨view, inHead, available⟩ := Option.any_eq_true _ _ |>.mp usable
  obtain ⟨book, found, head⟩ := Option.bind_eq_some_iff.mp inHead
  obtain ⟨fills, listed, _, fees⟩ := effective_fills_reconcile sampleHost _
    (sampleRun_reachable ran) "a" book found view head (Option.isNone_iff_eq_none.mp available)
    openAccess rfl
  exact ⟨book, view, fills, found, head, listed, fees⟩

end StockAnalysis.Ledger
