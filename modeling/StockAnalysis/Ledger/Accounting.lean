import StockAnalysis.Ledger.Integrity

/-!
# The accounting identity over whole runs

In every reachable store, the projection of every account satisfies the accounting identity.
The identity alone is not inductive: an order changes lots by identity, so the lots of an
account must carry distinct identities, each that of a seed lot or of an earlier command. Both
ways of building a projection, the fold over events and the recomputation under rulings, keep
that, because commands of one chain are distinct.
-/

namespace StockAnalysis.Ledger

/-- The identity of the lot that a command's buy opens. -/
def fillLotId (command : String) : String :=
  "fill:" ++ command

theorem fillLotId_inj {a b : String} (same : fillLotId a = fillLotId b) : a = b :=
  (String.append_right_inj _).mp same

theorem seedLotId_ne_fillLotId (i : Nat) (command : String) : seedLotId i ≠ fillLotId command := by
  intro same
  have texts := congrArg String.toList same
  simp [seedLotId, fillLotId] at texts

/-- A lot identity of a chain: that of a seed lot or of an event's command. -/
def KnownLot (events : List EventRow) (id : String) : Prop :=
  (∃ i, id = seedLotId i) ∨ ∃ event ∈ events, id = fillLotId event.commandId

/-- The lots of an account have distinct identities, all known to its chain. -/
structure LotIds (events : List EventRow) (lots : List Lot) : Prop where
  distinct : (lots.map Lot.lotId).Nodup
  known : ∀ id ∈ lots.map Lot.lotId, KnownLot events id

variable {events rows : List EventRow} {lots : List Lot} {host : Host} {state next : Projection}
  {intent : ExecuteIntent} {terms : OrderTerms} {now : Instant} {effect : FillEffect}
  {view : PaperView} {store : Store}

theorem KnownLot.mono {more : List EventRow} {id : String} (known : KnownLot events id) :
    KnownLot (events ++ more) id :=
  known.imp_right fun ⟨event, member, same⟩ => ⟨event, List.mem_append_left _ member, same⟩

theorem LotIds.mono (ids : LotIds events lots) (more : List EventRow) :
    LotIds (events ++ more) lots :=
  ⟨ids.distinct, fun id member => (ids.known id member).mono⟩

variable {command : String} {rest : List RecomputeFill} {actions : Rulings} {book : Book}
  {projection : Projection} {row : EventRow}

/-- A command that is not in the chain has not named a lot. -/
theorem LotIds.fresh (ids : LotIds events lots) (new : ∀ event ∈ events, event.commandId ≠ command)
    :
    fillLotId command ∉ lots.map Lot.lotId := by
  intro member
  rcases ids.known _ member with ⟨i, same⟩ | ⟨event, inChain, same⟩
  · exact seedLotId_ne_fillLotId i command same.symm
  · exact new event inChain (fillLotId_inj same).symm

/-! ## The recomputation -/

/-- What the recomputation keeps while fills remain to be applied: the identity, and distinct
known identities of the lots and of the fills to come. -/
structure Merging (rows : List EventRow) (state : Projection) (fills : List RecomputeFill) :
    Prop where
  sound : Sound state
  quantities : ∀ fill ∈ fills, 0 < fill.quantity
  distinct : (state.lots.map Lot.lotId ++ fills.map RecomputeFill.lotId).Nodup
  known : ∀ id ∈ state.lots.map Lot.lotId ++ fills.map RecomputeFill.lotId, KnownLot rows id
  available : state.economicUnavailable = none

theorem applyEconomics_available {fill : RecomputeFill}
    (applied : applyEconomics host state fill = .ok next) :
    next.economicUnavailable = state.economicUnavailable := by
  obtain ⟨charge, buy | sell⟩ := applyEconomics_cases applied
  · rw [buy.rest]
  · rw [sell.rest]

theorem Merging.fill {fill : RecomputeFill} (merging : Merging rows state (fill :: rest))
    (applied : applyEconomics host state fill = .ok next) : Merging rows next rest := by
  have ids : (next.lots.map Lot.lotId ++ rest.map RecomputeFill.lotId).Sublist
      (state.lots.map Lot.lotId ++ (fill :: rest).map RecomputeFill.lotId) := by
    have extended := (applyEconomics_lotIds applied).append
      (List.Sublist.refl (rest.map RecomputeFill.lotId))
    simpa using extended
  refine ⟨?_, ?_, merging.distinct.sublist ids, fun id member => ?_, ?_⟩
  · exact applyEconomics_sound (merging.quantities fill List.mem_cons_self) merging.sound applied
  · exact fun other member => merging.quantities other (List.mem_cons_of_mem fill member)
  · exact merging.known id (ids.subset member)
  · rw [applyEconomics_available applied, merging.available]

theorem Merging.observe {entry : RecomputeMarket} (merging : Merging rows state rest)
    (observed : observeMarket state entry = .ok next) :
    Merging rows next rest := by
  have sound := observeMarket_sound merging.sound observed
  rw [observeMarket_frame observed] at sound ⊢
  exact ⟨sound, merging.quantities, merging.distinct, merging.known, merging.available⟩

section

variable (commands : (rows.map EventRow.commandId).Nodup)

include commands

theorem Merging.start {manifest : SeedManifest} {seed : Projection} {history : History}
    (seeded : Seeded manifest seed)
    (collected : collectHistory manifest actions rows = .ok history) :
    Merging rows seed (sortRecomputeFills history.fills) := by
  obtain ⟨fromRows, sources⟩ := collectHistory_fills collected
  have perm : (sortRecomputeFills history.fills).Perm history.fills :=
    List.perm_insertionSort _ _
  have fillsDistinct : ((sortRecomputeFills history.fills).map RecomputeFill.lotId).Nodup := by
    have commandsDistinct : (history.fills.map RecomputeFill.command).Nodup :=
      commands.sublist fromRows
    have idsDistinct : (history.fills.map RecomputeFill.lotId).Nodup := by
      have mapped := commandsDistinct.map fun _ _ => fillLotId_inj
      rwa [List.map_map] at mapped
    exact (perm.map _).nodup_iff.mpr idsDistinct
  have seedKnown : ∀ id ∈ seed.lots.map Lot.lotId, ∃ i, id = seedLotId i := fun id member => by
    obtain ⟨lot, inLots, rfl⟩ := List.mem_map.mp member
    obtain ⟨i, at_⟩ := seeded.lots lot inLots
    exact ⟨i, at_.lotId⟩
  have fillKnown : ∀ id ∈ (sortRecomputeFills history.fills).map RecomputeFill.lotId,
      ∃ event ∈ rows, id = fillLotId event.commandId := fun id member => by
    obtain ⟨fill, inFills, rfl⟩ := List.mem_map.mp member
    obtain ⟨row, inRows, from_⟩ := sources fill (perm.mem_iff.mp inFills)
    obtain ⟨order, trade, _, _, _, ruled⟩ := from_.order
    exact ⟨row, inRows, by rw [← (ruledFill_command ruled).1]; rfl⟩
  refine ⟨seeded.sound, fun fill member => ?_, ?_, fun id member => ?_, seeded.available⟩
  · obtain ⟨row, _, from_⟩ := sources fill (perm.mem_iff.mp member)
    exact from_.quantity_pos
  · refine List.nodup_append.mpr ⟨seeded.distinct, fillsDistinct, fun a inSeed b inFills same => ?_⟩
    obtain ⟨i, rfl⟩ := seedKnown a inSeed
    obtain ⟨event, _, rfl⟩ := fillKnown b inFills
    exact seedLotId_ne_fillLotId i _ same
  · rcases List.mem_append.mp member with inSeed | inFills
    · exact Or.inl (seedKnown id inSeed)
    · exact Or.inr (fillKnown id inFills)

/-- A recomputed projection satisfies the identity, over distinct known lots. -/
theorem recomputeAvailable_sound (recomputed : recomputeAvailable host rows actions = .ok state) :
    Sound state ∧ LotIds rows state.lots ∧ state.economicUnavailable = none := by
  obtain ⟨manifest, seed, history, merged, done, rfl⟩ := recomputeAvailable_eq_ok.mp recomputed
  have final : Merging rows merged [] :=
    TimedMerge.merge_invariant (fun state fills _ => Merging rows state fills)
      (fun _ _ _ _ _ merging applied => merging.fill applied)
      (fun _ _ _ _ _ merging observed => merging.observe observed)
      (Merging.start commands (seedProjection_seeded done.seeded) done.collected) done.merges
  have distinct := final.distinct
  have known := final.known
  simp only [List.map_nil, List.append_nil] at distinct known
  exact ⟨⟨final.sound.balanced, final.sound.positive⟩, ⟨distinct, known⟩, final.available⟩

theorem recompute_sound {request : Adjudication} {before : Projection} (sound : Sound before)
    (ids : LotIds rows before.lots) (recomputed : recompute host rows request before = .ok state) :
    Sound state ∧ LotIds rows state.lots := by
  unfold recompute at recomputed
  split at recomputed
  · obtain rfl := pure_eq_ok.mp recomputed
    exact ⟨sound, ids⟩
  · split at recomputed
    · rename_i available result
      obtain rfl := pure_eq_ok.mp recomputed
      obtain ⟨soundAfter, idsAfter, _⟩ := recomputeAvailable_sound commands result
      exact ⟨soundAfter, idsAfter⟩
    · obtain rfl := pure_eq_ok.mp recomputed
      exact ⟨⟨sound.balanced, sound.positive⟩, ids⟩
    · cases recomputed

end

/-! ## Orders -/

/-- A filled order's recorded changes rebuild exactly the lots the decision computed. -/
theorem lotChanges_rebuild (distinct : (lots.map Lot.lotId).Nodup)
    (fresh : fillLotId intent.commandId ∉ lots.map Lot.lotId)
    (effected : fillEffect host lots intent terms now .filled = .ok effect) :
    applyLotChanges lots (lotChanges lots effect.lots) = .ok effect.lots := by
  unfold applyLotChanges lotChanges
  cases direction : intent.signal.direction with
  | buy =>
    obtain ⟨_, _, sellableFrom, _, after⟩ := fillEffect_buy direction effected
    rw [after]
    refine KeyedPatch.patch_diff _ _ distinct (List.Sublist.refl _) (by simp) ?_
    intro lot member
    rw [List.mem_singleton.mp member]
    exact fresh
  | sell =>
    obtain ⟨_, tally, left, sold, _, after, _⟩ := fillEffect_sell direction effected
    have kept : ((openLots left).map Lot.lotId).Sublist (lots.map Lot.lotId) := by
      rw [← (sellFrom_sold sold).lotIds]
      exact List.filter_sublist.map _
    have patched := KeyedPatch.patch_diff (LedgerError.integrityFailure "FIFO before-lot mismatch")
      (LedgerError.integrityFailure "duplicate lot identity") distinct kept
      (by simp : (([] : List Lot).map Lot.lotId).Nodup) (by simp)
    rw [List.append_nil] at patched
    rw [after]
    exact patched

/-- The lots after a filled order carry what the order paid in and did not take out. -/
theorem fillEffect_carried (termed : Termed host view intent now terms)
    (positive : ∀ lot ∈ view.projection.lots, 0 < lot.quantity)
    (effected : fillEffect host view.projection.lots intent terms now .filled = .ok effect) :
    effect.cashDelta.val + carryingValue effect.lots =
        carryingValue view.projection.lots + effect.realizedDelta.val ∧
      ∀ lot ∈ effect.lots, 0 < lot.quantity := by
  cases direction : intent.signal.direction with
  | buy =>
    obtain ⟨cash, realized, sellableFrom, _, after⟩ := fillEffect_buy direction effected
    have stamp : terms.stamp = 0 := stampOf_buy (by
      have charged := termed.stamp
      rwa [direction] at charged)
    refine ⟨?_, fun lot member => ?_⟩
    · rw [after, carryingValue_append, cash, realized, termed.totalFee, stamp]
      simp only [carryingValue_cons, carryingValue_nil, Lot.carrying, openedLot,
        termed.notional, I64.val_zero]
      ring
    · rw [after] at member
      rcases mem_concat.mp member with old | new
      · exact positive lot old
      · rw [new]
        exact termed.quantity
  | sell =>
    obtain ⟨cash, tally, left, sold, _, after, realized⟩ := fillEffect_sell direction effected
    have effectSold := sellFrom_sold sold
    refine ⟨?_, fun lot member => openLots_positive (after ▸ member)⟩
    rw [after, carryingValue_openLots (effectSold.emptied positive), effectSold.carried, cash,
      realizedOf_val realized]
    simp only [SaleTally.start, I64.val_zero]
    ring

/-- Every lot identity after a fill is an old one or that of the command. -/
theorem fillEffect_lotIds (effected : fillEffect host lots intent terms now .filled = .ok effect) :
    (effect.lots.map Lot.lotId).Sublist (lots.map Lot.lotId ++ [fillLotId intent.commandId]) := by
  cases direction : intent.signal.direction with
  | buy =>
    obtain ⟨_, _, sellableFrom, _, after⟩ := fillEffect_buy direction effected
    rw [after, List.map_append]
    exact List.Sublist.refl _
  | sell =>
    obtain ⟨_, tally, left, sold, _, after, _⟩ := fillEffect_sell direction effected
    rw [after, ← (sellFrom_sold sold).lotIds]
    exact (List.filter_sublist.map _).trans (List.sublist_append_left _ _)

/-! ## Whole runs -/

/-- What holds of every account: commands are distinct, and the head projection satisfies the
identity over distinct known lots. -/
structure BookSound (book : Book) : Prop where
  commands : (book.events.map EventRow.commandId).Nodup
  head : ∀ view, book.head = some view →
    Sound view.projection ∧ LotIds book.events view.projection.lots

variable {next : Store}

theorem orderFact_sound {intentHash : String} {verdict : LedgerStatus × Option String}
    {tradeId : Option Int} {audit : AuditLink}
    (placed : OrderPlaced host store next book view intent intentHash now terms verdict effect
      tradeId audit) (named : row.commandId = intent.commandId)
    (new : ∀ event ∈ book.events, event.commandId ≠ intent.commandId)
    (sound : Sound view.projection) (ids : LotIds book.events view.projection.lots)
    (applied : applyOrder view.projection
      (orderFact intent view intentHash terms now verdict.1 verdict.2 effect tradeId audit) =
        .ok projection) :
    Sound projection ∧ LotIds (book.events ++ [row]) projection.lots := by
  have termed := orderTerms_termed placed.termed
  by_cases filled : verdict.1 = .filled
  · have effected := placed.effected
    rw [filled] at effected
    have order := applyOrder_filled filled applied
    have fresh := ids.fresh new
    have lots : projection.lots = effect.lots :=
      Except.ok.inj (order.lots.symm.trans (lotChanges_rebuild ids.distinct fresh effected))
    obtain ⟨carried, positive⟩ := fillEffect_carried termed sound.positive effected
    have sublist := fillEffect_lotIds effected
    refine ⟨⟨?_, lots ▸ positive⟩, ?_, fun id member => ?_⟩
    · have before := sound.balanced
      have unchanged : projection.seedEquity = view.projection.seedEquity := by rw [order.rest]
      have cash := order.cash
      have realized := order.realizedPnl
      simp only [orderFact] at cash realized
      unfold Balanced at before ⊢
      rw [lots, unchanged, cash, realized]
      omega
    · rw [lots]
      refine List.Nodup.sublist sublist (List.nodup_append.mpr ⟨ids.distinct, by simp, ?_⟩)
      intro a inLots b atCommand same
      rw [List.mem_singleton.mp atCommand] at same
      exact fresh (same ▸ inLots)
    · rw [lots] at member
      rcases List.mem_append.mp (sublist.subset member) with old | atCommand
      · exact (ids.known id old).mono
      · exact Or.inr ⟨row, by simp, by rw [named]; exact List.mem_singleton.mp atCommand⟩
  · obtain rfl := applyOrder_unfilled filled applied
    exact ⟨sound, ids.mono [row]⟩

theorem Extended.bookSound {binding : AccountBinding} {fact : Fact}
    (extended : Extended host store next binding book view command fact projection)
    (named : row.commandId = command) (sound : BookSound book) :
    Sound projection ∧ LotIds (book.events ++ [row]) projection.lots := by
  obtain ⟨before, ids⟩ := sound.head view extended.loaded.head
  have applied := extended.appended.applied
  cases extended.origin with
  | order intent intentHash now terms verdict effect tradeId audit same placed =>
    exact orderFact_sound placed (named.trans same.symm)
      (same ▸ extended.appended.newCommand) before ids applied
  | mark batch taken trades audits =>
    have marked := applyMarked_applied applied
    rw [marked.rest]
    exact ⟨⟨before.balanced, before.positive⟩, ids.mono [row]⟩
  | ruling request now ruling bound prepared trades audits =>
    obtain rfl := pure_eq_ok.mp applied
    simp only [prepareRuling, bind_eq_ok, pure_eq_ok] at prepared
    obtain ⟨_, _, _, _, _, _, _, _, _, _, _, _, state, recomputed, _, _, rfl⟩ := prepared
    obtain ⟨soundAfter, idsAfter⟩ := recompute_sound sound.commands before ids recomputed
    exact ⟨soundAfter, idsAfter.mono [row]⟩
  | snapshot revision trades audits =>
    obtain ⟨_, _, same⟩ := bind_eq_ok.mp applied
    rw [← pure_eq_ok.mp same]
    exact ⟨before, ids.mono [row]⟩

theorem reachable_bookSound (reachable : Reachable host store) :
    ∀ accountId book, store.books.get? accountId = some book → BookSound book := by
  refine Reachable.accounts (fun _ _ book => BookSound book) ?_ ?_
    (fun _ _ _ _ _ sound => sound) reachable
  · intro store next seed projection fact opened
    have seeded := seedProjection_seeded opened.projected
    refine ⟨by simp [Book.opened], fun view headed => ?_⟩
    obtain rfl := Option.some.inj headed
    refine ⟨seeded.sound, seeded.distinct, fun id member => ?_⟩
    obtain ⟨lot, inLots, rfl⟩ := List.mem_map.mp member
    obtain ⟨i, at_⟩ := seeded.lots lot inLots
    exact Or.inl ⟨i, at_.lotId⟩
  · intro store next binding book view command fact projection _ extended sound
    refine ⟨?_, fun view' headed => ?_⟩
    · have fresh := extended.appended.newCommand
      simp only [Book.extend, List.map_append, List.map_cons, List.map_nil]
      refine List.nodup_append.mpr ⟨sound.commands, by simp, ?_⟩
      rintro a inEvents b atCommand same
      obtain ⟨event, member, rfl⟩ := List.mem_map.mp inEvents
      exact fresh event member (same.trans (List.mem_singleton.mp atCommand))
    · obtain rfl := Option.some.inj headed
      exact extended.bookSound rfl sound

/-- Cash and the carrying value of the lots sum to the seed equity and the realized result, in every
account of every reachable store; so wherever both valuations return, the equity is the seed equity
with the realized and the unrealized result.

Proof: an appended event keeps `BookSound`, in which the head is balanced. -/
theorem ledger_accounting_identity (host : Host) (store : Store)
    (reachable : Reachable host store) (accountId : String) (book : Book)
    (found : store.books.get? accountId = some book) (view : PaperView)
    (head : book.head = some view) :
    view.projection.cash.val +
        (view.projection.lots.map fun lot : Lot =>
          lot.basisPrice.val * (lot.quantity : Int) + lot.buyFeeRemaining.val).sum =
      view.projection.seedEquity.val + view.projection.realizedPnl.val ∧
    ∀ equity unrealized, view.projection.equity = .ok equity →
      view.projection.unrealizedPnl = .ok unrealized →
      equity.val = view.projection.seedEquity.val + view.projection.realizedPnl.val +
        unrealized.val := by
  obtain ⟨sound, _⟩ := (reachable_bookSound reachable accountId book found).head view head
  exact ⟨sound.balanced, fun equity unrealized => equity_of_balanced sound.balanced⟩

/-- The identity after a buy: the cash spent, commission included, is carried by the lot. -/
theorem ledger_accounting_identity_after_buy :
    ∃ book view,
      (sampleStore [.seed sampleSeed, .execute (sampleBuy 1)]).books.get? "a" = some book ∧
      book.head = some view ∧
      view.projection.cash.val + (view.projection.lots.map fun lot : Lot =>
          lot.basisPrice.val * (lot.quantity : Int) + lot.buyFeeRemaining.val).sum =
        view.projection.seedEquity.val + view.projection.realizedPnl.val := by
  have ran : sampleRun [.seed sampleSeed, .execute (sampleBuy 1)] =
      .ok (sampleStore [.seed sampleSeed, .execute (sampleBuy 1)]) := by decide +kernel
  obtain ⟨book, view, found, head⟩ := headOf_isSome (by decide +kernel :
    (headOf (sampleStore [.seed sampleSeed, .execute (sampleBuy 1)]) "a").isSome = true)
  exact ⟨book, view, found, head, (ledger_accounting_identity sampleHost _
    (sampleRun_reachable ran) "a" book found view head).1⟩

end StockAnalysis.Ledger
