import StockAnalysis.Positions.Histories

/-!
# The positions of a history

The inventories of the rebuilt lots, with their double sums assumed finite, fail only on a total that
does not fit. With the closed form of the loop this says which histories `rebuild_paper_positions`
accepts, and which positions they leave.
-/

namespace StockAnalysis.Positions

/-- The double sums over the sellable lots of an inventory. -/
def sellableCosts (host : Host) (asOf : Day) (lots : List OpenPaperLot) : F64 × F64 :=
  (lots.filter (OpenPaperLot.boughtBefore asOf)).foldl
    (fun sums lot => (host.add sums.1 (lotCost host lot), host.add sums.2 (lotBuyFee host lot)))
    (0, 0)

/-- No double sum of an inventory leaves the finite doubles, and the average price is positive. -/
structure FiniteCosts (host : Host) (asOf : Day) (lots : List OpenPaperLot) : Prop where
  sums : ∀ done lot rest, lots = done ++ lot :: rest → lot.boughtBefore asOf = true →
    host.isFinite (sellableCosts host asOf (done ++ [lot])).1 = true ∧
      host.isFinite (sellableCosts host asOf (done ++ [lot])).2 = true
  notionals : ∀ lot ∈ lots, host.isFinite (lotNotional host lot) = true
  average : 0 < Fifo.total lotMeasure (lots.filter (OpenPaperLot.boughtBefore asOf)) →
    host.validPrice (host.divide (sellableCosts host asOf lots).1 (host.ofQuantity
      (Fifo.total lotMeasure (lots.filter (OpenPaperLot.boughtBefore asOf))))) = true

variable {host : Host} {asOf : Day} {code : String}

section Inventory

variable {done rest : List OpenPaperLot} {lot : OpenPaperLot} {tally : InventoryTally}

/-- The sums after some lots. -/
structure Tallied (host : Host) (asOf : Day) (done : List OpenPaperLot) (tally : InventoryTally) :
    Prop where
  total : tally.totalQuantity = Fifo.total lotMeasure done
  sellable : tally.sellableQuantity =
    Fifo.total lotMeasure (done.filter (OpenPaperLot.boughtBefore asOf))
  costs : (tally.sellableCost, tally.sellableBuyFee) = sellableCosts host asOf done
  openLots : tally.openLots = done.map fun lot => lot.evidence (lot.boughtBefore asOf)
  split : tally.totalQuantity = tally.sellableQuantity + tally.lockedQuantity

theorem Tallied.start : Tallied host asOf [] .start :=
  ⟨rfl, rfl, rfl, rfl, rfl⟩

theorem checkedAdd_eq_ok {reason : PositionReason} {sum amount result : Nat} :
    checkedAdd code reason sum amount = .ok result ↔
      sum + amount < u32Limit ∧ result = sum + amount := by
  simp only [checkedAdd, bind_eq_ok, require_eq_ok, pure_eq_ok]
  constructor
  · rintro ⟨_, fits, rfl⟩
    exact ⟨fits, rfl⟩
  · rintro ⟨fits, rfl⟩
    exact ⟨⟨⟩, fits, rfl⟩

theorem sellableCosts_concat (done : List OpenPaperLot) (lot : OpenPaperLot) :
    sellableCosts host asOf (done ++ [lot]) =
      if lot.boughtBefore asOf then
        (host.add (sellableCosts host asOf done).1 (lotCost host lot),
          host.add (sellableCosts host asOf done).2 (lotBuyFee host lot))
      else sellableCosts host asOf done := by
  unfold sellableCosts
  rw [List.filter_append, List.foldl_append]
  split
  · rename_i isBefore
    rw [List.filter_cons_of_pos isBefore]
    rfl
  · rename_i notBefore
    rw [List.filter_cons_of_neg notBefore]
    rfl

variable {total : Nat}

theorem addSellable_succeeds (fits : tally.sellableQuantity + lot.remainingQuantity < u32Limit)
    (cost : host.isFinite (host.add tally.sellableCost (lotCost host lot)) = true)
    (notional : host.isFinite (lotNotional host lot) = true)
    (fee : host.isFinite (host.add tally.sellableBuyFee (lotBuyFee host lot)) = true) :
    addSellable host code tally lot total = .ok { tally with
      totalQuantity := total
      sellableQuantity := tally.sellableQuantity + lot.remainingQuantity
      sellableCost := host.add tally.sellableCost (lotCost host lot)
      sellableBuyFee := host.add tally.sellableBuyFee (lotBuyFee host lot)
      earliestSellableDate := some ((tally.earliestSellableDate.map
        (min · lot.boughtAt.date)).getD lot.boughtAt.date)
      openLots := tally.openLots ++ [lot.evidence true] } := by
  simp only [addSellable, checkedAdd, require_pos fits, require_pos cost, require_pos notional,
    require_pos fee, ok_bind, pure, Except.pure]

theorem addLocked_succeeds (fits : tally.lockedQuantity + lot.remainingQuantity < u32Limit) :
    addLocked code tally lot total = .ok { tally with
      totalQuantity := total
      lockedQuantity := tally.lockedQuantity + lot.remainingQuantity
      openLots := tally.openLots ++ [lot.evidence false] } := by
  simp only [addLocked, checkedAdd, require_pos fits, ok_bind, pure, Except.pure]

theorem addLot_tallied (finite : FiniteCosts host asOf (done ++ lot :: rest))
    (dated : lot.boughtAt.date ≤ asOf) (tallied : Tallied host asOf done tally)
    (fits : Fifo.total lotMeasure (done ++ [lot]) < u32Limit) :
    ∃ next, addLot host code asOf tally lot = .ok next ∧ Tallied host asOf (done ++ [lot]) next := by
  have costs := tallied.costs
  have concat := @sellableCosts_concat host asOf done lot
  have total : Fifo.total lotMeasure (done ++ [lot]) =
      tally.totalQuantity + lot.remainingQuantity := by
    rw [Fifo.total_append, tallied.total]
    rfl
  rw [total] at fits
  have split := tallied.split
  by_cases isBefore : lot.boughtBefore asOf = true
  · have date : lot.boughtAt.date < asOf := of_decide_eq_true isBefore
    rw [if_pos isBefore, ← costs] at concat
    obtain ⟨costFinite, feeFinite⟩ := finite.sums done lot rest rfl isBefore
    rw [concat] at costFinite feeFinite
    have notional := finite.notionals lot (by simp)
    have sellableFits : tally.sellableQuantity + lot.remainingQuantity < u32Limit := by omega
    have added : addLot host code asOf tally lot =
        addSellable host code tally lot (tally.totalQuantity + lot.remainingQuantity) := by
      simp only [addLot, checkedAdd, require_pos fits, ok_bind, date, if_true, pure, Except.pure]
    refine ⟨_, added.trans (addSellable_succeeds sellableFits costFinite notional feeFinite), ?_⟩
    refine ⟨total.symm, ?_, concat.symm, ?_, ?_⟩
    · simp [tallied.sellable, isBefore, lotMeasure]
    · simp [tallied.openLots, isBefore]
    · dsimp only
      omega
  · have date : ¬ lot.boughtAt.date < asOf := fun earlier => isBefore (decide_eq_true earlier)
    have onDay : lot.boughtAt.date = asOf := le_antisymm dated (not_lt.mp date)
    rw [if_neg isBefore, ← costs] at concat
    have lockedFits : tally.lockedQuantity + lot.remainingQuantity < u32Limit := by omega
    have added : addLot host code asOf tally lot =
        addLocked code tally lot (tally.totalQuantity + lot.remainingQuantity) := by
      simp only [addLot, checkedAdd, require_pos fits, ok_bind, pure, Except.pure, if_neg date,
        if_pos onDay]
    refine ⟨_, added.trans (addLocked_succeeds lockedFits), ?_⟩
    refine ⟨total.symm, ?_, concat.symm, ?_, ?_⟩
    · simp [tallied.sellable, isBefore]
    · simp [tallied.openLots, isBefore]
    · dsimp only
      omega

theorem addLot_fits {next : InventoryTally} (tallied : Tallied host asOf done tally)
    (added : addLot host code asOf tally lot = .ok next) :
    Fifo.total lotMeasure (done ++ [lot]) < u32Limit := by
  obtain ⟨_, counted, _⟩ := bind_eq_ok.mp added
  have fits := (checkedAdd_eq_ok.mp counted).1
  rw [Fifo.total_append, ← tallied.total]
  exact fits

theorem addLots_tallied (finite : FiniteCosts host asOf (done ++ rest))
    (dated : ∀ lot ∈ rest, lot.boughtAt.date ≤ asOf) (tallied : Tallied host asOf done tally) :
    (Fifo.total lotMeasure (done ++ rest) < u32Limit → ∃ final,
      each (addLot host code asOf) tally rest = .ok final ∧ Tallied host asOf (done ++ rest) final) ∧
    (∀ final, each (addLot host code asOf) tally rest = .ok final → rest ≠ [] →
      Fifo.total lotMeasure (done ++ rest) < u32Limit) := by
  induction rest generalizing done tally with
  | nil =>
    rw [List.append_nil]
    exact ⟨fun _ => ⟨tally, rfl, tallied⟩, fun _ _ nonempty => absurd rfl nonempty⟩
  | cons lot rest ih =>
    have assoc : done ++ lot :: rest = done ++ [lot] ++ rest := by simp
    have others : ∀ other ∈ rest, other.boughtAt.date ≤ asOf := fun other member =>
      dated other (List.mem_cons_of_mem lot member)
    have first := dated lot List.mem_cons_self
    constructor
    · intro fits
      have upTo : Fifo.total lotMeasure (done ++ [lot]) < u32Limit := by
        rw [assoc, Fifo.total_append] at fits
        omega
      obtain ⟨next, added, tallied⟩ := @addLot_tallied host asOf code done rest lot tally finite
        first tallied upTo
      rw [assoc] at finite fits ⊢
      obtain ⟨final, finished, complete⟩ := (ih finite others tallied).1 fits
      exact ⟨final, bind_eq_ok.mpr ⟨next, added, finished⟩, complete⟩
    · intro final finished _
      obtain ⟨next, added, finished⟩ := bind_eq_ok.mp finished
      have upTo := addLot_fits tallied added
      obtain ⟨same, added', tallied⟩ := @addLot_tallied host asOf code done rest lot tally finite
        first tallied upTo
      obtain rfl := Except.ok.inj (added.symm.trans added')
      cases rest with
      | nil => exact upTo
      | cons second rest =>
        rw [assoc] at finite ⊢
        exact (ih finite others tallied).2 final finished (List.cons_ne_nil _ _)

/-- The inventory of a code. -/
structure InventoryOf (asOf : Day) (code : String) (lots : List OpenPaperLot)
    (inventory : PaperPositionInventory) : Prop where
  code : inventory.code = code
  total : inventory.totalQuantity = Fifo.total lotMeasure lots
  split : inventory.totalQuantity = inventory.sellableQuantity + inventory.lockedQuantity
  sellable : inventory.sellableQuantity =
    Fifo.total lotMeasure (lots.filter (OpenPaperLot.boughtBefore asOf))
  openLots : inventory.openLots = lots.map fun lot => lot.evidence (lot.boughtBefore asOf)

/-- An inventory is built exactly when its total fits. -/
theorem inventoryFromState_spec {state : PositionState} (finite : FiniteCosts host asOf state.lots)
    (dated : ∀ lot ∈ state.lots, lot.boughtAt.date ≤ asOf) :
    (Fifo.total lotMeasure state.lots < u32Limit → ∃ inventory,
      inventoryFromState host asOf code state = .ok inventory ∧
        InventoryOf asOf code state.lots inventory) ∧
    (∀ inventory, inventoryFromState host asOf code state = .ok inventory →
      Fifo.total lotMeasure state.lots < u32Limit) := by
  obtain ⟨forward, backward⟩ := @addLots_tallied host asOf code [] state.lots .start finite dated
    Tallied.start
  rw [List.nil_append] at forward backward
  constructor
  · intro fits
    obtain ⟨final, finished, tallied⟩ := forward fits
    have costs := congrArg Prod.fst tallied.costs
    have averaged : ∃ average, averagePrice host code final = .ok average := by
      unfold averagePrice
      split
      · exact ⟨none, rfl⟩
      · rename_i some
        have valid := finite.average (by rw [← tallied.sellable]; omega)
        rw [← tallied.sellable, ← costs] at valid
        exact ⟨_, bind_eq_ok.mpr ⟨⟨⟩, require_pos valid, rfl⟩⟩
    obtain ⟨average, isAverage⟩ := averaged
    refine ⟨_, bind_eq_ok.mpr ⟨final, finished, bind_eq_ok.mpr ⟨average, isAverage, rfl⟩⟩, ?_⟩
    exact ⟨rfl, tallied.total, tallied.split, tallied.sellable, tallied.openLots⟩
  · intro inventory built
    obtain ⟨final, finished, _⟩ := bind_eq_ok.mp built
    by_cases empty : state.lots = []
    · rw [empty]
      decide
    · exact backward final finished empty

end Inventory

variable {states : List (String × PositionState)}

theorem openInventories_succeeds :
    (∃ inventories, openInventories host asOf states = .ok inventories) ↔
      ∀ entry ∈ states, ∃ inventory, inventoryFromState host asOf entry.1 entry.2 = .ok inventory := by
  induction states with
  | nil => simp [openInventories, pure, Except.pure]
  | cons entry states ih =>
    rw [List.forall_mem_cons, ← ih]
    simp only [openInventories, bind_eq_ok, pure_eq_ok]
    constructor
    · rintro ⟨_, inventory, built, inventories, others, rfl⟩
      exact ⟨⟨inventory, built⟩, inventories, others⟩
    · rintro ⟨⟨inventory, built⟩, inventories, others⟩
      exact ⟨_, inventory, built, inventories, others, rfl⟩

theorem mem_openInventories {inventories : List PaperPositionInventory}
    (built : openInventories host asOf states = .ok inventories)
    {inventory : PaperPositionInventory} :
    inventory ∈ inventories ↔ 0 < inventory.totalQuantity ∧
      ∃ entry ∈ states, inventoryFromState host asOf entry.1 entry.2 = .ok inventory := by
  induction states generalizing inventories with
  | nil =>
    obtain rfl := pure_eq_ok.mp built
    simp
  | cons entry states ih =>
    simp only [openInventories, bind_eq_ok, pure_eq_ok] at built
    obtain ⟨first, isFirst, others, isOthers, rfl⟩ := built
    have inOthers := ih isOthers
    simp only [List.exists_mem_cons_iff, isFirst, Except.ok.injEq]
    split
    · rename_i holds
      rw [List.mem_cons, inOthers]
      constructor
      · rintro (rfl | ⟨positive, found⟩)
        · exact ⟨holds, .inl rfl⟩
        · exact ⟨positive, .inr found⟩
      · rintro ⟨positive, rfl | found⟩
        · exact .inl rfl
        · exact .inr ⟨positive, found⟩
    · rename_i empty
      rw [inOthers]
      constructor
      · rintro ⟨positive, found⟩
        exact ⟨positive, .inr found⟩
      · rintro ⟨positive, rfl | found⟩
        · exact absurd positive empty
        · exact ⟨positive, found⟩

/-- The inventories keep the order of the states, and there is at most one for each. -/
theorem openInventories_codes {inventories : List PaperPositionInventory}
    (built : openInventories host asOf states = .ok inventories)
    (named : ∀ entry ∈ states, ∀ inventory,
      inventoryFromState host asOf entry.1 entry.2 = .ok inventory → inventory.code = entry.1) :
    (inventories.map PaperPositionInventory.code).Sublist (states.map Prod.fst) := by
  induction states generalizing inventories with
  | nil =>
    obtain rfl := pure_eq_ok.mp built
    simp
  | cons entry states ih =>
    simp only [openInventories, bind_eq_ok, pure_eq_ok] at built
    obtain ⟨first, isFirst, others, isOthers, rfl⟩ := built
    have kept := ih isOthers fun other listed => named other (List.mem_cons_of_mem _ listed)
    split
    · rw [List.map_cons, List.map_cons, named entry List.mem_cons_self first isFirst]
      exact kept.cons_cons _
    · exact kept.cons _

/-! ## The accepted histories -/

section Accepted

variable {fills : List PaperFill} {run : Rebuild}

theorem unsoldLots_dates (code : String) (fills : List PaperFill) :
    ((unsoldLots code fills).map OpenPaperLot.boughtAt).Sublist
      (fills.map PaperFill.occurredAt) := by
  have kept : ∀ (lot : OpenPaperLot) n, (lotMeasure.resize lot n).boughtAt = lot.boughtAt :=
    fun _ _ => rfl
  refine (Fifo.map_unsold_sublist kept _ _).trans ?_
  rw [buyLots, List.map_map]
  exact List.filter_sublist.map _

theorem unsoldLots_dated (wellFormed : WellFormed host asOf fills) {lot : OpenPaperLot}
    (member : lot ∈ unsoldLots code fills) : lot.boughtAt.date ≤ asOf := by
  obtain ⟨fill, isFill, same⟩ := List.mem_map.mp
    ((unsoldLots_dates code fills).subset (List.mem_map_of_mem member))
  rw [← same]
  exact wellFormed.dated fill isFill

theorem total_unsoldLots (code : String) (fills : List PaperFill) :
    Fifo.total lotMeasure (unsoldLots code fills) = bought code fills - sold code fills := by
  rw [unsoldLots, Fifo.total_unsold, total_buyLots]

/-- The shares of a history that are sellable on its last day. -/
theorem sellable_unsoldLots (wellFormed : WellFormed host asOf fills)
    (covered : sold code fills ≤ boughtBefore code asOf fills) :
    Fifo.total lotMeasure ((unsoldLots code fills).filter (OpenPaperLot.boughtBefore asOf)) =
      boughtBefore code asOf fills - sold code fills := by
  have dates : ((unsoldLots code fills).map OpenPaperLot.boughtAt).Pairwise fun earlier later =>
      earlier.date ≤ later.date := by
    refine List.Pairwise.sublist (unsoldLots_dates code fills) ?_
    rw [List.pairwise_map]
    exact wellFormed.dates
  have ordered : (unsoldLots code fills).Pairwise fun earlier later =>
      OpenPaperLot.boughtBefore asOf later = true →
        OpenPaperLot.boughtBefore asOf earlier = true := by
    refine (List.pairwise_map.mp dates).imp fun notAfter isBefore => ?_
    simp only [OpenPaperLot.boughtBefore, decide_eq_true_eq] at isBefore ⊢
    exact lt_of_le_of_lt notAfter isBefore
  have free := wellFormed.available_buyLots code asOf
  rw [← Fifo.available_eq_filter ordered, unsoldLots,
    Fifo.available_unsold (wellFormed.positive code) (fun _ _ => rfl) (by rw [free]; exact covered),
    free]

/-- What was bought was bought before or on the last day. -/
theorem bought_split (dated : ∀ fill ∈ fills, fill.occurredAt.date ≤ asOf) (code : String) :
    bought code fills = boughtBefore code asOf fills + boughtOn code asOf fills := by
  induction fills with
  | nil => rfl
  | cons fill fills ih =>
    have others := ih fun other member => dated other (List.mem_cons_of_mem fill member)
    have first := dated fill List.mem_cons_self
    have one (direction : String) (rest : List PaperFill) :
        moved code direction (fill :: rest) = moved code direction [fill] +
          moved code direction rest := moved_append code direction [fill] rest
    simp only [bought, boughtBefore, boughtOn] at others ⊢
    rcases lt_or_eq_of_le first with earlier | same
    · have notOn : ¬ fill.occurredAt.date = asOf := ne_of_lt earlier
      rw [List.filter_cons_of_pos (by simpa using earlier),
        List.filter_cons_of_neg (by simpa using notOn), one "buy" fills,
        one "buy" (fills.filter _), others]
      omega
    · have notBefore : ¬ fill.occurredAt.date < asOf := by
        rw [same]
        exact lt_irrefl _
      rw [List.filter_cons_of_neg (by simpa using notBefore),
        List.filter_cons_of_pos (by simpa using same), one "buy" fills,
        one "buy" (fills.filter _), others]
      omega

section

variable (rebuilt : Rebuilt fills run)

include rebuilt

/-- The states of the loop are the unsold lots of the codes that were traded. -/
theorem Rebuilt.entry {entry : String × PositionState} (member : entry ∈ run.states.entries) :
    entry.2.lots = unsoldLots entry.1 fills := by
  have found : run.states.get? entry.1 = some entry.2 := OrdMap.get?_eq_some_iff.mpr member
  rw [← rebuilt.lots, Rebuild.lotsOf, found]
  rfl

theorem Rebuilt.inventory (wellFormed : WellFormed host asOf fills)
    (finite : ∀ code, FiniteCosts host asOf (unsoldLots code fills))
    {entry : String × PositionState} (member : entry ∈ run.states.entries) :
    (bought entry.1 fills - sold entry.1 fills < u32Limit → ∃ inventory,
      inventoryFromState host asOf entry.1 entry.2 = .ok inventory ∧
        InventoryOf asOf entry.1 (unsoldLots entry.1 fills) inventory) ∧
    (∀ inventory, inventoryFromState host asOf entry.1 entry.2 = .ok inventory →
      bought entry.1 fills - sold entry.1 fills < u32Limit) := by
  have lots := rebuilt.entry member
  have spec := @inventoryFromState_spec host asOf entry.1 entry.2 (lots ▸ finite entry.1)
    (fun lot inLots => unsoldLots_dated wellFormed (lots ▸ inLots))
  rw [lots, total_unsoldLots] at spec
  exact spec

theorem Rebuilt.untraded (absent : run.states.get? code = none) :
    bought code fills - sold code fills = 0 := by
  have lots := rebuilt.lots code
  rw [Rebuild.lotsOf, absent] at lots
  rw [← total_unsoldLots, ← lots]
  rfl

/-- The positions of a history whose totals fit hold what was bought and not sold, one for each
code. -/
theorem Rebuilt.positions (wellFormed : WellFormed host asOf fills)
    (finite : ∀ code, FiniteCosts host asOf (unsoldLots code fills))
    (fits : ∀ code, bought code fills - sold code fills < u32Limit) :
    ∃ positions, openInventories host asOf run.states.entries = .ok positions ∧
      (∀ code quantity,
        (∃ position ∈ positions, position.code = code ∧ position.totalQuantity = quantity) ↔
          bought code fills - sold code fills = quantity ∧ 0 < quantity) ∧
      (positions.map PaperPositionInventory.code).Nodup := by
  have each (entry : String × PositionState) (member : entry ∈ run.states.entries) :=
    (rebuilt.inventory wellFormed finite member).1 (fits entry.1)
  obtain ⟨positions, built⟩ := openInventories_succeeds.mpr fun entry member =>
    (each entry member).imp fun _ found => found.1
  refine ⟨positions, built, fun code quantity => ⟨?_, ?_⟩, ?_⟩
  · rintro ⟨position, member, rfl, rfl⟩
    obtain ⟨positive, entry, isEntry, isInventory⟩ := (mem_openInventories built).mp member
    obtain ⟨same, isSame, described⟩ := each entry isEntry
    obtain rfl := Except.ok.inj (isInventory.symm.trans isSame)
    rw [described.code, described.total, total_unsoldLots]
    rw [described.total, total_unsoldLots] at positive
    exact ⟨rfl, positive⟩
  · rintro ⟨rfl, positive⟩
    cases found : run.states.get? code with
    | none =>
      rw [rebuilt.untraded found] at positive
      exact absurd positive (by decide)
    | some state =>
      have member := OrdMap.get?_eq_some_iff.mp found
      obtain ⟨inventory, isInventory, described⟩ := each (code, state) member
      have total := described.total
      rw [total_unsoldLots] at total
      refine ⟨inventory, (mem_openInventories built).mpr ⟨?_, _, member, isInventory⟩,
        described.code, total⟩
      rw [total]
      exact positive
  · refine (openInventories_codes built fun entry member inventory isInventory => ?_).nodup
      run.states.nodup_keys
    obtain ⟨same, isSame, described⟩ := each entry member
    obtain rfl := Except.ok.inj (isInventory.symm.trans isSame)
    exact described.code

end

/-- What a rebuilt position says about the fills of its code. -/
structure PositionOf (asOf : Day) (fills : List PaperFill) (position : PaperPositionInventory) :
    Prop where
  total : position.totalQuantity + sold position.code fills = bought position.code fills
  split : position.totalQuantity = position.sellableQuantity + position.lockedQuantity
  locked : position.lockedQuantity = boughtOn position.code asOf fills
  openLots : position.openLots =
    (unsoldLots position.code fills).map fun lot => lot.evidence (lot.boughtBefore asOf)

theorem InventoryOf.position {inventory : PaperPositionInventory}
    (isInventory : InventoryOf asOf code (unsoldLots code fills) inventory)
    (wellFormed : WellFormed host asOf fills)
    (covered : sold code fills ≤ boughtBefore code asOf fills) :
    PositionOf asOf fills inventory := by
  obtain rfl := isInventory.code
  have total := isInventory.total
  have sellable := isInventory.sellable
  have split := isInventory.split
  have parts := bought_split wellFormed.dated inventory.code
  rw [total_unsoldLots] at total
  rw [sellable_unsoldLots wellFormed covered] at sellable
  exact ⟨by omega, split, by omega, isInventory.openLots⟩

/-- `rebuild_paper_positions` accepts exactly the histories that are feasible under T+1 and whose
totals fit. It then rebuilds one position for each code that was bought in excess of its sales, and
no other, with the shares, the split and the lots that the history leaves. The loop over the fills
succeeds exactly on feasible histories (`rebuild_all`) and ends with the unsold lots of every code,
from which the inventories are read. -/
theorem rebuild_accepts_feasible (host : Host) (asOf : Day) (fills : List PaperFill)
    (wellFormed : WellFormed host asOf fills)
    (finite : ∀ code, FiniteCosts host asOf (unsoldLots code fills)) :
    ((∃ positions, rebuildPaperPositions host fills asOf = .ok positions) ↔
      TPlusOneFeasible fills ∧ ∀ code, bought code fills - sold code fills < u32Limit) ∧
    ∀ positions, rebuildPaperPositions host fills asOf = .ok positions →
      (positions.map PaperPositionInventory.code).Nodup ∧
      (∀ code, code ∈ positions.map PaperPositionInventory.code ↔
        sold code fills < bought code fills) ∧
      ∀ position ∈ positions, PositionOf asOf fills position := by
  obtain ⟨looped, loops⟩ := rebuild_all wellFormed
  have accepted : ∀ positions, rebuildPaperPositions host fills asOf = .ok positions →
      TPlusOneFeasible fills ∧ ∀ code, bought code fills - sold code fills < u32Limit := by
    intro positions rebuilt
    obtain ⟨run, finished, built⟩ := bind_eq_ok.mp rebuilt
    obtain ⟨feasible, closed⟩ := looped run finished
    refine ⟨feasible, fun code => ?_⟩
    cases found : run.states.get? code with
    | none =>
      rw [closed.untraded found]
      decide
    | some state =>
      have member := OrdMap.get?_eq_some_iff.mp found
      obtain ⟨inventory, isInventory⟩ :=
        openInventories_succeeds.mp ⟨positions, built⟩ (code, state) member
      exact (closed.inventory wellFormed finite member).2 inventory isInventory
  refine ⟨⟨fun ⟨positions, rebuilt⟩ => accepted positions rebuilt, ?_⟩, ?_⟩
  · rintro ⟨feasible, fits⟩
    obtain ⟨run, finished⟩ := loops feasible
    obtain ⟨positions, built, _⟩ := (looped run finished).2.positions wellFormed finite fits
    exact ⟨positions, bind_eq_ok.mpr ⟨run, finished, built⟩⟩
  · intro positions rebuilt
    obtain ⟨run, finished, built⟩ := bind_eq_ok.mp rebuilt
    have closed := (looped run finished).2
    obtain ⟨same, isSame, holds, distinct⟩ :=
      closed.positions wellFormed finite (accepted positions rebuilt).2
    obtain rfl := Except.ok.inj (built.symm.trans isSame)
    refine ⟨distinct, fun code => ?_, fun position member => ?_⟩
    · rw [List.mem_map, ← Nat.sub_pos_iff_lt]
      constructor
      · rintro ⟨position, member, rfl⟩
        obtain ⟨total, positive⟩ := (holds _ _).mp ⟨position, member, rfl, rfl⟩
        exact total ▸ positive
      · intro positive
        obtain ⟨position, member, named, _⟩ := (holds code _).mpr ⟨rfl, positive⟩
        exact ⟨position, member, named⟩
    · obtain ⟨_, entry, isEntry, isInventory⟩ := (mem_openInventories built).mp member
      obtain ⟨forward, backward⟩ := closed.inventory wellFormed finite isEntry
      obtain ⟨same, isSame, described⟩ := forward (backward position isInventory)
      obtain rfl := Except.ok.inj (isInventory.symm.trans isSame)
      exact described.position wellFormed (closed.covered _ _ wellFormed.dated)

/-- Three codes are bought, two of them partly and entirely sold a day later, and the first one is
bought again on that day. -/
def sampleHistory : List PaperFill :=
  [sampleFill 1 "buy" 2 1, { sampleFill 2 "buy" 3 1 with code := "y" },
    { sampleFill 3 "buy" 1 1 with code := "z" }, sampleFill 4 "sell" 1 2,
    { sampleFill 5 "sell" 1 2 with code := "z" }, sampleFill 6 "buy" 1 2]

theorem sampleHistory_wellFormed : WellFormed sampleHost 2 sampleHistory where
  identities := by decide
  distinct := by decide
  ordered := by decide
  dated := by decide
  priced fill member := by
    refine ⟨10, ?_, by decide⟩
    simp only [sampleHistory, List.mem_cons, List.not_mem_nil, or_false] at member
    rcases member with rfl | rfl | rfl | rfl | rfl | rfl <;> rfl
  quantities := by decide
  directions := by decide

/-- The shares of a code that can be sold. -/
def sellableOf (asOf : Day) (fills : List PaperFill) (code : String) : Nat :=
  Fifo.total lotMeasure ((unsoldLots code fills).filter (OpenPaperLot.boughtBefore asOf))

/-- Fills of codes whose average prices are valid have finite costs under the sample host. -/
theorem sampleHost_finite (average : ∀ code ∈ fills.map PaperFill.code,
      0 < sellableOf asOf fills code → sampleHost.validPrice (sampleHost.divide
        (sellableCosts sampleHost asOf (unsoldLots code fills)).1
        (sampleHost.ofQuantity (sellableOf asOf fills code))) = true) (code : String) :
    FiniteCosts sampleHost asOf (unsoldLots code fills) := by
  refine ⟨fun _ _ _ _ _ => ⟨rfl, rfl⟩, fun _ _ => rfl, ?_⟩
  by_cases traded : code ∈ fills.map PaperFill.code
  · exact average code traded
  · have noBuys : fills.filter (PaperFill.isOf code "buy") = [] := by
      refine List.filter_eq_nil_iff.mpr fun fill member isOf => traded ?_
      simp only [PaperFill.isOf, decide_eq_true_eq] at isOf
      exact List.mem_map.mpr ⟨fill, member, isOf.1⟩
    have none : unsoldLots code fills = [] := by
      rw [unsoldLots, buyLots, noBuys]
      rfl
    rw [none]
    exact fun positive => absurd positive (Nat.lt_irrefl 0)

/-- The code that was sold out has no position, the two others have one each. -/
theorem rebuild_accepts_feasible_sample :
    ∃ positions, rebuildPaperPositions sampleHost sampleHistory 2 = .ok positions ∧
      (positions.map fun position => (position.code, position.totalQuantity)) =
        [("x", 200), ("y", 300)] ∧
      sold "z" sampleHistory = bought "z" sampleHistory ∧
      (∀ code, code ∈ positions.map PaperPositionInventory.code ↔
        sold code sampleHistory < bought code sampleHistory) ∧
      ∀ position ∈ positions, PositionOf 2 sampleHistory position := by
  have rebuilt : (rebuildPaperPositions sampleHost sampleHistory 2).map
      (List.map fun position => (position.code, position.totalQuantity)) =
      .ok [("x", 200), ("y", 300)] := by decide +kernel
  obtain ⟨positions, built, listed⟩ := map_eq_ok.mp rebuilt
  obtain ⟨_, codes, described⟩ := (rebuild_accepts_feasible sampleHost 2 sampleHistory
    sampleHistory_wellFormed (sampleHost_finite (by decide +kernel))).2 positions built
  exact ⟨positions, built, listed, by decide +kernel, codes, described⟩

end Accepted

end StockAnalysis.Positions
