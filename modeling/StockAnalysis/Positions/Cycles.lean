import Mathlib.Algebra.Order.Group.Multiset
import Mathlib.Tactic.Abel
import StockAnalysis.Positions.Economic
import StockAnalysis.Positions.Inventories

/-!
# Cycles partition the fills

The cycles of `rebuild_economic_positions` are read next to the histories of the lot ledger. The
queue of an open cycle holds exactly the unsold lots of its code, so a history that the cycles
accept is feasible for the ledger, and the shares an open cycle holds are the ledger's total.
-/

namespace StockAnalysis.Positions

/-! ## Validated rows -/

/-- The checks that a row passes on its own. -/
structure Validates (host : Host) (asOf : Day) (row : EconomicFillRow) (fill : ValidatedFill) :
    Prop where
  identified : row.identified = true
  parsed : parsePaperFillTimestamp host row.id row.occurredAt = .ok fill.occurredAt
  facts : validateFacts host asOf row fill.occurredAt = .ok fill

/-- The order of a validated fill. -/
def ValidatedFill.order (fill : ValidatedFill) : FillOrder :=
  fillOrder fill.occurredAt fill.id

def FillDirection.text : FillDirection → String
  | .buy => "buy"
  | .sell => "sell"

/-- What a validated fill says about its row. -/
structure ValidFacts (host : Host) (asOf : Day) (row : EconomicFillRow)
    (occurredAt : NaiveDateTime) (fill : ValidatedFill) : Prop where
  id : fill.id = row.id
  planId : fill.planId = row.planId
  code : fill.code = row.code
  name : fill.name = row.name
  time : fill.occurredAt = occurredAt
  dated : occurredAt.date ≤ asOf
  price : row.fillPrice = some fill.price ∧ host.validPrice fill.price = true
  quantity : boardQuantity u32Limit row.quantity = some fill.quantity
  direction : row.direction = fill.direction.text

variable {host : Host}

theorem fillDirection_text {row : EconomicFillRow} {direction : FillDirection}
    {family : Option SignalFamily} (found : fillDirection host row = .ok (direction, family)) :
    row.direction = direction.text := by
  unfold fillDirection at found
  split at found
  · rename_i buying
    obtain ⟨_, _, done⟩ := bind_eq_ok.mp found
    cases pure_eq_ok.mp done
    exact buying
  · split at found
    · rename_i selling
      cases pure_eq_ok.mp found
      exact selling
    · cases found

variable {asOf : Day} {fill : ValidatedFill}

theorem validateFacts_facts {row : EconomicFillRow} {occurredAt : NaiveDateTime}
    (valid : validateFacts host asOf row occurredAt = .ok fill) :
    ValidFacts host asOf row occurredAt fill := by
  simp only [validateFacts, bind_eq_ok, require_eq_ok, okOr_eq_ok, pure_eq_ok, Prod.exists,
    Option.filter_eq_some_iff] at valid
  obtain ⟨_, dated, price, isPrice, quantity, isQuantity, _, _, direction, family, isDirection,
    rfl⟩ := valid
  exact ⟨rfl, rfl, rfl, rfl, rfl, dated, isPrice, isQuantity, fillDirection_text isDirection⟩

/-- A row is validated exactly when it passes its own checks, was not seen, and comes later. -/
theorem validateFill_eq_ok {state next : FillValidation} {row : EconomicFillRow} :
    validateFill host asOf state row = .ok next ↔ ∃ fill, Validates host asOf row fill ∧
      row.id ∉ state.seenIds ∧ row.planId ∉ state.seenPlanIds ∧
      (∀ previous ∈ state.previousOrder, previous < fill.order) ∧
      next = ⟨row.id :: state.seenIds, row.planId :: state.seenPlanIds, some fill.order,
        state.validated ++ [fill]⟩ := by
  simp only [validateFill, bind_eq_ok, require_eq_ok, mapError_eq_ok, pure_eq_ok]
  constructor
  · rintro ⟨_, identified, _, newId, _, newPlan, occurredAt, parsed, _, later, fill, facts, rfl⟩
    have sameId := (validateFacts_facts facts).id
    obtain rfl := (validateFacts_facts facts).time
    rw [← sameId] at later
    refine ⟨fill, ⟨identified, parsed, facts⟩, newId, newPlan, later, ?_⟩
    rw [← sameId]
    rfl
  · rintro ⟨fill, valid, newId, newPlan, later, rfl⟩
    have sameId := (validateFacts_facts valid.facts).id
    rw [ValidatedFill.order, sameId] at later
    refine ⟨⟨⟩, valid.identified, ⟨⟩, newId, ⟨⟩, newPlan, fill.occurredAt, valid.parsed, ⟨⟩, later,
      fill, valid.facts, ?_⟩
    rw [ValidatedFill.order, sameId]

/-- Rows that pass their own checks, with new identities, in order. -/
structure ValidatesAll (host : Host) (asOf : Day) (rows : List EconomicFillRow)
    (fills : List ValidatedFill) : Prop where
  each : List.Forall₂ (Validates host asOf) rows fills
  ids : (rows.map EconomicFillRow.id).Nodup
  planIds : (rows.map EconomicFillRow.planId).Nodup
  ordered : fills.Pairwise fun earlier later => earlier.order < later.order

variable {rows : List EconomicFillRow}

theorem validateFill_each {state : FillValidation} :
    (∀ final, each (validateFill host asOf) state rows = .ok final →
      ∃ fills, ValidatesAll host asOf rows fills ∧
        (∀ row ∈ rows, row.id ∉ state.seenIds ∧ row.planId ∉ state.seenPlanIds) ∧
        (∀ previous ∈ state.previousOrder, ∀ fill ∈ fills, previous < fill.order) ∧
        final.validated = state.validated ++ fills) ∧
    (∀ fills, ValidatesAll host asOf rows fills →
      (∀ row ∈ rows, row.id ∉ state.seenIds ∧ row.planId ∉ state.seenPlanIds) →
      (∀ previous ∈ state.previousOrder, ∀ fill ∈ fills, previous < fill.order) →
      ∃ final, each (validateFill host asOf) state rows = .ok final ∧
        final.validated = state.validated ++ fills) := by
  induction rows generalizing state with
  | nil =>
    constructor
    · intro final finished
      cases finished
      exact ⟨[], ⟨.nil, by simp, by simp, .nil⟩, by simp, by simp, by simp⟩
    · intro fills valid _ _
      cases valid.each
      exact ⟨state, rfl, by simp⟩
  | cons row rows ih =>
    constructor
    · intro final finished
      obtain ⟨next, stepped, finished⟩ := bind_eq_ok.mp finished
      obtain ⟨fill, valid, newId, newPlan, later, rfl⟩ := validateFill_eq_ok.mp stepped
      obtain ⟨fills, others, unseen, behind, complete⟩ := ih.1 final finished
      have follows : ∀ next ∈ fills, fill.order < next.order := behind fill.order rfl
      refine ⟨fill :: fills, ⟨.cons valid others.each, ?_, ?_, ?_⟩, ?_, ?_, ?_⟩
      · rw [List.map_cons, List.nodup_cons]
        refine ⟨fun member => ?_, others.ids⟩
        obtain ⟨other, isOther, same⟩ := List.mem_map.mp member
        exact (unseen other isOther).1 (same ▸ List.mem_cons_self)
      · rw [List.map_cons, List.nodup_cons]
        refine ⟨fun member => ?_, others.planIds⟩
        obtain ⟨other, isOther, same⟩ := List.mem_map.mp member
        exact (unseen other isOther).2 (same ▸ List.mem_cons_self)
      · exact List.pairwise_cons.mpr ⟨follows, others.ordered⟩
      · rw [List.forall_mem_cons]
        refine ⟨⟨newId, newPlan⟩, fun other member => ?_⟩
        obtain ⟨noId, noPlan⟩ := unseen other member
        exact ⟨fun seen => noId (List.mem_cons_of_mem _ seen),
          fun seen => noPlan (List.mem_cons_of_mem _ seen)⟩
      · intro previous isPrevious
        rw [List.forall_mem_cons]
        have first := later previous isPrevious
        exact ⟨first, fun other member => lt_trans first (follows other member)⟩
      · rw [complete]
        simp
    · intro fills valid unseen behind
      obtain ⟨each, ids, planIds, ordered⟩ := valid
      cases each with
      | cons first others =>
        rename_i fill fills
        rw [List.map_cons, List.nodup_cons] at ids planIds
        rw [List.pairwise_cons] at ordered
        obtain ⟨newId, newPlan⟩ := unseen row List.mem_cons_self
        have stepped := validateFill_eq_ok.mpr ⟨fill, first, newId, newPlan,
          fun previous isPrevious => behind previous isPrevious fill List.mem_cons_self, rfl⟩
        have restUnseen : ∀ other ∈ rows, other.id ∉ row.id :: state.seenIds ∧
            other.planId ∉ row.planId :: state.seenPlanIds := by
          intro other member
          obtain ⟨noId, noPlan⟩ := unseen other (List.mem_cons_of_mem row member)
          rw [List.mem_cons, List.mem_cons, not_or, not_or]
          exact ⟨⟨fun same => ids.1 (same ▸ List.mem_map_of_mem member), noId⟩,
            fun same => planIds.1 (same ▸ List.mem_map_of_mem member), noPlan⟩
        have restBehind : ∀ previous ∈ some fill.order, ∀ next ∈ fills,
            previous < next.order := by
          intro previous isPrevious
          obtain rfl := Option.some.inj isPrevious
          exact ordered.1
        obtain ⟨final, finished, complete⟩ :=
          (@ih ⟨_, _, some fill.order, state.validated ++ [fill]⟩).2 fills
            ⟨others, ids.2, planIds.2, ordered.2⟩ restUnseen restBehind
        refine ⟨final, bind_eq_ok.mpr ⟨_, stepped, finished⟩, ?_⟩
        rw [complete]
        simp

variable {fills : List ValidatedFill}

/-- Validation accepts exactly the rows that pass their own checks, are distinct and in order. -/
theorem validateFills_eq_ok :
    validateFills host rows asOf = .ok fills ↔ ValidatesAll host asOf rows fills := by
  have loop := @validateFill_each host asOf rows .start
  constructor
  · intro validated
    obtain ⟨final, finished, done⟩ := bind_eq_ok.mp validated
    obtain ⟨found, valid, _, _, complete⟩ := loop.1 final finished
    obtain rfl : found = fills := by
      rw [← pure_eq_ok.mp done, complete]
      rfl
    exact valid
  · intro valid
    obtain ⟨final, finished, complete⟩ := loop.2 fills valid
      (by simp [FillValidation.start]) (by simp [FillValidation.start])
    refine bind_eq_ok.mpr ⟨final, finished, ?_⟩
    rw [complete]
    rfl

/-! ## The fills of the lot ledger -/

def ValidatedFill.paper (fill : ValidatedFill) : PaperFill :=
  ⟨fill.id, fill.code, fill.name, fill.direction.text, some fill.price, fill.quantity,
    fill.occurredAt⟩

/-- The fills of stored rows, as `finish_historical_rows` reads them. -/
def paperFills (host : Host) : List EconomicFillRow → Except FifoText (List PaperFill)
  | [] => pure []
  | row :: rows => do
      let occurredAt ← parsePaperFillTimestamp host row.id row.occurredAt
      let fills ← paperFills host rows
      pure (⟨row.id, row.code, row.name, row.direction, row.fillPrice, row.quantity, occurredAt⟩ ::
        fills)

section Paper

theorem Validates.quantity {row : EconomicFillRow} (valid : Validates host asOf row fill) :
    row.quantity = fill.quantity ∧ 0 < row.quantity ∧
      row.quantity < u32Limit ∧ row.quantity % 100 = 0 := by
  obtain ⟨bounds, isQuantity⟩ :=
    boardQuantity_eq_some.mp (validateFacts_facts valid.facts).quantity
  rw [isQuantity]
  exact ⟨(Int.toNat_of_nonneg (le_of_lt bounds.1)).symm, bounds⟩

section

variable (valid : ValidatesAll host asOf rows fills)

include valid

theorem ValidatesAll.paperFills : paperFills host rows = .ok (fills.map ValidatedFill.paper) := by
  have each := valid.each
  clear valid
  induction each with
  | nil => rfl
  | cons first _ ih =>
    have facts := validateFacts_facts first.facts
    simp only [Positions.paperFills, first.parsed, ok_bind, ih, List.map_cons,
      ValidatedFill.paper, facts.id, facts.code, facts.name, ← facts.direction, facts.price.1,
      first.quantity.1]
    rfl

theorem ValidatesAll.row (member : fill ∈ fills) : ∃ row ∈ rows, Validates host asOf row fill := by
  have each := valid.each
  clear valid
  induction each with
  | nil => cases member
  | cons first _ ih =>
    rcases List.mem_cons.mp member with rfl | inRest
    · exact ⟨_, List.mem_cons_self, first⟩
    · obtain ⟨row, isRow, valid⟩ := ih inRest
      exact ⟨row, List.mem_cons_of_mem _ isRow, valid⟩

theorem ValidatesAll.sameIds : fills.map ValidatedFill.id = rows.map EconomicFillRow.id := by
  have each := valid.each
  clear valid
  induction each with
  | nil => rfl
  | cons first _ ih => rw [List.map_cons, List.map_cons, ih, (validateFacts_facts first.facts).id]

end

theorem map_paper_id (fills : List ValidatedFill) :
    (fills.map ValidatedFill.paper).map PaperFill.id = fills.map ValidatedFill.id := by
  rw [List.map_map]
  rfl

/-- Validated fills are well formed for the ledger. -/
theorem ValidatesAll.wellFormed (valid : ValidatesAll host asOf rows fills) :
    WellFormed host asOf (fills.map ValidatedFill.paper) where
  identities := by
    rw [List.forall_mem_map]
    intro fill member
    obtain ⟨row, _, validates⟩ := valid.row member
    have facts := validateFacts_facts validates.facts
    have identified := validates.identified
    simp only [EconomicFillRow.identified, Bool.and_eq_true, decide_eq_true_eq,
      Bool.not_eq_true'] at identified
    simp only [ValidatedFill.paper, facts.id, facts.code, facts.name]
    exact ⟨identified.1.1.1.1, identified.1.1.2, identified.1.2⟩
  distinct := by
    rw [map_paper_id, valid.sameIds]
    exact valid.ids
  ordered := List.pairwise_map.mpr valid.ordered
  dated := by
    rw [List.forall_mem_map]
    intro fill member
    obtain ⟨row, _, validates⟩ := valid.row member
    exact (validateFacts_facts validates.facts).dated
  priced := by
    rw [List.forall_mem_map]
    intro fill member
    obtain ⟨row, _, validates⟩ := valid.row member
    exact ⟨fill.price, rfl, (validateFacts_facts validates.facts).price.2⟩
  quantities := by
    rw [List.forall_mem_map]
    intro fill member
    obtain ⟨row, _, validates⟩ := valid.row member
    obtain ⟨same, bounds⟩ := validates.quantity
    rw [same] at bounds
    exact bounds
  directions := by
    rw [List.forall_mem_map]
    intro fill _
    cases direction : fill.direction with
    | buy => exact .inl (congrArg FillDirection.text direction)
    | sell => exact .inr (congrArg FillDirection.text direction)

end Paper

/-! ## The fills of a cycle -/

/-- Some fills of a history form a cycle of a code: they start with a buy from a flat position, and
hold shares until their last fill. -/
structure CycleFills (fills : List PaperFill) (code : String) (ids : List Int)
    (part : List PaperFill) : Prop where
  within : part.Sublist fills
  ids : part.map PaperFill.id = ids
  codes : ∀ fill ∈ part, fill.code = code
  opened : ∃ before first after, fills = before ++ first :: after ∧ part.head? = some first ∧
    first.direction = "buy" ∧ sold code before = bought code before
  held : ∀ front back, part = front ++ back → front ≠ [] → back ≠ [] →
    sold code front < bought code front

/-- A cycle that returned to flat. -/
def ClosedCycle (fills : List PaperFill) (code : String) (ids : List Int) : Prop :=
  ∃ part, CycleFills fills code ids part ∧ sold code part = bought code part

/-- A cycle that still holds shares. -/
def OpenCycle (fills : List PaperFill) (code : String) (ids : List Int) (remaining : Nat) : Prop :=
  ∃ part, CycleFills fills code ids part ∧ sold code part + remaining = bought code part ∧
    0 < remaining

variable {done : List PaperFill} {code : String} {remaining : Nat}

section CycleFills

variable {ids : List Int} {fill : PaperFill} {part : List PaperFill}

theorem CycleFills.mono (cycle : CycleFills done code ids part) (more : List PaperFill) :
    CycleFills (done ++ more) code ids part := by
  obtain ⟨before, first, after, rfl, starts, buying, flat⟩ := cycle.opened
  refine ⟨cycle.within.trans (List.sublist_append_left _ _), cycle.ids, cycle.codes,
    ⟨before, first, after ++ more, by simp, starts, buying, flat⟩, cycle.held⟩

theorem ClosedCycle.mono (cycle : ClosedCycle done code ids) (more : List PaperFill) :
    ClosedCycle (done ++ more) code ids := by
  obtain ⟨part, fills, flat⟩ := cycle
  exact ⟨part, fills.mono more, flat⟩

theorem OpenCycle.mono (cycle : OpenCycle done code ids remaining) (more : List PaperFill) :
    OpenCycle (done ++ more) code ids remaining := by
  obtain ⟨part, fills, holds⟩ := cycle
  exact ⟨part, fills.mono more, holds⟩

theorem CycleFills.start (sameCode : fill.code = code) (buying : fill.direction = "buy")
    (flat : sold code done = bought code done) :
    CycleFills (done ++ [fill]) code [fill.id] [fill] where
  within := List.sublist_append_right _ _
  ids := rfl
  codes := by simpa using sameCode
  opened := ⟨done, fill, [], rfl, rfl, buying, flat⟩
  held front back split nonempty more := by
    have length := congrArg List.length split
    have := List.length_pos_iff.mpr nonempty
    have := List.length_pos_iff.mpr more
    simp at length
    omega

/-- A cycle that holds shares takes a further fill of its code. -/
theorem CycleFills.concat (cycle : CycleFills done code ids part)
    (holds : sold code part < bought code part) (sameCode : fill.code = code) :
    CycleFills (done ++ [fill]) code (ids ++ [fill.id]) (part ++ [fill]) := by
  obtain ⟨before, first, after, rfl, starts, buying, flat⟩ := cycle.opened
  refine ⟨cycle.within.append (List.Sublist.refl _), by simp [cycle.ids], ?_,
    ⟨before, first, after ++ [fill], by simp, by simp [starts], buying, flat⟩, ?_⟩
  · intro other member
    rcases mem_concat.mp member with old | new
    · exact cycle.codes other old
    · rw [new]
      exact sameCode
  · intro front back split nonempty more
    rcases List.eq_nil_or_concat back with empty | ⟨init, last, rfl⟩
    · exact absurd empty more
    · rw [List.concat_eq_append, ← List.append_assoc] at split
      obtain ⟨same, _⟩ := List.append_inj' split rfl
      by_cases whole : init = []
      · rw [same, whole, List.append_nil] at holds
        exact holds
      · exact cycle.held front init same nonempty whole

end CycleFills

/-! ## What a fill does to the cycles -/

/-- A fill joins a cycle. -/
structure Joins (cycle : PositionCycle) (fill : ValidatedFill) (next : PositionCycle) : Prop where
  openFill : next.cycleOpenFillId = cycle.cycleOpenFillId
  code : next.code = cycle.code
  openedAt : next.openedAt = cycle.openedAt
  ids : next.sourceFillIds = cycle.sourceFillIds ++ [fill.id]

variable {cycle : PositionCycle} {next : PositionCycle}

theorem addBuy_eq_ok (bought : cycle.addBuy host fill = .ok next) :
    Joins cycle fill next ∧ next.lots = cycle.lots ++ [⟨fill.occurredAt, fill.quantity⟩] ∧
      next.remainingQuantity = cycle.remainingQuantity + fill.quantity := by
  simp only [PositionCycle.addBuy, checkedAdd64, bind_eq_ok, require_eq_ok, pure_eq_ok] at bought
  obtain ⟨_, _, _, _, _, _, _, ⟨_, _, rfl⟩, _, _, _, _, rfl⟩ := bought
  exact ⟨⟨rfl, rfl, rfl, rfl⟩, rfl, rfl⟩

theorem addSell_eq_ok (sold : cycle.addSell host fill = .ok next) :
    Joins cycle fill next ∧
      Fifo.consume openLotMeasure (OpenLot.boughtBefore fill.occurredAt.date) fill.quantity
        cycle.lots = .ok next.lots ∧
      fill.quantity ≤ cycle.remainingQuantity ∧
      next.remainingQuantity = cycle.remainingQuantity - fill.quantity := by
  simp only [PositionCycle.addSell, bind_eq_ok, require_eq_ok, mapError_eq_ok, pure_eq_ok] at sold
  obtain ⟨_, _, lots, consumed, _, enough, _, _, rfl⟩ := sold
  exact ⟨⟨rfl, rfl, rfl, rfl⟩, consumed, enough, rfl⟩

/-- What a fill does to the cycles. -/
inductive Trades (host : Host) (ledger : ValidatedCostLedger) (book : CycleBook)
    (fill : ValidatedFill) : CycleBook → Prop where
  | opened (cycle : PositionCycle) (buying : fill.direction = .buy)
      (absent : book.states.get? fill.code = none)
      (taken : (PositionCycle.empty fill).addBuy host fill = .ok cycle) :
      Trades host ledger book fill { book with states := book.states.insert fill.code cycle }
  | bought (cycle next : PositionCycle) (buying : fill.direction = .buy)
      (found : book.states.get? fill.code = some cycle) (taken : cycle.addBuy host fill = .ok next) :
      Trades host ledger book fill { book with states := book.states.insert fill.code next }
  | reduced (cycle next : PositionCycle) (selling : fill.direction = .sell)
      (found : book.states.get? fill.code = some cycle) (taken : cycle.addSell host fill = .ok next)
      (holds : next.remainingQuantity ≠ 0) :
      Trades host ledger book fill { book with states := book.states.insert fill.code next }
  | closed (cycle next : PositionCycle) (position : ClosedEconomicPosition)
      (selling : fill.direction = .sell) (found : book.states.get? fill.code = some cycle)
      (taken : cycle.addSell host fill = .ok next) (flat : next.remainingQuantity = 0)
      (closes : closeCycle host next fill.occurredAt ledger = .ok position) :
      Trades host ledger book fill ⟨book.states.erase fill.code, book.closed ++ [position]⟩

variable {ledger : ValidatedCostLedger} {book : CycleBook}

theorem trade_eq_ok {next : CycleBook} :
    book.trade host ledger fill = .ok next ↔ Trades host ledger book fill next := by
  constructor
  · intro traded
    unfold CycleBook.trade at traded
    cases direction : fill.direction with
    | buy =>
      rw [direction] at traded
      cases found : book.states.get? fill.code with
      | none =>
        simp only [CycleBook.buy, found, bind_eq_ok, pure_eq_ok] at traded
        obtain ⟨cycle, taken, rfl⟩ := traded
        exact .opened cycle direction found taken
      | some old =>
        simp only [CycleBook.buy, found, bind_eq_ok, pure_eq_ok] at traded
        obtain ⟨cycle, taken, rfl⟩ := traded
        exact .bought old cycle direction found taken
    | sell =>
      rw [direction] at traded
      simp only [CycleBook.sell, bind_eq_ok, okOr_eq_ok] at traded
      obtain ⟨cycle, found, sold, taken, rest⟩ := traded
      split at rest
      · rename_i flat
        obtain ⟨position, closes, done⟩ := bind_eq_ok.mp rest
        cases pure_eq_ok.mp done
        exact .closed cycle sold position direction found taken flat closes
      · rename_i holds
        cases pure_eq_ok.mp rest
        exact .reduced cycle sold direction found taken holds
  · intro trades
    unfold CycleBook.trade
    cases trades with
    | opened cycle buying absent taken =>
      rw [buying]
      simp only [CycleBook.buy, absent, PositionCycle.fromBuy, taken, ok_bind]
      rfl
    | bought cycle next buying found taken =>
      rw [buying]
      simp only [CycleBook.buy, found, taken, ok_bind]
      rfl
    | reduced cycle next selling found taken holds =>
      rw [selling]
      simp only [CycleBook.sell, found, okOr, taken, ok_bind, if_neg holds]
      rfl
    | closed cycle next position selling found taken flat closes =>
      rw [selling]
      simp only [CycleBook.sell, found, okOr, taken, ok_bind, if_pos flat, closes]
      rfl

/-- A closed position keeps what identifies its cycle. -/
structure Reports (cycle : PositionCycle) (closedAt : NaiveDateTime)
    (position : ClosedEconomicPosition) : Prop where
  code : position.code = cycle.code
  ids : position.sourceFillIds = cycle.sourceFillIds
  openedAt : position.openedAt = cycle.openedAt
  closedAt : position.closedAt = closedAt

theorem closeCycle_eq_ok {closedAt : NaiveDateTime} {position : ClosedEconomicPosition}
    (closes : closeCycle host cycle closedAt ledger = .ok position) :
    Reports cycle closedAt position := by
  simp only [closeCycle, bind_eq_ok, pure_eq_ok] at closes
  obtain ⟨_, _, _, _, rfl⟩ := closes
  exact ⟨rfl, rfl, rfl, rfl⟩

/-! ## The cycles next to the lots -/

/-- The lot of a cycle. -/
def OpenPaperLot.economic (lot : OpenPaperLot) : OpenLot :=
  ⟨lot.boughtAt, lot.remainingQuantity⟩

/-- The lots of a code's cycle. -/
def CycleBook.lotsOf (book : CycleBook) (code : String) : List OpenLot :=
  ((book.states.get? code).map PositionCycle.lots).getD []

/-- The fills that are in some cycle. -/
def CycleBook.fillIds (book : CycleBook) : Multiset Int :=
  (book.closed.map fun cycle => (cycle.sourceFillIds : Multiset Int)).sum +
    book.states.total fun cycle => (cycle.sourceFillIds : Multiset Int)

/-- The cycles after some fills. -/
structure Cycled (host : Host) (asOf : Day) (done : List PaperFill) (book : CycleBook) : Prop where
  ledger : ∃ run, each (rebuildFill host asOf) .start done = .ok run
  lots : ∀ code, book.lotsOf code = (unsoldLots code done).map OpenPaperLot.economic
  sums : ∀ code cycle, book.states.get? code = some cycle →
    cycle.remainingQuantity = Fifo.total openLotMeasure cycle.lots
  opens : ∀ code cycle, book.states.get? code = some cycle → cycle.code = code ∧
    OpenCycle done code cycle.sourceFillIds cycle.remainingQuantity
  closes : ∀ cycle ∈ book.closed, ClosedCycle done cycle.code cycle.sourceFillIds
  ids : book.fillIds = done.map PaperFill.id

theorem Cycled.start (host : Host) (asOf : Day) : Cycled host asOf [] .start where
  ledger := ⟨_, rfl⟩
  lots code := rfl
  sums code cycle found := by cases found
  opens code cycle found := by cases found
  closes := by simp [CycleBook.start]
  ids := rfl

variable {quantity : Nat}

section Step

variable {rest : List PaperFill} {next : CycleBook}

theorem consume_economic {date : Day} {n : Nat} {lots : List OpenPaperLot} {left : List OpenLot}
    (positive : Fifo.Positive lotMeasure lots)
    (consumed : Fifo.consume openLotMeasure (OpenLot.boughtBefore date) n
      (lots.map OpenPaperLot.economic) = .ok left) :
    ∃ kept, Fifo.consume lotMeasure (OpenPaperLot.boughtBefore date) n lots = .ok kept ∧
      left = kept.map OpenPaperLot.economic := by
  have mapped : Fifo.Positive openLotMeasure (lots.map OpenPaperLot.economic) := by
    intro lot member
    obtain ⟨old, isOld, rfl⟩ := List.mem_map.mp member
    exact positive old isOld
  have free := @Fifo.available_map _ lotMeasure _ openLotMeasure OpenPaperLot.economic
    (fun _ => rfl) (OpenPaperLot.boughtBefore date) (OpenLot.boughtBefore date) (fun _ => rfl) lots
  have drops := @Fifo.unsold_map _ lotMeasure _ openLotMeasure OpenPaperLot.economic
    (fun _ => rfl) (fun _ _ => rfl) n lots
  rw [Fifo.consume_eq_ok mapped, free, drops] at consumed
  exact ⟨_, (Fifo.consume_eq_ok positive).mpr ⟨consumed.1, rfl⟩, consumed.2⟩

theorem addSell_lots {sold : PositionCycle} (taken : cycle.addSell host fill = .ok sold)
    (sum : cycle.remainingQuantity = Fifo.total openLotMeasure cycle.lots)
    (positive : Fifo.Positive openLotMeasure cycle.lots) :
    sold.lots = Fifo.unsold openLotMeasure fill.quantity cycle.lots ∧
      sold.remainingQuantity = Fifo.total openLotMeasure sold.lots := by
  obtain ⟨_, consumed, _, remaining⟩ := addSell_eq_ok taken
  obtain ⟨_, left⟩ := (Fifo.consume_eq_ok positive).mp consumed
  rw [remaining, left, Fifo.total_unsold, sum]
  exact ⟨rfl, rfl⟩

theorem lots_eq_nil {lots : List OpenLot} (positive : Fifo.Positive openLotMeasure lots)
    (none : Fifo.total openLotMeasure lots = 0) : lots = [] := by
  cases lots with
  | nil => rfl
  | cons lot lots =>
    have := positive lot List.mem_cons_self
    rw [Fifo.total_cons] at none
    omega

section

variable (trades : Trades host ledger book fill next)

include trades

/-- The shares of the lots stay the sum that a cycle keeps. -/
theorem Trades.sums (sums : ∀ code cycle, book.states.get? code = some cycle →
      cycle.remainingQuantity = Fifo.total openLotMeasure cycle.lots)
    (positive : ∀ code, Fifo.Positive openLotMeasure (book.lotsOf code)) :
    ∀ code cycle, next.states.get? code = some cycle →
      cycle.remainingQuantity = Fifo.total openLotMeasure cycle.lots := by
  intro code cycle found
  have lots (old : PositionCycle) (isOld : book.states.get? fill.code = some old) :
      Fifo.Positive openLotMeasure old.lots := by
    have := positive fill.code
    rwa [CycleBook.lotsOf, isOld] at this
  cases trades with
  | opened new buying absent taken =>
    rw [OrdMap.get?_insert] at found
    split at found
    · obtain rfl := Option.some.inj found
      obtain ⟨_, isLots, remaining⟩ := addBuy_eq_ok taken
      rw [isLots, remaining, Fifo.total_append]
      rfl
    · exact sums code cycle found
  | bought old new buying isOld taken =>
    rw [OrdMap.get?_insert] at found
    split at found
    · obtain rfl := Option.some.inj found
      obtain ⟨_, isLots, remaining⟩ := addBuy_eq_ok taken
      rw [isLots, remaining, Fifo.total_append, sums _ old isOld]
      rfl
    · exact sums code cycle found
  | reduced old new selling isOld taken holds =>
    rw [OrdMap.get?_insert] at found
    split at found
    · obtain rfl := Option.some.inj found
      exact (addSell_lots taken (sums _ old isOld) (lots old isOld)).2
    · exact sums code cycle found
  | closed old new position selling isOld taken flat closes =>
    rw [OrdMap.get?_erase] at found
    split at found
    · cases found
    · exact sums code cycle found

theorem Trades.lots (wellFormed : WellFormed host asOf (done ++ fill.paper :: rest))
    (sums : ∀ code cycle, book.states.get? code = some cycle →
      cycle.remainingQuantity = Fifo.total openLotMeasure cycle.lots)
    (lots : book.lotsOf fill.code = (unsoldLots fill.code done).map OpenPaperLot.economic) :
    ∃ kept, tradeLots fill.paper (fill.paper.fillPrice.getD 0) fill.paper.shares
        (unsoldLots fill.code done) = .ok kept ∧
      next.lotsOf fill.code = kept.map OpenPaperLot.economic := by
  have before : WellFormed host asOf done := wellFormed.sublist (List.sublist_append_left _ _)
  have positive : Fifo.Positive lotMeasure (unsoldLots fill.code done) :=
    Fifo.positive_unsold (before.positive fill.code) _
  have mapped : Fifo.Positive openLotMeasure
      ((unsoldLots fill.code done).map OpenPaperLot.economic) := by
    intro lot member
    obtain ⟨old, isOld, rfl⟩ := List.mem_map.mp member
    exact positive old isOld
  have shares : fill.paper.shares = fill.quantity := Int.toNat_natCast fill.quantity
  have buys (buying : fill.direction = .buy) :
      tradeLots fill.paper (fill.paper.fillPrice.getD 0) fill.paper.shares
        (unsoldLots fill.code done) = .ok (unsoldLots fill.code done ++
          [⟨fill.id, fill.occurredAt, fill.paper.shares, fill.paper.shares, fill.price⟩]) := by
    have isBuy : fill.paper.direction = "buy" := congrArg FillDirection.text buying
    rw [tradeLots, if_pos isBuy]
    rfl
  have sells (selling : fill.direction = .sell) {left : List OpenLot}
      (consumed : Fifo.consume openLotMeasure (OpenLot.boughtBefore fill.occurredAt.date)
        fill.quantity ((unsoldLots fill.code done).map OpenPaperLot.economic) = .ok left) :
      ∃ kept, tradeLots fill.paper (fill.paper.fillPrice.getD 0) fill.paper.shares
        (unsoldLots fill.code done) = .ok kept ∧ left = kept.map OpenPaperLot.economic := by
    have isSell : fill.paper.direction = "sell" := congrArg FillDirection.text selling
    obtain ⟨kept, taken, isLeft⟩ := consume_economic positive consumed
    refine ⟨kept, ?_, isLeft⟩
    rw [tradeLots, if_neg (by rw [isSell]; decide), if_pos isSell, sellLots, mapError_eq_ok, shares]
    exact taken
  cases trades with
  | opened cycle buying absent taken =>
    have newLots := (addBuy_eq_ok taken).2.1
    rw [CycleBook.lotsOf, absent] at lots
    refine ⟨_, buys buying, ?_⟩
    rw [CycleBook.lotsOf, OrdMap.get?_insert, if_pos rfl, List.map_append, ← lots, shares]
    exact newLots
  | bought cycle next buying found taken =>
    have newLots := (addBuy_eq_ok taken).2.1
    rw [CycleBook.lotsOf, found] at lots
    refine ⟨_, buys buying, ?_⟩
    rw [CycleBook.lotsOf, OrdMap.get?_insert, if_pos rfl, List.map_append, ← lots, shares]
    exact newLots
  | reduced cycle next selling found taken holds =>
    rw [CycleBook.lotsOf, found] at lots
    obtain ⟨_, consumed, _, _⟩ := addSell_eq_ok taken
    rw [show cycle.lots = _ from lots] at consumed
    obtain ⟨kept, traded, isLeft⟩ := sells selling consumed
    refine ⟨kept, traded, ?_⟩
    rw [CycleBook.lotsOf, OrdMap.get?_insert, if_pos rfl, ← isLeft]
    rfl
  | closed cycle next position selling found taken flat closes =>
    rw [CycleBook.lotsOf, found] at lots
    obtain ⟨_, consumed, _, _⟩ := addSell_eq_ok taken
    have cyclePositive : Fifo.Positive openLotMeasure cycle.lots := by
      rw [show cycle.lots = _ from lots]
      exact mapped
    obtain ⟨isUnsold, sum⟩ := addSell_lots taken (sums _ cycle found) cyclePositive
    have empty : next.lots = [] := by
      refine lots_eq_nil ?_ (sum.symm.trans flat)
      rw [isUnsold]
      exact Fifo.positive_unsold cyclePositive _
    rw [show cycle.lots = _ from lots] at consumed
    obtain ⟨kept, traded, isLeft⟩ := sells selling consumed
    refine ⟨kept, traded, ?_⟩
    rw [CycleBook.lotsOf, OrdMap.get?_erase, if_pos rfl, ← isLeft, empty]
    rfl

theorem Trades.lotsOf_other (other : fill.code ≠ code) :
    next.states.get? code = book.states.get? code := by
  cases trades with
  | opened => rw [OrdMap.get?_insert, if_neg other]
  | bought => rw [OrdMap.get?_insert, if_neg other]
  | reduced => rw [OrdMap.get?_insert, if_neg other]
  | closed => rw [OrdMap.get?_erase, if_neg (Ne.symm other)]

end

/-- A buy or a sale of a code moves what is bought or sold of it. -/
theorem bought_singleton (buying : fill.direction = .buy) :
    bought fill.code [fill.paper] = fill.quantity ∧ sold fill.code [fill.paper] = 0 := by
  have isBuy : fill.paper.direction = "buy" := congrArg FillDirection.text buying
  have sameCode : fill.paper.code = fill.code := rfl
  have shares : fill.paper.shares = fill.quantity := Int.toNat_natCast fill.quantity
  simp [bought, sold, moved_singleton, PaperFill.isOf, isBuy, sameCode, shares]

theorem sold_singleton (selling : fill.direction = .sell) :
    bought fill.code [fill.paper] = 0 ∧ sold fill.code [fill.paper] = fill.quantity := by
  have isSell : fill.paper.direction = "sell" := congrArg FillDirection.text selling
  have sameCode : fill.paper.code = fill.code := rfl
  have shares : fill.paper.shares = fill.quantity := Int.toNat_natCast fill.quantity
  simp [bought, sold, moved_singleton, PaperFill.isOf, isSell, sameCode, shares]

theorem bought_append (code : String) (first second : List PaperFill) :
    bought code (first ++ second) = bought code first + bought code second :=
  moved_append code "buy" first second

theorem sold_append (code : String) (first second : List PaperFill) :
    sold code (first ++ second) = sold code first + sold code second :=
  moved_append code "sell" first second

theorem OpenCycle.start (buying : fill.direction = .buy) (positive : 0 < fill.quantity)
    (isQuantity : quantity = fill.quantity) (flat : sold fill.code done = bought fill.code done) :
    OpenCycle (done ++ [fill.paper]) fill.code [fill.id] quantity := by
  obtain ⟨buys, sells⟩ := bought_singleton buying
  refine ⟨[fill.paper], .start rfl (congrArg FillDirection.text buying) flat, ?_, ?_⟩
  · rw [buys, sells, isQuantity, Nat.zero_add]
  · rw [isQuantity]
    exact positive

theorem OpenCycle.buy {ids : List Int} (cycle : OpenCycle done fill.code ids remaining)
    (buying : fill.direction = .buy) :
    OpenCycle (done ++ [fill.paper]) fill.code (ids ++ [fill.id]) (remaining + fill.quantity) := by
  obtain ⟨part, fills, holds, positive⟩ := cycle
  obtain ⟨buys, sells⟩ := bought_singleton buying
  refine ⟨part ++ [fill.paper], fills.concat (by omega) rfl, ?_, by omega⟩
  rw [bought_append, sold_append, buys, sells]
  omega

theorem OpenCycle.sell {ids : List Int} (cycle : OpenCycle done fill.code ids remaining)
    (selling : fill.direction = .sell) (enough : fill.quantity ≤ remaining) :
    (remaining - fill.quantity ≠ 0 → OpenCycle (done ++ [fill.paper]) fill.code
      (ids ++ [fill.id]) (remaining - fill.quantity)) ∧
    (remaining - fill.quantity = 0 → ClosedCycle (done ++ [fill.paper]) fill.code
      (ids ++ [fill.id])) := by
  obtain ⟨part, fills, holds, positive⟩ := cycle
  obtain ⟨buys, sells⟩ := sold_singleton selling
  have joined := fills.concat (by omega) (rfl : fill.paper.code = fill.code)
  constructor
  · intro left
    refine ⟨part ++ [fill.paper], joined, ?_, by omega⟩
    rw [bought_append, sold_append, buys, sells]
    omega
  · intro none
    refine ⟨part ++ [fill.paper], joined, ?_⟩
    rw [bought_append, sold_append, buys, sells]
    omega

theorem Trades.cycles (trades : Trades host ledger book fill next) (positive : 0 < fill.quantity)
    (flat : book.states.get? fill.code = none → sold fill.code done = Positions.bought fill.code done)
    (opens : ∀ code cycle, book.states.get? code = some cycle → cycle.code = code ∧
      OpenCycle done code cycle.sourceFillIds cycle.remainingQuantity)
    (closes : ∀ cycle ∈ book.closed, ClosedCycle done cycle.code cycle.sourceFillIds) :
    (∀ code cycle, next.states.get? code = some cycle → cycle.code = code ∧
      OpenCycle (done ++ [fill.paper]) code cycle.sourceFillIds cycle.remainingQuantity) ∧
    ∀ cycle ∈ next.closed, ClosedCycle (done ++ [fill.paper]) cycle.code cycle.sourceFillIds := by
  have others {code : String} {cycle : PositionCycle} (found : book.states.get? code = some cycle) :
      cycle.code = code ∧
        OpenCycle (done ++ [fill.paper]) code cycle.sourceFillIds cycle.remainingQuantity :=
    ⟨(opens code cycle found).1, (opens code cycle found).2.mono _⟩
  have stay : ∀ cycle ∈ book.closed,
      ClosedCycle (done ++ [fill.paper]) cycle.code cycle.sourceFillIds :=
    fun cycle member => (closes cycle member).mono _
  have inserted {new : PositionCycle} (isNew : new.code = fill.code ∧
      OpenCycle (done ++ [fill.paper]) fill.code new.sourceFillIds new.remainingQuantity) :
      ∀ code cycle, (book.states.insert fill.code new).get? code = some cycle →
        cycle.code = code ∧
          OpenCycle (done ++ [fill.paper]) code cycle.sourceFillIds cycle.remainingQuantity := by
    intro code cycle found
    rw [OrdMap.get?_insert] at found
    split at found
    · rename_i same
      obtain rfl := Option.some.inj found
      exact same ▸ isNew
    · exact others found
  cases trades with
  | opened new buying absent taken =>
    obtain ⟨joins, _, remaining⟩ := addBuy_eq_ok taken
    refine ⟨inserted ⟨joins.code, ?_⟩, stay⟩
    rw [joins.ids]
    refine OpenCycle.start buying positive ?_ (flat absent)
    rw [remaining]
    exact Nat.zero_add _
  | bought old new buying isOld taken =>
    obtain ⟨joins, _, remaining⟩ := addBuy_eq_ok taken
    obtain ⟨sameCode, cycle⟩ := opens _ old isOld
    refine ⟨inserted ⟨joins.code.trans sameCode, ?_⟩, stay⟩
    rw [joins.ids, remaining]
    exact cycle.buy buying
  | reduced old new selling isOld taken holds =>
    obtain ⟨joins, _, enough, remaining⟩ := addSell_eq_ok taken
    obtain ⟨sameCode, cycle⟩ := opens _ old isOld
    refine ⟨inserted ⟨joins.code.trans sameCode, ?_⟩, stay⟩
    rw [joins.ids, remaining]
    exact (cycle.sell selling enough).1 (remaining ▸ holds)
  | closed old new position selling isOld taken isFlat reported =>
    obtain ⟨joins, _, enough, remaining⟩ := addSell_eq_ok taken
    obtain ⟨sameCode, cycle⟩ := opens _ old isOld
    constructor
    · intro code cycle found
      rw [OrdMap.get?_erase] at found
      split at found
      · cases found
      · exact others found
    · intro cycle' member
      rcases mem_concat.mp member with inClosed | rfl
      · exact stay cycle' inClosed
      · have reports := closeCycle_eq_ok reported
        rw [reports.code, reports.ids, joins.code, sameCode, joins.ids]
        exact (cycle.sell selling enough).2 (remaining ▸ isFlat)

/-- A fill is in exactly one of the cycles that it leaves. -/
theorem Trades.ids (trades : Trades host ledger book fill next) :
    next.fillIds = book.fillIds + {fill.id} := by
  have joined {cycle new : PositionCycle} (joins : Joins cycle fill new) :
      (new.sourceFillIds : Multiset Int) = cycle.sourceFillIds + {fill.id} := by
    rw [joins.ids]
    rfl
  unfold CycleBook.fillIds
  cases trades with
  | opened new buying absent taken =>
    have joins := joined (addBuy_eq_ok taken).1
    dsimp only
    rw [OrdMap.total_insert_of_none new absent, joins]
    simp only [PositionCycle.empty, Multiset.coe_nil, zero_add]
    abel
  | bought old new buying isOld taken =>
    have joins := joined (addBuy_eq_ok taken).1
    have total := OrdMap.total_insert_of_some new isOld
      (fun cycle => (cycle.sourceFillIds : Multiset Int))
    dsimp only at total ⊢
    rw [joins, ← add_assoc, add_right_comm] at total
    rw [add_right_cancel total, add_assoc]
  | reduced old new selling isOld taken holds =>
    have joins := joined (addSell_eq_ok taken).1
    have total := OrdMap.total_insert_of_some new isOld
      (fun cycle => (cycle.sourceFillIds : Multiset Int))
    dsimp only at total ⊢
    rw [joins, ← add_assoc, add_right_comm] at total
    rw [add_right_cancel total, add_assoc]
  | closed old new position selling isOld taken isFlat reported =>
    have joins := joined (addSell_eq_ok taken).1
    have reports := closeCycle_eq_ok reported
    have total := OrdMap.total_erase isOld
      (fun cycle => (cycle.sourceFillIds : Multiset Int))
    dsimp only at total ⊢
    rw [← total, List.map_append, List.sum_append, List.map_singleton, List.sum_singleton,
      reports.ids, joins]
    abel

section

variable (cycled : Cycled host asOf done book)

include cycled

theorem Cycled.flat (wellFormed : WellFormed host asOf done)
    (absent : book.states.get? code = none) : sold code done = bought code done := by
  obtain ⟨run, finished⟩ := cycled.ledger
  have rebuilt := ((rebuild_all wellFormed).1 run finished).2
  have covered := rebuilt.covered code asOf wellFormed.dated
  have within : sold code done ≤ bought code done := covered.trans (moved_filter_le _ _ _ _)
  have lots := cycled.lots code
  rw [CycleBook.lotsOf, absent] at lots
  have none : Fifo.total lotMeasure (unsoldLots code done) = 0 := by
    rw [List.map_eq_nil_iff.mp lots.symm]
    rfl
  rw [total_unsoldLots] at none
  omega

theorem Cycled.step (wellFormed : WellFormed host asOf (done ++ fill.paper :: rest))
    (positive : 0 < fill.quantity) (trades : Trades host ledger book fill next) :
    Cycled host asOf (done ++ [fill.paper]) next := by
  have before : WellFormed host asOf done := wellFormed.sublist (List.sublist_append_left _ _)
  obtain ⟨run, finished⟩ := cycled.ledger
  have rebuilt := ((rebuild_all before).1 run finished).2
  have covered : sold fill.code done ≤ Positions.boughtBefore fill.code fill.occurredAt.date done := by
    refine rebuilt.covered _ _ fun old member => ?_
    exact (List.pairwise_append.mp wellFormed.dates).2.2 old member fill.paper List.mem_cons_self
  have cyclesPositive (code : String) : Fifo.Positive openLotMeasure (book.lotsOf code) := by
    rw [cycled.lots]
    intro lot member
    obtain ⟨old, isOld, rfl⟩ := List.mem_map.mp member
    exact Fifo.positive_unsold (before.positive code) _ old isOld
  obtain ⟨kept, traded, isKept⟩ := trades.lots wellFormed cycled.sums (cycled.lots fill.code)
  obtain ⟨_, rfl⟩ := (tradeLots_eq_ok wellFormed covered).mp traded
  obtain ⟨opens, closes⟩ := trades.cycles positive (cycled.flat before) cycled.opens cycled.closes
  have stepped : rebuildFill host asOf run fill.paper = .ok (run.record fill.paper _) :=
    (rebuildFill_eq_ok wellFormed rebuilt).mpr ⟨_, (rebuilt.lots fill.code).symm ▸ traded, rfl⟩
  refine ⟨⟨_, each_concat finished stepped⟩, fun code => ?_,
    trades.sums cycled.sums cyclesPositive, opens, closes, ?_⟩
  · by_cases same : fill.code = code
    · rw [← same]
      exact isKept
    · have sameLots : next.lotsOf code = book.lotsOf code := by
        rw [CycleBook.lotsOf, CycleBook.lotsOf, trades.lotsOf_other same]
      rw [sameLots, cycled.lots code, unsoldLots_other same]
  · rw [trades.ids, cycled.ids, List.map_append]
    rfl

theorem Cycled.run (wellFormed : WellFormed host asOf (done ++ fills.map ValidatedFill.paper))
    (finished : each (CycleBook.trade host ledger) book fills = .ok next) :
    Cycled host asOf (done ++ fills.map ValidatedFill.paper) next := by
  induction fills generalizing done book with
  | nil =>
    cases finished
    rw [List.map_nil, List.append_nil]
    exact cycled
  | cons fill fills ih =>
    obtain ⟨middle, traded, finished⟩ := bind_eq_ok.mp finished
    rw [List.map_cons] at wellFormed ⊢
    have positive : 0 < fill.quantity := by
      have := (wellFormed.quantities fill.paper (by simp)).1
      exact Int.natCast_pos.mp this
    have stepped := cycled.step wellFormed positive (trade_eq_ok.mp traded)
    have assoc : done ++ fill.paper :: fills.map ValidatedFill.paper =
        done ++ [fill.paper] ++ fills.map ValidatedFill.paper := by simp
    rw [assoc] at wellFormed ⊢
    exact ih stepped wellFormed finished

end

end Step

/-! ## The report -/

section Report

variable {costs : Option FillCostLedger} {report : EconomicPositionReport}

/-- The loop behind a report. -/
theorem rebuildEconomicPositions_eq_ok
    (rebuilt : rebuildEconomicPositions host rows asOf costs = .ok report) :
    ∃ fills ledger book, ValidatesAll host asOf rows fills ∧
      validateCostLedger host fills costs = .ok ledger ∧
      each (CycleBook.trade host ledger) .start fills = .ok book ∧
      report.closedPositions = book.closed ∧
      report.openPositions = book.states.values.map PositionCycle.report := by
  obtain ⟨fills, validated, rest⟩ := bind_eq_ok.mp rebuilt
  obtain ⟨ledger, isLedger, rest⟩ := bind_eq_ok.mp rest
  simp only [rebuildValidatedEconomicPositions, bind_eq_ok, pure_eq_ok] at rest
  obtain ⟨_, _, book, finished, _, _, _, _, rfl⟩ := rest
  exact ⟨fills, ledger, book, validateFills_eq_ok.mp validated, isLedger, finished, rfl, rfl⟩

/-- The fills of the cycles of a report. -/
def EconomicPositionReport.cycleFillIds (report : EconomicPositionReport) : List Int :=
  report.closedPositions.flatMap ClosedEconomicPosition.sourceFillIds ++
    report.openPositions.flatMap OpenEconomicPosition.sourceFillIds

theorem coe_flatMap {α : Type} (ids : α → List Int) (cycles : List α) :
    ((cycles.flatMap ids : List Int) : Multiset Int) =
      (cycles.map fun cycle => (ids cycle : Multiset Int)).sum := by
  induction cycles with
  | nil => rfl
  | cons cycle cycles ih =>
    rw [List.flatMap_cons, List.map_cons, List.sum_cons, ← ih]
    rfl

theorem mem_report (cycled : Cycled host asOf done book) :
    (∃ cycle ∈ book.states.values.map PositionCycle.report, cycle.code = code ∧
      cycle.remainingQuantity = quantity) ↔
    ∃ cycle, book.states.get? code = some cycle ∧ cycle.remainingQuantity = quantity := by
  constructor
  · rintro ⟨_, member, rfl, rfl⟩
    obtain ⟨cycle, isCycle, rfl⟩ := List.mem_map.mp member
    obtain ⟨key, found⟩ := OrdMap.mem_values_iff.mp isCycle
    obtain ⟨sameCode, _⟩ := cycled.opens key cycle found
    refine ⟨cycle, ?_, rfl⟩
    rw [show (PositionCycle.report cycle).code = cycle.code from rfl, sameCode]
    exact found
  · rintro ⟨cycle, found, rfl⟩
    refine ⟨cycle.report, ?_, (cycled.opens code cycle found).1, rfl⟩
    exact List.mem_map_of_mem (OrdMap.mem_values_iff.mpr ⟨code, found⟩)

/-- The cycles of a report divide the fills. -/
structure CyclesOf (fills : List PaperFill) (report : EconomicPositionReport) : Prop where
  identities : (fills.map PaperFill.id).Nodup
  once : report.cycleFillIds.Perm (fills.map PaperFill.id)
  closed : ∀ cycle ∈ report.closedPositions, ClosedCycle fills cycle.code cycle.sourceFillIds
  opens : ∀ cycle ∈ report.openPositions,
    OpenCycle fills cycle.code cycle.sourceFillIds cycle.remainingQuantity
  codes : (report.openPositions.map OpenEconomicPosition.code).Nodup

theorem Cycled.codes (cycled : Cycled host asOf done book) :
    book.states.values.map PositionCycle.code = book.states.keys := by
  unfold OrdMap.values OrdMap.keys
  rw [List.map_map]
  refine List.map_congr_left fun entry member => ?_
  exact (cycled.opens entry.1 entry.2 (OrdMap.get?_eq_some_iff.mpr member)).1

theorem Cycled.cyclesOf {fills : List PaperFill} (cycled : Cycled host asOf fills book)
    (wellFormed : WellFormed host asOf fills) (isClosed : report.closedPositions = book.closed)
    (isOpen : report.openPositions = book.states.values.map PositionCycle.report) :
    CyclesOf fills report where
  identities := wellFormed.distinct
  once := by
    rw [← Multiset.coe_eq_coe, ← cycled.ids, EconomicPositionReport.cycleFillIds, isClosed, isOpen,
      ← Multiset.coe_add, coe_flatMap, coe_flatMap, List.map_map]
    rfl
  closed := by
    rw [isClosed]
    exact cycled.closes
  opens := by
    rw [isOpen, List.forall_mem_map]
    intro cycle member
    obtain ⟨code, found⟩ := OrdMap.mem_values_iff.mp member
    obtain ⟨rfl, opens⟩ := cycled.opens code cycle found
    exact opens
  codes := by
    have same : (book.states.values.map PositionCycle.report).map OpenEconomicPosition.code =
        book.states.values.map PositionCycle.code := by
      rw [List.map_map]
      rfl
    rw [isOpen, same, cycled.codes]
    exact book.states.nodup_keys

/-- The shares of an open cycle are what the ledger holds of its code. -/
theorem Cycled.holds {fills : List PaperFill} (cycled : Cycled host asOf fills book) :
    (∃ cycle, book.states.get? code = some cycle ∧ cycle.remainingQuantity = quantity) ↔
      bought code fills - sold code fills = quantity ∧ 0 < quantity := by
  have lots := cycled.lots code
  have total : Fifo.total openLotMeasure ((unsoldLots code fills).map OpenPaperLot.economic) =
      bought code fills - sold code fills := by
    rw [@Fifo.total_map _ lotMeasure _ openLotMeasure OpenPaperLot.economic (fun _ => rfl),
      total_unsoldLots]
  rw [← lots] at total
  constructor
  · rintro ⟨cycle, found, rfl⟩
    have sum := cycled.sums code cycle found
    obtain ⟨_, _, _, _, positive⟩ := cycled.opens code cycle found
    rw [CycleBook.lotsOf, found] at total
    exact ⟨total.symm.trans sum.symm, positive⟩
  · rintro ⟨rfl, positive⟩
    cases found : book.states.get? code with
    | none =>
      rw [CycleBook.lotsOf, found] at total
      change 0 = _ at total
      omega
    | some cycle =>
      rw [CycleBook.lotsOf, found] at total
      exact ⟨cycle, rfl, (cycled.sums code cycle found).trans total⟩

/-- The cycles of `rebuild_economic_positions` divide the fills, and `rebuild_paper_positions` holds
of each code what its open cycle holds.

Proof: the loop over the fills keeps `Cycled`, in which the lots of a code's cycle are the unsold
lots that the lot ledger holds. -/
theorem economic_cycles_divide_fills (host : Host) (asOf : Day) (rows : List EconomicFillRow)
    (costs : Option FillCostLedger) (report : EconomicPositionReport)
    (rebuilt : rebuildEconomicPositions host rows asOf costs = .ok report) :
    ∃ fills, paperFills host rows = .ok fills ∧ CyclesOf fills report ∧
      ((∀ code, FiniteCosts host asOf (unsoldLots code fills)) →
        (∀ cycle ∈ report.openPositions, cycle.remainingQuantity < u32Limit) →
        ∃ positions, rebuildPaperPositions host fills asOf = .ok positions ∧
          ∀ code quantity,
            (∃ position ∈ positions, position.code = code ∧ position.totalQuantity = quantity) ↔
            ∃ cycle ∈ report.openPositions, cycle.code = code ∧
              cycle.remainingQuantity = quantity) := by
  obtain ⟨fills, ledger, book, valid, _, finished, isClosed, isOpen⟩ :=
    rebuildEconomicPositions_eq_ok rebuilt
  have wellFormed := valid.wellFormed
  have cycled : Cycled host asOf (fills.map ValidatedFill.paper) book :=
    (Cycled.start host asOf).run wellFormed finished
  refine ⟨_, valid.paperFills, cycled.cyclesOf wellFormed isClosed isOpen, ?_⟩
  intro finite fits
  obtain ⟨run, looped⟩ := cycled.ledger
  have closed := ((rebuild_all wellFormed).1 run looped).2
  have totals (code : String) : bought code (fills.map ValidatedFill.paper) -
      sold code (fills.map ValidatedFill.paper) < u32Limit := by
    by_contra large
    rw [not_lt] at large
    obtain ⟨cycle, member, _, remaining⟩ := (mem_report cycled).mpr (cycled.holds.mpr
      ⟨rfl, lt_of_lt_of_le (by decide) large⟩)
    exact absurd (fits cycle (isOpen ▸ member)) (by omega)
  obtain ⟨positions, built, holds, _⟩ := closed.positions wellFormed finite totals
  refine ⟨positions, bind_eq_ok.mpr ⟨run, looped, built⟩, fun code quantity => ?_⟩
  rw [holds, isOpen, mem_report cycled, cycled.holds]

/-- A row of the sample host, at midnight of a day. -/
def sampleRow (id : Int) (direction : String) (lots : Int) (date : Nat) : EconomicFillRow :=
  ⟨id, toString id, "x", "X", direction, some 10, 100 * lots,
    String.ofList (List.replicate date '|'), "Breakout"⟩

/-- A cycle that closes in two sales, and one that stays open. -/
def sampleRows : List EconomicFillRow :=
  [sampleRow 1 "buy" 2 1, sampleRow 2 "sell" 1 2, sampleRow 3 "sell" 1 3, sampleRow 4 "buy" 3 3]

/-- The fills of the sample rows. -/
def sampleFills : List PaperFill :=
  [sampleFill 1 "buy" 2 1, sampleFill 2 "sell" 1 2, sampleFill 3 "sell" 1 3, sampleFill 4 "buy" 3 3]

/-- The first cycle is closed by two sales, and 300 shares of the second are open. -/
theorem economic_cycles_divide_fills_sample :
    ∃ report, rebuildEconomicPositions sampleHost sampleRows 4 none = .ok report ∧
      report.closedPositions.map ClosedEconomicPosition.sourceFillIds = [[1, 2, 3]] ∧
      CyclesOf sampleFills report ∧
      ∃ positions, rebuildPaperPositions sampleHost sampleFills 4 = .ok positions ∧
        ∃ position ∈ positions, position.code = "x" ∧ position.totalQuantity = 300 := by
  have parsed : paperFills sampleHost sampleRows = .ok sampleFills := by decide +kernel
  have rebuilds : (rebuildEconomicPositions sampleHost sampleRows 4 none).map (fun report =>
      (report.closedPositions.map ClosedEconomicPosition.sourceFillIds,
        report.openPositions.map fun cycle => (cycle.code, cycle.remainingQuantity))) =
      .ok ([[1, 2, 3]], [("x", 300)]) := by
    decide +kernel
  cases rebuilt : rebuildEconomicPositions sampleHost sampleRows 4 none with
  | error failure =>
    rw [rebuilt] at rebuilds
    cases rebuilds
  | ok report =>
    rw [rebuilt] at rebuilds
    obtain ⟨closed, opens⟩ := Prod.mk.inj (Except.ok.inj rebuilds)
    obtain ⟨fills, isFills, cycles, ledger⟩ :=
      economic_cycles_divide_fills sampleHost 4 sampleRows none report rebuilt
    obtain rfl := Except.ok.inj (isFills.symm.trans parsed)
    obtain ⟨cycle, isCycle⟩ := List.map_eq_singleton_iff.mp opens
    obtain ⟨code, remaining⟩ := Prod.mk.inj isCycle.2
    have fits : ∀ other ∈ report.openPositions, other.remainingQuantity < u32Limit := by
      rw [isCycle.1]
      intro other member
      rw [List.mem_singleton.mp member, remaining]
      decide
    obtain ⟨positions, built, agrees⟩ :=
      ledger (sampleHost_finite (by decide +kernel)) fits
    refine ⟨report, rfl, closed, cycles, positions, built, (agrees "x" 300).mpr ⟨cycle, ?_, code,
      remaining⟩⟩
    rw [isCycle.1]
    exact List.mem_singleton_self cycle

end Report

end StockAnalysis.Positions
