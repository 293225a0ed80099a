import StockAnalysis.Positions.Epoch

/-!
# Epochs keep the independent cycles

The loop of an epoch runs in lockstep with two runs of the economic positions: one over the whole
history, and one over the rows that the epoch keeps. A code in quarantine holds the cycle that was
open at the cut and has no kept rows; any other code holds the same cycle in both runs.
-/

namespace StockAnalysis.Positions

/-! ## What a trade does to its code -/

/-- A closed position without its valuation under a ledger of costs. -/
def ClosedEconomicPosition.gross (position : ClosedEconomicPosition) : ClosedEconomicPosition :=
  { position with
    net := .unavailable "fill cost ledger unavailable; net metrics are not computed" }

/-- The shares of a cycle, if there is one. -/
def sharesOf (cycle : Option PositionCycle) : Nat :=
  (cycle.map PositionCycle.remainingQuantity).getD 0

/-- What a fill does to the cycle of its code, and what it closes. -/
inductive Moves (fill : ValidatedFill) :
    Option PositionCycle → Option PositionCycle → List ClosedEconomicPosition → Prop where
  | opened (next : PositionCycle) (buying : fill.direction = .buy)
      (fits : fill.quantity < u64Limit) (holds : next.remainingQuantity = fill.quantity)
      (openedAt : next.openedAt = fill.occurredAt) : Moves fill none (some next) []
  | bought (cycle next : PositionCycle) (buying : fill.direction = .buy)
      (fits : cycle.remainingQuantity + fill.quantity < u64Limit)
      (holds : next.remainingQuantity = cycle.remainingQuantity + fill.quantity)
      (openedAt : next.openedAt = cycle.openedAt) : Moves fill (some cycle) (some next) []
  | reduced (cycle next : PositionCycle) (selling : fill.direction = .sell)
      (enough : fill.quantity < cycle.remainingQuantity)
      (holds : next.remainingQuantity = cycle.remainingQuantity - fill.quantity)
      (openedAt : next.openedAt = cycle.openedAt) : Moves fill (some cycle) (some next) []
  | closed (cycle : PositionCycle) (position : ClosedEconomicPosition)
      (selling : fill.direction = .sell) (all : fill.quantity = cycle.remainingQuantity)
      (openedAt : position.openedAt = cycle.openedAt)
      (closedAt : position.closedAt = fill.occurredAt) : Moves fill (some cycle) none [position]

variable {cycle : PositionCycle} {host : Host} {ledger : ValidatedCostLedger} {next : CycleBook}
  {new : Option PositionCycle} {closed : List ClosedEconomicPosition}

section Moves

variable {book : CycleBook} {fill : ValidatedFill} {old : Option PositionCycle}

theorem Moves.buy (moves : Moves fill old new closed) (buying : fill.direction = .buy) :
    sharesOf old + fill.quantity < u64Limit ∧ sharesOf new = sharesOf old + fill.quantity := by
  cases moves with
  | opened next _ fits holds _ => exact ⟨by simpa [sharesOf] using fits, by simp [sharesOf, holds]⟩
  | bought cycle next _ fits holds _ => exact ⟨fits, holds⟩
  | reduced _ _ selling => cases buying.symm.trans selling
  | closed _ _ selling => cases buying.symm.trans selling

theorem Moves.sell (moves : Moves fill old new closed) (selling : fill.direction = .sell) :
    fill.quantity ≤ sharesOf old ∧ sharesOf new = sharesOf old - fill.quantity := by
  cases moves with
  | opened _ buying => cases buying.symm.trans selling
  | bought _ _ buying => cases buying.symm.trans selling
  | reduced cycle next _ enough holds _ => exact ⟨enough.le, holds⟩
  | closed cycle position _ all _ _ =>
    have same : sharesOf (some cycle) = fill.quantity := all.symm
    rw [same, Nat.sub_self]
    exact ⟨le_refl _, rfl⟩

theorem addBuy_fits {bought : PositionCycle} (taken : cycle.addBuy host fill = .ok bought) :
    cycle.remainingQuantity + fill.quantity < u64Limit := by
  simp only [PositionCycle.addBuy, checkedAdd64, bind_eq_ok, require_eq_ok, pure_eq_ok] at taken
  obtain ⟨_, _, _, _, _, _, _, ⟨_, fits, _⟩, _⟩ := taken
  exact fits

theorem closeCycle_gross {closedAt : NaiveDateTime} {position : ClosedEconomicPosition}
    (closes : closeCycle host cycle closedAt ledger = .ok position) :
    closeCycle host cycle closedAt .unavailable = .ok position.gross := by
  simp only [closeCycle, bind_eq_ok, require_eq_ok, pure_eq_ok] at closes
  obtain ⟨_, finite, _, _, rfl⟩ := closes
  simp only [closeCycle, require_pos finite, ok_bind, netMetricsForCycle, pure, Except.pure,
    ClosedEconomicPosition.gross]

/-- A trade moves the cycle of its code, and does the same to any book that holds that cycle. -/
theorem Trades.moves (trades : Trades host ledger book fill next) :
    ∃ closed, Moves fill (book.states.get? fill.code) (next.states.get? fill.code) closed ∧
      next.closed = book.closed ++ closed ∧
      ∀ other : CycleBook, other.states.get? fill.code = book.states.get? fill.code →
        ∃ after, Trades host .unavailable other fill after ∧
          after.states.get? fill.code = next.states.get? fill.code ∧
          after.closed = other.closed ++ closed.map ClosedEconomicPosition.gross := by
  cases trades with
  | opened cycle buying absent taken =>
    obtain ⟨joins, _, remaining⟩ := addBuy_eq_ok taken
    have fits := addBuy_fits taken
    have holds : cycle.remainingQuantity = fill.quantity := remaining.trans (Nat.zero_add _)
    refine ⟨[], ?_, by simp, fun other same => ?_⟩
    · rw [absent, OrdMap.get?_insert, if_pos rfl]
      refine .opened cycle buying ?_ holds joins.openedAt
      rwa [← holds, remaining]
    · refine ⟨_, .opened cycle buying (same.trans absent) taken, ?_, by simp⟩
      simp only [OrdMap.get?_insert, if_true]
  | bought cycle after buying found taken =>
    obtain ⟨joins, _, remaining⟩ := addBuy_eq_ok taken
    refine ⟨[], ?_, by simp, fun other same => ?_⟩
    · rw [found, OrdMap.get?_insert, if_pos rfl]
      exact .bought cycle after buying (addBuy_fits taken) remaining joins.openedAt
    · refine ⟨_, .bought cycle after buying (same.trans found) taken, ?_, by simp⟩
      simp only [OrdMap.get?_insert, if_true]
  | reduced cycle after selling found taken holds =>
    obtain ⟨joins, _, enough, remaining⟩ := addSell_eq_ok taken
    refine ⟨[], ?_, by simp, fun other same => ?_⟩
    · rw [found, OrdMap.get?_insert, if_pos rfl]
      exact .reduced cycle after selling (by omega) remaining joins.openedAt
    · refine ⟨_, .reduced cycle after selling (same.trans found) taken holds, ?_, by simp⟩
      simp only [OrdMap.get?_insert, if_true]
  | closed cycle after position selling found taken flat closes =>
    obtain ⟨joins, _, enough, remaining⟩ := addSell_eq_ok taken
    have reports := closeCycle_eq_ok closes
    refine ⟨[position], ?_, rfl, fun other same => ?_⟩
    · rw [found, OrdMap.get?_erase, if_pos rfl]
      exact .closed cycle position selling (by omega) (reports.openedAt.trans joins.openedAt)
        reports.closedAt
    · refine ⟨_, .closed cycle after position.gross selling (same.trans found) taken flat
        (closeCycle_gross closes), ?_, rfl⟩
      simp only [OrdMap.get?_erase, if_true]

end Moves

/-! ## The rows of an epoch -/

/-- The epoch's view of a validated fill. -/
structure EpochFillOf (epochFill : ValidatedEpochFill) (fill : ValidatedFill) : Prop where
  code : epochFill.row.code = fill.code
  direction : epochFill.row.direction = fill.direction.text
  occurredAt : epochFill.occurredAt = fill.occurredAt
  quantity : epochFill.quantity = fill.quantity

variable {asOf completed : Day}

section Rows

variable {effective : Option Day} {rows : List EconomicFillRow} {fills : List ValidatedFill}

/-- A row that passes the checks of the economic positions passes those of the epoch. -/
theorem validateRow_succeeds {state : RowValidation} {row : EconomicFillRow} {fill : ValidatedFill}
    (valid : Validates host asOf row fill) (newId : row.id ∉ state.seenIds)
    (newPlan : row.planId ∉ state.seenPlanIds)
    (later : ∀ previous ∈ state.previousOrder, previous < fill.order)
    (dated : ∀ date ∈ effective, date ≤ fill.occurredAt.date) :
    validateRow host effective state row = .ok ⟨row.id :: state.seenIds,
      row.planId :: state.seenPlanIds, some fill.order,
      state.validated ++ [⟨row, fill.occurredAt, fill.quantity⟩]⟩ := by
  have facts := validateFacts_facts valid.facts
  obtain ⟨same, positive, fits, boards⟩ := valid.quantity
  have isQuantity : boardQuantity u64Limit row.quantity = some fill.quantity := by
    refine boardQuantity_eq_some.mpr ⟨⟨positive, lt_trans fits (by decide), boards⟩, ?_⟩
    rw [same, Int.toNat_natCast]
  have priced : (row.fillPrice.filter host.validPrice).isSome = true := by
    rw [facts.price.1, Option.filter_some, if_pos facts.price.2]
    rfl
  have directed : row.direction = "buy" ∨ row.direction = "sell" := by
    rw [facts.direction]
    cases fill.direction with
    | buy => exact .inl rfl
    | sell => exact .inr rfl
  have order : fillOrder fill.occurredAt row.id = fill.order := by
    rw [ValidatedFill.order, facts.id]
  have checked : validateFillFacts host state.seenIds state.seenPlanIds row =
      .ok fill.occurredAt := by
    simp only [validateFillFacts, require_pos valid.identified, require_pos newId,
      require_pos newPlan, valid.parsed, Except.mapError, require_pos priced, require_pos directed,
      ok_bind, pure, Except.pure]
  simp only [validateRow, checked, order, require_pos later, require_pos dated, validateQuantity,
    isQuantity, okOr, ok_bind, pure, Except.pure]

theorem validateRow_each {state final : FillValidation}
    (finished : each (validateFill host asOf) state rows = .ok final) :
    ∃ fills, final.validated = state.validated ++ fills ∧
      ((∀ date ∈ effective, ∀ fill ∈ fills, date ≤ fill.occurredAt.date) →
        ∃ epochFills, List.Forall₂ EpochFillOf epochFills fills ∧
          epochFills.map ValidatedEpochFill.row = rows ∧
          ∀ seen, ∃ last, each (validateRow host effective)
            ⟨state.seenIds, state.seenPlanIds, state.previousOrder, seen⟩ rows = .ok last ∧
            last.validated = seen ++ epochFills) := by
  induction rows generalizing state with
  | nil =>
    cases finished
    exact ⟨[], by simp, fun _ => ⟨[], .nil, rfl, fun seen => ⟨_, rfl, by simp⟩⟩⟩
  | cons row rows ih =>
    obtain ⟨next, stepped, finished⟩ := bind_eq_ok.mp finished
    obtain ⟨fill, valid, newId, newPlan, later, rfl⟩ := validateFill_eq_ok.mp stepped
    obtain ⟨fills, complete, others⟩ := ih finished
    refine ⟨fill :: fills, by simpa using complete, fun dated => ?_⟩
    have facts := validateFacts_facts valid.facts
    obtain ⟨epochFills, paired, sameRows, run⟩ := others fun date isDate other member =>
      dated date isDate other (List.mem_cons_of_mem fill member)
    refine ⟨⟨row, fill.occurredAt, fill.quantity⟩ :: epochFills,
      .cons ⟨facts.code.symm, facts.direction, rfl, rfl⟩ paired, by simp [sameRows], fun seen => ?_⟩
    obtain ⟨last, looped, isLast⟩ := run (seen ++ [⟨row, fill.occurredAt, fill.quantity⟩])
    have first := @validateRow_succeeds host asOf effective ⟨state.seenIds, state.seenPlanIds,
      state.previousOrder, seen⟩ row fill valid newId newPlan later
      fun date isDate => dated date isDate fill List.mem_cons_self
    exact ⟨last, bind_eq_ok.mpr ⟨_, first, looped⟩, by simpa using isLast⟩

/-- Rows of validated fills are rows of an epoch that none of them precedes. -/
theorem ValidatesAll.validateRows (valid : ValidatesAll host asOf rows fills)
    (dated : ∀ date ∈ effective, ∀ fill ∈ fills, date ≤ fill.occurredAt.date) :
    ∃ epochFills, validateRows host rows effective = .ok epochFills ∧
      List.Forall₂ EpochFillOf epochFills fills ∧
      epochFills.map ValidatedEpochFill.row = rows := by
  obtain ⟨final, finished, done⟩ := bind_eq_ok.mp (validateFills_eq_ok.mpr valid)
  obtain ⟨found, complete, run⟩ := @validateRow_each host asOf effective rows _ _ finished
  obtain rfl : found = fills := by
    rw [← pure_eq_ok.mp done, complete]
    rfl
  obtain ⟨epochFills, paired, sameRows, looped⟩ := run dated
  obtain ⟨last, isLast, validated⟩ := looped []
  refine ⟨epochFills, bind_eq_ok.mpr ⟨last, isLast, ?_⟩, paired, sameRows⟩
  rw [validated]
  rfl

/-- The rows dated on or after a day. -/
def rowsFrom (host : Host) (effective : Day) (rows : List EconomicFillRow) :
    List EconomicFillRow :=
  rows.filter fun row =>
    match parsePaperFillTimestamp host row.id row.occurredAt with
    | .ok time => decide (effective ≤ time.date)
    | .error _ => false

theorem rowsFrom_cons {effective : Day} {row : EconomicFillRow} {fill : ValidatedFill}
    (valid : Validates host asOf row fill) (rows : List EconomicFillRow) :
    rowsFrom host effective (row :: rows) = if effective ≤ fill.occurredAt.date then
      row :: rowsFrom host effective rows else rowsFrom host effective rows := by
  simp only [rowsFrom, List.filter_cons, valid.parsed, decide_eq_true_eq]

theorem rowsFrom_eq_self {effective : Day} (each : List.Forall₂ (Validates host asOf) rows fills)
    (dated : ∀ fill ∈ fills, effective ≤ fill.occurredAt.date) :
    rowsFrom host effective rows = rows := by
  induction each with
  | nil => rfl
  | cons first others ih =>
    rw [List.forall_mem_cons] at dated
    rw [rowsFrom_cons first, if_pos dated.1, ih dated.2]

/-- A history that is cut where it has no fills. -/
structure Cut (host : Host) (asOf completed effective : Day) (rows : List EconomicFillRow)
    (fills legacy epoch : List ValidatedFill) : Prop where
  isFills : fills = legacy ++ epoch
  paired : List.Forall₂ (Validates host asOf) (rowsFrom host effective rows) epoch
  before : ∀ fill ∈ legacy, fill.occurredAt.date ≤ completed
  after : ∀ fill ∈ epoch, effective ≤ fill.occurredAt.date

theorem exists_cut {effective : Day} (isAfter : completed < effective)
    (each : List.Forall₂ (Validates host asOf) rows fills)
    (ordered : fills.Pairwise fun earlier later => earlier.order < later.order)
    (clear : ∀ fill ∈ fills, fill.occurredAt.date ≤ completed ∨ effective ≤ fill.occurredAt.date) :
    ∃ legacy epoch, Cut host asOf completed effective rows fills legacy epoch := by
  induction each with
  | nil => exact ⟨[], [], rfl, .nil, by simp, by simp⟩
  | @cons row fill rows fills first others ih =>
    rw [List.pairwise_cons] at ordered
    rw [List.forall_mem_cons] at clear
    by_cases isLegacy : fill.occurredAt.date ≤ completed
    · obtain ⟨legacy, epoch, cut⟩ := ih ordered.2 clear.2
      have dropped : rowsFrom host effective (row :: rows) = rowsFrom host effective rows := by
        rw [rowsFrom_cons first, if_neg (not_le.mpr (lt_of_le_of_lt isLegacy isAfter))]
      refine ⟨fill :: legacy, epoch, by rw [cut.isFills]; rfl, ?_, ?_, cut.after⟩
      · rw [dropped]
        exact cut.paired
      · rw [List.forall_mem_cons]
        exact ⟨isLegacy, cut.before⟩
    · have isEpoch := clear.1.resolve_left isLegacy
      have later : ∀ other ∈ fill :: fills, effective ≤ other.occurredAt.date := by
        rw [List.forall_mem_cons]
        exact ⟨isEpoch, fun other member =>
          isEpoch.trans (date_le_of_fillOrder (ordered.1 other member))⟩
      have all := rowsFrom_eq_self (.cons first others) later
      refine ⟨[], fill :: fills, rfl, ?_, by simp, later⟩
      rw [all]
      exact .cons first others

end Rows

/-! ## The carry -/

variable {epochFills : List ValidatedEpochFill} {epochFill : ValidatedEpochFill}
  {epoch : List ValidatedFill}

section Carry

variable {book : CycleBook} {positions : OrdMap String Nat}

/-- The carry counts what the cycles hold. -/
def Counts (positions : OrdMap String Nat) (book : CycleBook) : Prop :=
  ∀ code, (positions.get? code).getD 0 = sharesOf (book.states.get? code)

theorem Counts.insert {fill : ValidatedFill} (counts : Counts positions book)
    (trades : Trades host ledger book fill next) {shares : Nat}
    (isShares : shares = sharesOf (next.states.get? fill.code)) :
    Counts (positions.insert fill.code shares) next := by
  intro code
  rw [OrdMap.get?_insert]
  split
  · rename_i same
    rw [← same, ← isShares]
    rfl
  · rename_i other
    rw [counts code, trades.lotsOf_other other]

theorem carryFill_counts {fill : ValidatedFill} (counts : Counts positions book)
    (trades : Trades host ledger book fill next) (paired : EpochFillOf epochFill fill)
    (before : fill.occurredAt.date ≤ completed) :
    ∃ after, carryFill completed positions epochFill = .ok after ∧ Counts after next := by
  obtain ⟨closed, moves, _⟩ := trades.moves
  have held := counts fill.code
  have notAfter : ¬ completed < epochFill.occurredAt.date := by
    rw [paired.occurredAt]
    exact not_lt.mpr before
  rw [carryFill, if_neg notAfter, paired.code, paired.direction, paired.quantity, held]
  cases direction : fill.direction with
  | buy =>
    obtain ⟨fits, shares⟩ := moves.buy direction
    exact ⟨_, bind_eq_ok.mpr ⟨⟨⟩, require_pos fits, rfl⟩, counts.insert trades shares.symm⟩
  | sell =>
    obtain ⟨enough, shares⟩ := moves.sell direction
    exact ⟨_, bind_eq_ok.mpr ⟨⟨⟩, require_pos enough, rfl⟩, counts.insert trades shares.symm⟩

theorem carryFill_skips {fills : List ValidatedFill}
    (paired : List.Forall₂ EpochFillOf epochFills fills)
    (after : ∀ fill ∈ fills, completed < fill.occurredAt.date) :
    each (carryFill completed) positions epochFills = .ok positions := by
  induction paired with
  | nil => rfl
  | cons first others ih =>
    rw [List.forall_mem_cons] at after
    refine bind_eq_ok.mpr ⟨positions, ?_, ih after.2⟩
    rw [carryFill, first.occurredAt, if_pos after.1]
    rfl

/-- The carry of a history that is cut counts what the cycles hold at the cut. -/
theorem carryFill_each {legacy : List ValidatedFill}
    (paired : List.Forall₂ EpochFillOf epochFills (legacy ++ epoch))
    (before : ∀ fill ∈ legacy, fill.occurredAt.date ≤ completed)
    (after : ∀ fill ∈ epoch, completed < fill.occurredAt.date) (counts : Counts positions book)
    (finished : each (CycleBook.trade host ledger) book legacy = .ok next) :
    ∃ carried, each (carryFill completed) positions epochFills = .ok carried ∧
      Counts carried next := by
  induction legacy generalizing epochFills positions book with
  | nil =>
    cases finished
    exact ⟨positions, carryFill_skips paired after, counts⟩
  | cons fill legacy ih =>
    rw [List.forall_mem_cons] at before
    obtain ⟨middle, traded, finished⟩ := bind_eq_ok.mp finished
    cases paired with
    | cons first others =>
      obtain ⟨moved, carried, counted⟩ :=
        carryFill_counts counts (trade_eq_ok.mp traded) first before.1
      obtain ⟨final, looped, complete⟩ := ih others before.2 counted finished
      exact ⟨final, bind_eq_ok.mpr ⟨moved, carried, looped⟩, complete⟩

/-- The positions of a carry as a map. -/
def carried (positions : OrdMap String Nat) : OrdMap String Nat :=
  positions.filterMap fun quantity => if 0 < quantity then some quantity else none

theorem carryPositions_eq (positions : OrdMap String Nat) :
    carryPositions positions = (carried positions).entries.map fun entry => ⟨entry.1, entry.2⟩ := by
  simp only [carryPositions, carried, OrdMap.filterMap, List.map_filterMap]
  refine List.filterMap_congr fun entry _ => ?_
  split <;> rfl

/-- A carry of distinct codes with whole board lots is put in quarantine. -/
theorem quarantine_each {entries : List (String × Nat)} {states : OrdMap String QuarantineState}
    (sorted : entries.Pairwise fun a b => a.1 < b.1)
    (valid : ∀ entry ∈ entries, blank entry.1 = false ∧ entry.2 ≠ 0 ∧ entry.2 % 100 = 0)
    (absent : ∀ entry ∈ entries, states.get? entry.1 = none) :
    ∃ final, each quarantine states (entries.map fun entry => ⟨entry.1, entry.2⟩) = .ok final ∧
      ∀ code, final.get? code = ((OrdMap.find? code entries).map fun quantity =>
        ⟨quantity, quantity, true⟩).or (states.get? code) := by
  induction entries generalizing states with
  | nil => exact ⟨states, rfl, fun code => rfl⟩
  | cons entry entries ih =>
    rw [List.pairwise_cons] at sorted
    rw [List.forall_mem_cons] at valid absent
    have vacant : states.contains entry.1 = false := by simp [OrdMap.contains, absent.1]
    have stillAbsent : ∀ other ∈ entries, (states.insert entry.1
        ⟨entry.2, entry.2, true⟩).get? other.1 = none := by
      intro other member
      rw [OrdMap.get?_insert, if_neg (sorted.1 other member).ne]
      exact absent.2 other member
    obtain ⟨final, finished, lookups⟩ := ih sorted.2 valid.2 stillAbsent
    refine ⟨final, bind_eq_ok.mpr ⟨_, ?_, finished⟩, fun code => ?_⟩
    · simp only [quarantine, require_pos valid.1, require_pos vacant, ok_bind, pure, Except.pure]
    · rw [lookups, OrdMap.get?_insert, OrdMap.find?]
      split
      · rename_i same
        rw [OrdMap.find?_eq_none_of_below fun other member => same ▸ sorted.1 other member]
        rfl
      · rfl

end Carry

/-! ## Dates of the cycles -/

/-- Cycles start before the fills that are left, and end after they start. -/
structure Dated (book : CycleBook) (rest : List ValidatedFill) (limit : Day) : Prop where
  opens : ∀ code cycle, book.states.get? code = some cycle → cycle.openedAt.date ≤ limit ∧
    ∀ fill ∈ rest, cycle.openedAt.date ≤ fill.occurredAt.date
  closed : ∀ position ∈ book.closed, position.openedAt.date ≤ position.closedAt.date ∧
    position.closedAt.date ≤ limit

section Dated

variable {book : CycleBook} {limit : Day} {fill : ValidatedFill} {rest : List ValidatedFill}

theorem Dated.start (rest : List ValidatedFill) (limit : Day) : Dated .start rest limit where
  opens code cycle found := by cases found
  closed position member := by cases member

theorem Dated.step (dated : Dated book (fill :: rest) limit) (within : fill.occurredAt.date ≤ limit)
    (later : ∀ other ∈ rest, fill.occurredAt.date ≤ other.occurredAt.date)
    (trades : Trades host ledger book fill next) : Dated next rest limit := by
  obtain ⟨closed, moves, isClosed, _⟩ := trades.moves
  have kept (code : String) (cycle : PositionCycle) (found : book.states.get? code = some cycle) :
      cycle.openedAt.date ≤ limit ∧ ∀ other ∈ rest, cycle.openedAt.date ≤ other.occurredAt.date := by
    obtain ⟨bound, before⟩ := dated.opens code cycle found
    exact ⟨bound, fun other member => before other (List.mem_cons_of_mem fill member)⟩
  constructor
  · intro code cycle found
    by_cases same : fill.code = code
    · subst same
      generalize isOld : book.states.get? fill.code = old at moves
      rw [found] at moves
      cases moves with
      | opened _ _ _ _ openedAt =>
        rw [openedAt]
        exact ⟨within, later⟩
      | bought old _ _ _ _ openedAt =>
        rw [openedAt]
        exact kept _ old isOld
      | reduced old _ _ _ _ openedAt =>
        rw [openedAt]
        exact kept _ old isOld
    · rw [trades.lotsOf_other same] at found
      exact kept code cycle found
  · intro position member
    rw [isClosed] at member
    rcases List.mem_append.mp member with inOld | isNew
    · exact dated.closed position inOld
    · generalize isOld : book.states.get? fill.code = old at moves
      generalize next.states.get? fill.code = left at moves
      cases moves with
      | closed cycle new _ _ openedAt closedAt =>
        obtain rfl := List.mem_singleton.mp isNew
        rw [openedAt, closedAt]
        exact ⟨(dated.opens _ cycle isOld).2 fill List.mem_cons_self, within⟩
      | _ => cases isNew

theorem Dated.run (dated : Dated book rest limit)
    (within : ∀ fill ∈ rest, fill.occurredAt.date ≤ limit)
    (ordered : rest.Pairwise fun earlier later => earlier.order < later.order)
    (finished : each (CycleBook.trade host ledger) book rest = .ok next) : Dated next [] limit := by
  induction rest generalizing book with
  | nil =>
    cases finished
    exact dated
  | cons fill rest ih =>
    obtain ⟨middle, traded, finished⟩ := bind_eq_ok.mp finished
    rw [List.forall_mem_cons] at within
    rw [List.pairwise_cons] at ordered
    have later : ∀ other ∈ rest, fill.occurredAt.date ≤ other.occurredAt.date :=
      fun other member => date_le_of_fillOrder (ordered.1 other member)
    exact ih (dated.step within.1 later (trade_eq_ok.mp traded)) within.2 ordered.2 finished

end Dated

/-! ## The lockstep of an epoch -/

/-- The quarantine of a code next to its cycles in the whole history and in the kept rows. -/
inductive CodeScoped (completed effective : Day) :
    Option QuarantineState → Option PositionCycle → Option PositionCycle → Prop where
  | legacy (state : QuarantineState) (cycle : PositionCycle) (locked : state.quarantined = true)
      (total : state.totalQuantity = cycle.remainingQuantity)
      (before : cycle.openedAt.date ≤ completed) :
      CodeScoped completed effective (some state) (some cycle) none
  | free (state : Option QuarantineState) (cycle : Option PositionCycle)
      (unlocked : (state.getD ⟨0, 0, false⟩).quarantined = false)
      (total : (state.getD ⟨0, 0, false⟩).totalQuantity = sharesOf cycle)
      (after : ∀ held ∈ cycle, effective ≤ held.openedAt.date) :
      CodeScoped completed effective state cycle cycle

/-- Each row is kept, or it is excluded once as an overlap. -/
inductive Divided : List EconomicFillRow → List EconomicFillRow → List EpochExclusion → Prop where
  | nil : Divided [] [] []
  | kept {rows attributable : List EconomicFillRow} {exclusions : List EpochExclusion}
      (row : EconomicFillRow) (divided : Divided rows attributable exclusions) :
      Divided (rows ++ [row]) (attributable ++ [row]) exclusions
  | excluded {rows attributable : List EconomicFillRow} {exclusions more : List EpochExclusion}
      (row : EconomicFillRow) (quantity : Nat) (divided : Divided rows attributable exclusions)
      (isMore : more = [overlap row quantity] ∨
        more = [overlap row quantity, mixedExit row quantity]) :
      Divided (rows ++ [row]) attributable (exclusions ++ more)

/-- A cycle that started in the epoch. -/
def ClosedEconomicPosition.isEpoch (effective : Day) (position : ClosedEconomicPosition) : Bool :=
  decide (effective ≤ position.openedAt.date)

/-- A cycle that started before the cut and closed after it. -/
def ClosedEconomicPosition.crosses (completed : Day) (position : ClosedEconomicPosition) : Bool :=
  decide (position.openedAt.date ≤ completed ∧ completed < position.closedAt.date)

/-- The loop of an epoch next to the cycles of the whole history and of the kept rows. -/
structure Scoped (host : Host) (asOf completed effective : Day) (rows : List EconomicFillRow)
    (fills kept : List ValidatedFill) (scope : EpochScope) (book other : CycleBook) : Prop where
  codes : ∀ code, CodeScoped completed effective (scope.states.get? code)
    (book.states.get? code) (other.states.get? code)
  run : each (CycleBook.trade host .unavailable) .start kept = .ok other
  valid : List.Forall₂ (Validates host asOf) scope.attributable kept
  within : kept.Sublist fills
  divided : Divided rows scope.attributable scope.exclusions
  closed : other.closed =
    (book.closed.filter (ClosedEconomicPosition.isEpoch effective)).map ClosedEconomicPosition.gross
  released : scope.releasedCodes =
    (book.closed.filter (ClosedEconomicPosition.crosses completed)).length

variable {state : QuarantineState} {kept : List ValidatedFill} {scope : EpochScope}

section Lockstep

variable {effective : Day} {rows : List EconomicFillRow} {fills : List ValidatedFill}
  {book other : CycleBook} {fill : ValidatedFill}

theorem CodeScoped.insert (codes : ∀ code, CodeScoped completed effective (scope.states.get? code)
      (book.states.get? code) (other.states.get? code)) (trades : Trades host ledger book fill next)
    {after : CycleBook}
    (others : ∀ code, fill.code ≠ code → after.states.get? code = other.states.get? code)
    (own : CodeScoped completed effective (some state) (next.states.get? fill.code)
      (after.states.get? fill.code)) (code : String) :
    CodeScoped completed effective ((scope.states.insert fill.code state).get? code)
      (next.states.get? code) (after.states.get? code) := by
  rw [OrdMap.get?_insert]
  split
  · rename_i same
    rw [← same]
    exact own
  · rename_i different
    rw [trades.lotsOf_other different, others code different]
    exact codes code

/-- A fill of a code outside of quarantine is kept. -/
theorem scopeFill_free {old : Option PositionCycle}
    (isState : (scope.states.get? fill.code).getD ⟨0, 0, false⟩ = state)
    (paired : EpochFillOf epochFill fill) (moves : Moves fill old new closed)
    (unlocked : state.quarantined = false) (total : state.totalQuantity = sharesOf old) :
    scopeFill scope epochFill = .ok { scope with
      states := scope.states.insert fill.code { state with totalQuantity := sharesOf new }
      attributable := scope.attributable ++ [epochFill.row] } := by
  unfold scopeFill
  dsimp only
  rw [paired.code, isState, unlocked, paired.direction, paired.quantity, total]
  cases direction : fill.direction with
  | buy =>
    obtain ⟨fits, shares⟩ := moves.buy direction
    exact bind_eq_ok.mpr ⟨⟨⟩, require_pos fits, by rw [shares]; rfl⟩
  | sell =>
    obtain ⟨enough, shares⟩ := moves.sell direction
    exact bind_eq_ok.mpr ⟨⟨⟩, require_pos enough, by rw [shares]; rfl⟩

/-- A fill of a code in quarantine is excluded, and the sale that reaches flat releases the code. -/
theorem scopeFill_locked (isState : scope.states.get? fill.code = some state)
    (paired : EpochFillOf epochFill fill) (moves : Moves fill (some cycle) new closed)
    (locked : state.quarantined = true) (total : state.totalQuantity = cycle.remainingQuantity) :
    ∃ legacyRemaining more, (more = [overlap epochFill.row fill.quantity] ∨
        more = [overlap epochFill.row fill.quantity, mixedExit epochFill.row fill.quantity]) ∧
      scopeFill scope epochFill = .ok { scope with
        states := scope.states.insert fill.code ⟨legacyRemaining, sharesOf new, new.isSome⟩
        exclusions := scope.exclusions ++ more
        releasedCodes := scope.releasedCodes + closed.length } := by
  unfold scopeFill
  dsimp only
  rw [paired.code, isState, Option.getD_some, locked, paired.direction, paired.quantity, total]
  have more : exitExclusions state epochFill = [overlap epochFill.row fill.quantity] ∨
      exitExclusions state epochFill =
        [overlap epochFill.row fill.quantity, mixedExit epochFill.row fill.quantity] := by
    rw [exitExclusions, paired.quantity]
    split
    · exact .inr rfl
    · exact .inl rfl
  cases moves with
  | bought _ next buying fits holds _ =>
    refine ⟨state.legacyRemaining, _, .inl rfl, ?_⟩
    rw [buying]
    refine bind_eq_ok.mpr ⟨⟨⟩, require_pos fits, ?_⟩
    rw [sharesOf, Option.map_some, Option.getD_some, holds]
    rfl
  | reduced _ next selling enough holds _ =>
    refine ⟨state.legacyRemaining - fill.quantity, _, more, ?_⟩
    rw [selling]
    refine bind_eq_ok.mpr ⟨⟨⟩, require_pos enough.le, ?_⟩
    have left : cycle.remainingQuantity - fill.quantity ≠ 0 := by omega
    rw [sharesOf, Option.map_some, Option.getD_some, holds, if_neg left, decide_eq_true left]
    rfl
  | closed _ position selling all _ _ =>
    refine ⟨state.legacyRemaining - fill.quantity, _, more, ?_⟩
    rw [selling]
    refine bind_eq_ok.mpr ⟨⟨⟩, require_pos all.le, ?_⟩
    have left : cycle.remainingQuantity - fill.quantity = 0 := by omega
    rw [left]
    rfl

/-- The cycles that a fill of a free code closes started in the epoch. -/
theorem Moves.closed_free {old : Option PositionCycle} (moves : Moves fill old new closed)
    (isAfter : completed < effective) (after : ∀ held ∈ old, effective ≤ held.openedAt.date) :
    closed.filter (ClosedEconomicPosition.isEpoch effective) = closed ∧
      closed.filter (ClosedEconomicPosition.crosses completed) = [] := by
  cases moves with
  | closed cycle position _ _ openedAt _ =>
    have started : effective ≤ position.openedAt.date := openedAt ▸ after cycle rfl
    have notLegacy : ¬ position.openedAt.date ≤ completed :=
      not_le.mpr (lt_of_lt_of_le isAfter started)
    simp [ClosedEconomicPosition.isEpoch, ClosedEconomicPosition.crosses, started, notLegacy]
  | _ => exact ⟨rfl, rfl⟩

/-- The cycle that a fill of a quarantined code closes crosses the cut. -/
theorem Moves.closed_locked (moves : Moves fill (some cycle) new closed)
    (isAfter : completed < effective) (before : cycle.openedAt.date ≤ completed)
    (dated : effective ≤ fill.occurredAt.date) :
    closed.filter (ClosedEconomicPosition.isEpoch effective) = [] ∧
      closed.filter (ClosedEconomicPosition.crosses completed) = closed := by
  cases moves with
  | closed _ position _ _ openedAt closedAt =>
    have isLegacy : position.openedAt.date ≤ completed := openedAt ▸ before
    have isLater : completed < position.closedAt.date :=
      closedAt ▸ lt_of_lt_of_le isAfter dated
    have notEpoch : ¬ effective ≤ position.openedAt.date :=
      not_le.mpr (lt_of_le_of_lt isLegacy isAfter)
    simp [ClosedEconomicPosition.isEpoch, ClosedEconomicPosition.crosses, isLegacy, isLater,
      notEpoch]
  | _ => exact ⟨rfl, rfl⟩

/-- The cycle of a free code stays one of the epoch. -/
theorem Moves.free {old : Option PositionCycle} (moves : Moves fill old new closed)
    (dated : effective ≤ fill.occurredAt.date)
    (after : ∀ held ∈ old, effective ≤ held.openedAt.date) :
    ∀ held ∈ new, effective ≤ held.openedAt.date := by
  intro held isHeld
  cases moves with
  | opened next _ _ _ openedAt =>
    obtain rfl := Option.some.inj isHeld
    exact openedAt ▸ dated
  | bought cycle next _ _ _ openedAt =>
    obtain rfl := Option.some.inj isHeld
    exact openedAt ▸ after cycle rfl
  | reduced cycle next _ _ _ openedAt =>
    obtain rfl := Option.some.inj isHeld
    exact openedAt ▸ after cycle rfl
  | closed => cases isHeld

/-- A quarantined code stays in quarantine until it is flat. -/
theorem Moves.locked (moves : Moves fill (some cycle) new closed)
    (before : cycle.openedAt.date ≤ completed) (legacyRemaining : Nat) :
    CodeScoped completed effective (some ⟨legacyRemaining, sharesOf new, new.isSome⟩) new none := by
  cases moves with
  | bought _ next _ _ _ openedAt => exact .legacy _ next rfl rfl (openedAt ▸ before)
  | reduced _ next _ _ _ openedAt => exact .legacy _ next rfl rfl (openedAt ▸ before)
  | closed => exact .free _ none rfl rfl (by simp)

theorem Scoped.step (inStep : Scoped host asOf completed effective rows fills kept scope book other)
    (isAfter : completed < effective) (trades : Trades host ledger book fill next)
    (paired : EpochFillOf epochFill fill) (valid : Validates host asOf epochFill.row fill)
    (dated : effective ≤ fill.occurredAt.date) :
    ∃ after taken left, scopeFill scope epochFill = .ok after ∧
      Scoped host asOf completed effective (rows ++ [epochFill.row]) (fills ++ [fill]) taken after
        next left := by
  obtain ⟨closed, moves, isClosed, replays⟩ := trades.moves
  have own := inStep.codes fill.code
  generalize isState : scope.states.get? fill.code = state at own
  generalize isOld : book.states.get? fill.code = old at own moves
  generalize isKept : other.states.get? fill.code = copy at own
  cases own with
  | legacy state cycle locked total before =>
    obtain ⟨legacyRemaining, more, isMore, done⟩ :=
      scopeFill_locked isState paired moves locked total
    obtain ⟨noEpoch, crosses⟩ := moves.closed_locked isAfter before dated
    refine ⟨_, kept, other, done, ?_, inStep.run, inStep.valid,
      inStep.within.trans (List.sublist_append_left _ _),
      .excluded _ _ inStep.divided isMore, ?_, ?_⟩
    · refine CodeScoped.insert inStep.codes trades (fun _ _ => rfl) ?_
      rw [isKept]
      exact moves.locked before legacyRemaining
    · rw [isClosed, List.filter_append, noEpoch, List.append_nil]
      exact inStep.closed
    · rw [isClosed, List.filter_append, crosses, List.length_append, ← inStep.released]
  | free state cycle unlocked total after =>
    have done := scopeFill_free (congrArg (Option.getD · ⟨0, 0, false⟩) isState) paired moves
      unlocked total
    obtain ⟨left, replayed, sameCycle, leftClosed⟩ := replays other (isKept.trans isOld.symm)
    obtain ⟨allEpoch, noCross⟩ := moves.closed_free isAfter after
    refine ⟨_, kept ++ [fill], left, done, ?_, ?_, ?_, ?_, .kept _ inStep.divided, ?_, ?_⟩
    · refine CodeScoped.insert inStep.codes trades (fun code => replayed.lotsOf_other) ?_
      rw [sameCycle]
      exact .free _ _ unlocked rfl (moves.free dated after)
    · exact each_concat inStep.run (trade_eq_ok.mpr replayed)
    · exact List.rel_append inStep.valid (.cons valid .nil)
    · exact inStep.within.append (List.Sublist.refl _)
    · rw [leftClosed, isClosed, List.filter_append, allEpoch, List.map_append, inStep.closed]
    · rw [isClosed, List.filter_append, noCross, List.append_nil]
      exact inStep.released

theorem Scoped.loop (inStep : Scoped host asOf completed effective rows fills kept scope book other)
    (isAfter : completed < effective)
    (finished : each (CycleBook.trade host ledger) book epoch = .ok next)
    (paired : List.Forall₂ EpochFillOf epochFills epoch)
    (valid : List.Forall₂ (Validates host asOf) (epochFills.map ValidatedEpochFill.row) epoch)
    (dated : ∀ fill ∈ epoch, effective ≤ fill.occurredAt.date) :
    ∃ final taken left, each scopeFill scope epochFills = .ok final ∧
      Scoped host asOf completed effective (rows ++ epochFills.map ValidatedEpochFill.row)
        (fills ++ epoch) taken final next left := by
  induction paired generalizing rows fills kept scope book other with
  | nil =>
    cases finished
    rw [List.map_nil, List.append_nil, List.append_nil]
    exact ⟨scope, kept, other, rfl, inStep⟩
  | @cons epochFill fill epochFills epoch first others ih =>
    obtain ⟨middle, traded, finished⟩ := bind_eq_ok.mp finished
    rw [List.forall_mem_cons] at dated
    rw [List.map_cons, List.forall₂_cons] at valid
    obtain ⟨after, taken, left, stepped, inStep⟩ :=
      inStep.step isAfter (trade_eq_ok.mp traded) first valid.1 dated.1
    obtain ⟨final, taken, left, looped, complete⟩ := ih inStep finished valid.2 dated.2
    rw [List.append_assoc, List.append_assoc] at complete
    exact ⟨final, taken, left, bind_eq_ok.mpr ⟨after, stepped, looped⟩, complete⟩

end Lockstep

/-! ## The rows that are kept and excluded -/

/-- A row is kept without an exclusion, or it is not kept and overlaps a legacy position once. -/
def RowScoped (attributable : List EconomicFillRow) (exclusions : List EpochExclusion)
    (row : EconomicFillRow) : Prop :=
  (row ∈ attributable ∧ ∀ exclusion ∈ exclusions, exclusion.fillId ≠ row.id) ∨
  (row ∉ attributable ∧ ∃ quantity, exclusions.filter (fun exclusion =>
    exclusion.fillId = row.id ∧ exclusion.reason = .legacyCarryOverlap) = [overlap row quantity])

section Divided

variable {rows attributable : List EconomicFillRow} {exclusions : List EpochExclusion}

section

variable (divided : Divided rows attributable exclusions)

include divided

theorem Divided.within : attributable.Sublist rows := by
  induction divided with
  | nil => exact .slnil
  | kept row _ ih => exact ih.append (List.Sublist.refl _)
  | excluded row _ _ _ ih => exact ih.trans (List.sublist_append_left _ _)

theorem Divided.ids : ∀ exclusion ∈ exclusions, exclusion.fillId ∈ rows.map EconomicFillRow.id := by
  induction divided with
  | nil => simp
  | kept row _ ih =>
    intro exclusion member
    rw [List.map_append]
    exact List.mem_append_left _ (ih exclusion member)
  | excluded row quantity _ isMore ih =>
    intro exclusion member
    rw [List.map_append]
    rcases List.mem_append.mp member with old | new
    · exact List.mem_append_left _ (ih exclusion old)
    · refine List.mem_append_right _ ?_
      rcases isMore with rfl | rfl
      · simp_all [overlap]
      · rcases List.mem_pair.mp new with rfl | rfl <;> simp [overlap, mixedExit]

theorem Divided.row (distinct : (rows.map EconomicFillRow.id).Nodup) :
    ∀ row ∈ rows, RowScoped attributable exclusions row := by
  induction divided with
  | nil => simp
  | @kept rows attributable exclusions last divided ih =>
    rw [List.map_append, List.nodup_append] at distinct
    obtain ⟨old, _, apart⟩ := distinct
    intro row member
    rcases mem_concat.mp member with inRows | rfl
    · have different : row ≠ last := fun same =>
        apart _ (List.mem_map_of_mem inRows) _ (by simp) (congrArg EconomicFillRow.id same)
      rcases ih old row inRows with ⟨isKept, none⟩ | ⟨notKept, once⟩
      · exact .inl ⟨List.mem_append_left _ isKept, none⟩
      · exact .inr ⟨by simp [notKept, different], once⟩
    · refine .inl ⟨by simp, fun exclusion isExclusion => ?_⟩
      exact apart _ (divided.ids exclusion isExclusion) _ (by simp)
  | @excluded rows attributable exclusions more last quantity divided isMore ih =>
    rw [List.map_append, List.nodup_append] at distinct
    obtain ⟨old, _, apart⟩ := distinct
    have newIds : ∀ exclusion ∈ more, exclusion.fillId = last.id := by
      rcases isMore with rfl | rfl <;> simp [overlap, mixedExit]
    intro row member
    rcases mem_concat.mp member with inRows | rfl
    · have different : last.id ≠ row.id := fun same =>
        apart _ (List.mem_map_of_mem inRows) _ (by simp) same.symm
      rcases ih old row inRows with ⟨isKept, none⟩ | ⟨notKept, amount, once⟩
      · refine .inl ⟨isKept, fun exclusion isExclusion => ?_⟩
        rcases List.mem_append.mp isExclusion with isOld | isNew
        · exact none exclusion isOld
        · exact newIds exclusion isNew ▸ different
      · refine .inr ⟨notKept, amount, ?_⟩
        rw [List.filter_append, once, List.append_right_eq_self, List.filter_eq_nil_iff]
        intro exclusion isNew
        simp [newIds exclusion isNew, different]
    · refine .inr ⟨fun isKept => ?_, quantity, ?_⟩
      · exact apart _ (List.mem_map_of_mem (divided.within.subset isKept)) _ (by simp) rfl
      · have none : exclusions.filter (fun exclusion => exclusion.fillId = row.id ∧
            exclusion.reason = .legacyCarryOverlap) = [] := by
          rw [List.filter_eq_nil_iff]
          intro exclusion isOld
          simp [apart _ (divided.ids exclusion isOld) row.id (by simp)]
        rw [List.filter_append, none, List.nil_append]
        rcases isMore with rfl | rfl <;> simp [overlap, mixedExit]

end

end Divided

/-! ## The epoch of a history -/

section Epoch

variable {effective : Day} {rows : List EconomicFillRow} {fills legacy : List ValidatedFill}
  {book other : CycleBook} {states : OrdMap String QuarantineState}

theorem moved_board {fills : List PaperFill} (wellFormed : WellFormed host asOf fills)
    (code direction : String) : moved code direction fills % 100 = 0 := by
  unfold moved
  refine List.sum_induction (fun n => n % 100 = 0) ?_ rfl ?_
  · intro a b
    omega
  · intro shares member
    obtain ⟨fill, isFill, rfl⟩ := List.mem_map.mp member
    have board := wellFormed.quantities fill (List.filter_sublist.subset isFill)
    rw [PaperFill.shares]
    omega

/-- An open cycle holds whole board lots of a named code. -/
theorem OpenCycle.board {done : List PaperFill} {code : String} {ids : List Int} {remaining : Nat}
    (cycle : OpenCycle done code ids remaining) (wellFormed : WellFormed host asOf done) :
    blank code = false ∧ remaining ≠ 0 ∧ remaining % 100 = 0 := by
  obtain ⟨part, fills, holds, positive⟩ := cycle
  have inPart := wellFormed.sublist fills.within
  obtain ⟨_, first, _, _, starts, _⟩ := fills.opened
  have isFirst := List.mem_of_mem_head? starts
  refine ⟨?_, by omega, ?_⟩
  · rw [← fills.codes first isFirst]
    exact (inPart.identities first isFirst).2.1
  · have buys : bought code part % 100 = 0 := moved_board inPart code "buy"
    have sells : sold code part % 100 = 0 := moved_board inPart code "sell"
    omega

/-- The quarantine at the cut holds the open cycles. -/
theorem exists_quarantine {positions : OrdMap String Nat} {done : List PaperFill}
    (counts : Counts positions book) (cycled : Cycled host asOf done book)
    (wellFormed : WellFormed host asOf done) (dated : Dated book [] completed) :
    ∃ states, validateCarry (carryPositions positions) = .ok states ∧
      ∀ code, CodeScoped completed effective (states.get? code) (book.states.get? code) none := by
  have lookups (code : String) : (carried positions).get? code =
      (book.states.get? code).map PositionCycle.remainingQuantity := by
    have counted := counts code
    rw [carried, OrdMap.get?_filterMap]
    cases found : book.states.get? code with
    | none =>
      rw [found] at counted
      cases isPosition : positions.get? code with
      | none => rfl
      | some quantity =>
        rw [isPosition] at counted
        exact if_neg (by rw [show quantity = 0 from counted]; decide)
    | some cycle =>
      obtain ⟨_, _, _, _, positive⟩ := cycled.opens code cycle found
      rw [found] at counted
      cases isPosition : positions.get? code with
      | none =>
        rw [isPosition] at counted
        exact absurd (show 0 = cycle.remainingQuantity from counted) positive.ne
      | some quantity =>
        rw [isPosition] at counted
        obtain rfl : quantity = cycle.remainingQuantity := counted
        exact if_pos positive
  have valid : ∀ entry ∈ (carried positions).entries,
      blank entry.1 = false ∧ entry.2 ≠ 0 ∧ entry.2 % 100 = 0 := by
    intro entry member
    have found := OrdMap.get?_eq_some_iff.mpr member
    rw [lookups, Option.map_eq_some_iff] at found
    obtain ⟨cycle, isCycle, same⟩ := found
    rw [← same]
    exact (cycled.opens entry.1 cycle isCycle).2.board wellFormed
  obtain ⟨states, finished, isStates⟩ := @quarantine_each _ OrdMap.empty (carried positions).sorted
    valid (fun _ _ => rfl)
  refine ⟨states, by rw [carryPositions_eq]; exact finished, fun code => ?_⟩
  rw [isStates, show OrdMap.find? code (carried positions).entries = _ from lookups code]
  cases found : book.states.get? code with
  | none => exact .free _ none rfl rfl (by simp)
  | some cycle => exact .legacy _ cycle rfl rfl (dated.opens code cycle found).1

theorem coverageDays_succeeds
    (dated : ∀ position ∈ closed, position.openedAt.date ≤ position.closedAt.date) :
    ∃ days, coverageDays closed = .ok days := by
  unfold coverageDays
  cases first : (closed.map fun cycle => cycle.openedAt.date).min? with
  | none => exact ⟨none, rfl⟩
  | some start =>
    cases last : (closed.map fun cycle => cycle.closedAt.date).max? with
    | none => exact ⟨none, rfl⟩
    | some finish =>
      obtain ⟨isStart, least⟩ := List.min?_eq_some_iff.mp first
      obtain ⟨position, member, rfl⟩ := List.mem_map.mp isStart
      have most := (List.max?_eq_some_iff.mp last).2 _
        (List.mem_map_of_mem (f := fun cycle => cycle.closedAt.date) member)
      have ordered : position.openedAt.date ≤ finish := (dated position member).trans most
      have positive : 0 < finish - position.openedAt.date + 1 :=
        Int.lt_add_one_of_le (Int.sub_nonneg_of_le ordered)
      exact ⟨_, bind_eq_ok.mpr ⟨⟨⟩, require_pos positive, rfl⟩⟩

/-- Cycles without a ledger of costs are reported whatever they brought in. -/
theorem rebuild_unvalued (valid : ValidatesAll host asOf rows kept)
    (finished : each (CycleBook.trade host .unavailable) .start kept = .ok book)
    (dated : ∀ position ∈ book.closed, position.openedAt.date ≤ position.closedAt.date) :
    ∃ report, rebuildEconomicPositions host rows asOf none = .ok report ∧
      report.closedPositions = book.closed ∧
      report.openPositions = book.states.values.map PositionCycle.report := by
  obtain ⟨days, covered⟩ := coverageDays_succeeds dated
  refine ⟨_, bind_eq_ok.mpr ⟨kept, validateFills_eq_ok.mpr valid, bind_eq_ok.mpr ⟨.unavailable, rfl,
    bind_eq_ok.mpr ⟨none, rfl, bind_eq_ok.mpr ⟨book, finished, bind_eq_ok.mpr ⟨days, covered,
      bind_eq_ok.mpr ⟨_, rfl, rfl⟩⟩⟩⟩⟩⟩, rfl, rfl⟩

/-- The cycles of the kept rows that are still open started in the epoch. -/
theorem Scoped.opens
    (inStep : Scoped host asOf completed effective rows fills kept scope book other)
    (isAfter : completed < effective) :
    other.states = book.states.filterMap
      (Option.guard fun cycle => decide (effective ≤ cycle.openedAt.date)) := by
  ext1 code
  rw [OrdMap.get?_filterMap]
  have own := inStep.codes code
  generalize scope.states.get? code = state at own
  generalize book.states.get? code = cycle at own ⊢
  generalize other.states.get? code = copy at own ⊢
  cases own with
  | legacy _ cycle _ _ before =>
    have notEpoch : ¬ effective ≤ cycle.openedAt.date := not_le.mpr (lt_of_le_of_lt before isAfter)
    simp [Option.guard, notEpoch]
  | free _ cycle _ _ after =>
    cases cycle with
    | none => rfl
    | some cycle => simp [Option.guard, after cycle rfl]

/-- The codes in quarantine hold the cycles that started before the cut. -/
theorem Scoped.quarantined
    (inStep : Scoped host asOf completed effective rows fills kept scope book other)
    (isAfter : completed < effective) :
    scope.states.filterMap (fun state => if state.quarantined then some state.totalQuantity else none) =
      book.states.filterMap fun cycle =>
        if cycle.openedAt.date ≤ completed then some cycle.remainingQuantity else none := by
  ext1 code
  rw [OrdMap.get?_filterMap, OrdMap.get?_filterMap]
  have own := inStep.codes code
  generalize scope.states.get? code = state at own ⊢
  generalize book.states.get? code = cycle at own ⊢
  generalize other.states.get? code = copy at own
  cases own with
  | legacy state cycle locked total before => simp [locked, before, total]
  | free state cycle unlocked total after =>
    have noState : (state.bind fun state =>
        if state.quarantined then some state.totalQuantity else none) = none := by
      cases state with
      | none => rfl
      | some state => simp [show state.quarantined = false from unlocked]
    rw [noState]
    cases cycle with
    | none => rfl
    | some cycle =>
      have notLegacy : ¬ cycle.openedAt.date ≤ completed :=
        not_le.mpr (lt_of_lt_of_le isAfter (after cycle rfl))
      simp [notLegacy]

theorem remainingQuarantine_eq (states : OrdMap String QuarantineState) :
    remainingQuarantine states = (states.filterMap fun state =>
      if state.quarantined then some state.totalQuantity else none).entries.map
        fun entry => ⟨entry.1, entry.2⟩ := by
  simp only [remainingQuarantine, OrdMap.filterMap, List.map_filterMap]
  refine List.filterMap_congr fun entry _ => ?_
  split <;> rfl

theorem legacy_entries {entries : List (String × PositionCycle)}
    (codes : ∀ entry ∈ entries, entry.2.code = entry.1) :
    (entries.filterMap fun entry => (if entry.2.openedAt.date ≤ completed then
      some entry.2.remainingQuantity else none).map (entry.1, ·)).map
        (fun entry => LegacyCarryPosition.mk entry.1 entry.2) =
      (((entries.map Prod.snd).map PositionCycle.report).filter fun cycle =>
        decide (cycle.openedAt.date ≤ completed)).map
        fun cycle => ⟨cycle.code, cycle.remainingQuantity⟩ := by
  induction entries with
  | nil => rfl
  | cons entry entries ih =>
    rw [List.forall_mem_cons] at codes
    have rest := ih codes.2
    by_cases isLegacy : entry.2.openedAt.date ≤ completed
    · simpa [isLegacy, PositionCycle.report, codes.1] using rest
    · simpa [isLegacy, PositionCycle.report] using rest

/-- Cycles that closed before the cut are neither of the epoch nor across the cut. -/
theorem Dated.closed_before (dated : Dated book [] completed) (isAfter : completed < effective) :
    book.closed.filter (ClosedEconomicPosition.isEpoch effective) = [] ∧
      book.closed.filter (ClosedEconomicPosition.crosses completed) = [] := by
  rw [List.filter_eq_nil_iff, List.filter_eq_nil_iff]
  constructor
  · intro position member
    obtain ⟨ordered, before⟩ := dated.closed position member
    simp only [ClosedEconomicPosition.isEpoch, decide_eq_true_eq, not_le]
    exact lt_of_le_of_lt (ordered.trans before) isAfter
  · intro position member
    obtain ⟨_, before⟩ := dated.closed position member
    simp only [ClosedEconomicPosition.crosses, decide_eq_true_eq, not_and, not_lt]
    exact fun _ => before

/-- Without a ledger of costs a closed position has no valuation. -/
theorem closed_gross (finished : each (CycleBook.trade host .unavailable) .start fills = .ok book) :
    ∀ position ∈ book.closed, position.gross = position := by
  refine each_induction (fun book : CycleBook => ∀ position ∈ book.closed,
    position.gross = position) ?_ (by simp [CycleBook.start]) finished
  intro book fill next old traded position member
  cases trade_eq_ok.mp traded with
  | opened => exact old position member
  | bought => exact old position member
  | reduced => exact old position member
  | closed _ _ new _ _ _ _ closes =>
    rcases mem_concat.mp member with isOld | rfl
    · exact old position isOld
    · exact Except.ok.inj ((closeCycle_gross closes).symm.trans closes)

theorem ValidatesAll.sublist (valid : ValidatesAll host asOf rows fills)
    {part : List EconomicFillRow} (each : List.Forall₂ (Validates host asOf) part kept)
    (inRows : part.Sublist rows) (inFills : kept.Sublist fills) :
    ValidatesAll host asOf part kept where
  each := each
  ids := valid.ids.sublist (inRows.map _)
  planIds := valid.planIds.sublist (inRows.map _)
  ordered := valid.ordered.sublist inFills

/-- The carry of a history that is cut, and the quarantine that it starts. -/
theorem Cut.carry (cut : Cut host asOf completed effective rows fills legacy epoch)
    (valid : ValidatesAll host asOf rows fills) (isAfter : completed < effective)
    (finished : each (CycleBook.trade host ledger) .start legacy = .ok book) :
    ∃ carry states, buildLegacyCarry host rows completed = .ok carry ∧
      validateCarry carry = .ok states ∧
      Scoped host asOf completed effective [] [] [] ⟨states, [], [], 0⟩ book .start := by
  obtain ⟨epochFills, validated, paired, _⟩ :=
    @ValidatesAll.validateRows host asOf none rows fills valid (by simp)
  have later : ∀ fill ∈ epoch, completed < fill.occurredAt.date := fun fill member =>
    lt_of_lt_of_le isAfter (cut.after fill member)
  rw [cut.isFills] at paired
  obtain ⟨positions, counted, counts⟩ := carryFill_each paired cut.before later
    (show Counts OrdMap.empty CycleBook.start from fun code => rfl) finished
  have within : legacy.Sublist fills := by
    rw [cut.isFills]
    exact List.sublist_append_left _ _
  have wellFormed : WellFormed host asOf (legacy.map ValidatedFill.paper) :=
    valid.wellFormed.sublist (within.map _)
  have cycled : Cycled host asOf (legacy.map ValidatedFill.paper) book :=
    (Cycled.start host asOf).run wellFormed finished
  have dated := (Dated.start legacy completed).run cut.before (valid.ordered.sublist within) finished
  obtain ⟨states, quarantined, codes⟩ := @exists_quarantine host asOf completed effective book
    positions _ counts cycled wellFormed dated
  obtain ⟨noEpoch, noCross⟩ := dated.closed_before isAfter
  refine ⟨_, states, bind_eq_ok.mpr ⟨epochFills, validated, bind_eq_ok.mpr ⟨positions, counted, rfl⟩⟩,
    quarantined, codes, rfl, .nil, .slnil, .nil, ?_, ?_⟩
  · rw [noEpoch]
    rfl
  · rw [noCross]
    rfl

/-- An epoch keeps exactly the cycles that start in it: the rows of a history from the effective
date on are kept or excluded once, the cycles of the kept rows are those of the history that start
in the epoch, and the quarantine follows the cycles that were open at the cut.

Proof: cut the history at the effective date. The loop of the epoch, started from the carry, stays
in step with the run over the whole history (`Scoped`). -/
theorem epoch_keeps_independent_cycles (host : Host) (rows : List EconomicFillRow) (asOf : Day)
    (costs : Option FillCostLedger) (report : EconomicPositionReport)
    (rebuilt : rebuildEconomicPositions host rows asOf costs = .ok report)
    (completed effective : Day) (isAfter : completed < effective)
    (clear : ∀ row ∈ rows, ∀ time, parsePaperFillTimestamp host row.id row.occurredAt = .ok time →
      time.date ≤ completed ∨ effective ≤ time.date) :
    ∃ carry, buildLegacyCarry host rows completed = .ok carry ∧
    ∃ scope, scopeEpochFills host (rowsFrom host effective rows) effective carry = .ok scope ∧
      (∀ row ∈ rowsFrom host effective rows,
        RowScoped scope.attributable scope.exclusions row) ∧
      (∃ epochReport, rebuildEconomicPositions host scope.attributable asOf none = .ok epochReport ∧
        epochReport.closedPositions = (report.closedPositions.filter
          (ClosedEconomicPosition.isEpoch effective)).map ClosedEconomicPosition.gross ∧
        (costs = none → epochReport.closedPositions =
          report.closedPositions.filter (ClosedEconomicPosition.isEpoch effective)) ∧
        epochReport.openPositions = report.openPositions.filter fun cycle =>
          decide (effective ≤ cycle.openedAt.date)) ∧
      scope.remainingQuarantine = (report.openPositions.filter fun cycle =>
        decide (cycle.openedAt.date ≤ completed)).map
          (fun cycle => ⟨cycle.code, cycle.remainingQuantity⟩) ∧
      scope.releasedCodes =
        (report.closedPositions.filter (ClosedEconomicPosition.crosses completed)).length := by
  obtain ⟨fills, ledger, book, valid, isLedger, finished, isClosed, isOpen⟩ :=
    rebuildEconomicPositions_eq_ok rebuilt
  have clearFills : ∀ fill ∈ fills,
      fill.occurredAt.date ≤ completed ∨ effective ≤ fill.occurredAt.date := by
    intro fill member
    obtain ⟨row, isRow, validates⟩ := valid.row member
    exact clear row isRow _ validates.parsed
  obtain ⟨legacy, epoch, cut⟩ := exists_cut isAfter valid.each valid.ordered clearFills
  have inRows : (rowsFrom host effective rows).Sublist rows := List.filter_sublist
  have inFills : epoch.Sublist fills := by
    rw [cut.isFills]
    exact List.sublist_append_right _ _
  -- The run over the whole history passes the cut, where the run of the epoch starts.
  have divided := finished
  rw [cut.isFills, each_append] at divided
  obtain ⟨atCut, toCut, fromCut⟩ := bind_eq_ok.mp divided
  obtain ⟨carry, states, isCarry, isStates, starts⟩ := cut.carry valid isAfter toCut
  have epochValid := valid.sublist cut.paired inRows inFills
  obtain ⟨epochFills, validated, paired, sameRows⟩ :=
    @ValidatesAll.validateRows host asOf (some effective) _ _ epochValid
      (by rintro _ ⟨⟩; exact cut.after)
  obtain ⟨scope, kept, other, looped, inStep⟩ :=
    starts.loop isAfter fromCut paired (sameRows ▸ cut.paired) cut.after
  rw [sameRows, List.nil_append, List.nil_append] at inStep
  -- What the kept rows lead to.
  have keptValid := epochValid.sublist inStep.valid inStep.divided.within inStep.within
  have toAsOf : ∀ fill ∈ fills, fill.occurredAt.date ≤ asOf := fun fill member =>
    valid.wellFormed.dated fill.paper (List.mem_map_of_mem member)
  have dated := (Dated.start fills asOf).run toAsOf valid.ordered finished
  have keptDated : ∀ position ∈ other.closed,
      position.openedAt.date ≤ position.closedAt.date := by
    rw [inStep.closed, List.forall_mem_map]
    exact fun position member =>
      (dated.closed position (List.filter_sublist.subset member)).1
  obtain ⟨epochReport, epochRebuilt, epochClosed, epochOpen⟩ :=
    rebuild_unvalued keptValid inStep.run keptDated
  have cycled : Cycled host asOf (fills.map ValidatedFill.paper) book :=
    (Cycled.start host asOf).run valid.wellFormed finished
  refine ⟨carry, isCarry, ⟨scope.attributable, scope.exclusions, remainingQuarantine scope.states,
    scope.releasedCodes⟩, ?_, inStep.divided.row epochValid.ids, ⟨epochReport, epochRebuilt, ?_, ?_,
    ?_⟩, ?_, ?_⟩
  · exact bind_eq_ok.mpr ⟨epochFills, validated, bind_eq_ok.mpr ⟨states, isStates,
      bind_eq_ok.mpr ⟨scope, looped, rfl⟩⟩⟩
  · rw [epochClosed, inStep.closed, isClosed]
  · rintro rfl
    obtain rfl := pure_eq_ok.mp isLedger
    rw [epochClosed, inStep.closed, isClosed]
    refine (List.map_congr_left fun position member => ?_).trans (List.map_id _)
    exact closed_gross finished position (List.filter_sublist.subset member)
  · rw [epochOpen, inStep.opens isAfter, isOpen, OrdMap.values_filterMap, List.filterMap_eq_filter,
      List.filter_map]
    rfl
  · rw [isOpen, remainingQuarantine_eq, inStep.quarantined isAfter]
    refine legacy_entries fun entry member => ?_
    exact (cycled.opens entry.1 entry.2 (OrdMap.get?_eq_some_iff.mpr member)).1
  · rw [isClosed]
    exact inStep.released

/-- The sales of the carried cycle are excluded, and the buy after them is kept. -/
theorem epoch_keeps_independent_cycles_sample :
    ∃ report, rebuildEconomicPositions sampleHost sampleRows 4 none = .ok report ∧
    ∃ carry, buildLegacyCarry sampleHost sampleRows 1 = .ok carry ∧ carry = [⟨"x", 200⟩] ∧
    ∃ scope, scopeEpochFills sampleHost (rowsFrom sampleHost 2 sampleRows) 2 carry = .ok scope ∧
      scope.attributable = [sampleRow 4 "buy" 3 3] ∧
      scope.releasedCodes =
        (report.closedPositions.filter (ClosedEconomicPosition.crosses 1)).length := by
  have rebuilds : (rebuildEconomicPositions sampleHost sampleRows 4 none).toOption.isSome = true := by
    decide +kernel
  have carries : buildLegacyCarry sampleHost sampleRows 1 = .ok [⟨"x", 200⟩] := by decide +kernel
  have keeps : (scopeEpochFills sampleHost (rowsFrom sampleHost 2 sampleRows) 2 [⟨"x", 200⟩]).map
      EpochScopedFills.attributable = .ok [sampleRow 4 "buy" 3 3] := by decide +kernel
  have clear : ∀ row ∈ sampleRows, ∀ time,
      parsePaperFillTimestamp sampleHost row.id row.occurredAt = .ok time →
        time.date ≤ 1 ∨ 2 ≤ time.date := by
    intro row _ time _
    exact (le_or_gt time.date 1).imp_right Int.add_one_le_of_lt
  cases rebuilt : rebuildEconomicPositions sampleHost sampleRows 4 none with
  | error failure =>
    rw [rebuilt] at rebuilds
    cases rebuilds
  | ok report =>
    obtain ⟨carry, isCarry, scope, isScope, _, _, _, released⟩ := epoch_keeps_independent_cycles
      sampleHost sampleRows 4 none report rebuilt 1 2 (by decide) clear
    obtain rfl := Except.ok.inj (isCarry.symm.trans carries)
    rw [isScope] at keeps
    exact ⟨report, rfl, _, carries, rfl, scope, isScope, Except.ok.inj keeps, released⟩

end Epoch

end StockAnalysis.Positions
