import StockAnalysis.Book.Accounting
import StockAnalysis.Book.SellClaims

/-!
# Holdings outside a parent's chain

What a request may do to a lot: nothing, unless it evaluates a working sell parent of the chain
that the lot is assigned to. A lot of the genesis that the budget leaves unassigned belongs to no
chain, so that it stays in the account exactly as it was opened.
-/

namespace StockAnalysis.Book

open StockAnalysis.Ledger (Lot Money Outcome Projection)

/-! ## The assignments of the opening -/

variable {allocation : InitialLotAllocation} {budget : BudgetRecord}

/-- The opening assigns the lot of every allocation as the allocation says. -/
theorem get?_initialAssignments
    (ordered : (budget.initialLots.map InitialLotAllocation.lotId).Pairwise (· < ·))
    (member : allocation ∈ budget.initialLots) :
    (initialAssignments budget).get? allocation.lotId = some (assignedChain allocation) := by
  have sorted : (budget.initialLots.map fun next => (next.lotId, assignedChain next)).Pairwise
      fun a b => a.1 < b.1 := by
    rw [List.pairwise_map] at ordered ⊢
    exact ordered
  have folded := OrdMap.get?_foldl_insert _ OrdMap.empty allocation.lotId sorted
  rw [List.foldl_map, OrdMap.find?_eq_some_of_mem sorted (List.mem_map_of_mem member)] at folded
  exact folded

variable {lot : Lot} {host : Host} {manifest : ExecutionManifest} {fee : AShareFeePolicyV2}
  {state next : ExecutionProjection} {request : CommandRecord}

namespace ExecutionProjection

/-! ## Lots that no claim names -/

theorem Taken.untouched {tally next : Consumption} {claim left : LotClaim} {sold : Lot}
    {allocated : Money} (taken : Taken tally next claim left lot sold allocated) {other : Lot}
    (held : other ∈ tally.lots) (unclaimed : claim.lotId ≠ other.lotId) :
    other ∈ next.lots := by
  obtain ⟨before, after, lotsEq, nextEq⟩ := taken.split
  have different : other ≠ lot := by
    rintro rfl
    exact unclaimed taken.lotId.symm
  rw [lotsEq, List.mem_append, List.mem_cons] at held
  rw [nextEq, List.mem_append, List.mem_cons]
  rcases held with earlier | same | later
  · exact Or.inl earlier
  · exact absurd same different
  · exact Or.inr (Or.inr later)

/-- The consuming loop leaves a lot that no claim names as it is. -/
theorem consumeClaims_untouched {assignments : OrdMap String (Option String)} {chain : String}
    {session : Day} {tally next : Consumption} {claims rest : List LotClaim}
    (done : consumeClaims assignments chain session tally claims = .ok (next, rest))
    (held : lot ∈ tally.lots) (unclaimed : ∀ claim ∈ claims, claim.lotId ≠ lot.lotId) :
    lot ∈ next.lots := by
  induction claims generalizing tally rest with
  | nil =>
    cases pure_eq_ok.mp done
    exact held
  | cons claim claims ih =>
    simp only [consumeClaims, bind_eq_ok, pure_eq_ok, Prod.exists, Prod.mk.injEq] at done
    obtain ⟨middle, left, first, _, others, loop, rfl, rfl⟩ := done
    have kept : lot ∈ middle.lots := by
      rcases consumeClaim_cases first with ⟨_, rfl, _⟩ | ⟨taken, sold, allocated, takes⟩
      · exact held
      · exact takes.untouched held (unclaimed claim List.mem_cons_self)
    exact ih loop kept fun other member => unclaimed other (List.mem_cons_of_mem _ member)

/-- A lot that a fill changes or closes is one that the filled parent claims. -/
theorem Filled.consumed {parentId : String} {window : WindowRecord} {parent : ParentState}
    {modeled : ModeledFill} {trade : Trade} {reserve : WorkingReservation} {record : FillRecord}
    (filled : Filled host manifest fee state next parentId window parent modeled trade reserve
      record) (held : lot ∈ state.account.lots) (positive : 0 < lot.quantity)
    (gone : lot ∉ next.account.lots) :
    parent.intent.side = .sell ∧ ∃ claim ∈ parent.sellClaims, claim.lotId = lot.lotId := by
  rw [filled.lots] at gone
  rcases filled.traded with bought | ⟨consumed, rest, sold⟩
  · rw [bought.lots] at gone
    exact absurd (List.mem_append_left _ held) gone
  · refine ⟨sold.side, ?_⟩
    by_contra unclaimed
    have left := consumeClaims_untouched sold.loop held fun claim member same =>
      unclaimed ⟨claim, member, same⟩
    rw [sold.lots] at gone
    exact gone (List.mem_filter.mpr ⟨left, by simpa using positive⟩)

/-- The request that changes or closes a lot evaluates a sell parent of the lot's chain. -/
def ConsumedBy (state : ExecutionProjection) (lot : Lot) (request : CommandRecord) : Prop :=
  ∃ expected parentId window parent, request = .evaluate expected parentId window ∧
    state.parents.get? parentId = some parent ∧ parent.status.isWorking = true ∧
    parent.intent.side = .sell ∧ AssignedTo state.lotAssignments lot.lotId parent.intent.chainId

/-- A claim on a held lot proves the assignment of the lot to the claiming parent's chain. -/
theorem ClaimSound.assigned {intent : IntentRecord} {claim : LotClaim}
    (sound : ClaimSound state intent claim) :
    AssignedTo state.lotAssignments claim.lotId intent.chainId := by
  obtain ⟨lot, _, lotId, _, _, assigned⟩ := sound.lot
  exact lotId ▸ assigned

/-- The frame of a step: every lot stays as it is, unless a sell parent of its chain fills. -/
theorem Step.lot_kept (step : Step host manifest fee state next request) (claiming : Claiming state)
    (held : lot ∈ state.account.lots) (positive : 0 < lot.quantity) :
    lot ∈ next.account.lots ∨ ConsumedBy state lot request := by
  cases step with
  | submit submitted => exact Or.inl (submitted.holdings.lots ▸ held)
  | observe observed => exact Or.inl (observed.holdings.lots ▸ held)
  | fill filled =>
    by_cases kept : lot ∈ next.account.lots
    · exact Or.inl kept
    · obtain ⟨side, claim, member, same⟩ := filled.consumed held positive kept
      have sound := (claiming _ _ filled.matched.stored).claims claim member
      exact Or.inr ⟨_, _, _, _, rfl, filled.matched.stored, filled.matched.working, side,
        same ▸ sound.assigned⟩
  | close closed => exact Or.inl (closed.holdings.lots ▸ held)
  | marks remarked => exact Or.inl (remarked.holdings.lots ▸ held)

/-- A step keeps the assignment of every lot that it leaves in the account. -/
theorem Step.assignment_kept (step : Step host manifest fee state next request)
    (valid : state.Valid) (nextValid : next.Valid) (kept : lot ∈ next.account.lots)
    {chain : Option String} (assigned : state.lotAssignments.get? lot.lotId = some chain) :
    next.lotAssignments.get? lot.lotId = some chain := by
  cases step with
  | submit submitted => exact submitted.holdings.assignments ▸ assigned
  | observe observed => exact observed.holdings.assignments ▸ assigned
  | fill filled => exact (filled.lotsKept valid nextValid).assigned lot kept chain assigned
  | close closed => exact closed.holdings.assignments ▸ assigned
  | marks remarked => exact remarked.holdings.assignments ▸ assigned

/-- A lot that is held outside every chain. -/
structure Unassigned (state : ExecutionProjection) (lot : Lot) : Prop where
  held : lot ∈ state.account.lots
  assignment : state.lotAssignments.get? lot.lotId = some none

theorem Step.unassigned (step : Step host manifest fee state next request) (valid : state.Valid)
    (nextValid : next.Valid) (claiming : Claiming state) (positive : 0 < lot.quantity)
    (unassigned : Unassigned state lot) : Unassigned next lot := by
  rcases step.lot_kept claiming unassigned.held positive with kept | consumed
  · exact ⟨kept, step.assignment_kept valid nextValid kept unassigned.assignment⟩
  · obtain ⟨_, _, _, parent, _, _, _, _, assigned⟩ := consumed
    rw [AssignedTo, unassigned.assignment] at assigned
    cases assigned

variable {genesis : Projection}

/-- A lot of the genesis that the budget leaves unassigned is opened outside every chain. -/
theorem Opened.unassigned {start : ExecutionProjection} (opened : Opened genesis budget start)
    (allocated : allocation ∈ budget.initialLots)
    (readOnly : allocation.disposition = .unassignedReadOnly) (held : lot ∈ genesis.lots)
    (same : lot.lotId = allocation.lotId) : Unassigned start lot := by
  refine ⟨opened.account ▸ held, ?_⟩
  rw [opened.assignments, same, get?_initialAssignments opened.cash.ordered allocated,
    assignedChain, readOnly]

theorem Reachable.unassigned (reachable : Reachable host manifest genesis state)
    (allocated : allocation ∈ manifest.budget.initialLots)
    (readOnly : allocation.disposition = .unassignedReadOnly) (held : lot ∈ genesis.lots)
    (same : lot.lotId = allocation.lotId) : Unassigned state lot := by
  refine (reachable.invariant
    (fun state => (Claiming state ∧ 0 < lot.quantity) ∧ Unassigned state lot)
    (fun start opened => ⟨⟨?_, ?_⟩, opened.unassigned allocated readOnly held same⟩)
    (fun before after request fee valid nextValid _ step holds => ?_)).2
  · intro id parent stored
    rw [opened.parents] at stored
    cases stored
  · exact opened.cash.positive lot held
  · obtain ⟨⟨claiming, positive⟩, unassigned⟩ := holds
    exact ⟨⟨step.claiming valid nextValid claiming, positive⟩,
      step.unassigned valid nextValid claiming positive unassigned⟩

/-- Unassigned lots of the genesis stay as they were opened, belong to no chain and are claimed by
no parent; a lot of a chain is changed or closed only by a sell parent of that chain.

Proof: claims stand on lots of their parent's chain (`Claiming`), and only a sale out of such claims
changes a lot (`Step.lot_kept`). -/
theorem unassigned_holdings_read_only {host : Host} {manifest : ExecutionManifest}
    {genesis : Projection} {state : ExecutionProjection}
    (reachable : Reachable host manifest genesis state) :
    (∀ allocation ∈ manifest.budget.initialLots, allocation.disposition = .unassignedReadOnly →
      ∀ lot ∈ genesis.lots, lot.lotId = allocation.lotId →
        lot ∈ state.account.lots ∧ state.lotAssignments.get? lot.lotId = some none ∧
        ∀ id parent, state.parents.get? id = some parent →
          ∀ claim ∈ parent.sellClaims, claim.lotId ≠ lot.lotId) ∧
    (∀ request next effect, state.applyRequest host manifest request = .ok (next, effect) →
      ∀ lot ∈ state.account.lots,
        (lot ∈ next.account.lots ∧
          next.lotAssignments.get? lot.lotId = state.lotAssignments.get? lot.lotId) ∨
        ∃ expected parentId window parent, request = .evaluate expected parentId window ∧
          state.parents.get? parentId = some parent ∧ parent.intent.side = .sell ∧
          state.lotAssignments.get? lot.lotId = some (some parent.intent.chainId)) := by
  have claiming := reachable.claiming
  refine ⟨fun allocation allocated readOnly lot held same => ?_,
    fun request next effect applied lot held => ?_⟩
  · have unassigned := reachable.unassigned allocated readOnly held same
    refine ⟨unassigned.held, unassigned.assignment, fun id parent stored claim member named => ?_⟩
    have assigned := ((claiming id parent stored).claims claim member).assigned
    rw [AssignedTo, named, unassigned.assignment] at assigned
    cases assigned
  · obtain ⟨nextValid, fee, _, step⟩ := applyRequest_step applied
    have positive := reachable.balanced.positive lot held
    rcases step.lot_kept claiming held positive with kept | consumed
    · have keyed := reachable.valid.dispositions.2.1 lot.lotId (List.mem_map_of_mem held)
      obtain ⟨chain, assigned⟩ := OrdMap.mem_keys_iff.mp keyed
      refine Or.inl ⟨kept, ?_⟩
      rw [assigned, step.assignment_kept reachable.valid nextValid kept assigned]
    · obtain ⟨expected, parentId, window, parent, evaluated, stored, _, side, assigned⟩ := consumed
      exact Or.inr ⟨expected, parentId, window, parent, evaluated, stored, side, assigned⟩

/-! ## A book with an unassigned lot -/

/-- A lot of the traded code that the strategy may not touch. -/
def spareLot : Lot :=
  ⟨"spare", "600000", "sample", 200, I64.lit 8000000, I64.lit 4000000, 19600, 19601, none⟩

def spareGenesis : Projection :=
  { sampleGenesis with lots := sampleGenesis.lots ++ [spareLot] }

def spareManifest : ExecutionManifest :=
  { sampleManifest with
    budget := { sampleBudget with
      initialLots := sampleBudget.initialLots ++ [⟨"spare", 200, .unassignedReadOnly, none⟩] } }

/-- The sample sale with the spare lot beside the sold one. -/
def spareBook : Outcome ExecutionProjection := do
  let start ← initial sampleHost spareGenesis spareManifest.budget
  run sampleHost spareManifest start (sampleRequests.take 2)

/-- After the sale of shares of its code the spare lot is still held, unassigned and unclaimed. -/
theorem unassigned_holdings_read_only_sample : ∃ state,
    Reachable sampleHost spareManifest spareGenesis state ∧ state.fills.length = 1 ∧
      spareLot ∈ state.account.lots ∧ state.lotAssignments.get? "spare" = some none := by
  have passed : spareBook.toOption.any (fun state => decide (state.fills.length = 1)) = true := by
    decide +kernel
  obtain ⟨state, ran, counted⟩ : ∃ state, spareBook = .ok state ∧ state.fills.length = 1 := by
    cases ran : spareBook with
    | error reason =>
      rw [ran] at passed
      cases passed
    | ok state =>
      rw [ran] at passed
      exact ⟨state, rfl, of_decide_eq_true passed⟩
  obtain ⟨start, opened, rest⟩ := bind_eq_ok.mp ran
  have reachable : Reachable sampleHost spareManifest spareGenesis state :=
    ⟨_, start, opened, rest⟩
  obtain ⟨held, assignment, _⟩ := (unassigned_holdings_read_only reachable).1
    ⟨"spare", 200, .unassignedReadOnly, none⟩ (by decide) rfl spareLot (by decide) rfl
  exact ⟨state, reachable, counted, held, assignment⟩

end ExecutionProjection

end StockAnalysis.Book
