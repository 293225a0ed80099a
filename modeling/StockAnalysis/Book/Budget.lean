import Mathlib.Data.List.Perm.Subperm
import StockAnalysis.Book.Types

/-!
# Budget rules of the book

`trading/paper_book_v2_budget_v1.rs`: checked amounts, the partition of the account's cash into
strategy cash and unassigned cash, the comparison of a budget with the genesis account, and the
admission of a new buy. A strategy delta moves account cash and strategy cash together and never
touches unassigned cash.
-/

namespace StockAnalysis.Book

open StockAnalysis.Ledger (LedgerError Outcome Money Lot Mark Projection)

variable (cash : CashPartitions)

/-- `char::is_control`: the two blocks of the general category `Cc`. -/
def isControl (c : Char) : Bool :=
  decide (c.toNat < 32) || (decide (127 ≤ c.toNat) && decide (c.toNat < 160))

/-- The length of a text in UTF-8 bytes. -/
def byteLength (text : String) : Nat :=
  (text.toList.map Char.utf8Size).sum

/-- A nonempty text of at most 256 bytes without control characters. -/
def token (value : String) : Bool :=
  value != "" && decide (byteLength value ≤ 256) && !value.toList.any isControl

/-- `checked`: an exact intermediate as an amount. -/
def checked (value : Int) : Outcome Money :=
  Money.exact value

variable {amount delta : Money} {a b c : Nat} {allocations : List InitialLotAllocation}
  {genesis : Projection}

theorem checked_eq_ok {value : Int} :
    checked value = .ok amount ↔ amount.val = value :=
  Money.exact_eq_ok

/-- The largest unsigned 32-bit integer. -/
def u32Max : Nat := 4294967295

/-- `u32::checked_add`. -/
def u32Add (a b : Nat) : Outcome Nat := do
  require (a + b ≤ u32Max) .overflow
  pure (a + b)

/-- `u32::checked_sub`. -/
def u32Sub (a b : Nat) : Outcome Nat := do
  require (b ≤ a) .overflow
  pure (a - b)

theorem u32Add_eq_ok : u32Add a b = .ok c ↔ a + b ≤ u32Max ∧ a + b = c := by
  rw [u32Add, bind_eq_ok]
  simp [require_eq_ok, pure_eq_ok]

theorem u32Sub_eq_ok : u32Sub a b = .ok c ↔ b ≤ a ∧ a - b = c := by
  rw [u32Sub, bind_eq_ok]
  simp [require_eq_ok, pure_eq_ok]

def notional (price : Money) (quantity : Nat) : Outcome Money := do
  require (0 < price.val ∧ quantity ≠ 0)
    (.invalidInput "parent budget nonpositive price or quantity")
  checked (price.val * quantity)

theorem notional_eq_ok {price : Money} {quantity : Nat} :
    notional price quantity = .ok amount ↔
      (0 < price.val ∧ quantity ≠ 0) ∧ amount.val = price.val * quantity := by
  rw [notional, bind_eq_ok]
  simp [require_eq_ok, checked_eq_ok]

/-! ## Cash partitions -/

/-- The error of cash partitions that are negative or do not add up. -/
def cashPartitionsDiffer : LedgerError :=
  .integrityFailure "execution cash partitions differ"

def CashPartitions.validate : Outcome Unit := do
  require (0 ≤ cash.accountCash.val ∧ 0 ≤ cash.strategyCash.val ∧ 0 ≤ cash.unassignedCash.val)
    cashPartitionsDiffer
  let sum ← checked (cash.strategyCash.val + cash.unassignedCash.val)
  require (sum = cash.accountCash) cashPartitionsDiffer

/-- The cash after a strategy delta, before it is validated. -/
def CashPartitions.moved (delta : Money) : Outcome CashPartitions := do
  let accountCash ← checked (cash.accountCash.val + delta.val)
  let strategyCash ← checked (cash.strategyCash.val + delta.val)
  pure ⟨accountCash, strategyCash, cash.unassignedCash⟩

def CashPartitions.applyStrategyDelta (delta : Money) : Outcome CashPartitions := do
  cash.validate
  let next ← cash.moved delta
  next.validate
  pure next

/-- Partitions that are nonnegative and add up. -/
structure CashPartitions.Sound : Prop where
  account : 0 ≤ cash.accountCash.val
  strategy : 0 ≤ cash.strategyCash.val
  unassigned : 0 ≤ cash.unassignedCash.val
  sum : cash.strategyCash.val + cash.unassignedCash.val = cash.accountCash.val

variable {cash next : CashPartitions}

theorem CashPartitions.validate_eq_ok {done : Unit} :
    cash.validate = .ok done ↔ cash.Sound := by
  simp only [CashPartitions.validate, bind_eq_ok, require_eq_ok, checked_eq_ok]
  constructor
  · rintro ⟨_, ⟨account, strategy, unassigned⟩, sum, sumEq, same⟩
    exact ⟨account, strategy, unassigned, by rw [← sumEq, same]⟩
  · rintro ⟨account, strategy, unassigned, sum⟩
    exact ⟨(), ⟨account, strategy, unassigned⟩, cash.accountCash, sum.symm, rfl⟩

/-- What a strategy delta does: account and strategy cash move together. -/
structure CashPartitions.Moved (cash next : CashPartitions) (delta : Int) : Prop where
  account : next.accountCash.val = cash.accountCash.val + delta
  strategy : next.strategyCash.val = cash.strategyCash.val + delta
  unassigned : next.unassignedCash = cash.unassignedCash

theorem CashPartitions.moved_eq_ok (done : cash.moved delta = .ok next) :
    cash.Moved next delta.val := by
  simp only [CashPartitions.moved, bind_eq_ok, checked_eq_ok, pure_eq_ok] at done
  obtain ⟨account, accountEq, strategy, strategyEq, rfl⟩ := done
  exact ⟨accountEq, strategyEq, rfl⟩

theorem CashPartitions.applyStrategyDelta_eq_ok (done : cash.applyStrategyDelta delta = .ok next) :
    cash.Moved next delta.val ∧ next.Sound := by
  simp only [CashPartitions.applyStrategyDelta, bind_eq_ok, CashPartitions.validate_eq_ok,
    pure_eq_ok] at done
  obtain ⟨_, _, moved, movedEq, _, sound, rfl⟩ := done
  exact ⟨CashPartitions.moved_eq_ok movedEq, sound⟩

/-- A delta that the strategy cash covers keeps sound partitions sound. -/
theorem CashPartitions.Moved.sound {delta : Int} (moved : cash.Moved next delta)
    (sound : cash.Sound) (covered : 0 ≤ cash.strategyCash.val + delta) : next.Sound := by
  have account := moved.account
  have strategy := moved.strategy
  have unassigned := congrArg I64.val moved.unassigned
  have sum := sound.sum
  have spare := sound.unassigned
  exact ⟨by omega, by omega, by omega, by omega⟩

/-! ## The budget and the genesis account -/

def policyVersion : String := "paper-parent-budget/v1"

def allocationChainValid (allocation : InitialLotAllocation) : Bool :=
  match allocation.disposition with
  | .allocatedToStrategy => allocation.chainId.any token
  | .unassignedReadOnly => allocation.chainId.isNone

/-- Check one allocation against the identity of the allocation before it. -/
def checkAllocation (previous : Option String) (allocation : InitialLotAllocation) :
    Outcome (Option String) := do
  require (token allocation.lotId = true ∧ allocation.originalQuantity ≠ 0 ∧
    (∀ before ∈ previous, before < allocation.lotId) ∧ allocationChainValid allocation = true)
    (.invalidInput "parent budget complete ordered lot allocation is invalid")
  pure (some allocation.lotId)

def BudgetRecord.validateShape (budget : BudgetRecord) : Outcome Unit := do
  require (budget.version = policyVersion ∧ token budget.familyId = true ∧
    budget.effectiveFrom ≤ budget.effectiveThrough ∧
    token budget.originalSeedReference = true ∧ token budget.reviewReference = true ∧
    0 < budget.authorizedBudgetMicroCny.val ∧ 0 ≤ budget.initialStrategyCashMicroCny.val ∧
    (1 ≤ budget.concentrationBps ∧ budget.concentrationBps ≤ 10000) ∧
    (1 ≤ budget.chainExposureBps ∧ budget.chainExposureBps ≤ 10000) ∧
    budget.cashFloorBps ≤ 10000 ∧ 0 < budget.maxOrderExposureMicroCny.val ∧
    budget.maxOrderExposureMicroCny.val ≤ budget.authorizedBudgetMicroCny.val)
    (.invalidInput "parent budget descriptor is invalid")
  let _ ← each checkAllocation none budget.initialLots
  pure ()

/-- Compare one allocation with its genesis lot, adding the marked value of an allocated one. -/
def addAllocation (genesis : Projection) (capital : Int) (allocation : InitialLotAllocation) :
    Outcome Int := do
  let lot ← okOr (genesis.lots.find? fun lot => lot.lotId = allocation.lotId)
    (.invalidInput "parent budget unknown genesis lot")
  require (lot.quantity = allocation.originalQuantity)
    (.invalidInput "parent budget genesis quantity changed")
  match allocation.disposition with
  | .unassignedReadOnly => pure capital
  | .allocatedToStrategy => do
      let mark ← okOr (genesis.marks.get? lot.code)
        (.invalidInput "parent budget genesis mark absent")
      let value ← notional mark.price lot.quantity
      pure (capital + value.val)

/-- `initial_cash_with_work`. The source indexes the genesis lots by identity and compares the
counts, which is the test that the identities are distinct. -/
def BudgetRecord.initialCash (budget : BudgetRecord) (genesis : Projection) :
    Outcome CashPartitions := do
  budget.validateShape
  require (budget.initialStrategyCashMicroCny.val ≤ genesis.cash.val ∧
    budget.initialLots.length = genesis.lots.length)
    (.invalidInput "parent budget allocation does not match genesis")
  require ((genesis.lots.map Lot.lotId).Nodup) (.invalidInput "parent budget duplicate genesis lot")
  let capital ← each (addAllocation genesis) budget.initialStrategyCashMicroCny.val
    budget.initialLots
  require (0 ≤ capital)
    (.invalidInput "parent budget initial allocated capital exceeds fixed budget")
  let capital ← checked capital
  require (capital.val ≤ budget.authorizedBudgetMicroCny.val)
    (.invalidInput "parent budget initial allocated capital exceeds fixed budget")
  let unassigned ← checked (genesis.cash.val - budget.initialStrategyCashMicroCny.val)
  let partitions : CashPartitions :=
    ⟨genesis.cash, budget.initialStrategyCashMicroCny, unassigned⟩
  partitions.validate
  pure partitions

/-- The allocations are positive and ordered by the identity of their lots. -/
theorem each_checkAllocation {previous last : Option String}
    (done : each checkAllocation previous allocations = .ok last) :
    (∀ allocation ∈ allocations, allocation.originalQuantity ≠ 0 ∧
      ∀ before ∈ previous, before < allocation.lotId) ∧
      (allocations.map InitialLotAllocation.lotId).Pairwise (· < ·) := by
  induction allocations generalizing previous with
  | nil => simp
  | cons allocation allocations ih =>
    simp only [each, checkAllocation, bind_eq_ok, require_eq_ok, pure_eq_ok] at done
    obtain ⟨_, ⟨_, ⟨_, positive, above, _⟩, rfl⟩, rest⟩ := done
    obtain ⟨others, sorted⟩ := ih rest
    refine ⟨fun other member => ?_, ?_⟩
    · rcases List.mem_cons.mp member with rfl | later
      · exact ⟨positive, above⟩
      · obtain ⟨otherPositive, after⟩ := others other later
        refine ⟨otherPositive, fun before isBefore => ?_⟩
        exact lt_trans (above before isBefore) (after allocation.lotId rfl)
    · refine List.pairwise_cons.mpr ⟨fun id member => ?_, sorted⟩
      obtain ⟨other, later, rfl⟩ := List.mem_map.mp member
      exact (others other later).2 allocation.lotId rfl

/-- Every allocation is of a genesis lot with the allocated quantity. -/
theorem each_addAllocation {start capital : Int}
    (done : each (addAllocation genesis) start allocations = .ok capital) :
    ∀ allocation ∈ allocations, ∃ lot ∈ genesis.lots,
      lot.lotId = allocation.lotId ∧ lot.quantity = allocation.originalQuantity := by
  induction allocations generalizing start with
  | nil => simp
  | cons allocation allocations ih =>
    obtain ⟨next, added, rest⟩ := bind_eq_ok.mp done
    intro other member
    rcases List.mem_cons.mp member with rfl | later
    · simp only [addAllocation, bind_eq_ok, okOr_eq_ok, require_eq_ok] at added
      obtain ⟨lot, found, _, quantity, _⟩ := added
      exact ⟨lot, List.mem_of_find?_eq_some found, by simpa using List.find?_some found, quantity⟩
    · exact ih rest other later

/-- What the comparison of a budget with the genesis account establishes. -/
structure InitialCash (budget : BudgetRecord) (genesis : Projection) (cash : CashPartitions) :
    Prop where
  account : cash.accountCash = genesis.cash
  strategy : cash.strategyCash = budget.initialStrategyCashMicroCny
  sound : cash.Sound
  positive : ∀ lot ∈ genesis.lots, 0 < lot.quantity
  ordered : (budget.initialLots.map InitialLotAllocation.lotId).Pairwise (· < ·)

theorem BudgetRecord.initialCash_eq_ok {budget : BudgetRecord}
    (done : budget.initialCash genesis = .ok cash) :
    InitialCash budget genesis cash := by
  simp only [BudgetRecord.initialCash, BudgetRecord.validateShape, bind_eq_ok, require_eq_ok,
    CashPartitions.validate_eq_ok, pure_eq_ok] at done
  obtain ⟨_, ⟨_, _, _, checkedAll, _⟩, _, ⟨_, counted⟩, _, distinct, _, added, _, _, _, _, _, _,
    _, _, _, sound, rfl⟩ := done
  obtain ⟨positive, sorted⟩ := each_checkAllocation checkedAll
  refine ⟨rfl, rfl, sound, fun lot member => ?_, sorted⟩
  have lots := each_addAllocation added
  -- As many distinct allocations as lots, each of a lot: every lot has an allocation.
  have within : budget.initialLots.map InitialLotAllocation.lotId ⊆ genesis.lots.map Lot.lotId := by
    intro id inIds
    obtain ⟨allocation, inLots, rfl⟩ := List.mem_map.mp inIds
    obtain ⟨found, inGenesis, same, _⟩ := lots allocation inLots
    exact List.mem_map.mpr ⟨found, inGenesis, same⟩
  have subperm := List.subperm_of_subset (sorted.imp fun before => before.ne) within
  have perm := subperm.perm_of_length_le (by simp [counted])
  obtain ⟨allocation, inLots, same⟩ :=
    List.mem_map.mp (perm.mem_iff.mpr (List.mem_map_of_mem member))
  obtain ⟨found, inGenesis, foundSame, quantity⟩ := lots allocation inLots
  obtain rfl := List.inj_on_of_nodup_map distinct inGenesis member (foundSame.trans same)
  rw [quantity]
  exact Nat.pos_of_ne_zero (positive allocation inLots).1

/-! ## Admission of a new buy -/

/-- The sums that a new buy is measured against. -/
structure Exposure where
  aggregate : Int
  perCode : OrdMap String Int
  perChain : OrdMap String Int
  reservedCash : Int
  parents : List String

def addTo (sums : OrdMap String Int) (key : String) (value : Int) : OrdMap String Int :=
  sums.insert key ((sums.get? key).getD 0 + value)

def addHolding (exposure : Exposure) (holding : MarkedAllocation) : Outcome Exposure := do
  require (0 ≤ holding.markedValue.val ∧ token holding.code = true ∧
    token holding.chainId = true)
    (.invalidInput "parent budget marked allocation is invalid")
  pure { exposure with
    aggregate := exposure.aggregate + holding.markedValue.val
    perCode := addTo exposure.perCode holding.code holding.markedValue.val
    perChain := addTo exposure.perChain holding.chainId holding.markedValue.val }

def addReservation (exposure : Exposure) (reservation : WorkingReservation) :
    Outcome Exposure := do
  require (0 ≤ reservation.buyMaxNotional.val ∧ 0 ≤ reservation.feeReserve.val ∧
    0 ≤ reservation.cashReserve.val)
    (.invalidInput "parent budget working reservation is invalid")
  let allIn ← checked (reservation.buyMaxNotional.val + reservation.feeReserve.val)
  require (allIn = reservation.cashReserve ∧ token reservation.parentId = true ∧
    token reservation.code = true ∧ token reservation.chainId = true ∧
    reservation.parentId ∉ exposure.parents)
    (.invalidInput "parent budget working reservation is invalid")
  pure {
    aggregate := exposure.aggregate + allIn.val
    perCode := addTo exposure.perCode reservation.code allIn.val
    perChain := addTo exposure.perChain reservation.chainId allIn.val
    reservedCash := exposure.reservedCash + reservation.cashReserve.val
    parents := exposure.parents ++ [reservation.parentId] }

def requireNewBuy (policy : BudgetRecord) (cash : CashPartitions)
    (marked : List MarkedAllocation) (working : List WorkingReservation)
    (new : WorkingReservation) : Outcome Unit := do
  policy.validateShape
  cash.validate
  let holdings ← each addHolding ⟨0, OrdMap.empty, OrdMap.empty, 0, []⟩ marked
  let exposure ← each addReservation holdings (working ++ [new])
  let budget := policy.authorizedBudgetMicroCny.val
  let single := (exposure.perCode.get? new.code).getD 0
  let chain := (exposure.perChain.get? new.chainId).getD 0
  let floor := (budget * policy.cashFloorBps + 9999).tdiv 10000
  require (exposure.aggregate ≤ budget ∧ 0 < new.buyMaxNotional.val ∧
    new.buyMaxNotional.val + new.feeReserve.val ≤ policy.maxOrderExposureMicroCny.val ∧
    single * 10000 ≤ budget * policy.concentrationBps ∧
    chain * 10000 ≤ budget * policy.chainExposureBps ∧
    floor ≤ cash.strategyCash.val - exposure.reservedCash)
    (.invalidInput "parent budget new buy exceeds fixed all-in or cash limits")
  let _ ← checked exposure.aggregate
  let _ ← checked exposure.reservedCash
  pure ()

end StockAnalysis.Book
