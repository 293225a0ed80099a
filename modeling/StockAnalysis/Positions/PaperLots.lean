import StockAnalysis.Foundation.Fifo
import StockAnalysis.Positions.Types

/-!
# Positions rebuilt from fills

`rebuild_paper_positions` folds the fills into one queue of lots per code. A sale takes from the
front of the queue and refuses a lot of its own day. The lots that remain are summed up in an
inventory per code: the shares of earlier days are sellable, those of the last day locked.
-/

namespace StockAnalysis.Positions

structure OpenPaperLot where
  buyFillId : Int
  boughtAt : NaiveDateTime
  originalQuantity : Nat
  remainingQuantity : Nat
  price : F64

variable (host : Host) (lot : OpenPaperLot) (code : String)

structure PositionState where
  name : String
  lots : List OpenPaperLot
  sourceFillIds : List Int

structure PaperLotAuditEvidence where
  buyFillId : Int
  boughtAt : NaiveDateTime
  originalQuantity : Nat
  remainingQuantity : Nat
  price : F64
  sellable : Bool

structure PaperPositionInventory where
  code : String
  name : String
  totalQuantity : Nat
  sellableQuantity : Nat
  lockedQuantity : Nat
  sellableAvgPrice : Option F64
  sellableBuyFee : F64
  earliestSellableDate : Option Day
  asOfDate : Day
  sourceFillIds : List Int
  openLots : List PaperLotAuditEvidence

/-- A lot by its remaining shares. -/
def lotMeasure : Fifo.Measure OpenPaperLot where
  size := OpenPaperLot.remainingQuantity
  resize lot n := { lot with remainingQuantity := n }
  size_resize _ _ := rfl
  resize_size _ := rfl
  resize_resize _ _ _ := rfl

/-! ## The fold over the fills -/

/-- The state of the loop over the fills. -/
structure Rebuild where
  states : OrdMap String PositionState
  seenIds : List Int
  previousOrder : Option FillOrder

def Rebuild.start : Rebuild :=
  ⟨OrdMap.empty, [], none⟩

/-- A lot of an earlier day. -/
def OpenPaperLot.boughtBefore (date : Day) (lot : OpenPaperLot) : Bool :=
  decide (lot.boughtAt.date < date)

/-- Why a sale was refused. -/
def shortageText (fill : PaperFill) : Fifo.Shortage OpenPaperLot → FifoText
  | .exhausted remaining => .oversell fill remaining
  | .blocked lot => .tPlusOne fill lot.boughtAt.date

/-- The loop of a sale over the front of the queue. -/
def sellLots (fill : PaperFill) (quantity : Nat) (lots : List OpenPaperLot) :
    Except FifoText (List OpenPaperLot) :=
  (Fifo.consume lotMeasure (OpenPaperLot.boughtBefore fill.occurredAt.date) quantity
    lots).mapError (shortageText fill)

def tradeLots (fill : PaperFill) (price : F64) (quantity : Nat) (lots : List OpenPaperLot) :
    Except FifoText (List OpenPaperLot) :=
  if fill.direction = "buy" then
    pure (lots ++ [⟨fill.id, fill.occurredAt, quantity, quantity, price⟩])
  else if fill.direction = "sell" then sellLots fill quantity lots
  else .error (.direction fill.id fill.direction)

/-- One fill of `rebuild_paper_positions`. -/
def rebuildFill (asOf : Day) (run : Rebuild) (fill : PaperFill) : Except FifoText Rebuild := do
  require (0 < fill.id ∧ blank fill.code = false ∧ blank fill.name = false) (.identity fill)
  require (fill.id ∉ run.seenIds) (.duplicate fill.id)
  let order := fillOrder fill.occurredAt fill.id
  require (∀ previous ∈ run.previousOrder, previous < order) (.order fill)
  require (fill.occurredAt.date ≤ asOf) (.future fill asOf)
  let price ← okOr (fill.fillPrice.filter host.validPrice) (.price fill.id)
  let quantity ← okOr (boardQuantity u32Limit fill.quantity) (.quantity fill)
  let state := (run.states.get? fill.code).getD ⟨fill.name, [], []⟩
  let lots ← tradeLots fill price quantity state.lots
  pure
    { states := run.states.insert fill.code
        ⟨fill.name, lots, state.sourceFillIds ++ [fill.id]⟩
      seenIds := fill.id :: run.seenIds
      previousOrder := some order }

/-! ## The inventory of a code -/

/-- The sums of `inventory_from_state`. -/
structure InventoryTally where
  totalQuantity : Nat
  sellableQuantity : Nat
  lockedQuantity : Nat
  sellableCost : F64
  sellableBuyFee : F64
  earliestSellableDate : Option Day
  openLots : List PaperLotAuditEvidence

def InventoryTally.start : InventoryTally :=
  ⟨0, 0, 0, 0, 0, none, []⟩

/-- `u32::checked_add`. -/
def checkedAdd (reason : PositionReason) (sum amount : Nat) : Except FifoText Nat := do
  require (sum + amount < u32Limit) (.position code reason)
  pure (sum + amount)

def OpenPaperLot.evidence (sellable : Bool) : PaperLotAuditEvidence :=
  ⟨lot.buyFillId, lot.boughtAt, lot.originalQuantity, lot.remainingQuantity, lot.price, sellable⟩

/-- The cost of a lot's remaining shares, and the share of its buy fee that goes with them. -/
def lotCost : F64 :=
  host.multiply lot.price (host.ofQuantity lot.remainingQuantity)

def lotNotional : F64 :=
  host.multiply lot.price (host.ofQuantity lot.originalQuantity)

def lotBuyFee : F64 :=
  host.divide (host.multiply (host.buyAdverseCost (lotNotional host lot))
    (host.ofQuantity lot.remainingQuantity)) (host.ofQuantity lot.originalQuantity)

def addSellable (tally : InventoryTally) (lot : OpenPaperLot) (total : Nat) :
    Except FifoText InventoryTally := do
  let sellable ← checkedAdd code .sellableQuantity tally.sellableQuantity lot.remainingQuantity
  let cost := host.add tally.sellableCost (lotCost host lot)
  require (host.isFinite cost = true) (.position code .sellableCost)
  require (host.isFinite (lotNotional host lot) = true) (.position code .notional)
  let fee := host.add tally.sellableBuyFee (lotBuyFee host lot)
  require (host.isFinite fee = true) (.position code .fee)
  let bought := lot.boughtAt.date
  pure { tally with
    totalQuantity := total
    sellableQuantity := sellable
    sellableCost := cost
    sellableBuyFee := fee
    earliestSellableDate := some ((tally.earliestSellableDate.map (min · bought)).getD bought)
    openLots := tally.openLots ++ [lot.evidence true] }

def addLocked (tally : InventoryTally) (lot : OpenPaperLot) (total : Nat) :
    Except FifoText InventoryTally := do
  let locked ← checkedAdd code .lockedQuantity tally.lockedQuantity lot.remainingQuantity
  pure { tally with
    totalQuantity := total
    lockedQuantity := locked
    openLots := tally.openLots ++ [lot.evidence false] }

def addLot (asOf : Day) (tally : InventoryTally) (lot : OpenPaperLot) :
    Except FifoText InventoryTally := do
  let total ← checkedAdd code .quantity tally.totalQuantity lot.remainingQuantity
  if lot.boughtAt.date < asOf then addSellable host code tally lot total
  else if lot.boughtAt.date = asOf then addLocked code tally lot total
  else .error (.futureLot code lot.boughtAt.date asOf)

def averagePrice (tally : InventoryTally) : Except FifoText (Option F64) :=
  if tally.sellableQuantity = 0 then pure none
  else do
    let average := host.divide tally.sellableCost (host.ofQuantity tally.sellableQuantity)
    require (host.validPrice average = true) (.average code average)
    pure (some average)

def inventoryFromState (asOf : Day) (code : String) (state : PositionState) :
    Except FifoText PaperPositionInventory := do
  let tally ← each (addLot host code asOf) .start state.lots
  let average ← averagePrice host code tally
  pure
    { code := code
      name := state.name
      totalQuantity := tally.totalQuantity
      sellableQuantity := tally.sellableQuantity
      lockedQuantity := tally.lockedQuantity
      sellableAvgPrice := average
      sellableBuyFee := tally.sellableBuyFee
      earliestSellableDate := tally.earliestSellableDate
      asOfDate := asOf
      sourceFillIds := state.sourceFillIds
      openLots := tally.openLots }

/-- The inventories of the codes that hold shares, in code order. -/
def openInventories (host : Host) (asOf : Day) :
    List (String × PositionState) → Except FifoText (List PaperPositionInventory)
  | [] => pure []
  | (code, state) :: states => do
      let inventory ← inventoryFromState host asOf code state
      let inventories ← openInventories host asOf states
      pure (if 0 < inventory.totalQuantity then inventory :: inventories else inventories)

def rebuildPaperPositions (fills : List PaperFill) (asOf : Day) :
    Except FifoText (List PaperPositionInventory) := do
  let run ← each (rebuildFill host asOf) .start fills
  openInventories host asOf run.states.entries

end StockAnalysis.Positions
