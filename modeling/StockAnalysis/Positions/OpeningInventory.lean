import StockAnalysis.Ledger.Execution
import StockAnalysis.Positions.Cycles

/-!
# Opening inventory

The lots that an account was seeded with are not entries of a strategy. `opening_inventory_sample`
runs the effective fills of an account over the seed lots and the bought lots together, and splits
each sale: what it took from seed lots is excluded, the rest is the strategy's. What remains are the
rows and the costs of the strategy alone.
-/

namespace StockAnalysis.Positions

open StockAnalysis.Ledger (Lot Money LedgerError AccountBinding)

/-! ## Effective fills -/

inductive EffectiveFillScope where
  | legacyRaw
  | epoch (binding : AccountBinding)
  | legacyBeforeCutover (binding : AccountBinding)

/-- Rows in the order of their times and identities. -/
def RowsOrdered (host : Host) (rows : List EconomicFillRow) : Prop :=
  rows.Pairwise fun earlier later => ∀ first second,
    parsePaperFillTimestamp host earlier.id earlier.occurredAt = .ok first →
    parsePaperFillTimestamp host later.id later.occurredAt = .ok second →
      fillOrder first earlier.id < fillOrder second later.id

/-- A stored time, with the ledger's error. -/
def ledgerTimestamp (host : Host) (row : EconomicFillRow) : Ledger.Outcome NaiveDateTime :=
  (parsePaperFillTimestamp host row.id row.occurredAt).mapError fun text =>
    .integrityFailure (text.write host)

section Rows

variable {host : Host} {asOf : Day} {rows : List EconomicFillRow}

variable {kept : List EconomicFillRow}

end Rows

def portion (amount : Money) (part total : Nat) : Ledger.Outcome Money := do
  require (total ≠ 0 ∧ part ≤ total) (.integrityFailure "invalid FIFO allocation")
  Money.exact ((amount.val * part).tdiv total)

/-- A lot, and whether it is one of the opening inventory. -/
structure SampleLot where
  lot : Lot
  opening : Bool

/-- A sale in progress. -/
structure ExitTally where
  left : Nat
  opening : Nat
  openingBasis : Money
  openingBuyFee : Money
  basis : Money
  buyFee : Money
  seedLotIds : List String

def ExitTally.start (quantity : Nat) : ExitTally :=
  ⟨quantity, 0, 0, 0, 0, 0, []⟩

/-- What a seed lot adds to the opening part of a sale. -/
def ExitTally.takeOpening (tally : ExitTally) (entry : SampleLot) (taken : Nat)
    (consumedBasis allocated : Money) : Ledger.Outcome ExitTally :=
  if entry.opening = true then do
    require (tally.opening + taken < u32Limit) .overflow
    let openingBasis ← tally.openingBasis.add consumedBasis
    let openingBuyFee ← tally.openingBuyFee.add allocated
    pure { tally with
      opening := tally.opening + taken
      openingBasis := openingBasis
      openingBuyFee := openingBuyFee
      seedLotIds := tally.seedLotIds ++ [entry.lot.lotId] }
  else pure tally

/-- One lot of a sale. -/
def takeLot (code : String) (date : Day) (tally : ExitTally) (entry : SampleLot) :
    Ledger.Outcome (ExitTally × SampleLot) :=
  if tally.left = 0 ∨ entry.lot.code ≠ code ∨ date < entry.lot.sellableFrom then pure (tally, entry)
  else do
    let taken := min tally.left entry.lot.quantity
    let allocated ← portion entry.lot.buyFeeRemaining taken entry.lot.quantity
    let consumedBasis ← entry.lot.basisPrice.mul taken
    let basis ← tally.basis.add consumedBasis
    let buyFee ← tally.buyFee.add allocated
    let split ← tally.takeOpening entry taken consumedBasis allocated
    let remaining ← entry.lot.buyFeeRemaining.sub allocated
    pure ({ split with basis := basis, buyFee := buyFee, left := tally.left - taken },
      { entry with lot := { entry.lot with
        buyFeeRemaining := remaining, quantity := entry.lot.quantity - taken } })

/-- The loop of a sale over the lots. -/
def takeLots (code : String) (date : Day) :
    ExitTally → List SampleLot → Ledger.Outcome (ExitTally × List SampleLot)
  | tally, [] => pure (tally, [])
  | tally, entry :: entries => do
      let (next, left) ← takeLot code date tally entry
      let (final, rest) ← takeLots code date next entries
      pure (final, left :: rest)

/-! ## The sample -/

structure OpeningInventoryExit where
  fillId : Int
  originalQuantity : Nat
  openingQuantity : Nat
  strategyQuantity : Nat
  seedLotIds : List String
  openingBasis : Money
  openingBuyFee : Money
  openingSellFee : Money
  openingNetPnl : Money

structure EffectiveExitPnl where
  fillId : Int
  date : Day
  accountNetPnl : Money
  strategyNetPnl : Option Money

structure SampleState where
  lots : List SampleLot
  rows : List EconomicFillRow
  costs : List FillCostEvidence
  exclusions : List OpeningInventoryExit
  exitPnls : List EffectiveExitPnl

/-- What a sale brought in over its basis and its fees. -/
def netOf (price : Money) (quantity : Nat) (basis buyFee sellFee : Money) :
    Ledger.Outcome Money := do
  let notional ← price.mul quantity
  let overBasis ← notional.sub basis
  let overBuyFee ← overBasis.sub buyFee
  overBuyFee.sub sellFee

/-- Keep a row of the strategy with its cost. -/
def SampleState.keep (market : Ledger.Host) (projectionHash : String) (state : SampleState)
    (row : EconomicFillRow) (rowFee : Money) : SampleState :=
  { state with
    rows := state.rows ++ [row]
    costs := state.costs ++ [⟨row.id, market.cny rowFee, "OpeningInventorySampleV1:" ++
      projectionHash ++ ":" ++ toString row.id ++ ":" ++ toString row.quantity⟩] }

def SampleState.buy (market : Ledger.Host) (projectionHash : String) (state : SampleState)
    (row : EconomicFillRow) (quantity : Nat) (price : Money) (date : Day) (rowFee : Money) :
    Ledger.Outcome SampleState := do
  let sellableFrom ← (market.nextTradingDay date).mapError .evidenceUnavailable
  let lot : Lot := ⟨"effective:" ++ toString row.id, row.code, row.name, quantity, price, rowFee, date,
    sellableFrom, none⟩
  let bought : SampleState := { state with lots := state.lots ++ [⟨lot, false⟩] }
  pure (bought.keep market projectionHash row rowFee)

/-- The parts of a sale. -/
structure ExitSplit where
  tally : ExitTally
  openingSellFee : Money
  openingNet : Money
  accountNet : Money
  strategyNet : Money
  strategyFee : Money

def splitExit (price : Money) (quantity : Nat) (rowFee : Money) (tally : ExitTally) :
    Ledger.Outcome ExitSplit := do
  let openingSellFee ← portion rowFee tally.opening quantity
  let openingNet ← netOf price tally.opening tally.openingBasis tally.openingBuyFee openingSellFee
  let accountNet ← netOf price quantity tally.basis tally.buyFee rowFee
  let strategyNet ← accountNet.sub openingNet
  let strategyFee ← rowFee.sub openingSellFee
  pure ⟨tally, openingSellFee, openingNet, accountNet, strategyNet, strategyFee⟩

/-- The record of the opening part of a sale. -/
def ExitSplit.exclusion (split : ExitSplit) (fillId : Int) (quantity : Nat) : OpeningInventoryExit where
  fillId := fillId
  originalQuantity := quantity
  openingQuantity := split.tally.opening
  strategyQuantity := quantity - split.tally.opening
  seedLotIds := split.tally.seedLotIds
  openingBasis := split.tally.openingBasis
  openingBuyFee := split.tally.openingBuyFee
  openingSellFee := split.openingSellFee
  openingNetPnl := split.openingNet

def SampleState.sell (market : Ledger.Host) (projectionHash : String) (state : SampleState)
    (row : EconomicFillRow) (quantity : Nat) (price : Money) (date : Day) (rowFee : Money) :
    Ledger.Outcome SampleState := do
  let (tally, lots) ← takeLots row.code date (.start quantity) state.lots
  require (tally.left = 0) (.evidenceUnavailable ("effective FIFO/T+1 exit " ++ toString row.id ++
    " lacks " ++ toString tally.left ++ " shares"))
  let split ← splitExit price quantity rowFee tally
  let strategyQuantity := quantity - tally.opening
  let sold : SampleState := { state with
    lots := lots.filter fun entry => 0 < entry.lot.quantity
    exitPnls := state.exitPnls ++ [⟨row.id, date, split.accountNet,
      if 0 < strategyQuantity then some split.strategyNet else none⟩]
    exclusions := if 0 < tally.opening then
      state.exclusions ++ [split.exclusion row.id quantity] else state.exclusions }
  pure (if strategyQuantity = 0 then sold
    else sold.keep market projectionHash { row with quantity := strategyQuantity } split.strategyFee)

/-- `u32::try_from`. -/
def exactQuantity (quantity : Int) : Ledger.Outcome Nat := do
  require (0 ≤ quantity ∧ quantity < u32Limit) .overflow
  pure quantity.toNat

/-- One row of the sample. -/
def sampleFillRow (host : Host) (market : Ledger.Host) (projectionHash : String)
    (state : SampleState) (row : EconomicFillRow) : Ledger.Outcome SampleState := do
  let quantity ← exactQuantity row.quantity
  let fillPrice ← okOr row.fillPrice (.integrityFailure "effective fill price absent")
  let price ← market.fromCny fillPrice
  let time ← ledgerTimestamp host row
  let rowFee ← Ledger.fee price quantity row.direction
  if row.direction = "buy" then state.buy market projectionHash row quantity price time.date rowFee
  else if row.direction = "sell" then
    state.sell market projectionHash row quantity price time.date rowFee
  else .error (.integrityFailure "invalid effective side")

def EffectiveFillScope.seedBinding : EffectiveFillScope → Option AccountBinding
  | .epoch binding => some binding
  | _ => none

end StockAnalysis.Positions
