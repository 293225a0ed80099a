import Mathlib.Data.List.Infix
import Mathlib.Data.List.Sort
import Mathlib.Order.Nat
import StockAnalysis.Foundation.Fifo
import StockAnalysis.Positions.Types

/-!
# Economic positions

`rebuild_economic_positions` divides the fills of a code into cycles, each from a flat position to
the next flat one. A cycle keeps its own queue of lots, the fills it is made of, and what they cost
and brought in; a cycle that reaches flat is closed and valued under a ledger of costs.
-/

namespace StockAnalysis.Positions

variable (host : Host)

/-! ## Rows and families -/

structure EconomicFillRow where
  id : Int
  planId : String
  code : String
  name : String
  direction : String
  fillPrice : Option F64
  quantity : Int
  occurredAt : String
  virtualReason : String
deriving DecidableEq

inductive SignalFamily where
  | newsCatalyst
  | volumeSurge
  | mainNetInflow
  | breakout
  | sectorLeader
  | auctionAnomaly
  | llmSelect
  | momentum
  | postCloseFundInflow
  | exitByRule
  | unknown
deriving DecidableEq

/-- The place of a family in the derived order. -/
def SignalFamily.rank : SignalFamily → Nat
  | .newsCatalyst => 0
  | .volumeSurge => 1
  | .mainNetInflow => 2
  | .breakout => 3
  | .sectorLeader => 4
  | .auctionAnomaly => 5
  | .llmSelect => 6
  | .momentum => 7
  | .postCloseFundInflow => 8
  | .exitByRule => 9
  | .unknown => 10

theorem SignalFamily.rank_injective : Function.Injective SignalFamily.rank := by
  intro first second same
  cases first <;> cases second <;> first | rfl | cases same

instance : LinearOrder SignalFamily :=
  LinearOrder.lift' SignalFamily.rank SignalFamily.rank_injective

/-- `text.trim()`, as characters. -/
def trim (text : String) : List Char :=
  ((text.toList.dropWhile isWhitespace).reverse.dropWhile isWhitespace).reverse

/-- The reasons that name a family by their first word. -/
def familyHeads : List (String × SignalFamily) :=
  [ ("NewsCatalyst", .newsCatalyst)
  , ("VolumeSurge", .volumeSurge)
  , ("MainNetInflow", .mainNetInflow)
  , ("Breakout", .breakout)
  , ("SectorLeader", .sectorLeader)
  , ("AuctionAnomaly", .auctionAnomaly)
  , ("LLMSelect", .llmSelect)
  , ("Momentum", .momentum) ]

def signalFamilyOf (reason : String) : SignalFamily :=
  let trimmed := trim reason
  match familyHeads.find? fun entry => entry.1.toList.isPrefixOf trimmed with
  | some entry => entry.2
  | none =>
    if "盘后资金净流入".toList.isPrefixOf trimmed ∨ "收盘价买入".toList <:+: trimmed then
      .postCloseFundInflow
    else .unknown

/-! ## Validation of the rows -/

inductive FillDirection where
  | buy
  | sell

structure ValidatedFill where
  id : Int
  planId : String
  code : String
  name : String
  direction : FillDirection
  price : F64
  quantity : Nat
  occurredAt : NaiveDateTime
  virtualReason : String
  entryFamily : Option SignalFamily

def fillText (id : Int) : String :=
  "economic fill id=" ++ toString id

def checkedNotional (price : F64) (quantity : Nat) (fillId : Int) : Except String F64 := do
  let notional := host.multiply price (host.ofQuantity quantity)
  require (host.validPrice notional = true)
    (fillText fillId ++ " notional invalid: " ++ host.floatText notional)
  pure notional

def checkedMoneyAdd (total amount : F64) (label : String) : Except String F64 := do
  let value := host.add total amount
  require (host.isFinite value = true) (label ++ " is non-finite")
  pure value

/-- The direction of a row, and the family of an entry. -/
def fillDirection (row : EconomicFillRow) : Except String (FillDirection × Option SignalFamily) :=
  if row.direction = "buy" then do
    let family := signalFamilyOf row.virtualReason
    require (family ≠ .unknown ∧ family ≠ .exitByRule)
      ("economic buy id=" ++ toString row.id ++ " entry strategy family unavailable: " ++
        host.quoted row.virtualReason)
    pure (.buy, some family)
  else if row.direction = "sell" then pure (.sell, none)
  else .error (fillText row.id ++ " direction invalid: " ++ host.quoted row.direction)

/-- The checks of a row that do not look at other rows, after its identity. -/
def validateFacts (asOf : Day) (row : EconomicFillRow) (occurredAt : NaiveDateTime) :
    Except String ValidatedFill := do
  require (occurredAt.date ≤ asOf) (fillText row.id ++ " has future fill date " ++
    host.dateText occurredAt.date ++ " after " ++ host.dateText asOf)
  let price ← okOr (row.fillPrice.filter host.validPrice)
    (fillText row.id ++ " fill_price missing/invalid")
  let quantity ← okOr (boardQuantity u32Limit row.quantity)
    (fillText row.id ++ " quantity invalid: " ++ toString row.quantity)
  let _ ← checkedNotional host price quantity row.id
  let (direction, family) ← fillDirection host row
  pure
    { id := row.id
      planId := row.planId
      code := row.code
      name := row.name
      direction := direction
      price := price
      quantity := quantity
      occurredAt := occurredAt
      virtualReason := row.virtualReason
      entryFamily := family }

structure FillValidation where
  seenIds : List Int
  seenPlanIds : List String
  previousOrder : Option FillOrder
  validated : List ValidatedFill

def FillValidation.start : FillValidation :=
  ⟨[], [], none, []⟩

/-- The identity of a row. -/
def EconomicFillRow.identified (row : EconomicFillRow) : Bool :=
  decide (0 < row.id) && !blank row.planId && !blank row.code && !blank row.name &&
    !blank row.virtualReason

/-- One row of `validate_fills`. -/
def validateFill (asOf : Day) (state : FillValidation) (row : EconomicFillRow) :
    Except String FillValidation := do
  require (row.identified = true) ("economic fill identity invalid: id=" ++ toString row.id ++
    " plan_id=" ++ host.quoted row.planId ++ " code=" ++ host.quoted row.code ++ " name=" ++
    host.quoted row.name)
  require (row.id ∉ state.seenIds)
    ("economic fill duplicate identity: id=" ++ toString row.id)
  require (row.planId ∉ state.seenPlanIds)
    ("economic fill duplicate plan identity: plan_id=" ++ host.quoted row.planId)
  let occurredAt ← (parsePaperFillTimestamp host row.id row.occurredAt).mapError
    (FifoText.write host)
  let order := fillOrder occurredAt row.id
  require (∀ previous ∈ state.previousOrder, previous < order)
    ("economic fills out of order at id=" ++ toString row.id ++ " occurred_at=" ++
      host.timeText occurredAt)
  let fill ← validateFacts host asOf row occurredAt
  pure ⟨row.id :: state.seenIds, row.planId :: state.seenPlanIds, some order,
    state.validated ++ [fill]⟩

def validateFills (rows : List EconomicFillRow) (asOf : Day) : Except String (List ValidatedFill) := do
  let state ← each (validateFill host asOf) .start rows
  pure state.validated

/-! ## The ledger of costs -/

inductive CostBasisKind where
  | observed
  | scenario
deriving DecidableEq

structure FillCostEvidence where
  fillId : Int
  adverseCost : F64
  evidenceId : String

structure FillCostLedger where
  basisId : String
  kind : CostBasisKind
  costs : List FillCostEvidence

structure ValidatedFillCost where
  adverseCost : F64
  evidenceId : String

inductive ValidatedCostLedger where
  | unavailable
  | available (basisId : String) (kind : CostBasisKind) (costs : OrdMap Int ValidatedFillCost)

/-- One entry of `validate_exact_cost_entries`. -/
def validateCost (ids : List Int) (costs : OrdMap Int ValidatedFillCost) (cost : FillCostEvidence) :
    Except String (OrdMap Int ValidatedFillCost) := do
  require (cost.fillId ∈ ids)
    ("economic cost ledger references unknown fill id=" ++ toString cost.fillId)
  require (blank cost.evidenceId = false ∧ host.isFinite cost.adverseCost = true ∧
    host.less cost.adverseCost 0 = false)
    ("economic cost evidence invalid for fill id=" ++ toString cost.fillId)
  require (costs.contains cost.fillId = false)
    ("economic cost ledger duplicate fill id=" ++ toString cost.fillId)
  pure (costs.insert cost.fillId ⟨cost.adverseCost, cost.evidenceId⟩)

def validateCostLedger (fills : List ValidatedFill) :
    Option FillCostLedger → Except String ValidatedCostLedger
  | none => pure .unavailable
  | some ledger => do
      require (blank ledger.basisId = false) "economic cost basis_id is empty"
      require (ledger.kind ≠ .observed)
        "economic observed cost source-backed capability is unavailable; use Scenario or no ledger"
      let costs ← each (validateCost host (fills.map ValidatedFill.id)) OrdMap.empty ledger.costs
      let _ ← each (fun (_ : Unit) fill => require (costs.contains fill.id = true)
        ("economic cost ledger missing fill id=" ++ toString (ValidatedFill.id fill))) () fills
      pure (.available ledger.basisId ledger.kind costs)

/-! ## Cycles -/

structure OpenLot where
  boughtAt : NaiveDateTime
  remainingQuantity : Nat

structure FamilyAccumulator where
  quantity : Nat
  buyNotional : F64

structure PositionCycle where
  cycleOpenFillId : Int
  code : String
  names : OrdMap String Unit
  openedAt : NaiveDateTime
  sourceFillIds : List Int
  sourcePlanIds : List String
  buyFillIds : List Int
  sellFillIds : List Int
  exitReasons : OrdMap String Unit
  entryComposition : OrdMap SignalFamily FamilyAccumulator
  lots : List OpenLot
  remainingQuantity : Nat
  grossBuyNotional : F64
  grossSellNotional : F64

variable (cycle : PositionCycle)

/-- A lot of a cycle by its remaining shares. -/
def openLotMeasure : Fifo.Measure OpenLot where
  size := OpenLot.remainingQuantity
  resize lot n := { lot with remainingQuantity := n }
  size_resize _ _ := rfl
  resize_size _ := rfl
  resize_resize _ _ _ := rfl

def cycleText : String :=
  "economic cycle " ++ toString cycle.cycleOpenFillId

/-- `u64::checked_add`. -/
def checkedAdd64 (sum amount : Nat) (error : String) : Except String Nat := do
  require (sum + amount < u64Limit) error
  pure (sum + amount)

def PositionCycle.addBuy (fill : ValidatedFill) : Except String PositionCycle := do
  let family ← okOr fill.entryFamily
    ("economic buy id=" ++ toString fill.id ++ " entry strategy family unavailable")
  let notional ← checkedNotional host fill.price fill.quantity fill.id
  let gross ← checkedMoneyAdd host cycle.grossBuyNotional notional
    (cycleText cycle ++ " buy notional")
  let remaining ← checkedAdd64 cycle.remainingQuantity fill.quantity
    (cycleText cycle ++ " quantity overflow")
  let composition := (cycle.entryComposition.get? family).getD ⟨0, 0⟩
  let quantity ← checkedAdd64 composition.quantity fill.quantity
    (fillText fill.id ++ " family quantity overflow")
  let buyNotional ← checkedMoneyAdd host composition.buyNotional notional
    (fillText fill.id ++ " family buy notional")
  pure { cycle with
    names := cycle.names.insert fill.name ()
    sourceFillIds := cycle.sourceFillIds ++ [fill.id]
    sourcePlanIds := cycle.sourcePlanIds ++ [fill.planId]
    buyFillIds := cycle.buyFillIds ++ [fill.id]
    grossBuyNotional := gross
    remainingQuantity := remaining
    entryComposition := cycle.entryComposition.insert family ⟨quantity, buyNotional⟩
    lots := cycle.lots ++ [⟨fill.occurredAt, fill.quantity⟩] }

/-- A cycle before its first buy. -/
def PositionCycle.empty (fill : ValidatedFill) : PositionCycle where
  cycleOpenFillId := fill.id
  code := fill.code
  names := OrdMap.empty
  openedAt := fill.occurredAt
  sourceFillIds := []
  sourcePlanIds := []
  buyFillIds := []
  sellFillIds := []
  exitReasons := OrdMap.empty
  entryComposition := OrdMap.empty
  lots := []
  remainingQuantity := 0
  grossBuyNotional := 0
  grossSellNotional := 0

def PositionCycle.fromBuy (fill : ValidatedFill) : Except String PositionCycle :=
  (PositionCycle.empty fill).addBuy host fill

/-- A lot of an earlier day. -/
def OpenLot.boughtBefore (date : Day) (lot : OpenLot) : Bool :=
  decide (lot.boughtAt.date < date)

/-- Why a sale of a cycle was refused. -/
def cycleShortage (fill : ValidatedFill) : Fifo.Shortage OpenLot → String
  | .exhausted remaining => "economic sell id=" ++ toString fill.id ++ " oversells " ++ cycle.code ++
      " by " ++ toString remaining ++ " shares"
  | .blocked lot => "economic sell id=" ++ toString fill.id ++ " violates A-share T+1 for " ++
      cycle.code ++ ": buy_date=" ++ host.dateText lot.boughtAt.date ++ " sell_date=" ++
      host.dateText fill.occurredAt.date

def PositionCycle.addSell (fill : ValidatedFill) : Except String PositionCycle := do
  let notional ← checkedNotional host fill.price fill.quantity fill.id
  let lots ← (Fifo.consume openLotMeasure (OpenLot.boughtBefore fill.occurredAt.date) fill.quantity
    cycle.lots).mapError (cycleShortage host cycle fill)
  require (fill.quantity ≤ cycle.remainingQuantity) ("economic sell id=" ++ toString fill.id ++
    " oversells " ++ cycle.code ++ " by quantity underflow")
  let gross ← checkedMoneyAdd host cycle.grossSellNotional notional
    (cycleText cycle ++ " sell notional")
  pure { cycle with
    lots := lots
    remainingQuantity := cycle.remainingQuantity - fill.quantity
    names := cycle.names.insert fill.name ()
    sourceFillIds := cycle.sourceFillIds ++ [fill.id]
    sourcePlanIds := cycle.sourcePlanIds ++ [fill.planId]
    sellFillIds := cycle.sellFillIds ++ [fill.id]
    exitReasons := cycle.exitReasons.insert fill.virtualReason ()
    grossSellNotional := gross }

structure EntryFamilyComposition where
  family : SignalFamily
  quantity : Nat
  buyNotional : F64

def PositionCycle.composition : List EntryFamilyComposition :=
  cycle.entryComposition.entries.map fun entry => ⟨entry.1, entry.2.quantity, entry.2.buyNotional⟩

/-! ## Closed cycles and their value -/

inductive NetOutcomeClass where
  | profit
  | loss
  | breakeven

inductive NetMetrics where
  | unavailable (reason : String)
  | available (basisId : String) (kind : CostBasisKind) (totalAdverseCost netPnl
      returnOnBuyNotional : F64) (outcome : NetOutcomeClass)

structure ClosedEconomicPosition where
  cycleOpenFillId : Int
  code : String
  names : List String
  openedAt : NaiveDateTime
  closedAt : NaiveDateTime
  sourceFillIds : List Int
  sourcePlanIds : List String
  buyFillIds : List Int
  sellFillIds : List Int
  exitReasons : List String
  entryComposition : List EntryFamilyComposition
  grossBuyNotional : F64
  grossSellNotional : F64
  grossPnl : F64
  net : NetMetrics

structure OpenEconomicPosition where
  cycleOpenFillId : Int
  code : String
  names : List String
  openedAt : NaiveDateTime
  sourceFillIds : List Int
  sourcePlanIds : List String
  buyFillIds : List Int
  sellFillIds : List Int
  entryComposition : List EntryFamilyComposition
  remainingQuantity : Nat
  grossBuyNotional : F64
  grossSellNotional : F64

def netOutcome (netPnl : F64) : NetOutcomeClass :=
  if host.less 0 netPnl then .profit else if host.less netPnl 0 then .loss else .breakeven

def netMetricsForCycle (grossPnl : F64) : ValidatedCostLedger → Except String NetMetrics
  | .unavailable =>
    pure (.unavailable "fill cost ledger unavailable; net metrics are not computed")
  | .available basisId kind costs => do
      let total ← each (fun total id => do
        let cost ← okOr (costs.get? id) ("economic cost ledger missing cycle fill id=" ++
          toString id ++ " after validation")
        checkedMoneyAdd host total cost.adverseCost (cycleText cycle ++ " total cost"))
        0 cycle.sourceFillIds
      let netPnl := host.subtract grossPnl total
      let returned := host.divide netPnl cycle.grossBuyNotional
      require (host.isFinite netPnl = true ∧ host.isFinite returned = true)
        (cycleText cycle ++ " net metrics are non-finite")
      pure (.available basisId kind total netPnl returned (netOutcome host netPnl))

def closeCycle (closedAt : NaiveDateTime) (ledger : ValidatedCostLedger) :
    Except String ClosedEconomicPosition := do
  let grossPnl := host.subtract cycle.grossSellNotional cycle.grossBuyNotional
  require (host.isFinite grossPnl = true) (cycleText cycle ++ " gross PnL is non-finite")
  let net ← netMetricsForCycle host cycle grossPnl ledger
  pure
    { cycleOpenFillId := cycle.cycleOpenFillId
      code := cycle.code
      names := cycle.names.keys
      openedAt := cycle.openedAt
      closedAt := closedAt
      sourceFillIds := cycle.sourceFillIds
      sourcePlanIds := cycle.sourcePlanIds
      buyFillIds := cycle.buyFillIds
      sellFillIds := cycle.sellFillIds
      exitReasons := cycle.exitReasons.keys
      entryComposition := cycle.composition
      grossBuyNotional := cycle.grossBuyNotional
      grossSellNotional := cycle.grossSellNotional
      grossPnl := grossPnl
      net := net }

def PositionCycle.report : OpenEconomicPosition where
  cycleOpenFillId := cycle.cycleOpenFillId
  code := cycle.code
  names := cycle.names.keys
  openedAt := cycle.openedAt
  sourceFillIds := cycle.sourceFillIds
  sourcePlanIds := cycle.sourcePlanIds
  buyFillIds := cycle.buyFillIds
  sellFillIds := cycle.sellFillIds
  entryComposition := cycle.composition
  remainingQuantity := cycle.remainingQuantity
  grossBuyNotional := cycle.grossBuyNotional
  grossSellNotional := cycle.grossSellNotional

/-! ## The loop over the fills -/

structure CycleBook where
  states : OrdMap String PositionCycle
  closed : List ClosedEconomicPosition

def CycleBook.start : CycleBook :=
  ⟨OrdMap.empty, []⟩

def CycleBook.buy (book : CycleBook) (fill : ValidatedFill) : Except String CycleBook := do
  let cycle ← match book.states.get? fill.code with
    | some cycle => cycle.addBuy host fill
    | none => PositionCycle.fromBuy host fill
  pure { book with states := book.states.insert fill.code cycle }

def CycleBook.sell (host : Host) (ledger : ValidatedCostLedger) (book : CycleBook)
    (fill : ValidatedFill) : Except String CycleBook := do
  let cycle ← okOr (book.states.get? fill.code) ("economic sell id=" ++ toString fill.id ++
    " oversells " ++ fill.code ++ " without an open position")
  let sold ← cycle.addSell host fill
  if sold.remainingQuantity = 0 then do
    let closed ← closeCycle host sold fill.occurredAt ledger
    pure ⟨book.states.erase fill.code, book.closed ++ [closed]⟩
  else pure { book with states := book.states.insert fill.code sold }

def CycleBook.trade (ledger : ValidatedCostLedger) (book : CycleBook) (fill : ValidatedFill) :
    Except String CycleBook :=
  match fill.direction with
  | .buy => book.buy host fill
  | .sell => book.sell host ledger fill

/-! ## The report -/

structure CostBasisAudit where
  basisId : String
  kind : CostBasisKind
  evidenceIds : List String

/-- The evidence of the costs of the fills, in their order. -/
def costEvidence (costs : OrdMap Int ValidatedFillCost) : List ValidatedFill →
    Except String (List String)
  | [] => pure []
  | fill :: fills => do
      let cost ← okOr (costs.get? fill.id) ("economic cost ledger missing report fill id=" ++
        toString fill.id ++ " after validation")
      let rest ← costEvidence costs fills
      pure (cost.evidenceId :: rest)

def costBasisAudit (fills : List ValidatedFill) :
    ValidatedCostLedger → Except String (Option CostBasisAudit)
  | .unavailable => pure none
  | .available basisId kind costs => do
      let evidenceIds ← costEvidence costs fills
      pure (some ⟨basisId, kind, evidenceIds⟩)

def coverageDays (closed : List ClosedEconomicPosition) : Except String (Option Int) :=
  match (closed.map fun cycle => cycle.openedAt.date).min?,
    (closed.map fun cycle => cycle.closedAt.date).max? with
  | some first, some last => do
      let days := last - first + 1
      require (0 < days) ("economic coverage days invalid: " ++ toString days)
      pure (some days)
  | _, _ => pure none

inductive NetSummary where
  | unavailable (reason : String)
  | available (basisId : String) (kind : CostBasisKind) (wins losses breakeven : Nat)
      (winRate : Option F64) (totalAdverseCost totalNetPnl : F64)
      (averageNetPnl medianNetPnl returnOnBuyNotional : Option F64)

structure NetTally where
  wins : Nat
  losses : Nat
  breakeven : Nat
  totalAdverseCost : F64
  totalNetPnl : F64
  totalBuyNotional : F64
  netValues : List F64

def NetTally.count (tally : NetTally) : NetOutcomeClass → NetTally
  | .profit => { tally with wins := tally.wins + 1 }
  | .loss => { tally with losses := tally.losses + 1 }
  | .breakeven => { tally with breakeven := tally.breakeven + 1 }

def tallyNet (tally : NetTally) (cycle : ClosedEconomicPosition) : Except String NetTally :=
  match cycle.net with
  | .unavailable _ => .error ("economic cycle " ++ toString cycle.cycleOpenFillId ++
      " net metrics unavailable under a complete cost ledger")
  | .available _ _ cost netPnl _ outcome => do
      let counted := tally.count outcome
      let totalCost ← checkedMoneyAdd host tally.totalAdverseCost cost
        "economic summary total adverse cost"
      let totalPnl ← checkedMoneyAdd host tally.totalNetPnl netPnl "economic summary net PnL"
      let totalBuy ← checkedMoneyAdd host tally.totalBuyNotional cycle.grossBuyNotional
        "economic summary buy notional"
      pure { counted with
        totalAdverseCost := totalCost
        totalNetPnl := totalPnl
        totalBuyNotional := totalBuy
        netValues := tally.netValues ++ [netPnl] }

def median (sorted : List F64) : Option F64 :=
  let upper := sorted.length / 2
  if sorted.length % 2 = 0 then
    match sorted[upper - 1]?, sorted[upper]? with
    | some low, some high =>
      some (host.add (host.divide low (host.ofQuantity 2)) (host.divide high (host.ofQuantity 2)))
    | _, _ => none
  else sorted[upper]?

def summarizeNet (closed : List ClosedEconomicPosition) :
    ValidatedCostLedger → Except String NetSummary
  | .unavailable =>
    pure (.unavailable "fill cost ledger unavailable; net summary is not computed")
  | .available basisId kind _ => do
      let tally ← each (tallyNet host) ⟨0, 0, 0, 0, 0, 0, []⟩ closed
      let values := tally.netValues.insertionSort fun a b => host.totalOrder a b = true
      let average := if values = [] then none else
        some (host.divide tally.totalNetPnl (host.ofQuantity values.length))
      let directional := tally.wins + tally.losses
      let winRate := if directional = 0 then none else
        some (host.divide (host.ofQuantity tally.wins) (host.ofQuantity directional))
      let returned := if host.less 0 tally.totalBuyNotional then
        some (host.divide tally.totalNetPnl tally.totalBuyNotional) else none
      pure (.available basisId kind tally.wins tally.losses tally.breakeven winRate
        tally.totalAdverseCost tally.totalNetPnl (average.filter host.isFinite)
        (median host values) (returned.filter host.isFinite))

inductive ValidationStatus where
  | netUnavailable (reason : String)
  | insufficientSample (closedPositions : Nat) (coverageDays : Option Int) (reasons : List String)
  | researchOnly (missingEvidence : List String)

def minClosedPositions : Nat := 200

def minCoverageDays : Int := 84

def validationStatus (summary : NetSummary) (closedPositions : Nat) (coverage : Option Int) :
    ValidationStatus :=
  match summary with
  | .unavailable reason => .netUnavailable reason
  | .available .. =>
    let few := if closedPositions < minClosedPositions then
      ["closed economic positions " ++ toString closedPositions ++ " < " ++
        toString minClosedPositions] else []
    let short := if coverage.all fun days => decide (days < minCoverageDays) then
      ["coverage days " ++ (coverage.map toString).getD "unavailable" ++ " < " ++
        toString minCoverageDays] else []
    if few ++ short = [] then .researchOnly
      [ "cycle-aligned benchmark alpha"
      , "code/entry-date clustered uncertainty"
      , "source-backed market-regime coverage" ]
    else .insufficientSample closedPositions coverage (few ++ short)

structure EconomicPositionReport where
  asOfDate : Day
  sourceFillIds : List Int
  costBasis : Option CostBasisAudit
  closedPositions : List ClosedEconomicPosition
  openPositions : List OpenEconomicPosition
  coverageDays : Option Int
  netSummary : NetSummary
  validationStatus : ValidationStatus

def rebuildValidatedEconomicPositions (fills : List ValidatedFill) (asOf : Day)
    (ledger : ValidatedCostLedger) : Except String EconomicPositionReport := do
  let basis ← costBasisAudit fills ledger
  let book ← each (CycleBook.trade host ledger) .start fills
  let coverage ← coverageDays book.closed
  let summary ← summarizeNet host book.closed ledger
  pure
    { asOfDate := asOf
      sourceFillIds := fills.map ValidatedFill.id
      costBasis := basis
      closedPositions := book.closed
      openPositions := book.states.values.map PositionCycle.report
      coverageDays := coverage
      netSummary := summary
      validationStatus := validationStatus summary book.closed.length coverage }

def rebuildEconomicPositions (rows : List EconomicFillRow) (asOf : Day)
    (costs : Option FillCostLedger) : Except String EconomicPositionReport := do
  let fills ← validateFills host rows asOf
  let ledger ← validateCostLedger host fills costs
  rebuildValidatedEconomicPositions host fills asOf ledger

end StockAnalysis.Positions
