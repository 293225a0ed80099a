import StockAnalysis.Positions.Cycles

/-!
# Attribution epochs

An attribution epoch starts at a cut between two sessions. What a code holds at the cut is its legacy
carry, and the code stays in quarantine until it is flat: a fill of a quarantined code is excluded,
and every other fill of the epoch is attributable. The two functions here only count shares; they
read the same rows as the economic positions, whose cycles they have to respect.
-/

namespace StockAnalysis.Positions

structure LegacyCarryPosition where
  code : String
  quantity : Nat
deriving DecidableEq

inductive EpochExclusionReason where
  | legacyCarryOverlap
  | mixedLegacyCarryExit
deriving DecidableEq

structure EpochExclusion where
  fillId : Int
  code : String
  direction : String
  quantity : Nat
  reason : EpochExclusionReason

structure EpochScopedFills where
  attributable : List EconomicFillRow
  exclusions : List EpochExclusion
  remainingQuarantine : List LegacyCarryPosition
  releasedCodes : Nat

structure ValidatedEpochFill where
  row : EconomicFillRow
  occurredAt : NaiveDateTime
  quantity : Nat

structure QuarantineState where
  legacyRemaining : Nat
  totalQuantity : Nat
  quarantined : Bool

/-! ## Validation of the rows -/

inductive CarryText where
  | quantityOverflow
  | oversell
  | direction
  | order
  | beforeEffective
  | quantity
  | identity
  | duplicateId
  | duplicatePlan
  | timestamp
  | price

def CarryText.write : CarryText → String
  | .quantityOverflow => "attribution_epoch_quantity_overflow"
  | .oversell => "attribution_epoch_cumulative_oversell"
  | .direction => "attribution_epoch_direction_invalid"
  | .order => "attribution_epoch_order_invalid"
  | .beforeEffective => "attribution_epoch_fill_before_effective_date"
  | .quantity => "attribution_epoch_quantity_invalid"
  | .identity => "attribution_epoch_identity_invalid"
  | .duplicateId => "attribution_epoch_duplicate_fill_id"
  | .duplicatePlan => "attribution_epoch_duplicate_plan_id"
  | .timestamp => "attribution_epoch_timestamp_invalid"
  | .price => "attribution_epoch_price_invalid"

def validateFillFacts (host : Host) (seenIds : List Int) (seenPlanIds : List String)
    (row : EconomicFillRow) : Except String NaiveDateTime := do
  require (row.identified = true) CarryText.identity.write
  require (row.id ∉ seenIds) CarryText.duplicateId.write
  require (row.planId ∉ seenPlanIds) CarryText.duplicatePlan.write
  let occurredAt ← (parsePaperFillTimestamp host row.id row.occurredAt).mapError
    fun _ => CarryText.timestamp.write
  require ((row.fillPrice.filter host.validPrice).isSome = true) CarryText.price.write
  require (row.direction = "buy" ∨ row.direction = "sell") CarryText.direction.write
  pure occurredAt

def validateQuantity (row : EconomicFillRow) : Except String Nat :=
  okOr (boardQuantity u64Limit row.quantity) CarryText.quantity.write

structure RowValidation where
  seenIds : List Int
  seenPlanIds : List String
  previousOrder : Option FillOrder
  validated : List ValidatedEpochFill

def RowValidation.start : RowValidation :=
  ⟨[], [], none, []⟩

/-- One row of `validate_rows`. -/
def validateRow (host : Host) (effective : Option Day) (state : RowValidation)
    (row : EconomicFillRow) : Except String RowValidation := do
  let occurredAt ← validateFillFacts host state.seenIds state.seenPlanIds row
  let order := fillOrder occurredAt row.id
  require (∀ previous ∈ state.previousOrder, previous < order) CarryText.order.write
  require (∀ date ∈ effective, date ≤ occurredAt.date) CarryText.beforeEffective.write
  let quantity ← validateQuantity row
  pure ⟨row.id :: state.seenIds, row.planId :: state.seenPlanIds, some order,
    state.validated ++ [⟨row, occurredAt, quantity⟩]⟩

def validateRows (host : Host) (rows : List EconomicFillRow) (effective : Option Day) :
    Except String (List ValidatedEpochFill) := do
  let state ← each (validateRow host effective) .start rows
  pure state.validated

/-! ## The carry at the cut -/

/-- One fill of `build_legacy_carry`. -/
def carryFill (completedSession : Day) (positions : OrdMap String Nat)
    (fill : ValidatedEpochFill) : Except String (OrdMap String Nat) :=
  if completedSession < fill.occurredAt.date then pure positions
  else
    let position := (positions.get? fill.row.code).getD 0
    match fill.row.direction with
    | "buy" => do
        require (position + fill.quantity < u64Limit) CarryText.quantityOverflow.write
        pure (positions.insert fill.row.code (position + fill.quantity))
    | "sell" => do
        require (fill.quantity ≤ position) CarryText.oversell.write
        pure (positions.insert fill.row.code (position - fill.quantity))
    | _ => .error CarryText.direction.write

def carryPositions (positions : OrdMap String Nat) : List LegacyCarryPosition :=
  positions.entries.filterMap fun entry =>
    if 0 < entry.2 then some ⟨entry.1, entry.2⟩ else none

def buildLegacyCarry (host : Host) (rows : List EconomicFillRow) (completedSession : Day) :
    Except String (List LegacyCarryPosition) := do
  let validated ← validateRows host rows none
  let positions ← each (carryFill completedSession) OrdMap.empty validated
  pure (carryPositions positions)

/-! ## The scope of an epoch -/

/-- One position of `validate_carry`. -/
def quarantine (states : OrdMap String QuarantineState) (position : LegacyCarryPosition) :
    Except String (OrdMap String QuarantineState) := do
  require (blank position.code = false ∧ position.quantity ≠ 0 ∧ position.quantity % 100 = 0)
    "attribution_epoch_carry_invalid"
  require (states.contains position.code = false) "attribution_epoch_duplicate_carry_code"
  pure (states.insert position.code ⟨position.quantity, position.quantity, true⟩)

def validateCarry (carry : List LegacyCarryPosition) :
    Except String (OrdMap String QuarantineState) :=
  each quarantine OrdMap.empty carry

def overlap (row : EconomicFillRow) (quantity : Nat) : EpochExclusion :=
  ⟨row.id, row.code, row.direction, quantity, .legacyCarryOverlap⟩

def mixedExit (row : EconomicFillRow) (quantity : Nat) : EpochExclusion :=
  ⟨row.id, row.code, row.direction, quantity, .mixedLegacyCarryExit⟩

structure EpochScope where
  states : OrdMap String QuarantineState
  attributable : List EconomicFillRow
  exclusions : List EpochExclusion
  releasedCodes : Nat

/-- The exclusions of a sale of a quarantined code. -/
def exitExclusions (state : QuarantineState) (fill : ValidatedEpochFill) : List EpochExclusion :=
  if state.legacyRemaining < fill.quantity ∧ 0 < state.legacyRemaining then
    [overlap fill.row fill.quantity, mixedExit fill.row fill.quantity]
  else [overlap fill.row fill.quantity]

/-- One fill of `scope_epoch_fills`. -/
def scopeFill (scope : EpochScope) (fill : ValidatedEpochFill) : Except String EpochScope :=
  let state := (scope.states.get? fill.row.code).getD ⟨0, 0, false⟩
  match state.quarantined, fill.row.direction with
  | false, "buy" => do
      require (state.totalQuantity + fill.quantity < u64Limit) "attribution_epoch_quantity_overflow"
      pure { scope with
        states := scope.states.insert fill.row.code
          { state with totalQuantity := state.totalQuantity + fill.quantity }
        attributable := scope.attributable ++ [fill.row] }
  | false, "sell" => do
      require (fill.quantity ≤ state.totalQuantity) "attribution_epoch_cumulative_oversell"
      pure { scope with
        states := scope.states.insert fill.row.code
          { state with totalQuantity := state.totalQuantity - fill.quantity }
        attributable := scope.attributable ++ [fill.row] }
  | true, "buy" => do
      require (state.totalQuantity + fill.quantity < u64Limit) "attribution_epoch_quantity_overflow"
      pure { scope with
        states := scope.states.insert fill.row.code
          { state with totalQuantity := state.totalQuantity + fill.quantity }
        exclusions := scope.exclusions ++ [overlap fill.row fill.quantity] }
  | true, "sell" => do
      require (fill.quantity ≤ state.totalQuantity) "attribution_epoch_cumulative_oversell"
      let total := state.totalQuantity - fill.quantity
      pure { scope with
        states := scope.states.insert fill.row.code
          ⟨state.legacyRemaining - fill.quantity, total, decide (total ≠ 0)⟩
        exclusions := scope.exclusions ++ exitExclusions state fill
        releasedCodes := if total = 0 then scope.releasedCodes + 1 else scope.releasedCodes }
  | _, _ => .error "attribution_epoch_direction_invalid"

def remainingQuarantine (states : OrdMap String QuarantineState) : List LegacyCarryPosition :=
  states.entries.filterMap fun entry =>
    if entry.2.quarantined then some ⟨entry.1, entry.2.totalQuantity⟩ else none

def scopeEpochFills (host : Host) (rows : List EconomicFillRow) (effective : Day)
    (carry : List LegacyCarryPosition) : Except String EpochScopedFills := do
  let validated ← validateRows host rows (some effective)
  let states ← validateCarry carry
  let scope ← each scopeFill ⟨states, [], [], 0⟩ validated
  pure ⟨scope.attributable, scope.exclusions, remainingQuarantine scope.states, scope.releasedCodes⟩

end StockAnalysis.Positions
