import Mathlib.Algebra.Order.BigOperators.Group.List
import Mathlib.Data.List.Dedup
import Mathlib.Tactic.Ring
import StockAnalysis.Ledger.Types

/-!
# The account projection and its seed

Valuation of a projection (`equity`, `unrealized_pnl`) and the genesis projection of an
approved seed manifest. The accounting identity of the ledger is stated here: cash and the
carrying value of the lots (basis price times quantity, plus the buy fee not yet allocated to a
sale) always sum to the seed equity and the realized result.
-/

namespace StockAnalysis.Ledger

variable (marks : OrdMap String Mark) {state : Projection}

namespace Projection

def requireAvailable (state : Projection) : Outcome Unit :=
  match state.economicUnavailable with
  | some reason => .error (.evidenceUnavailable reason)
  | none => .ok ()

theorem requireAvailable_eq_ok {done : Unit} :
    state.requireAvailable = .ok done ↔ state.economicUnavailable = none := by
  unfold requireAvailable
  cases state.economicUnavailable <;> simp

/-- The mark of a lot, or the error that names the missing code. -/
def markOf (lot : Lot) : Outcome Mark :=
  okOr (marks.get? lot.code) (.evidenceUnavailable ("missing mark " ++ lot.code))

def addMarketValue (equity : Money) (lot : Lot) : Outcome Money := do
  let mark ← markOf marks lot
  let value ← mark.price.mul lot.quantity
  equity.add value

/-- Cash plus every lot at its current mark. -/
def equity (state : Projection) : Outcome Money :=
  each (addMarketValue state.marks) state.cash state.lots

def addUnrealized (total : Money) (lot : Lot) : Outcome Money := do
  let mark ← markOf marks lot
  let gain ← mark.price.sub lot.basisPrice
  let value ← gain.mul lot.quantity
  let net ← value.sub lot.buyFeeRemaining
  total.add net

/-- The net unrealized result since cutover. -/
def unrealizedPnl (state : Projection) : Outcome Money :=
  each (addUnrealized state.marks) 0 state.lots

end Projection

/-- The price a lot is valued at, zero where it has no mark. -/
def markPrice (lot : Lot) : Int :=
  match marks.get? lot.code with
  | some mark => mark.price.val
  | none => 0

/-- The lots at their marks. -/
def marketValue (lots : List Lot) : Int :=
  (lots.map fun lot => markPrice marks lot * lot.quantity).sum

/-- What one lot carries: its basis and the buy fee not yet allocated to a sale. -/
def Lot.carrying (lot : Lot) : Int :=
  lot.basisPrice.val * lot.quantity + lot.buyFeeRemaining.val

/-- What all the lots carry. -/
def carryingValue (lots : List Lot) : Int :=
  (lots.map Lot.carrying).sum

/-- The accounting identity of a projection. -/
def Balanced (state : Projection) : Prop :=
  state.cash.val + carryingValue state.lots = state.seedEquity.val + state.realizedPnl.val

instance (state : Projection) : Decidable (Balanced state) :=
  inferInstanceAs (Decidable (_ = _))

@[simp]
theorem carryingValue_nil : carryingValue [] = 0 :=
  rfl

@[simp]
theorem carryingValue_cons (lot : Lot) (lots : List Lot) :
    carryingValue (lot :: lots) = lot.carrying + carryingValue lots := by
  simp [carryingValue]

@[simp]
theorem carryingValue_append (first second : List Lot) :
    carryingValue (first ++ second) = carryingValue first + carryingValue second := by
  simp [carryingValue]

@[simp]
theorem marketValue_cons (lot : Lot) (lots : List Lot) :
    marketValue marks (lot :: lots) =
      markPrice marks lot * lot.quantity + marketValue marks lots := by
  simp [marketValue]

variable {marks : OrdMap String Mark}

theorem markOf_eq_ok {lot : Lot} {mark : Mark} :
    Projection.markOf marks lot = .ok mark ↔ marks.get? lot.code = some mark :=
  okOr_eq_ok

variable {lots : List Lot} {start result : Money}

/-- A successful market valuation adds exactly the market value to its start. -/
theorem each_addMarketValue
    (valued : each (Projection.addMarketValue marks) start lots = .ok result) :
    result.val = start.val + marketValue marks lots := by
  induction lots generalizing start with
  | nil =>
    simp only [each, Except.ok.injEq] at valued
    simp [valued, marketValue]
  | cons lot lots ih =>
    simp only [each, Projection.addMarketValue, bind_eq_ok, markOf_eq_ok, Money.mul_eq_ok,
      Money.add_eq_ok] at valued
    obtain ⟨next, ⟨mark, marked, value, valueEq, nextEq⟩, rest⟩ := valued
    have priceEq : markPrice marks lot = mark.price.val := by simp [markPrice, marked]
    rw [ih rest, marketValue_cons, nextEq, valueEq, priceEq]
    ring

variable {equity : Money}

theorem equity_val (valued : state.equity = .ok equity) :
    equity.val = state.cash.val + marketValue state.marks state.lots :=
  each_addMarketValue valued

/-- A successful unrealized valuation adds the market value less the carrying value. -/
theorem each_addUnrealized (valued : each (Projection.addUnrealized marks) start lots = .ok result) :
    result.val = start.val + marketValue marks lots - carryingValue lots := by
  induction lots generalizing start with
  | nil =>
    simp only [each, Except.ok.injEq] at valued
    simp [valued, marketValue]
  | cons lot lots ih =>
    simp only [each, Projection.addUnrealized, bind_eq_ok, markOf_eq_ok, Money.mul_eq_ok,
      Money.sub_eq_ok, Money.add_eq_ok] at valued
    obtain ⟨next, ⟨mark, marked, gain, gainEq, value, valueEq, net, netEq, nextEq⟩, rest⟩ :=
      valued
    have priceEq : markPrice marks lot = mark.price.val := by simp [markPrice, marked]
    rw [ih rest, marketValue_cons, carryingValue_cons, Lot.carrying, nextEq, netEq, valueEq,
      gainEq, priceEq]
    ring

variable {unrealized : Money}

theorem unrealizedPnl_val (valued : state.unrealizedPnl = .ok unrealized) :
    unrealized.val = marketValue state.marks state.lots - carryingValue state.lots := by
  have total := each_addUnrealized valued
  simpa using total

/-- In a balanced projection the equity is the seed equity with both results. -/
theorem equity_of_balanced (balanced : Balanced state) (equityValued : state.equity = .ok equity)
    (unrealizedValued : state.unrealizedPnl = .ok unrealized) :
    equity.val = state.seedEquity.val + state.realizedPnl.val + unrealized.val := by
  have equityEq := equity_val equityValued
  have unrealizedEq := unrealizedPnl_val unrealizedValued
  unfold Balanced at balanced
  omega

/-! ## The genesis projection -/

/-- Admit one seed mark: positive, taken at cutover, sourced, and the first of its code. -/
def seedMark (seed : SeedManifest) (marks : OrdMap String Mark) (mark : Mark) :
    Outcome (OrdMap String Mark) := do
  require (0 < mark.price.val ∧ mark.observedAt = seed.cutoverAt ∧ blank mark.source = false ∧
    marks.contains mark.code = false) (.invalidInput "invalid seed mark")
  pure (marks.insert mark.code mark)

/-- The first day a seed lot may be sold: the attested day, or the next trading day. -/
def seedSellableFrom (next : Day) (lot : SeedLot) : Outcome Day :=
  match lot.sellableFrom with
  | some date =>
    if lot.sellabilityEvidence.any fun evidence => !blank evidence then .ok date
    else .error (.invalidInput "explicit sellability lacks evidence")
  | none => .ok next

def seedLot (seed : SeedManifest) (next : Day) (marks : OrdMap String Mark) (i : Nat)
    (lot : SeedLot) : Outcome Lot := do
  require (lot.quantity ≠ 0 ∧ lot.quantity % 100 = 0 ∧ blank lot.code = false)
    (.invalidInput "invalid seed lot")
  let mark ← okOr (marks.get? lot.code) (.evidenceUnavailable "seed lot mark missing")
  let sellableFrom ← seedSellableFrom next lot
  pure
    { lotId := "seed:" ++ toString i
      code := lot.code
      name := lot.name
      quantity := lot.quantity
      basisPrice := mark.price
      buyFeeRemaining := 0
      acquiredOn := day seed.cutoverAt
      sellableFrom := sellableFrom
      reportedCost := lot.reportedCost }

/-- The seed lots from ordinal `i` on. -/
def seedLots (seed : SeedManifest) (next : Day) (marks : OrdMap String Mark) :
    Nat → List SeedLot → Outcome (List Lot)
  | _, [] => .ok []
  | i, lot :: lots => do
      let first ← seedLot seed next marks i lot
      let rest ← seedLots seed next marks (i + 1) lots
      pure (first :: rest)

/-- The manifest fields that must be present and agree before anything is computed. -/
def seedWellFormed (seed : SeedManifest) : Bool :=
  !blank seed.accountId && !blank seed.epochId && !blank seed.commandId &&
    !blank seed.sourceReference && !blank seed.approvedBy &&
    seed.sourceHash.toList.length = 64 && seed.sourceHash.toList.all isHexDigit &&
    seed.accountEffectiveAt = seed.positionsEffectiveAt &&
    seed.accountEffectiveAt = seed.cutoverAt &&
    0 ≤ seed.cash.val && seed.excludedResidual.all (fun residual => 0 ≤ residual.val) &&
    seed.policy.maxPositionBps ≤ 10000 && seed.policy.cashFloorBps ≤ 10000

/-- The distinct codes of the lots. -/
def lotCodes (lots : List Lot) : List String :=
  (lots.map Lot.code).dedup

def seedProjection (host : Host) (seed : SeedManifest) : Outcome Projection := do
  require (seedWellFormed seed = true)
    (.invalidInput "invalid seed identity, effective time or policy")
  let next ← host.calendarNext (day seed.cutoverAt)
  let marks ← each (seedMark seed) OrdMap.empty seed.marks
  let lots ← seedLots seed next marks 0 seed.lots
  require (marks.size = (lotCodes lots).length) (.invalidInput "seed mark coverage mismatch")
  let unvalued : Projection :=
    { cash := seed.cash
      lots := lots
      marks := marks
      fees := 0
      realizedPnl := 0
      seedEquity := 0
      asOf := seed.cutoverAt
      closes := OrdMap.empty
      economicUnavailable := none }
  let equity ← unvalued.equity
  require (0 < equity.val) (.invalidInput "unapproved seed residual/empty equity")
  let residual ← seed.originalTotal.sub equity
  require (residual = seed.excludedResidual.getD 0)
    (.invalidInput "unapproved seed residual/empty equity")
  pure { unvalued with seedEquity := equity }

end StockAnalysis.Ledger
