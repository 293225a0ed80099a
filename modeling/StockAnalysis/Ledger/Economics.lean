import StockAnalysis.Ledger.Projection

/-!
# Fees, FIFO sales and the economics of a fill

The fee of a fill, the first-in-first-out sale that both the executing ledger and the ruling
recomputation run over the lots, and the recomputation's whole effect of one fill on the
account. A partial sale of a lot allocates a floor share of its remaining buy fee; the last
sale of a lot takes what is left, so the allocation is exact over the life of the lot.
-/

namespace StockAnalysis.Ledger

/-- `amount * numerator / denominator`, rounded half up on positive amounts; the division
truncates toward zero. -/
def rate (amount : Money) (numerator denominator : Int) : Outcome Money :=
  Money.exact ((amount.val * numerator + denominator.tdiv 2).tdiv denominator)

/-- The minimum commission of five yuan. -/
def minimumCommission : Money := I64.lit 5000000

def commissionOf (notional : Money) : Outcome Money := do
  let proportional ← rate notional 3 10000
  pure (proportional.max minimumCommission)

/-- Stamp duty, which only a sale pays. -/
def stampOf (notional : Money) (side : String) : Outcome Money :=
  if side = "sell" then rate notional 1 1000 else pure 0

/-- The fee of a fill: commission, and stamp duty on a sale. -/
def fee (price : Money) (quantity : Nat) (side : String) : Outcome Money := do
  let notional ← price.mul quantity
  let commission ← commissionOf notional
  let stamp ← stampOf notional side
  commission.add stamp

/-! ## First-in-first-out sales -/

/-- A sale in progress: the quantity still to sell, and the basis and buy fees allocated. -/
structure SaleTally where
  left : Nat
  basis : Money
  buyFee : Money

def SaleTally.start (quantity : Nat) : SaleTally :=
  ⟨quantity, 0, 0⟩

/-- The share of a lot's remaining buy fee that goes with the quantity taken from it. -/
def allocatedBuyFee (lot : Lot) (taken : Nat) : Outcome Money :=
  if taken = lot.quantity then pure lot.buyFeeRemaining
  else Money.exact ((lot.buyFeeRemaining.val * taken).tdiv lot.quantity)

/-- Sell from one lot if it is of the code and sellable on the date. -/
def sellLot (code : String) (date : Day) (tally : SaleTally) (lot : Lot) :
    Outcome (SaleTally × Lot) :=
  if lot.code ≠ code ∨ date < lot.sellableFrom ∨ tally.left = 0 then pure (tally, lot)
  else do
    let taken := min lot.quantity tally.left
    let allocated ← allocatedBuyFee lot taken
    let cost ← lot.basisPrice.mul taken
    let basis ← tally.basis.add cost
    let buyFee ← tally.buyFee.add allocated
    let remaining ← lot.buyFeeRemaining.sub allocated
    pure (⟨tally.left - taken, basis, buyFee⟩,
      { lot with buyFeeRemaining := remaining, quantity := lot.quantity - taken })

/-- Sell from the lots in their order. -/
def sellFrom (code : String) (date : Day) :
    SaleTally → List Lot → Outcome (SaleTally × List Lot)
  | tally, [] => pure (tally, [])
  | tally, lot :: lots => do
      let (next, sold) ← sellLot code date tally lot
      let (final, rest) ← sellFrom code date next lots
      pure (final, sold :: rest)

/-- The lots that still hold shares. -/
def openLots (lots : List Lot) : List Lot :=
  lots.filter fun lot => 0 < lot.quantity

/-- The realized result of a sale. -/
def realizedOf (notional : Money) (tally : SaleTally) (totalFee : Money) : Outcome Money := do
  let overBasis ← notional.sub tally.basis
  let overBuyFee ← overBasis.sub tally.buyFee
  overBuyFee.sub totalFee

/-- What a sale from one lot leaves: the same lot with fewer shares, whose carrying value lost
exactly the basis and buy fee that the tally gained. -/
structure LotSold (before after : SaleTally) (lot left : Lot) : Prop where
  lotId : left.lotId = lot.lotId
  code : left.code = lot.code
  quantity : left.quantity + before.left = lot.quantity + after.left
  carried : lot.carrying = left.carrying + (after.basis.val - before.basis.val) +
    (after.buyFee.val - before.buyFee.val)
  emptied : 0 < lot.quantity → left.quantity = 0 → left.buyFeeRemaining.val = 0

variable {lot : Lot} {lots : List Lot}

theorem allocatedBuyFee_full {allocated : Money}
    (share : allocatedBuyFee lot lot.quantity = .ok allocated) :
    allocated = lot.buyFeeRemaining := by
  simpa [allocatedBuyFee, pure, Except.pure, eq_comm] using share

variable {tally : SaleTally} {code : String} {date : Day} {next : SaleTally} {host : Host}
  {state : Projection}

theorem sellLot_sold {left : Lot} (sold : sellLot code date tally lot = .ok (next, left)) :
    LotSold tally next lot left := by
  unfold sellLot at sold
  split at sold
  · cases pure_eq_ok.mp sold
    exact ⟨rfl, rfl, rfl, by ring, fun positive empty => absurd empty positive.ne'⟩
  · simp only [bind_eq_ok, Money.mul_eq_ok, Money.add_eq_ok, Money.sub_eq_ok, pure_eq_ok,
      Prod.mk.injEq] at sold
    obtain ⟨allocated, share, cost, costEq, basis, basisEq, buyFee, buyFeeEq, remaining,
      remainingEq, rfl, rfl⟩ := sold
    have takenLot : min lot.quantity tally.left ≤ lot.quantity := min_le_left _ _
    have takenLeft : min lot.quantity tally.left ≤ tally.left := min_le_right _ _
    refine ⟨rfl, rfl, by simp only; omega, ?_, ?_⟩
    · have split : ((lot.quantity - min lot.quantity tally.left : Nat) : Int) =
          lot.quantity - (min lot.quantity tally.left : Nat) := by omega
      simp only [Lot.carrying, basisEq, costEq, buyFeeEq, remainingEq, split]
      ring
    · intro _ empty
      have full : min lot.quantity tally.left = lot.quantity := by
        simp only at empty
        omega
      rw [full] at share
      rw [remainingEq, allocatedBuyFee_full share]
      ring

/-- What a sale over the lots leaves. -/
structure LotsSold (before after : SaleTally) (lots left : List Lot) : Prop where
  lotIds : left.map Lot.lotId = lots.map Lot.lotId
  codes : left.map Lot.code = lots.map Lot.code
  carried : carryingValue lots = carryingValue left + (after.basis.val - before.basis.val) +
    (after.buyFee.val - before.buyFee.val)
  emptied : (∀ lot ∈ lots, 0 < lot.quantity) →
    ∀ lot ∈ left, lot.quantity = 0 → lot.buyFeeRemaining.val = 0

theorem sellFrom_sold {left : List Lot} (sold : sellFrom code date tally lots = .ok (next, left)) :
    LotsSold tally next lots left := by
  induction lots generalizing tally left with
  | nil =>
    cases pure_eq_ok.mp sold
    exact ⟨rfl, rfl, by ring, by simp⟩
  | cons lot lots ih =>
    simp only [sellFrom, bind_eq_ok, pure_eq_ok, Prod.exists, Prod.mk.injEq] at sold
    obtain ⟨middle, first, firstSold, final, rest, restSold, rfl, rfl⟩ := sold
    have one := sellLot_sold firstSold
    have others := ih restSold
    refine ⟨?_, ?_, ?_, ?_⟩
    · simp [one.lotId, others.lotIds]
    · simp [one.code, others.codes]
    · rw [carryingValue_cons, carryingValue_cons, one.carried, others.carried]
      ring
    · intro positive item member
      rcases List.mem_cons.mp member with rfl | inRest
      · exact one.emptied (positive lot List.mem_cons_self)
      · exact others.emptied (fun other inLots =>
          positive other (List.mem_cons_of_mem lot inLots)) item inRest

/-- Dropping the emptied lots drops no carrying value once their fees are allocated. -/
theorem carryingValue_openLots
    (emptied : ∀ lot ∈ lots, lot.quantity = 0 → lot.buyFeeRemaining.val = 0) :
    carryingValue (openLots lots) = carryingValue lots := by
  induction lots with
  | nil => rfl
  | cons lot lots ih =>
    have rest := ih fun other member => emptied other (List.mem_cons_of_mem lot member)
    unfold openLots at rest ⊢
    by_cases positive : 0 < lot.quantity
    · simp [positive, rest]
    · have zero : lot.quantity = 0 := by omega
      have nothing : lot.carrying = 0 := by
        simp [Lot.carrying, zero, emptied lot List.mem_cons_self zero]
      simp [zero, nothing, rest]

theorem openLots_positive (member : lot ∈ openLots lots) :
    0 < lot.quantity := by
  simpa using (List.mem_filter.mp member).2

theorem realizedOf_val {notional gain totalFee : Money}
    (realized : realizedOf notional tally totalFee = .ok gain) :
    gain.val = notional.val - tally.basis.val - tally.buyFee.val - totalFee.val := by
  simp only [realizedOf, bind_eq_ok, Money.sub_eq_ok] at realized
  obtain ⟨overBasis, overBasisEq, overBuyFee, overBuyFeeEq, gainEq⟩ := realized
  omega

/-! ## The recomputed effect of one fill -/

/-- The name on the lot that a buy created. -/
def newLotName (change : LotChange) : Option String :=
  match change.before, change.after with
  | none, some lot => some lot.name
  | _, _ => none

/-- A fill as the recomputation collects it, with any correction already applied. -/
structure RecomputeFill where
  time : Instant
  id : Int
  command : String
  order : OrderFact
  price : Money
  quantity : Nat

/-- The lot a recomputed buy creates. -/
def boughtLot (fill : RecomputeFill) (name : String) (charge : Money) (sellableFrom : Day) : Lot :=
  { lotId := "fill:" ++ fill.command
    code := fill.order.code
    name := name
    quantity := fill.quantity
    basisPrice := fill.price
    buyFeeRemaining := charge
    acquiredOn := day fill.time
    sellableFrom := sellableFrom
    reportedCost := none }

def recomputeBuy (host : Host) (state : Projection) (fill : RecomputeFill)
    (notional charge : Money) : Outcome Projection := do
  let spent ← state.cash.sub notional
  let cash ← spent.sub charge
  let name ← okOr (fill.order.lotChanges.findSome? newLotName)
    (.integrityFailure "original buy lot absent")
  let sellableFrom ← host.calendarNext (day fill.time)
  pure { state with
    cash := cash
    lots := state.lots ++ [boughtLot fill name charge sellableFrom] }

def recomputeSell (state : Projection) (fill : RecomputeFill) (notional charge : Money) :
    Outcome Projection := do
  let (tally, lots) ← sellFrom fill.order.code (day fill.time) (.start fill.quantity) state.lots
  require (tally.left = 0) (.evidenceUnavailable ("fill=" ++ toString fill.id ++
    " exceeds FIFO/T+1 inventory by " ++ toString tally.left))
  let gross ← state.cash.add notional
  let cash ← gross.sub charge
  let gain ← realizedOf notional tally charge
  let realizedPnl ← state.realizedPnl.add gain
  pure { state with lots := openLots lots, cash := cash, realizedPnl := realizedPnl }

def recomputeTrade (host : Host) (state : Projection) (fill : RecomputeFill)
    (notional charge : Money) : Outcome Projection :=
  if fill.order.direction = "buy" then recomputeBuy host state fill notional charge
  else if fill.order.direction = "sell" then recomputeSell state fill notional charge
  else .error (.integrityFailure "unknown fill side")

/-- `apply_economics_with_work`: one fill applied to the recomputed account. -/
def applyEconomics (host : Host) (state : Projection) (fill : RecomputeFill) :
    Outcome Projection := do
  let notional ← fill.price.mul fill.quantity
  let charge ← fee fill.price fill.quantity fill.order.direction
  let traded ← recomputeTrade host state fill notional charge
  require (0 ≤ traded.cash.val)
    (.evidenceUnavailable ("fill=" ++ toString fill.id ++ " creates negative cash"))
  let fees ← traded.fees.add charge
  pure { traded with fees := fees, asOf := max traded.asOf fill.time }

/-- Everything a recomputed buy does. -/
structure BuyApplied (host : Host) (state : Projection) (fill : RecomputeFill)
    (next : Projection) (charge : Money) : Prop where
  side : fill.order.direction = "buy"
  fee : fee fill.price fill.quantity fill.order.direction = .ok charge
  cash : next.cash.val = state.cash.val - fill.price.val * fill.quantity - charge.val
  lots : ∃ name sellableFrom, fill.order.lotChanges.findSome? newLotName = some name ∧
    host.calendarNext (day fill.time) = .ok sellableFrom ∧
    next.lots = state.lots ++ [boughtLot fill name charge sellableFrom]
  solvent : 0 ≤ next.cash.val
  fees : next.fees.val = state.fees.val + charge.val
  rest : next = { state with
    cash := next.cash, lots := next.lots, fees := next.fees, asOf := max state.asOf fill.time }

/-- Everything a recomputed sale does. -/
structure SellApplied (state : Projection) (fill : RecomputeFill) (next : Projection)
    (charge : Money) : Prop where
  side : fill.order.direction = "sell"
  fee : fee fill.price fill.quantity fill.order.direction = .ok charge
  notional : ∃ notional : Money, notional.val = fill.price.val * fill.quantity
  gross : ∃ gross : Money, gross.val = state.cash.val + fill.price.val * fill.quantity
  cash : next.cash.val = state.cash.val + fill.price.val * fill.quantity - charge.val
  lots : ∃ tally left, sellFrom fill.order.code (day fill.time) (.start fill.quantity)
      state.lots = .ok (tally, left) ∧ tally.left = 0 ∧ next.lots = openLots left ∧
    next.realizedPnl.val = state.realizedPnl.val +
      (fill.price.val * fill.quantity - tally.basis.val - tally.buyFee.val - charge.val)
  solvent : 0 ≤ next.cash.val
  fees : next.fees.val = state.fees.val + charge.val
  rest : next = { state with
    cash := next.cash, lots := next.lots, realizedPnl := next.realizedPnl, fees := next.fees,
    asOf := max state.asOf fill.time }

variable {fill : RecomputeFill} {next : Projection}

/-- The recomputation applies a fill only as a buy or as a sale. -/
theorem applyEconomics_cases (applied : applyEconomics host state fill = .ok next) :
    ∃ charge, BuyApplied host state fill next charge ∨ SellApplied state fill next charge := by
  simp only [applyEconomics, bind_eq_ok, Money.mul_eq_ok, require_eq_ok, Money.add_eq_ok,
    pure_eq_ok] at applied
  obtain ⟨notional, notionalEq, charge, charged, traded, trade, _, solvent, fees, feesEq, rfl⟩ :=
    applied
  refine ⟨charge, ?_⟩
  unfold recomputeTrade at trade
  split at trade
  · rename_i buying
    simp only [recomputeBuy, bind_eq_ok, Money.sub_eq_ok, okOr_eq_ok, pure_eq_ok] at trade
    obtain ⟨spent, spentEq, cash, cashEq, name, named, sellableFrom, next, rfl⟩ := trade
    refine Or.inl ⟨buying, charged, ?_, ⟨name, sellableFrom, named, next, rfl⟩, solvent, feesEq,
      rfl⟩
    simp only [cashEq, spentEq, notionalEq]
  · split at trade
    · rename_i selling
      simp only [recomputeSell, bind_eq_ok, Money.sub_eq_ok, Money.add_eq_ok, require_eq_ok,
        pure_eq_ok, Prod.exists] at trade
      obtain ⟨tally, left, sold, _, done, gross, grossEq, cash, cashEq, gain, gained, realizedPnl,
        realizedEq, rfl⟩ := trade
      have gainEq := realizedOf_val gained
      refine Or.inr ⟨selling, charged, ⟨notional, notionalEq⟩, ⟨gross, by rw [grossEq, notionalEq]⟩,
        ?_, ⟨tally, left, sold, done, rfl, ?_⟩, solvent, feesEq, rfl⟩
      · simp only [cashEq, grossEq, notionalEq]
      · simp only [realizedEq, gainEq, notionalEq]
    · cases trade

/-- What every projection the ledger builds satisfies. -/
structure Sound (state : Projection) : Prop where
  balanced : Balanced state
  positive : ∀ lot ∈ state.lots, 0 < lot.quantity

/-- Applying a fill of a positive quantity keeps the accounting identity. -/
theorem applyEconomics_sound (quantity : 0 < fill.quantity) (sound : Sound state)
    (applied : applyEconomics host state fill = .ok next) : Sound next := by
  obtain ⟨charge, buy | sell⟩ := applyEconomics_cases applied
  · obtain ⟨name, sellableFrom, _, _, lots⟩ := buy.lots
    refine ⟨?_, ?_⟩
    · have carried : carryingValue next.lots = carryingValue state.lots +
          (fill.price.val * fill.quantity + charge.val) := by
        rw [lots, carryingValue_append]
        simp [Lot.carrying, boughtLot]
      have unchanged : next.seedEquity = state.seedEquity ∧ next.realizedPnl = state.realizedPnl := by
        rw [buy.rest]
        exact ⟨rfl, rfl⟩
      have before := sound.balanced
      unfold Balanced at before ⊢
      rw [unchanged.1, unchanged.2, carried, buy.cash, ← before]
      ring
    · intro lot member
      rw [lots] at member
      rcases mem_concat.mp member with old | new
      · exact sound.positive lot old
      · rw [new]
        exact quantity
  · obtain ⟨tally, left, sold, _, lots, realized⟩ := sell.lots
    have effect := sellFrom_sold sold
    refine ⟨?_, fun lot member => openLots_positive (lots ▸ member)⟩
    have carried : carryingValue state.lots =
        carryingValue next.lots + tally.basis.val + tally.buyFee.val := by
      rw [lots, carryingValue_openLots (effect.emptied sound.positive), effect.carried]
      simp [SaleTally.start]
    have unchanged : next.seedEquity = state.seedEquity := by rw [sell.rest]
    have before := sound.balanced
    unfold Balanced at before ⊢
    rw [unchanged, realized, sell.cash]
    omega

end StockAnalysis.Ledger
