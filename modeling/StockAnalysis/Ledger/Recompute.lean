import Mathlib.Data.List.Induction
import StockAnalysis.Foundation.TimedMerge
import StockAnalysis.Ledger.Facts

/-!
# Recomputing an account under rulings

`recompute_available`: the account rebuilt from its seed with the rulings applied. The fills
and the market observations of the chain are collected, each is sorted by time (fills by time
and trade identity), and the two are merged: before each observation every fill not later than
it is applied. A quarantined fill is skipped, but the prices observed with it are kept.
-/

namespace StockAnalysis.Ledger

/-- A market observation: the marks known at a time, and whether they close the day. -/
structure RecomputeMarket where
  time : Instant
  closing : Bool
  marks : OrdMap String Mark

/-- Rulings by trade identity. -/
abbrev Rulings := OrdMap Int AdjudicationAction

variable (manifest : SeedManifest) (actions : Rulings) (rows : List EventRow)

/-- `latest_rulings`: the last ruling on each trade. -/
def latestRulings : Rulings :=
  rows.foldl (fun rulings row =>
    match row.payload with
    | .adjudicatedV1 fact => rulings.insert fact.request.original.paperTradeId fact.request.action
    | _ => rulings) OrdMap.empty

/-- The hash of the last ruling on a trade. -/
def predecessor (id : Int) : Option String :=
  rows.foldl (fun found row =>
    match row.payload with
    | .adjudicatedV1 fact =>
      if fact.request.original.paperTradeId = id then some row.eventHash else found
    | _ => found) none

/-- The fill of an order under the rulings: absent when quarantined, and with the declared
price, quantity and time when corrected. -/
def ruledFill (id : Int) (command : String) (order : OrderFact) : Option RecomputeFill :=
  match actions.get? id with
  | some .quarantine => none
  | some (.correctionDeclared price quantity factAt) =>
    some ⟨factAt, id, command, order, price, quantity⟩
  | none => some ⟨order.occurredAt, id, command, order, order.requestedPrice, order.quantity⟩

/-- The terms of a fill must lie within the epoch. -/
def checkFill (fill : RecomputeFill) : Outcome Unit :=
  require (0 < fill.price.val ∧ fill.quantity ≠ 0 ∧ fill.quantity % 100 = 0 ∧
    manifest.cutoverAt ≤ fill.time)
    (.invalidInput "correction price/quantity/time outside epoch")

/-- The fills and observations collected so far. -/
structure History where
  fills : List RecomputeFill
  market : List RecomputeMarket

def History.nil : History :=
  ⟨[], []⟩

def History.append (first second : History) : History :=
  ⟨first.fills ++ second.fills, first.market ++ second.market⟩

/-- What a filled order contributes. -/
def orderHistory (command : String) (order : OrderFact) : Outcome History := do
  let id ← okOr order.paperTradeId (.integrityFailure "fill identity absent")
  let observed : List RecomputeMarket := [⟨order.occurredAt, false, order.marks⟩]
  match ruledFill actions id command order with
  | none => pure ⟨[], observed⟩
  | some fill => do
      checkFill manifest fill
      pure ⟨[fill], observed⟩

/-- What one event contributes. -/
def rowHistory (row : EventRow) : Outcome History :=
  match row.payload with
  | .order order =>
    if order.status = .filled then orderHistory manifest actions row.commandId order
    else pure .nil
  | .marked batch => pure ⟨[], [⟨batch.asOf, batch.closing, collectMarks batch.marks⟩]⟩
  | _ => pure .nil

def collectHistory : Outcome History :=
  each (fun collected row => do
    let contribution ← rowHistory manifest actions row
    pure (collected.append contribution)) .nil rows

/-- Fills are ordered by time, then by trade identity. -/
def fillBefore (a b : RecomputeFill) : Prop :=
  a.time < b.time ∨ (a.time = b.time ∧ a.id ≤ b.id)

instance : DecidableRel fillBefore := fun a b =>
  inferInstanceAs (Decidable (a.time < b.time ∨ (a.time = b.time ∧ a.id ≤ b.id)))

/-- Observations are ordered by time alone. -/
def marketBefore (a b : RecomputeMarket) : Prop :=
  a.time ≤ b.time

instance : DecidableRel marketBefore := fun a b => inferInstanceAs (Decidable (a.time ≤ b.time))

/-- `sort_recompute_fills_owner`: the source's stable sort, as a stable insertion sort. -/
def sortRecomputeFills (fills : List RecomputeFill) : List RecomputeFill :=
  fills.insertionSort fillBefore

/-- `sort_recompute_markets_owner`: observations of one time keep their chain order. -/
def sortRecomputeMarkets (market : List RecomputeMarket) : List RecomputeMarket :=
  market.insertionSort marketBefore

/-- Record a market observation, and the day's equity if it closes the day. -/
def observeMarket (state : Projection) (entry : RecomputeMarket) : Outcome Projection :=
  let seen : Projection := { state with
    marks := state.marks.extend entry.marks
    asOf := max state.asOf entry.time }
  if entry.closing then do
    let equity ← seen.equity
    pure { seen with closes := seen.closes.insert (day entry.time) equity }
  else pure seen

/-- The merge of the source: before each observation, every fill not later than it. -/
def mergeHistory (host : Host) (state : Projection) (fills : List RecomputeFill)
    (market : List RecomputeMarket) : Outcome Projection :=
  TimedMerge.merge (applyEconomics host) observeMarket RecomputeFill.time RecomputeMarket.time
    state fills market

/-- The manifest of a chain that begins with its seed. -/
def seedOf : Outcome SeedManifest :=
  match rows with
  | [] => .error (.integrityFailure "missing seed")
  | row :: _ =>
    match row.payload with
    | .seeded manifest _ _ => pure manifest
    | _ => .error (.integrityFailure "missing seed")

/-- Only the marks of open lots are kept at the end. -/
def keepHeld (state : Projection) : Projection :=
  { state with marks := heldMarks state.marks state.lots }

def recomputeAvailable (host : Host) (rows : List EventRow) (actions : Rulings) :
    Outcome Projection := do
  let manifest ← seedOf rows
  let seed ← seedProjection host manifest
  let history ← collectHistory manifest actions rows
  let merged ← mergeHistory host seed (sortRecomputeFills history.fills)
    (sortRecomputeMarkets history.market)
  let _ ← (keepHeld merged).equity
  pure (keepHeld merged)

def dependencyText (request reason : String) : String :=
  "ruling=" ++ request ++ " dependency unavailable: " ++ reason

/-- The rulings in force once a request is accepted. -/
def rulingsWith (request : Adjudication) : Rulings :=
  (latestRulings rows).insert request.original.paperTradeId request.action

/-- `recompute`: the projection a ruling leads to. Missing evidence does not refuse the ruling:
the account stands as it was, marked economically unavailable. -/
def recompute (host : Host) (rows : List EventRow) (request : Adjudication)
    (before : Projection) : Outcome Projection :=
  if request.original.legacyBeforeCutover then pure before
  else
    match recomputeAvailable host rows (rulingsWith rows request) with
    | .ok state => pure state
    | .error (.evidenceUnavailable reason) =>
      pure { before with economicUnavailable := some (dependencyText request.requestId reason) }
    | .error error => .error error

/-! ## Reasoning about the merge -/

variable {state next : Projection} {fill : RecomputeFill} {manifest : SeedManifest} {row : EventRow}
  {rows : List EventRow} {entry : RecomputeMarket}

/-- An observation changes the marks, the time and the closes only. -/
theorem observeMarket_frame (observed : observeMarket state entry = .ok next) :
    next = { state with marks := next.marks, asOf := next.asOf, closes := next.closes } := by
  unfold observeMarket at observed
  split at observed
  · obtain ⟨equity, _, result⟩ := bind_eq_ok.mp observed
    rw [← pure_eq_ok.mp result]
  · rw [← pure_eq_ok.mp observed]

theorem observeMarket_sound (sound : Sound state) (observed : observeMarket state entry = .ok next) :
    Sound next := by
  rw [observeMarket_frame observed]
  exact ⟨sound.balanced, sound.positive⟩

/-- The lot identity of a recomputed buy. -/
def RecomputeFill.lotId (fill : RecomputeFill) : String :=
  "fill:" ++ fill.command

variable {host : Host}

/-- Lots come from the earlier lots or from the fill, and keep their order. -/
theorem applyEconomics_lotIds (applied : applyEconomics host state fill = .ok next) :
    (next.lots.map Lot.lotId).Sublist (state.lots.map Lot.lotId ++ [fill.lotId]) := by
  obtain ⟨charge, buy | sell⟩ := applyEconomics_cases applied
  · obtain ⟨name, sellableFrom, _, _, lots⟩ := buy.lots
    rw [lots, List.map_append]
    exact List.Sublist.refl _
  · obtain ⟨tally, left, sold, _, lots, _⟩ := sell.lots
    rw [lots, ← (sellFrom_sold sold).lotIds]
    exact (List.filter_sublist.map _).trans (List.sublist_append_left _ _)

/-- What a collected fill is: the filled order of one row, under the rulings. -/
structure CollectedFill (manifest : SeedManifest) (actions : Rulings) (row : EventRow)
    (fill : RecomputeFill) : Prop where
  order : ∃ order id, row.payload = .order order ∧ order.status = .filled ∧
    order.paperTradeId = some id ∧ ruledFill actions id row.commandId order = some fill
  checked : checkFill manifest fill = .ok ()

variable {actions : Rulings}

theorem ruledFill_command {id : Int} {command : String} {order : OrderFact}
    (ruled : ruledFill actions id command order = some fill) :
    fill.command = command ∧ fill.id = id ∧ fill.order = order := by
  unfold ruledFill at ruled
  split at ruled
  · cases ruled
  · obtain rfl := Option.some.inj ruled
    exact ⟨rfl, rfl, rfl⟩
  · obtain rfl := Option.some.inj ruled
    exact ⟨rfl, rfl, rfl⟩

variable {history : History}

/-- A row contributes at most one fill, and that is its own. -/
theorem rowHistory_fills (collected : rowHistory manifest actions row = .ok history) :
    history.fills = [] ∨
      ∃ fill, history.fills = [fill] ∧ CollectedFill manifest actions row fill := by
  unfold rowHistory at collected
  split at collected
  · rename_i order payload
    split at collected
    · rename_i filled
      simp only [orderHistory, bind_eq_ok, okOr_eq_ok] at collected
      obtain ⟨id, traded, rest⟩ := collected
      split at rest
      · exact Or.inl (pure_eq_ok.mp rest ▸ rfl)
      · rename_i fill ruled
        obtain ⟨_, checked, result⟩ := bind_eq_ok.mp rest
        exact Or.inr ⟨fill, pure_eq_ok.mp result ▸ rfl,
          ⟨order, id, payload, filled, traded, ruled⟩, checked⟩
    · exact Or.inl (pure_eq_ok.mp collected ▸ rfl)
  · exact Or.inl (pure_eq_ok.mp collected ▸ rfl)
  · exact Or.inl (pure_eq_ok.mp collected ▸ rfl)

/-- Collecting one more row appends its contribution. -/
theorem collectHistory_append_one :
    collectHistory manifest actions (rows ++ [row]) = .ok history ↔
      ∃ before own, collectHistory manifest actions rows = .ok before ∧
        rowHistory manifest actions row = .ok own ∧ before.append own = history := by
  simp only [collectHistory, each_append, bind_eq_ok, each, pure_eq_ok, Except.ok.injEq]
  constructor
  · rintro ⟨before, earlier, _, ⟨own, contributed, rfl⟩, rfl⟩
    exact ⟨before, own, earlier, contributed, rfl⟩
  · rintro ⟨before, own, earlier, contributed, rfl⟩
    exact ⟨before, earlier, _, ⟨own, contributed, rfl⟩, rfl⟩

/-- Every collected fill is that of one row, and no row gives two. -/
theorem collectHistory_fills (collected : collectHistory manifest actions rows = .ok history) :
    (history.fills.map RecomputeFill.command).Sublist (rows.map EventRow.commandId) ∧
      ∀ fill ∈ history.fills, ∃ row ∈ rows, CollectedFill manifest actions row fill := by
  induction rows using List.reverseRecOn generalizing history with
  | nil =>
    simp only [collectHistory, each, Except.ok.injEq] at collected
    simp [← collected, History.nil]
  | append_singleton rows row ih =>
    obtain ⟨before, own, earlier, contributed, rfl⟩ := collectHistory_append_one.mp collected
    obtain ⟨commands, sources⟩ := ih earlier
    have kept : ∀ fill ∈ before.fills, ∃ source ∈ rows ++ [row],
        CollectedFill manifest actions source fill := fun fill member => by
      obtain ⟨source, inRows, from_⟩ := sources fill member
      exact ⟨source, List.mem_append_left _ inRows, from_⟩
    rcases rowHistory_fills contributed with none_ | ⟨fill, one, from_⟩
    · simp only [History.append, none_, List.append_nil, List.map_append]
      exact ⟨commands.trans (List.sublist_append_left _ _), kept⟩
    · simp only [History.append, one, List.map_append, List.map_cons, List.map_nil]
      obtain ⟨order, id, _, _, _, ruled⟩ := from_.order
      refine ⟨?_, fun other member => ?_⟩
      · rw [(ruledFill_command ruled).1]
        exact commands.append (List.Sublist.refl _)
      · rcases mem_concat.mp member with old | new
        · exact kept other old
        · rw [new]
          exact ⟨row, by simp, from_⟩

theorem CollectedFill.quantity_pos (collected : CollectedFill manifest actions row fill) :
    0 < fill.quantity :=
  Nat.pos_of_ne_zero (require_eq_ok.mp collected.checked).2.1

/-- Everything a successful recomputation went through. -/
structure Recomputed (host : Host) (rows : List EventRow) (actions : Rulings)
    (manifest : SeedManifest) (seed : Projection) (history : History) (merged : Projection) :
    Prop where
  begins : seedOf rows = .ok manifest
  seeded : seedProjection host manifest = .ok seed
  collected : collectHistory manifest actions rows = .ok history
  merges : mergeHistory host seed (sortRecomputeFills history.fills)
    (sortRecomputeMarkets history.market) = .ok merged
  valued : ∃ equity, (keepHeld merged).equity = .ok equity

theorem recomputeAvailable_eq_ok : recomputeAvailable host rows actions = .ok state ↔
      ∃ manifest seed history merged,
        Recomputed host rows actions manifest seed history merged ∧ state = keepHeld merged := by
  simp only [recomputeAvailable, bind_eq_ok, pure_eq_ok]
  constructor
  · rintro ⟨manifest, found, seed, seeded, history, collected, merged, merges, equity, valued, rfl⟩
    exact ⟨manifest, seed, history, merged, ⟨found, seeded, collected, merges, equity, valued⟩, rfl⟩
  · rintro ⟨manifest, seed, history, merged, done, rfl⟩
    obtain ⟨equity, valued⟩ := done.valued
    exact ⟨manifest, done.begins, seed, done.seeded, history, done.collected, merged,
      done.merges, equity, valued, rfl⟩

end StockAnalysis.Ledger
