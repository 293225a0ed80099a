import StockAnalysis.Book.Steps

/-!
# Sell claims never dangle

A working sell parent claims exactly its remainder; every claim is positive and on a held lot of
the parent's code and chain that is sellable in the parent's session. Validation checks that
claimed lots exist and are not overbooked. The rest is inductive: lots keep their code, their
first sellable day and their chain for as long as they are held, and only a fill of the parent
itself changes its claims.
-/

namespace StockAnalysis.Book

open StockAnalysis.Ledger (Lot Projection openLots)

variable {state next : ExecutionProjection} {id : String} {parent : ParentState}
  {window : WindowRecord} {modeled : ModeledFill} {trade : Trade} {consumed : Consumption}
  {rest : List LotClaim} {host : Host} {manifest : ExecutionManifest} {fee : AShareFeePolicyV2}
  {reserve : WorkingReservation} {intent : IntentRecord} {lots : List Lot} {parentId : String}
  {record : FillRecord}

namespace ExecutionProjection

/-- A positive claim on a held lot that the parent may sell. -/
structure ClaimSound (state : ExecutionProjection) (intent : IntentRecord) (claim : LotClaim) :
    Prop where
  positive : 0 < claim.quantity
  lot : ∃ lot ∈ state.account.lots, lot.lotId = claim.lotId ∧
    lot.code = intent.instrumentCode ∧ lot.sellableFrom ≤ intent.sessionDate ∧
    AssignedTo state.lotAssignments lot.lotId intent.chainId

/-- The claims of one parent. -/
structure ClaimsSound (state : ExecutionProjection) (parent : ParentState) : Prop where
  sell : parent.status.isWorking = true → parent.intent.side = .sell →
    Book.claimedShares parent.sellClaims = parent.remaining
  buy : parent.intent.side = .buy → parent.sellClaims = []
  claims : ∀ claim ∈ parent.sellClaims, ClaimSound state parent.intent claim

/-- The claims of all parents. -/
def Claiming (state : ExecutionProjection) : Prop :=
  ∀ id parent, state.parents.get? id = some parent → ClaimsSound state parent

/-! ## Lots that stay held -/

/-- A lot that is still held is the lot it was, with the assignment it had. -/
structure LotsKept (state next : ExecutionProjection) : Prop where
  lots : ∀ lot ∈ state.account.lots, ∀ left ∈ next.account.lots, left.lotId = lot.lotId →
    left.code = lot.code ∧ left.sellableFrom = lot.sellableFrom
  assigned : ∀ left ∈ next.account.lots, ∀ chain,
    state.lotAssignments.get? left.lotId = some chain →
      next.lotAssignments.get? left.lotId = some chain

theorem ClaimSound.kept {claim : LotClaim} (sound : ClaimSound state intent claim)
    (kept : LotsKept state next) (held : ∃ left ∈ next.account.lots, left.lotId = claim.lotId) :
    ClaimSound next intent claim := by
  obtain ⟨left, inNext, leftId⟩ := held
  obtain ⟨lot, inState, lotId, code, sellable, assigned⟩ := sound.lot
  have same : left.lotId = lot.lotId := leftId.trans lotId.symm
  obtain ⟨codeKept, sellableKept⟩ := kept.lots lot inState left inNext same
  refine ⟨sound.positive, left, inNext, leftId, codeKept.trans code, ?_, ?_⟩
  · rw [sellableKept]
    exact sellable
  · exact kept.assigned left inNext _ (same ▸ assigned)

theorem SameHoldings.lotsKept (holdings : SameHoldings state next) (valid : state.Valid) :
    LotsKept state next := by
  refine ⟨fun lot inState left inNext same => ?_, fun left inNext chain assigned => ?_⟩
  · rw [holdings.lots] at inNext
    obtain rfl := lot_eq_of_lotId valid.dispositions.1 inNext inState same
    exact ⟨rfl, rfl⟩
  · rw [holdings.assignments]
    exact assigned

/-- A fresh key is the identity of no held lot. -/
theorem Valid.fresh_lotId (valid : state.Valid) (fresh : state.lotAssignments.get? id = none)
    {lot : Lot} (held : lot ∈ state.account.lots) :
    lot.lotId ≠ id := by
  rintro rfl
  have keyed := valid.dispositions.2.1 lot.lotId (List.mem_map_of_mem held)
  obtain ⟨chain, stored⟩ := OrdMap.mem_keys_iff.mp keyed
  rw [fresh] at stored
  cases stored

theorem BuyTrade.lotsKept {fillId : String}
    (buy : BuyTrade state parent fillId window modeled trade) (valid : state.Valid)
    (lots : next.account.lots = trade.lots)
    (assignments : next.lotAssignments = trade.lotAssignments) : LotsKept state next := by
  refine ⟨fun lot inState left inNext same => ?_, fun left inNext chain assigned => ?_⟩
  · rw [lots, buy.lots] at inNext
    rcases mem_concat.mp inNext with old | new
    · obtain rfl := lot_eq_of_lotId valid.dispositions.1 old inState same
      exact ⟨rfl, rfl⟩
    · rw [new] at same
      exact absurd same.symm (valid.fresh_lotId buy.fresh inState)
  · have different : fillId ≠ left.lotId := by
      rintro rfl
      rw [buy.fresh] at assigned
      cases assigned
    rw [assignments, buy.assignments, OrdMap.get?_insert, if_neg different]
    exact assigned

/-- Dropping the assignments of emptied lots adds none. -/
theorem get?_dropEmptied {assignments : OrdMap String (Option String)} {chain : Option String}
    (stored : (dropEmptied lots assignments).get? id = some chain) :
    assignments.get? id = some chain := by
  unfold dropEmptied at stored
  generalize lots.filter (fun lot => lot.quantity = 0) = emptied at stored
  induction emptied generalizing assignments with
  | nil => exact stored
  | cons lot emptied ih =>
    have before := ih stored
    rw [OrdMap.get?_erase] at before
    split at before
    · cases before
    · exact before

/-- Every lot after a sale was held before. -/
theorem forall₂_shrunk_mem {leftovers : List Lot} (shrunk : List.Forall₂ Shrunk lots leftovers)
    {left : Lot} (member : left ∈ leftovers) :
    ∃ lot ∈ lots, Shrunk lot left := by
  induction shrunk with
  | nil => cases member
  | cons first rest ih =>
    rcases List.mem_cons.mp member with rfl | later
    · exact ⟨_, List.mem_cons_self, first⟩
    · obtain ⟨lot, inLots, shrinks⟩ := ih later
      exact ⟨lot, List.mem_cons_of_mem _ inLots, shrinks⟩

theorem SellTrade.lotsKept (sell : SellTrade state parent window modeled trade consumed rest)
    (valid : state.Valid) (nextValid : next.Valid) (lots : next.account.lots = trade.lots)
    (assignments : next.lotAssignments = trade.lotAssignments) : LotsKept state next := by
  have loop := consumeClaims_consumed sell.loop
  refine ⟨fun lot inState left inNext same => ?_, fun left inNext chain assigned => ?_⟩
  · rw [lots, sell.lots] at inNext
    obtain ⟨before, inLots, shrunk⟩ := forall₂_shrunk_mem loop.shrunk (List.mem_filter.mp inNext).1
    obtain rfl := lot_eq_of_lotId valid.dispositions.1 inLots inState (shrunk.lotId ▸ same)
    exact ⟨shrunk.code, shrunk.sellableFrom⟩
  · -- The next projection assigns every lot it holds, and a sale changes no assignment.
    have keyed := nextValid.dispositions.2.1 left.lotId (List.mem_map_of_mem inNext)
    obtain ⟨found, stored⟩ := OrdMap.mem_keys_iff.mp keyed
    have before := stored
    rw [assignments, sell.assignments] at before
    rw [get?_dropEmptied before] at assigned
    rw [stored, Option.some.inj assigned]

theorem Filled.lotsKept
    (filled : Filled host manifest fee state next parentId window parent modeled trade reserve
      record) (valid : state.Valid) (nextValid : next.Valid) : LotsKept state next := by
  rcases filled.traded with buy | ⟨consumed, rest, sell⟩
  · exact buy.lotsKept valid filled.lots filled.assignments
  · exact sell.lotsKept valid nextValid filled.lots filled.assignments

/-! ## The invariant -/

/-- The lots of a parent's claims are held, whatever its status. -/
theorem Valid.claims_held (valid : state.Valid) (stored : state.parents.get? id = some parent) :
    ∀ claim ∈ parent.sellClaims, ∃ lot ∈ state.account.lots, lot.lotId = claim.lotId := by
  intro claim member
  cases working : parent.status.isWorking with
  | true => exact valid.claimedLots id parent stored working claim member
  | false =>
    rw [(valid.parents id parent stored).terminal working] at member
    cases member

/-- A parent that no request touched keeps its claims. -/
theorem ClaimsSound.kept (sound : ClaimsSound state parent) (kept : LotsKept state next)
    (nextValid : next.Valid) (stored : next.parents.get? id = some parent) :
    ClaimsSound next parent :=
  ⟨sound.sell, sound.buy, fun claim member =>
    (sound.claims claim member).kept kept (nextValid.claims_held stored claim member)⟩

/-- The invariant after one parent is stored. -/
theorem Claiming.insert (claiming : Claiming state) (kept : LotsKept state next)
    (nextValid : next.Valid) (parents : next.parents = state.parents.insert id parent)
    (sound : next.parents.get? id = some parent → ClaimsSound next parent) : Claiming next := by
  intro other found stored
  by_cases same : id = other
  · subst same
    have here : next.parents.get? id = some parent := by
      rw [parents, OrdMap.get?_insert, if_pos rfl]
    obtain rfl := Option.some.inj (here.symm.trans stored)
    exact sound stored
  · have before : state.parents.get? other = some found := by
      rw [parents, OrdMap.get?_insert, if_neg same] at stored
      exact stored
    exact (claiming other found before).kept kept nextValid stored

theorem Claiming.same (claiming : Claiming state) (kept : LotsKept state next)
    (nextValid : next.Valid) (parents : next.parents = state.parents) : Claiming next := by
  intro id parent stored
  exact (claiming id parent (parents ▸ stored)).kept kept nextValid stored

theorem Submitted.claimsSound {claims : List LotClaim}
    (submitted : Submitted host fee state next intent reserve claims) :
    ClaimsSound next (newParent intent reserve claims) := by
  cases submitted.admitted with
  | buy side =>
    refine ⟨fun _ sell => ?_, fun _ => rfl, fun claim member => by cases member⟩
    have selling : intent.side = .sell := sell
    rw [side] at selling
    cases selling
  | sell side claimed =>
    obtain ⟨each, sum⟩ := claimLots_claims claimed
    refine ⟨fun _ _ => ?_, fun buy => ?_, fun claim member => ?_⟩
    · rw [Nat.zero_add] at sum
      exact sum
    · have buying : intent.side = .buy := buy
      rw [side] at buying
      cases buying
    · obtain ⟨positive, lot, claimable, lotId⟩ := each claim member
      obtain ⟨held, code, sellable, assigned⟩ := mem_claimableLots.mp claimable
      refine ⟨positive, lot, ?_, lotId, code, sellable, ?_⟩
      · rw [submitted.holdings.lots]
        exact held
      · rw [submitted.holdings.assignments]
        exact assigned

/-- The claims of a parent after a sell fill: its old claims less the shares sold. -/
theorem SellTrade.claims_sound (sell : SellTrade state parent window modeled trade consumed rest)
    (sound : ClaimsSound state parent) (kept : LotsKept state next)
    (held : ∀ claim ∈ trade.sellClaims,
      ∃ lot ∈ next.account.lots, lot.lotId = claim.lotId) :
    ∀ claim ∈ trade.sellClaims, ClaimSound next parent.intent claim := by
  intro claim member
  have lotHeld := held claim member
  rw [sell.claims] at member
  obtain ⟨inRest, positive⟩ := List.mem_filter.mp member
  have lotIds := (consumeClaims_consumed sell.loop).lotIds
  have inIds : claim.lotId ∈ parent.sellClaims.map LotClaim.lotId :=
    lotIds ▸ List.mem_map_of_mem inRest
  obtain ⟨original, inClaims, same⟩ := List.mem_map.mp inIds
  have originalSound := (sound.claims original inClaims).kept kept (same ▸ lotHeld)
  exact ⟨by simpa using positive, same ▸ originalSound.lot⟩

theorem SellTrade.claimedShares (sell : SellTrade state parent window modeled trade consumed rest) :
    Book.claimedShares trade.sellClaims + modeled.quantity =
      Book.claimedShares parent.sellClaims := by
  have shares := (consumeClaims_consumed sell.loop).shares
  rw [sell.taken] at shares
  rw [sell.claims, claimedShares_filter]
  exact shares

theorem Filled.claimsSound
    (filled : Filled host manifest fee state next parentId window parent modeled trade reserve
      record) (sound : ClaimsSound state parent) (kept : LotsKept state next)
    (nextValid : next.Valid) (stored : next.parents.get? parentId = some (filledParent parent
      (parent.filled + modeled.quantity) (parent.remaining - modeled.quantity) reserve
      trade.sellClaims)) :
    ClaimsSound next (filledParent parent (parent.filled + modeled.quantity)
      (parent.remaining - modeled.quantity) reserve trade.sellClaims) := by
  have held := nextValid.claims_held stored
  rcases filled.traded with buy | ⟨consumed, rest, sell⟩
  · have none : trade.sellClaims = [] := buy.claims.trans (sound.buy buy.side)
    refine ⟨fun _ selling => ?_, fun _ => none, fun claim member => ?_⟩
    · have side : parent.intent.side = .sell := selling
      rw [buy.side] at side
      cases side
    · have inTrade : claim ∈ trade.sellClaims := member
      rw [none] at inTrade
      cases inTrade
  · refine ⟨fun _ _ => ?_, fun buying => ?_, sell.claims_sound sound kept held⟩
    · have total := sound.sell filled.matched.working sell.side
      have shares := sell.claimedShares
      change Book.claimedShares trade.sellClaims = parent.remaining - modeled.quantity
      omega
    · have side : parent.intent.side = .buy := buying
      rw [sell.side] at side
      cases side

theorem Step.claiming {request : CommandRecord} (step : Step host manifest fee state next request)
    (valid : state.Valid) (nextValid : next.Valid) (claiming : Claiming state) : Claiming next := by
  cases step with
  | submit submitted =>
    exact claiming.insert (submitted.holdings.lotsKept valid) nextValid submitted.parents
      fun _ => submitted.claimsSound
  | observe observed =>
    exact claiming.same (observed.holdings.lotsKept valid) nextValid observed.parents
  | fill filled =>
    have kept := filled.lotsKept valid nextValid
    exact claiming.insert kept nextValid filled.parents fun stored =>
      filled.claimsSound (claiming _ _ filled.matched.stored) kept nextValid stored
  | close closed =>
    refine claiming.insert (closed.holdings.lotsKept valid) nextValid closed.parents fun stored =>
      ⟨fun working _ => ?_, fun _ => rfl, fun claim member => by cases member⟩
    have terminal := (nextValid.parents _ _ stored).working working
    exact absurd terminal.1 (lt_irrefl 0)
  | marks remarked =>
    exact claiming.same (remarked.holdings.lotsKept valid) nextValid remarked.parents

theorem Reachable.claiming {genesis : Projection}
    (reachable : Reachable host manifest genesis state) :
    Claiming state := by
  refine reachable.invariant Claiming (fun start opened id parent stored => ?_)
    (fun before after request fee valid nextValid _ step => step.claiming valid nextValid)
  rw [opened.parents] at stored
  cases stored

end ExecutionProjection

end StockAnalysis.Book
