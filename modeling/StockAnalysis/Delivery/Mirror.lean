import Mathlib.Data.List.Perm.Subperm
import StockAnalysis.Delivery.Scopes
import StockAnalysis.Delivery.World

/-!
# Reservations mirror decisions

Decisions, budget slots and cooldowns are rows of different tables that no constraint ties together.
Over every run the reservations of a decision are what its state says: one active slot and one
active cooldown of its current generation while it is undecided or accepted, none once it is
rejected. Together with the order of slots and scopes this bounds the daily budget and keeps the
turns of a rolling scope apart.
-/

namespace StockAnalysis.Delivery

/-! ## Holding a reservation -/

/-- The state of the reservations that a decision holds. -/
def DecisionState.held : DecisionState → Option ReservationState
  | .reserved | .attemptInFlight => some .reserved
  | .uncertainAuditPending | .uncertainTaskTransitionPending | .uncertainManualReview =>
    some .uncertain
  | .acceptedAuditPending | .acceptedTaskTransitionPending | .delivered => some .accepted
  | .rejectedAuditPending | .rejectedTaskTransitionPending | .rejectedDurable
  | .manualRejectedAuditPending | .manualRejectedTaskTransitionPending
  | .manualResolvedRejected => none

variable {state : DecisionState}

theorem DecisionState.held_active {reservation : ReservationState}
    (holds : state.held = some reservation) : reservation.isActive = true := by
  cases state <;> cases holds <;> rfl

/-- A budget slot or a cooldown as its decision sees it. -/
structure Holding where
  identity : String
  decision : String
  generation : Nat
  state : ReservationState

def Holding.moved (holding : Holding) (state : ReservationState) : Holding :=
  { holding with state := state }

def BudgetReservation.holding (row : BudgetReservation) : Holding :=
  ⟨row.identity, row.decision, row.generation, row.state⟩

def CooldownReservation.holding (row : CooldownReservation) : Holding :=
  ⟨row.identity, row.decision, row.generation, row.state⟩

theorem BudgetReservation.holding_identity (row : BudgetReservation) :
    row.holding.identity = row.identity :=
  rfl

theorem CooldownReservation.holding_identity (row : CooldownReservation) :
    row.holding.identity = row.identity :=
  rfl

def Reservations.slots (reservations : Reservations) : List Holding :=
  reservations.budgets.rows.map BudgetReservation.holding

def Reservations.windows (reservations : Reservations) : List Holding :=
  reservations.cooldowns.rows.map CooldownReservation.holding

/-- No active reservation belongs to the decision, or exactly one does: the current one, of the
current generation. -/
def Holds (holdings : List Holding) (decision : String) (generation : Nat)
    (current : Option String) : Option ReservationState → Prop
  | none => ∀ holding ∈ holdings, holding.decision = decision → holding.state = .released
  | some state => ∃ holding ∈ holdings, current = some holding.identity ∧
      holding.decision = decision ∧ holding.generation = generation ∧ holding.state = state ∧
      ∀ other ∈ holdings, other.decision = decision → other.state.isActive = true →
        other = holding

/-- What a decision in a state holds of a kind of reservation that applies to it, or does not. -/
structure Keeps (holdings : List Holding) (applies : Bool) (decision : String) (generation : Nat)
    (current : Option String) (state : DecisionState) : Prop where
  holds : Holds holdings decision generation current (if applies then state.held else none)
  unbound : applies = false → current = none

/-- What a generation adds. -/
inductive Adds (holdings : List Holding) (applies : Bool) (decision : String) (generation : Nat) :
    Option String → List Holding → Prop
  | absent (exempt : applies = false) : Adds holdings applies decision generation none holdings
  | taken (holding : Holding) (required : applies = true) (owner : holding.decision = decision)
      (ofGeneration : holding.generation = generation) (reserved : holding.state = .reserved) :
      Adds holdings applies decision generation (some holding.identity) (holdings ++ [holding])

/-- What a settlement moves. -/
inductive Moves (holdings : List Holding) (current : Option String) (toState : ReservationState) :
    List Holding → Prop
  | absent (unbound : current = none) : Moves holdings current toState holdings
  | unmoved (holding : Holding) (member : holding ∈ holdings)
      (isCurrent : current = some holding.identity) (already : holding.state = toState) :
      Moves holdings current toState holdings
  | moved (holding : Holding) (after : List Holding) (member : holding ∈ holdings)
      (isCurrent : current = some holding.identity)
      (replaced : ∀ other, other ∈ after ↔
        other ∈ holdings ∧ other ≠ holding ∨ other = holding.moved toState) :
      Moves holdings current toState after

variable {holdings : List Holding} {applies : Bool} {decision : String} {generation number : Nat}
  {current : Option String} {target : DecisionState} {toState held : ReservationState}
  {holding : Holding}

section Holdings

variable {after : List Holding} {other : String} {next : Option String}

/-- Only the reservations of the decision matter. -/
theorem Holds.congr {held : Option ReservationState}
    (same : ∀ holding, holding.decision = decision → (holding ∈ after ↔ holding ∈ holdings))
    (holds : Holds holdings decision generation current held) :
    Holds after decision generation current held := by
  cases held with
  | none =>
    intro holding member owner
    exact holds holding ((same holding owner).mp member) owner
  | some reservation =>
    obtain ⟨holding, member, isCurrent, owner, ofGeneration, inState, only⟩ := holds
    refine ⟨holding, (same holding owner).mpr member, isCurrent, owner, ofGeneration, inState, ?_⟩
    intro other isOther otherOwner active
    exact only other ((same other otherOwner).mp isOther) otherOwner active

theorem Keeps.congr
    (same : ∀ holding, holding.decision = decision → (holding ∈ after ↔ holding ∈ holdings))
    (keeps : Keeps holdings applies decision generation current state) :
    Keeps after applies decision generation current state :=
  ⟨keeps.holds.congr same, keeps.unbound⟩

theorem Keeps.of_held (keeps : Keeps holdings applies decision generation current state)
    (same : target.held = state.held) :
    Keeps holdings applies decision generation current target := by
  refine ⟨?_, keeps.unbound⟩
  rw [same]
  exact keeps.holds

/-- A decision without active reservations of its own. -/
theorem Keeps.of_released
    (released : ∀ holding ∈ holdings, holding.decision = decision → holding.state = .released)
    (unheld : state.held = none) : Keeps holdings applies decision generation none state := by
  refine ⟨?_, fun _ => rfl⟩
  rw [unheld, ite_self]
  exact released

/-- A generation is reserved by a decision that held nothing. -/
theorem Adds.keeps (adds : Adds holdings applies decision generation next after)
    (released : ∀ holding ∈ holdings, holding.decision = decision → holding.state = .released)
    (reserved : state.held = some .reserved) :
    Keeps after applies decision generation next state := by
  cases adds with
  | absent exempt =>
    refine ⟨?_, fun _ => rfl⟩
    rw [exempt]
    exact released
  | taken holding required owner ofGeneration inState =>
    refine ⟨?_, fun exempt => absurd (exempt.symm.trans required) Bool.false_ne_true⟩
    rw [if_pos required, reserved]
    refine ⟨holding, List.mem_append_right holdings (List.mem_singleton_self holding), rfl,
      owner, ofGeneration, inState, ?_⟩
    intro other isOther otherOwner active
    rcases mem_concat.mp isOther with listed | last
    · rw [released other listed otherOwner] at active
      cases active
    · exact last

theorem Adds.unseen (adds : Adds holdings applies decision generation next after)
    (different : other ≠ decision) (owner : holding.decision = other) :
    holding ∈ after ↔ holding ∈ holdings := by
  cases adds with
  | absent => exact Iff.rfl
  | taken added required isOwner =>
    rw [List.mem_append, List.mem_singleton, or_iff_left]
    rintro rfl
    exact different (owner.symm.trans isOwner)

/-- The current reservation of a decision that holds one. -/
theorem Keeps.holder (keeps : Keeps holdings applies decision generation current state)
    (holds : state.held = some held)
    (distinct : ∀ first ∈ holdings, ∀ second ∈ holdings, first.identity = second.identity →
      first = second) (member : holding ∈ holdings) (isCurrent : current = some holding.identity) :
    applies = true ∧ holding.decision = decision ∧ holding.generation = generation ∧
      holding.state = held ∧
      ∀ other ∈ holdings, other.decision = decision → other.state.isActive = true →
        other = holding := by
  have required : applies = true := by
    by_contra exempt
    rw [keeps.unbound (by simpa using exempt)] at isCurrent
    cases isCurrent
  have holder := keeps.holds
  rw [if_pos required, holds] at holder
  obtain ⟨own, isOwn, ownCurrent, owner, ofGeneration, inState, only⟩ := holder
  have same : own.identity = holding.identity := Option.some.inj (ownCurrent.symm.trans isCurrent)
  obtain rfl := distinct own isOwn holding member same
  exact ⟨required, owner, ofGeneration, inState, only⟩

/-- A settlement moves what the decision holds. -/
theorem Moves.keeps (moves : Moves holdings current toState after)
    (keeps : Keeps holdings applies decision generation current state)
    (holds : state.held = some held)
    (distinct : ∀ first ∈ holdings, ∀ second ∈ holdings, first.identity = second.identity →
      first = second) (settled : target.held = if toState.isActive then some toState else none) :
    Keeps after applies decision generation current target := by
  cases moves with
  | absent unbound =>
    -- Without a current reservation the kind does not apply.
    have exempt : applies = false := by
      by_contra required
      have holder := keeps.holds
      rw [if_pos (by simpa using required), holds] at holder
      obtain ⟨_, _, isCurrent, _⟩ := holder
      rw [unbound] at isCurrent
      cases isCurrent
    refine ⟨?_, keeps.unbound⟩
    have holder := keeps.holds
    rw [exempt] at holder ⊢
    exact holder
  | unmoved holding member isCurrent already =>
    obtain ⟨_, _, _, inState, _⟩ := keeps.holder holds distinct member isCurrent
    have same : held = toState := inState.symm.trans already
    refine keeps.of_held ?_
    rw [settled, holds, same, if_pos (same ▸ DecisionState.held_active holds)]
  | moved holding after member isCurrent replaced =>
    obtain ⟨required, owner, ofGeneration, _, only⟩ :=
      keeps.holder holds distinct member isCurrent
    refine ⟨?_, keeps.unbound⟩
    rw [if_pos required, settled]
    have alone : ∀ other ∈ after, other.decision = decision → other.state.isActive = true →
        other = holding.moved toState := by
      intro other isOther otherOwner active
      rcases (replaced other).mp isOther with ⟨listed, different⟩ | isMoved
      · exact absurd (only other listed otherOwner active) different
      · exact isMoved
    by_cases active : toState.isActive = true
    · rw [if_pos active]
      exact ⟨holding.moved toState, (replaced _).mpr (.inr rfl), isCurrent, owner, ofGeneration,
        rfl, alone⟩
    · rw [if_neg active]
      intro other isOther otherOwner
      by_contra unreleased
      have otherActive : other.state.isActive = true := by
        cases reached : other.state with
        | released => exact absurd reached unreleased
        | reserved | accepted | uncertain => rfl
      rw [alone other isOther otherOwner otherActive] at otherActive
      exact active otherActive

theorem Moves.unseen (moves : Moves holdings current toState after)
    (keeps : Keeps holdings applies decision generation current state)
    (holds : state.held = some held)
    (distinct : ∀ first ∈ holdings, ∀ second ∈ holdings, first.identity = second.identity →
      first = second) (different : other ≠ decision) (owner : holding.decision = other) :
    holding ∈ after ↔ holding ∈ holdings := by
  cases moves with
  | absent | unmoved => exact Iff.rfl
  | moved old after member isCurrent replaced =>
    obtain ⟨_, isOwner, _⟩ := keeps.holder holds distinct member isCurrent
    rw [replaced]
    constructor
    · rintro (⟨listed, _⟩ | rfl)
      · exact listed
      · exact absurd (owner.symm.trans isOwner) different
    · intro listed
      refine .inl ⟨listed, ?_⟩
      rintro rfl
      exact different (owner.symm.trans isOwner)

end Holdings

/-! ## The holdings of the tables -/

variable {heads : Table CooldownHead.scope} {journal : Journal} {attempt : String} {attemptNo : Nat}
  {budgets : Table BudgetReservation.identity} {cooldowns : Table CooldownReservation.identity}
  {host : Host} {reservations : Reservations} {envelope : DeliveryEnvelope} {policy : PolicyRow}
  {reservedAt occurredAt : Instant} {acceptedAt : Option Instant}

section Views

variable {next : Reservations}

theorem slots_distinct (reservations : Reservations) :
    ∀ first ∈ reservations.slots, ∀ second ∈ reservations.slots,
      first.identity = second.identity → first = second := by
  intro first isFirst second isSecond same
  obtain ⟨row, listed, rfl⟩ := List.mem_map.mp isFirst
  obtain ⟨other, isOther, rfl⟩ := List.mem_map.mp isSecond
  rw [Table.eq_of_key listed isOther same]

theorem windows_distinct (reservations : Reservations) :
    ∀ first ∈ reservations.windows, ∀ second ∈ reservations.windows,
      first.identity = second.identity → first = second := by
  intro first isFirst second isSecond same
  obtain ⟨row, listed, rfl⟩ := List.mem_map.mp isFirst
  obtain ⟨other, isOther, rfl⟩ := List.mem_map.mp isSecond
  rw [Table.eq_of_key listed isOther same]

theorem slots_add {budget : Option String}
    (takes : TakesBudget host reservations envelope policy number reservedAt budget budgets) :
    Adds reservations.slots policy.countsAgainstDailyBudget envelope.decisionIdentity number budget
      (budgets.rows.map BudgetReservation.holding) := by
  cases takes with
  | absent exempt => exact .absent exempt
  | taken slotNo _ counted free inserted =>
    rw [(Table.rows_of_insert inserted).1, List.map_append, List.map_singleton]
    exact .taken (newBudget host envelope number slotNo reservedAt).holding counted rfl rfl rfl

theorem windows_add {cooldown : Option String}
    (takes : TakesCooldown host reservations envelope policy number reservedAt cooldown cooldowns
      heads) :
    Adds reservations.windows (decide (policy.windowMode ≠ .none)) envelope.decisionIdentity number
      cooldown (cooldowns.rows.map CooldownReservation.holding) := by
  cases takes with
  | absent unbounded => exact .absent (by simp [unbounded])
  | taken _ _ windowed inserted led =>
    rw [(Table.rows_of_insert inserted).1, List.map_append, List.map_singleton]
    exact .taken (newCooldown host envelope policy number reservedAt).holding (by simpa using windowed)
      rfl rfl rfl

theorem MovesBudget.slots
    (moves : MovesBudget reservations current toState occurredAt acceptedAt next) :
    Moves reservations.slots current toState next.slots ∧ next.windows = reservations.windows := by
  cases moves with
  | absent unbudgeted => exact ⟨.absent unbudgeted, rfl⟩
  | unmoved old member isCurrent already =>
    exact ⟨.unmoved old.holding (List.mem_map_of_mem member) isCurrent already, rfl⟩
  | moved old member isCurrent pending =>
    refine ⟨.moved old.holding _ (List.mem_map_of_mem member) isCurrent fun other => ?_, rfl⟩
    exact Table.mem_map_set BudgetReservation.holding_identity member
      (BudgetReservation.moved_identity toState occurredAt acceptedAt old)

theorem MovesCooldown.windows
    (moves : MovesCooldown reservations current toState occurredAt acceptedAt next) :
    Moves reservations.windows current toState next.windows ∧ next.slots = reservations.slots := by
  cases moves with
  | absent unbounded => exact ⟨.absent unbounded, rfl⟩
  | unmoved old member isCurrent already =>
    exact ⟨.unmoved old.holding (List.mem_map_of_mem member) isCurrent already, rfl⟩
  | moved old member isCurrent pending =>
    refine ⟨.moved old.holding _ (List.mem_map_of_mem member) isCurrent fun other => ?_, rfl⟩
    exact Table.mem_map_set CooldownReservation.holding_identity member
      (CooldownReservation.moved_identity toState occurredAt acceptedAt old)

theorem attach_holdings {after : Journal} {decision : Decision}
    (done : attachAttemptToReservations host reservations journal decision attempt attemptNo
      occurredAt = .ok (next, after)) :
    (∀ holding, holding ∈ next.slots ↔ holding ∈ reservations.slots) ∧
      ∀ holding, holding ∈ next.windows ↔ holding ∈ reservations.windows := by
  -- A row that is set under the view it had leaves the view as it was.
  have unchanged {present : Prop} {holding old : Holding} (member : holding = old → present) :
      present ∧ holding ≠ old ∨ holding = old ↔ present := by
    by_cases same : holding = old
    · simp [same, member same]
    · simp [same]
  obtain ⟨middle, _, budgeted, cooled⟩ := attachAttemptToReservations_eq_ok done
  have slots : (∀ holding, holding ∈ middle.slots ↔ holding ∈ reservations.slots) ∧
      middle.windows = reservations.windows := by
    rcases attachBudget_eq_ok budgeted with rfl | ⟨old, member, rfl⟩
    · exact ⟨fun _ => Iff.rfl, rfl⟩
    · refine ⟨fun holding => ?_, rfl⟩
      have same := BudgetReservation.attached_identity attempt old
      refine (Table.mem_map_set BudgetReservation.holding_identity member same).trans ?_
      refine unchanged fun isOld => ?_
      rw [isOld]
      exact List.mem_map_of_mem member
  rcases attachCooldown_eq_ok cooled with rfl | ⟨old, member, rfl⟩
  · exact ⟨slots.1, fun holding => by rw [slots.2]⟩
  · refine ⟨slots.1, fun holding => ?_⟩
    rw [← slots.2]
    have same := CooldownReservation.attached_identity attempt old
    refine (Table.mem_map_set CooldownReservation.holding_identity member same).trans ?_
    refine unchanged fun isOld => ?_
    rw [isOld]
    exact List.mem_map_of_mem member

end Views

/-! ## The mirror -/

/-- The decision holds what its state says, under its policy. -/
structure MirrorsUnder (policy : PolicyRow) (reservations : Reservations) (row : Decision) :
    Prop where
  budget : Keeps reservations.slots policy.countsAgainstDailyBudget row.identity
    row.reservationGeneration row.currentBudgetReservation row.state
  cooldown : Keeps reservations.windows (decide (policy.windowMode ≠ .none)) row.identity
    row.reservationGeneration row.currentCooldownReservation row.state

def Mirrors (catalog : List PolicyRow) (reservations : Reservations) (row : Decision) : Prop :=
  ∃ policy, loadPolicy catalog row.envelope.pushKind row.envelope.subKind = .ok policy ∧
    MirrorsUnder policy reservations row

/-- The slot was reserved for a decision, on its business date. -/
def BudgetReservation.PlacedIn (decisions : Table Decision.identity) (row : BudgetReservation) :
    Prop :=
  ∃ decision ∈ decisions.rows, decision.identity = row.decision ∧
    decision.envelope.businessDate = row.businessDate

/-- The cooldown was reserved for a decision, in its scope and under the window of its policy. -/
def CooldownReservation.PlacedIn (catalog : List PolicyRow) (decisions : Table Decision.identity)
    (row : CooldownReservation) : Prop :=
  ∃ decision ∈ decisions.rows, decision.identity = row.decision ∧
    decision.envelope.scope = row.scope ∧ decision.envelope.claimKey = row.claimKey ∧
    ∃ policy, loadPolicy catalog decision.envelope.pushKind decision.envelope.subKind =
      .ok policy ∧ policy.windowMode = row.windowMode

/-- The invariant behind the mirror: the reservations are in order, each decision holds what its
state says, and each reservation stands where its decision was admitted. -/
structure Mirrored (catalog : List PolicyRow) (decisions : Table Decision.identity)
    (reservations : Reservations) : Prop where
  ordered : reservations.Ordered
  mirrors : ∀ row ∈ decisions.rows, Mirrors catalog reservations row
  budgetsPlaced : ∀ row ∈ reservations.budgets.rows, row.PlacedIn decisions
  cooldownsPlaced : ∀ row ∈ reservations.cooldowns.rows, row.PlacedIn catalog decisions

/-- One decision was inserted or changed, and the envelopes stayed. -/
structure Amended (decisions next : Table Decision.identity) (row : Decision) : Prop where
  there : row ∈ next.rows
  only : ∀ other ∈ next.rows, other = row ∨ other ∈ decisions.rows ∧ other.identity ≠ row.identity
  kept : ∀ other ∈ decisions.rows, ∃ same ∈ next.rows, same.envelope = other.envelope

variable {decisions : Table Decision.identity} {row : Decision}

theorem Amended.of_set {old : Decision} (member : old ∈ decisions.rows)
    (same : row.envelope = old.envelope) :
    Amended decisions (decisions.set row) row := by
  have sameKey : row.identity = old.identity := congrArg DeliveryEnvelope.decisionIdentity same
  refine ⟨Table.mem_set_self member sameKey, ?_, ?_⟩
  · intro other listed
    exact ((Table.mem_set member sameKey).mp listed).symm
  · intro other listed
    by_cases isOld : other.identity = row.identity
    · refine ⟨row, Table.mem_set_self member sameKey, ?_⟩
      rw [same, Table.eq_of_key listed member (isOld.trans sameKey)]
    · exact ⟨other, (Table.mem_set member sameKey).mpr (.inl ⟨listed, isOld⟩), rfl⟩

variable {next : Table Decision.identity}

theorem Amended.of_insert (inserted : decisions.insert? row = some next) :
    Amended decisions next row := by
  have fresh := Table.get?_eq_none_iff.mp (Table.rows_of_insert inserted).2
  refine ⟨(Table.mem_of_insert inserted).mpr (.inr rfl), ?_, ?_⟩
  · intro other listed
    rcases (Table.mem_of_insert inserted).mp listed with listed | rfl
    · exact .inr ⟨listed, fresh other listed⟩
    · exact .inl rfl
  · intro other listed
    exact ⟨other, (Table.mem_of_insert inserted).mpr (.inl listed), rfl⟩

variable {window : CooldownReservation} {slot : BudgetReservation} {catalog : List PolicyRow}

section Placed

theorem BudgetReservation.PlacedIn.amended (placed : slot.PlacedIn decisions)
    (amended : Amended decisions next row) :
    slot.PlacedIn next := by
  obtain ⟨decision, listed, owner, onDate⟩ := placed
  obtain ⟨same, isSame, equal⟩ := amended.kept decision listed
  refine ⟨same, isSame, ?_, equal ▸ onDate⟩
  rw [Decision.identity, equal]
  exact owner

theorem CooldownReservation.PlacedIn.amended (placed : window.PlacedIn catalog decisions)
    (amended : Amended decisions next row) :
    window.PlacedIn catalog next := by
  obtain ⟨decision, listed, owner, inScope, ofKey, windowed⟩ := placed
  obtain ⟨same, isSame, equal⟩ := amended.kept decision listed
  refine ⟨same, isSame, ?_, equal ▸ inScope, equal ▸ ofKey, equal ▸ windowed⟩
  rw [Decision.identity, equal]
  exact owner

end Placed

/-- Every reservation is where one of its owner was before. -/
structure PlacesKept (reservations after : Reservations) : Prop where
  budgets : ∀ slot ∈ after.budgets.rows, ∃ old ∈ reservations.budgets.rows,
    old.decision = slot.decision ∧ old.businessDate = slot.businessDate
  cooldowns : ∀ window ∈ after.cooldowns.rows, ∃ old ∈ reservations.cooldowns.rows,
    old.decision = window.decision ∧ old.scope = window.scope ∧
      old.claimKey = window.claimKey ∧ old.windowMode = window.windowMode

variable {written : Journal} {after : Reservations}

namespace PlacesKept

variable {middle : Reservations}

theorem refl (reservations : Reservations) : PlacesKept reservations reservations :=
  ⟨fun slot listed => ⟨slot, listed, rfl, rfl⟩,
    fun window listed => ⟨window, listed, rfl, rfl, rfl, rfl⟩⟩

theorem trans (first : PlacesKept reservations middle) (second : PlacesKept middle after) :
    PlacesKept reservations after := by
  constructor
  · intro slot listed
    obtain ⟨between, isBetween, owner, onDate⟩ := second.budgets slot listed
    obtain ⟨old, isOld, oldOwner, oldDate⟩ := first.budgets between isBetween
    exact ⟨old, isOld, oldOwner.trans owner, oldDate.trans onDate⟩
  · intro window listed
    obtain ⟨between, isBetween, owner, inScope, ofKey, mode⟩ := second.cooldowns window listed
    obtain ⟨old, isOld, oldOwner, oldScope, oldKey, oldMode⟩ := first.cooldowns between isBetween
    exact ⟨old, isOld, oldOwner.trans owner, oldScope.trans inScope, oldKey.trans ofKey,
      oldMode.trans mode⟩

theorem set_budget {old : BudgetReservation} (member : old ∈ reservations.budgets.rows)
    (same : slot.identity = old.identity) (sameOwner : old.decision = slot.decision)
    (sameDate : old.businessDate = slot.businessDate) :
    PlacesKept reservations
      { reservations with budgets := reservations.budgets.set slot } := by
  refine ⟨?_, (refl reservations).cooldowns⟩
  intro other listed
  rcases (Table.mem_set member same).mp listed with ⟨listed, _⟩ | rfl
  · exact ⟨other, listed, rfl, rfl⟩
  · exact ⟨old, member, sameOwner, sameDate⟩

theorem set_cooldown {old : CooldownReservation} (member : old ∈ reservations.cooldowns.rows)
    (same : window.identity = old.identity) (sameOwner : old.decision = window.decision)
    (sameScope : old.scope = window.scope) (sameKey : old.claimKey = window.claimKey)
    (sameMode : old.windowMode = window.windowMode) :
    PlacesKept reservations
      { reservations with cooldowns := reservations.cooldowns.set window, heads := heads } := by
  refine ⟨(refl reservations).budgets, ?_⟩
  intro other listed
  rcases (Table.mem_set member same).mp listed with ⟨listed, _⟩ | rfl
  · exact ⟨other, listed, rfl, rfl, rfl, rfl⟩
  · exact ⟨old, member, sameOwner, sameScope, sameKey, sameMode⟩

theorem move_budget (moves : MovesBudget reservations current toState occurredAt acceptedAt after) :
    PlacesKept reservations after := by
  cases moves with
  | absent | unmoved => exact refl reservations
  | moved old member isCurrent pending =>
    exact set_budget member (BudgetReservation.moved_identity toState occurredAt acceptedAt old)
      rfl rfl

theorem move_cooldown
    (moves : MovesCooldown reservations current toState occurredAt acceptedAt after) :
    PlacesKept reservations after := by
  cases moves with
  | absent | unmoved => exact refl reservations
  | moved old member isCurrent pending =>
    exact set_cooldown member
      (CooldownReservation.moved_identity toState occurredAt acceptedAt old) rfl rfl rfl rfl

theorem attach {decision : Decision}
    (done : attachAttemptToReservations host reservations journal decision attempt attemptNo
      occurredAt = .ok (after, written)) : PlacesKept reservations after := by
  obtain ⟨middle, _, budgeted, cooled⟩ := attachAttemptToReservations_eq_ok done
  have first : PlacesKept reservations middle := by
    rcases attachBudget_eq_ok budgeted with rfl | ⟨old, member, rfl⟩
    · exact refl middle
    · exact set_budget member (BudgetReservation.attached_identity attempt old) rfl rfl
  refine first.trans ?_
  rcases attachCooldown_eq_ok cooled with rfl | ⟨old, member, rfl⟩
  · exact refl after
  · exact set_cooldown member (CooldownReservation.attached_identity attempt old) rfl rfl rfl rfl

end PlacesKept

variable {changed : Decision} {identity : String}

section Steps

theorem Mirrors.congr
    (slots : ∀ holding, holding.decision = row.identity →
      (holding ∈ after.slots ↔ holding ∈ reservations.slots))
    (windows : ∀ holding, holding.decision = row.identity →
      (holding ∈ after.windows ↔ holding ∈ reservations.windows))
    (mirrors : Mirrors catalog reservations row) : Mirrors catalog after row := by
  obtain ⟨policy, registered, under⟩ := mirrors
  exact ⟨policy, registered, under.budget.congr slots, under.cooldown.congr windows⟩

section

variable (mirrored : Mirrored catalog decisions reservations)

include mirrored

/-- One decision changes, and with it what it holds. -/
theorem Mirrored.change (amended : Amended decisions next row) (ordered : after.Ordered)
    (places : PlacesKept reservations after) (own : Mirrors catalog after row)
    (others : ∀ other, other.identity ≠ row.identity → Mirrors catalog reservations other →
      Mirrors catalog after other) : Mirrored catalog next after := by
  refine ⟨ordered, ?_, ?_, ?_⟩
  · intro other listed
    rcases amended.only other listed with rfl | ⟨listed, different⟩
    · exact own
    · exact others other different (mirrored.mirrors other listed)
  · intro slot listed
    obtain ⟨old, isOld, sameOwner, sameDate⟩ := places.budgets slot listed
    obtain ⟨decision, isDecision, owner, onDate⟩ :=
      (mirrored.budgetsPlaced old isOld).amended amended
    exact ⟨decision, isDecision, owner.trans sameOwner, onDate.trans sameDate⟩
  · intro window listed
    obtain ⟨old, isOld, sameOwner, sameScope, sameKey, sameMode⟩ := places.cooldowns window listed
    obtain ⟨decision, isDecision, owner, inScope, ofKey, policy, registered, mode⟩ :=
      (mirrored.cooldownsPlaced old isOld).amended amended
    exact ⟨decision, isDecision, owner.trans sameOwner, inScope.trans sameScope,
      ofKey.trans sameKey, policy, registered, mode.trans sameMode⟩

/-- A decision changes and holds the same. -/
theorem Mirrored.amend (member : row ∈ decisions.rows)
    (sameEnvelope : changed.envelope = row.envelope)
    (sameGeneration : changed.reservationGeneration = row.reservationGeneration)
    (sameBudget : changed.currentBudgetReservation = row.currentBudgetReservation)
    (sameCooldown : changed.currentCooldownReservation = row.currentCooldownReservation)
    (sameHeld : changed.state.held = row.state.held) :
    Mirrored catalog (decisions.set changed) reservations := by
  refine mirrored.change (Amended.of_set member sameEnvelope) mirrored.ordered (.refl reservations)
    ?_ fun _ _ mirrors => mirrors
  obtain ⟨policy, registered, under⟩ := mirrored.mirrors row member
  have sameIdentity : changed.identity = row.identity :=
    congrArg DeliveryEnvelope.decisionIdentity sameEnvelope
  refine ⟨policy, sameEnvelope ▸ registered, ?_, ?_⟩
  · rw [sameIdentity, sameGeneration, sameBudget]
    exact under.budget.of_held sameHeld
  · rw [sameIdentity, sameGeneration, sameCooldown]
    exact under.cooldown.of_held sameHeld

/-- A decision that is not listed has no reservations. -/
theorem Mirrored.unlisted (fresh : ∀ other ∈ decisions.rows, other.identity ≠ identity) :
    (∀ holding ∈ reservations.slots, holding.decision ≠ identity) ∧
      ∀ holding ∈ reservations.windows, holding.decision ≠ identity := by
  constructor
  · intro holding member owner
    obtain ⟨slot, listed, rfl⟩ := List.mem_map.mp member
    obtain ⟨decision, isDecision, isOwner, _⟩ := mirrored.budgetsPlaced slot listed
    exact fresh decision isDecision (isOwner.trans owner)
  · intro holding member owner
    obtain ⟨window, listed, rfl⟩ := List.mem_map.mp member
    obtain ⟨decision, isDecision, isOwner, _⟩ := mirrored.cooldownsPlaced window listed
    exact fresh decision isDecision (isOwner.trans owner)

theorem Mirrored.deny (inserted : decisions.insert? row = some next)
    (registered : loadPolicy catalog row.envelope.pushKind row.envelope.subKind = .ok policy)
    (unbudgeted : row.currentBudgetReservation = none)
    (uncooled : row.currentCooldownReservation = none) (unheld : row.state.held = none) :
    Mirrored catalog next reservations := by
  have fresh := Table.get?_eq_none_iff.mp (Table.rows_of_insert inserted).2
  obtain ⟨noSlot, noWindow⟩ := mirrored.unlisted fresh
  refine mirrored.change (Amended.of_insert inserted) mirrored.ordered (.refl reservations)
    ⟨policy, registered, ?_, ?_⟩ fun _ _ mirrors => mirrors
  · rw [unbudgeted]
    exact .of_released (fun holding member owner => absurd owner (noSlot holding member)) unheld
  · rw [uncooled]
    exact .of_released (fun holding member owner => absurd owner (noWindow holding member)) unheld

/-- A decision that holds nothing reserves a generation. -/
theorem Mirrored.reserve {generation : Generation}
    (amended : Amended decisions next row)
    (registered : loadPolicy catalog row.envelope.pushKind row.envelope.subKind = .ok policy)
    (reserves : Reserves host reservations row.envelope policy number reservedAt generation)
    (free : policy.windowMode = .rolling → ∀ head,
      reservations.heads.get? row.envelope.scope = some head → head.conflicts reservedAt = false)
    (slotsReleased : ∀ holding ∈ reservations.slots, holding.decision = row.identity →
      holding.state = .released)
    (windowsReleased : ∀ holding ∈ reservations.windows, holding.decision = row.identity →
      holding.state = .released) (isNumber : row.reservationGeneration = number)
    (isBudget : row.currentBudgetReservation = generation.budget)
    (isCooldown : row.currentCooldownReservation = generation.cooldown)
    (held : row.state.held = some .reserved) : Mirrored catalog next generation.reservations := by
  have slots := slots_add reserves.budget
  have windows := windows_add reserves.cooldown
  refine ⟨mirrored.ordered.reserve reserves free, ?_, ?_, ?_⟩
  · intro other listed
    rcases amended.only other listed with rfl | ⟨listed, different⟩
    · refine ⟨policy, registered, ?_, ?_⟩
      · rw [isNumber, isBudget]
        exact slots.keeps slotsReleased held
      · rw [isNumber, isCooldown]
        exact windows.keeps windowsReleased held
    · exact (mirrored.mirrors other listed).congr
        (fun holding owner => slots.unseen different owner)
        (fun holding owner => windows.unseen different owner)
  · obtain ⟨_, _, ⟨budgets, _, _, _⟩, _⟩ := generation
    intro slot listed
    have takes := reserves.budget
    dsimp only at takes
    cases takes with
    | absent exempt => exact (mirrored.budgetsPlaced slot listed).amended amended
    | taken slotNo _ counted free inserted =>
      rcases (Table.mem_of_insert inserted).mp listed with listed | rfl
      · exact (mirrored.budgetsPlaced slot listed).amended amended
      · exact ⟨row, amended.there, rfl, rfl⟩
  · obtain ⟨_, _, ⟨_, cooldowns, _, _⟩, _⟩ := generation
    intro window listed
    have takes := reserves.cooldown
    dsimp only at takes
    cases takes with
    | absent unbounded => exact (mirrored.cooldownsPlaced window listed).amended amended
    | taken _ _ windowed inserted led =>
      rcases (Table.mem_of_insert inserted).mp listed with listed | rfl
      · exact (mirrored.cooldownsPlaced window listed).amended amended
      · exact ⟨row, amended.there, rfl, rfl, rfl, policy, registered, rfl⟩

/-- An attempt is attached to what the decision holds. -/
theorem Mirrored.attach (member : row ∈ decisions.rows)
    (done : attachAttemptToReservations host reservations journal row attempt attemptNo
      occurredAt = .ok (after, written)) : Mirrored catalog decisions after := by
  obtain ⟨slots, windows⟩ := attach_holdings done
  have amended : Amended decisions (decisions.set row) row := Amended.of_set member rfl
  rw [Table.set_self member] at amended
  have kept (other : Decision) (mirrors : Mirrors catalog reservations other) :
      Mirrors catalog after other :=
    mirrors.congr (fun holding _ => slots holding) fun holding _ => windows holding
  exact mirrored.change amended (mirrored.ordered.attach done) (.attach done)
    (kept row (mirrored.mirrors row member)) fun other _ => kept other

/-- A decision is settled, and what it holds with it. -/
theorem Mirrored.settle {middle : Reservations} (member : row ∈ decisions.rows)
    (movesBudget : MovesBudget reservations row.currentBudgetReservation toState occurredAt
      acceptedAt middle)
    (movesCooldown : MovesCooldown middle row.currentCooldownReservation toState occurredAt
      acceptedAt after) (sameEnvelope : changed.envelope = row.envelope)
    (sameGeneration : changed.reservationGeneration = row.reservationGeneration)
    (sameBudget : changed.currentBudgetReservation = row.currentBudgetReservation)
    (sameCooldown : changed.currentCooldownReservation = row.currentCooldownReservation)
    (holds : row.state.held = some held)
    (settled : changed.state.held = if toState.isActive then some toState else none) :
    Mirrored catalog (decisions.set changed) after := by
  obtain ⟨policy, registered, under⟩ := mirrored.mirrors row member
  obtain ⟨slots, sameWindows⟩ := movesBudget.slots
  obtain ⟨windows, sameSlots⟩ := movesCooldown.windows
  rw [sameWindows] at windows
  rw [← sameSlots] at slots
  have sameIdentity : changed.identity = row.identity :=
    congrArg DeliveryEnvelope.decisionIdentity sameEnvelope
  refine mirrored.change (Amended.of_set member sameEnvelope)
    ((mirrored.ordered.moveBudget movesBudget).moveCooldown movesCooldown)
    ((PlacesKept.move_budget movesBudget).trans (.move_cooldown movesCooldown))
    ⟨policy, sameEnvelope ▸ registered, ?_, ?_⟩ ?_
  · rw [sameIdentity, sameGeneration, sameBudget]
    exact slots.keeps under.budget holds (slots_distinct reservations) settled
  · rw [sameIdentity, sameGeneration, sameCooldown]
    exact windows.keeps under.cooldown holds (windows_distinct reservations) settled
  · intro other different mirrors
    rw [sameIdentity] at different
    exact mirrors.congr
      (fun _ owner => slots.unseen under.budget holds (slots_distinct reservations) different owner)
      fun _ owner =>
        windows.unseen under.cooldown holds (windows_distinct reservations) different owner

end

/-- The reservations of the store mirror its decisions. -/
abbrev Store.Mirrored (store : Store) (catalog : List PolicyRow) : Prop :=
  Delivery.Mirrored catalog store.decisions store.reservations

theorem Settles.mirrored {store next : Store} {stored : Decision} {settlement : Settlement}
    (settles : Settles host store stored row settlement next) (mirrored : store.Mirrored catalog)
    (member : row ∈ store.decisions.rows)
    (sameBudget : stored.currentBudgetReservation = row.currentBudgetReservation)
    (sameCooldown : stored.currentCooldownReservation = row.currentCooldownReservation)
    (holds : row.state.held = some held) (settled : settlement.target.held =
      if settlement.reservation.isActive then some settlement.reservation else none) :
    next.Mirrored catalog := by
  obtain ⟨disposition, _, _, _, _, mutated, rfl⟩ := settles
  obtain ⟨middle, movesBudget, movesCooldown⟩ := mutateReservations_eq_ok mutated
  rw [sameBudget] at movesBudget
  rw [sameCooldown] at movesCooldown
  exact mirrored.settle member movesBudget movesCooldown rfl rfl rfl rfl holds settled

end Steps

/-! ## Over every run -/

variable {sinkCount : Nat}

section Runs

variable {store next : Store}

theorem reconcileTarget_held {bound : Bool} (isTarget : reconcileTarget state bound = some target) :
    target.held = state.held := by
  cases state <;> cases bound <;> cases isTarget <;> rfl

theorem settlement_held (attempt : Attempt) (sha256 : String) (recordedAt : Instant)
    (answer : AuthoritativeSinkResult) :
    (answer.settlement attempt sha256 recordedAt).2.target.held =
      if (answer.settlement attempt sha256 recordedAt).2.reservation.isActive then
        some (answer.settlement attempt sha256 recordedAt).2.reservation else none := by
  cases answer <;> rfl

theorem manual_held (command : ManualResolutionCommand) (authorizationRef : String) :
    (command.settlement host authorizationRef).target.held =
      if (command.settlement host authorizationRef).reservation.isActive then
        some (command.settlement host authorizationRef).reservation else none := by
  unfold ManualResolutionCommand.settlement
  by_cases rejected : command.disposition = .rejected <;> simp [rejected] <;> rfl

/-- A rejected decision has no active reservation. -/
theorem Mirrors.released (mirrors : Mirrors catalog reservations row)
    (unheld : row.state.held = none) :
    (∀ holding ∈ reservations.slots, holding.decision = row.identity →
        holding.state = .released) ∧
      ∀ holding ∈ reservations.windows, holding.decision = row.identity →
        holding.state = .released := by
  obtain ⟨_, _, under⟩ := mirrors
  have budget := under.budget.holds
  have cooldown := under.cooldown.holds
  rw [unheld, ite_self] at budget cooldown
  exact ⟨budget, cooldown⟩

theorem Prepares.mirrored {admissionAt : Instant} {outcome : PrepareTransactionOutcome}
    (prepares : Prepares host catalog store envelope sinkCount admissionAt outcome next)
    (mirrored : store.Mirrored catalog) : next.Mirrored catalog := by
  cases prepares with
  | existing | conflicted => exact mirrored
  | denied policy disposition decisions journal registered inserted =>
    exact mirrored.deny inserted registered rfl rfl rfl
  | admitted policy opened generation decisions registered admissible reserved inserted =>
    have fresh := Table.get?_eq_none_iff.mp (Table.rows_of_insert inserted).2
    obtain ⟨noSlot, noWindow⟩ := mirrored.unlisted fresh
    refine mirrored.reserve (Amended.of_insert inserted) registered
      (reserveGeneration_eq_ok reserved) ?_
      (fun holding member owner => absurd owner (noSlot holding member))
      (fun holding member owner => absurd owner (noWindow holding member)) rfl rfl rfl rfl
    intro rolling head found
    exact windowDenial_eq_none (evaluatePrepareDenial_eq_none admissible) rolling found

theorem Begins.mirrored {config : Config} {now : Instant} {lease : Option AttemptLease}
    (begins : Begins host config store identity sinkCount now lease next)
    (mirrored : store.Mirrored catalog) : next.Mirrored catalog := by
  cases begins with
  | idle => exact mirrored
  | refused row next member inState settles =>
    exact settles.mirrored mirrored member rfl rfl (congrArg DecisionState.held inState) rfl
  | started row attempts reservations attached journal member inState inserted attaches =>
    refine (mirrored.attach member attaches).amend member rfl rfl rfl rfl ?_
    rw [inState]
    rfl

theorem Step.mirrored (step : Step host catalog store next) (mirrored : store.Mirrored catalog) :
    next.Mirrored catalog := by
  cases step with
  | acknowledged | audited | recorded | beat => exact mirrored
  | prepared envelope sinkCount admissionAt outcome next prepares =>
    exact prepares.mirrored mirrored
  | authorized row member inState => exact mirrored.amend member rfl rfl rfl rfl rfl
  | reacquired row policy now generation journal member inState registered free reserved =>
    have unheld : row.state.held = none := by
      rw [inState]
      rfl
    obtain ⟨slots, windows⟩ := (mirrored.mirrors row member).released unheld
    exact mirrored.reserve (Amended.of_set member rfl) registered
      (reserveGeneration_eq_ok reserved)
      (fun rolling _ found => windowOccupied_eq_false free rolling found) slots windows rfl rfl
      rfl rfl
  | began config identity sinkCount now lease next begins => exact begins.mirrored mirrored
  | recovered attempt row candidate now journal fence sha256 next isAttempt member owner inState
      current inFlight settles =>
    have same := Decision.refenced_identity fence row
    have refenced : Mirrored catalog (store.decisions.set (row.refenced fence))
        store.reservations := mirrored.amend member rfl rfl rfl rfl rfl
    exact settles.mirrored refenced (Table.mem_set_self member same) rfl rfl
      (congrArg DecisionState.held inState) rfl
  | transitioned row target journal member isTarget =>
    exact mirrored.amend member rfl rfl rfl rfl (reconcileTarget_held isTarget)
  | resolved row command authorizationRef resolutions next member inState settles =>
    exact settles.mirrored mirrored member rfl rfl (congrArg DecisionState.held inState)
      (manual_held command authorizationRef)

theorem Ended.mirrored {attempt : Attempt} {answer : AuthoritativeSinkResult}
    (ended : Ended host store attempt row answer next) (mirrored : store.Mirrored catalog) :
    next.Mirrored catalog := by
  obtain ⟨_, _, _, canonical, recordedAt, _, settles⟩ := ended.settles
  have inState := (authoritative_iff.mp ended.holds).1
  exact settles.mirrored mirrored ended.member rfl rfl (congrArg DecisionState.held inState)
    (settlement_held attempt (host.sha256 canonical) recordedAt answer)

/-- The run lemma: the empty store is mirrored, and every step and every recorded answer keeps it
so. -/
theorem Reached.mirrored {world : World} (reached : Reached host catalog world) :
    world.store.Mirrored catalog := by
  refine reached.invariant (fun store => store.Mirrored catalog) ⟨.empty, ?_, ?_, ?_⟩ ?_
  · intro row member
    cases Table.mem_empty.mp member
  · intro row member
    cases Table.mem_empty.mp member
  · intro row member
    cases Table.mem_empty.mp member
  · rintro store next mirrored (step | ⟨_, _, _, ended⟩)
    · exact step.mirrored mirrored
    · exact ended.mirrored mirrored

end Runs

/-! ## What follows for slots, scopes and dates -/

theorem SlotsInOrder.occupied (order : SlotsInOrder budgets) (businessDate : String) :
    (occupiedSlots budgets businessDate).Nodup ∧
      (occupiedSlots budgets businessDate).length ≤ dailyBudgetLimit := by
  have distinct : (occupiedSlots budgets businessDate).Nodup := by
    have rows : budgets.rows.Nodup := budgets.distinct.of_map
    refine List.Nodup.map_on ?_ (rows.filter _)
    intro first isFirst second isSecond same
    simp only [List.mem_filter, decide_eq_true_eq] at isFirst isSecond
    exact order.distinct first isFirst.1 second isSecond.1 isFirst.2.2 isSecond.2.2
      (isFirst.2.1.trans isSecond.2.1.symm) same
  have within : occupiedSlots budgets businessDate ⊆ List.range' 1 dailyBudgetLimit := by
    intro slotNo occupied
    obtain ⟨slot, listed, rfl⟩ := List.mem_map.mp occupied
    have bounds := order.bounds slot (List.mem_filter.mp listed).1
    rw [List.mem_range'_1]
    omega
  refine ⟨distinct, ?_⟩
  have bounded := (List.subperm_of_subset distinct within).length_le
  rwa [List.length_range'] at bounded

/-- No turn of the list comes before an earlier accepted one has run out. -/
def Undisturbed (turns : List Turn) : Prop :=
  turns.Pairwise fun first second => first.state = .accepted →
    ∃ until_, first.blockedUntil = some until_ ∧ until_ ≤ second.reservedAt

theorem undisturbed_of_monotone {turns : List Turn} (chain : turns.IsChain Turn.before)
    (monotone : turns.Pairwise fun first second => first.reservedAt ≤ second.reservedAt) :
    Undisturbed turns := by
  induction turns with
  | nil => exact List.Pairwise.nil
  | cons first rest ih =>
    obtain ⟨_, later⟩ := List.pairwise_cons.mp monotone
    refine List.pairwise_cons.mpr ⟨?_, ih chain.tail later⟩
    intro second isSecond accepted
    cases rest with
    | nil => cases isSecond
    | cons next others =>
      -- The time of the accepted turn had passed for the next one.
      rcases (List.isChain_cons_cons.mp chain).1 with released | ⟨_, until_, block, passed⟩
      · rw [accepted] at released
        cases released
      · refine ⟨until_, block, ?_⟩
        rcases List.mem_cons.mp isSecond with rfl | isLater
        · exact passed
        · exact passed.trans ((List.pairwise_cons.mp later).1 second isLater)

theorem InTurn.chain {turns : List Turn} {head : Option CooldownHead} (inTurn : InTurn turns head) :
    turns.IsChain Turn.before := by
  cases head with
  | none =>
    obtain rfl : turns = [] := inTurn
    exact List.isChain_nil
  | some head => exact inTurn.1

/-- An undecided reservation of a rolling scope is where the head of the scope is. -/
theorem ScopesInTurn.at_head (inTurn : ScopesInTurn cooldowns heads)
    (listed : window ∈ cooldowns.rows) (rolling : window.windowMode = .rolling)
    (pending : window.state.isPending = true) :
    ∃ head, heads.get? window.scope = some head ∧ head.currentReservation = window.identity ∧
      head.state = window.state := by
  have member : window.turn ∈ turns cooldowns window.scope :=
    mem_turns.mpr ⟨window, listed, rolling, rfl, rfl⟩
  obtain ⟨head, found, isLast, isCurrent⟩ := (inTurn window.scope).pending_last member pending
  have atLast := inTurn window.scope
  rw [found] at atLast
  obtain ⟨_, last, alsoLast, _, sameState, _⟩ := atLast
  obtain rfl : window.turn = last := Option.some.inj (isLast.symm.trans alsoLast)
  exact ⟨head, found, isCurrent, sameState⟩

/-- The reservations of a store mirror its decisions. -/
structure ReservationsMirror (catalog : List PolicyRow) (store : Store) : Prop where
  decisions : ∀ row ∈ store.decisions.rows, Mirrors catalog store.reservations row
  /-- An active slot is the current one of a decision in the matching state. -/
  slotsHeld : ∀ slot ∈ store.reservations.budgets.rows, slot.state.isActive = true →
    ∃ row ∈ store.decisions.rows, row.identity = slot.decision ∧
      row.currentBudgetReservation = some slot.identity ∧ row.state.held = some slot.state
  windowsHeld : ∀ window ∈ store.reservations.cooldowns.rows, window.state.isActive = true →
    ∃ row ∈ store.decisions.rows, row.identity = window.decision ∧
      row.currentCooldownReservation = some window.identity ∧ row.state.held = some window.state
  slotsDistinct : ∀ businessDate, (occupiedSlots store.reservations.budgets businessDate).Nodup
  slotsBounded : ∀ businessDate,
    (occupiedSlots store.reservations.budgets businessDate).length ≤ dailyBudgetLimit
  atHead : ∀ window ∈ store.reservations.cooldowns.rows, window.windowMode = .rolling →
    window.state.isPending = true →
    ∃ head, store.reservations.heads.get? window.scope = some head ∧
      head.currentReservation = window.identity ∧ head.state = window.state
  onePending : ∀ first ∈ store.reservations.cooldowns.rows,
    ∀ second ∈ store.reservations.cooldowns.rows, first.windowMode = .rolling →
    second.windowMode = .rolling → first.scope = second.scope → first.state.isPending = true →
    second.state.isPending = true → first = second
  /-- A reservation follows a released one, or an accepted one whose time has passed. -/
  successive : ∀ scope, (turns store.reservations.cooldowns scope).IsChain Turn.before
  undisturbed : ∀ scope,
    (turns store.reservations.cooldowns scope).Pairwise
      (fun first second => first.reservedAt ≤ second.reservedAt) →
    Undisturbed (turns store.reservations.cooldowns scope)
  /-- The window of a business date admits one decision. -/
  dateOnce : ∀ first ∈ store.reservations.cooldowns.rows,
    ∀ second ∈ store.reservations.cooldowns.rows, first.windowMode = .businessDateOnce →
    second.windowMode = .businessDateOnce → first.claimKey = second.claimKey →
    first.decision = second.decision

/-- The holder of an active reservation. -/
theorem Keeps.active (keeps : Keeps holdings applies decision generation current state)
    (member : holding ∈ holdings) (owner : holding.decision = decision)
    (active : holding.state.isActive = true) :
    current = some holding.identity ∧ state.held = some holding.state := by
  have holds := keeps.holds
  cases held : (if applies then state.held else none) with
  | none =>
    rw [held] at holds
    rw [holds holding member owner] at active
    cases active
  | some reservation =>
    rw [held] at holds
    obtain ⟨own, _, isCurrent, _, _, inState, only⟩ := holds
    obtain rfl := only holding member owner active
    refine ⟨isCurrent, ?_⟩
    cases applies with
    | false => cases held
    | true => rw [inState]; exact held

/-- In every reached world the reservations mirror the decisions: an active slot or window is the
current one of its decision and in the state that the decision holds; the slots of a date are
distinct and within the budget; a scope has one pending window, and a date is claimed once.

Proof: every step keeps `Mirrored`, one case per constructor; the parts are read off it. -/
theorem reached_reservations_mirror {host : Host} {catalog : List PolicyRow} {world : World}
    (reached : Reached host catalog world) : ReservationsMirror catalog world.store := by
  have mirrored := reached.mirrored
  refine
    { decisions := mirrored.mirrors
      slotsHeld := ?_
      windowsHeld := ?_
      slotsDistinct := fun businessDate => (mirrored.ordered.slots.occupied businessDate).1
      slotsBounded := fun businessDate => (mirrored.ordered.slots.occupied businessDate).2
      atHead := fun window listed => mirrored.ordered.scopes.at_head listed
      onePending := ?_
      successive := fun scope => (mirrored.ordered.scopes scope).chain
      undisturbed := fun scope => undisturbed_of_monotone (mirrored.ordered.scopes scope).chain
      dateOnce := ?_ }
  · intro slot listed active
    obtain ⟨row, isRow, owner, _⟩ := mirrored.budgetsPlaced slot listed
    obtain ⟨_, _, under⟩ := mirrored.mirrors row isRow
    exact ⟨row, isRow, owner,
      under.budget.active (List.mem_map_of_mem listed) owner.symm active⟩
  · intro window listed active
    obtain ⟨row, isRow, owner, _⟩ := mirrored.cooldownsPlaced window listed
    obtain ⟨_, _, under⟩ := mirrored.mirrors row isRow
    exact ⟨row, isRow, owner,
      under.cooldown.active (List.mem_map_of_mem listed) owner.symm active⟩
  · intro first isFirst second isSecond firstRolls secondRolls sameScope firstPends secondPends
    obtain ⟨head, found, atFirst, _⟩ := mirrored.ordered.scopes.at_head isFirst firstRolls firstPends
    obtain ⟨other, alsoFound, atSecond, _⟩ :=
      mirrored.ordered.scopes.at_head isSecond secondRolls secondPends
    rw [sameScope, alsoFound] at found
    obtain rfl := Option.some.inj found
    exact Table.eq_of_key isFirst isSecond (atFirst.symm.trans atSecond)
  · intro first isFirst second isSecond firstOnce secondOnce sameKey
    obtain ⟨claim, isClaim, firstKey, firstOwner⟩ := mirrored.ordered.dates first isFirst firstOnce
    obtain ⟨other, isOther, secondKey, secondOwner⟩ :=
      mirrored.ordered.dates second isSecond secondOnce
    obtain rfl : claim = other :=
      Table.eq_of_key isClaim isOther (firstKey.trans (sameKey.trans secondKey.symm))
    exact firstOwner.symm.trans secondOwner

/-- A clock that goes back: the second decision is reserved after the first one's cooldown and then
refused, the third one at a time before it. -/
def sampleBackwards : World :=
  sampleRun
    [.prepare .open (sampleEnvelope .limitBoards "boards-1") 1 0,
      .resume (sampleCall "boards-1" 1 1), .begin .open 0, .call 0,
      .answer 0 (.accepted ⟨"channel", "provider", "message", none, 10000000000, none⟩),
      .record .open 0,
      .prepare .open (sampleEnvelope .limitBoards "boards-2") 1 2000000000000,
      .resume (sampleCall "boards-2" 0 2001), .begin .open 1,
      .prepare .open (sampleEnvelope .limitBoards "boards-3") 1 1000000000000]

/-- The mirror holds although the clock goes back. -/
theorem reached_reservations_mirror_backwards :
    ReservationsMirror compiledPolicyCatalog sampleBackwards.store ∧
      sampleBackwards.store.decisions.rows.map Decision.state =
        [.acceptedAuditPending, .rejectedAuditPending, .reserved] := by
  have reached : Reached sampleHost compiledPolicyCatalog sampleBackwards := Reached.initial.run _
  exact ⟨reached_reservations_mirror reached, by decide +kernel⟩

/-- A decision is reserved in a scope before the recorded time of the last one accepted there. -/
theorem reserved_before_blocked_until :
    Reached sampleHost compiledPolicyCatalog sampleBackwards ∧
      ∃ accepted ∈ sampleBackwards.store.reservations.cooldowns.rows,
        ∃ reserved ∈ sampleBackwards.store.reservations.cooldowns.rows,
          accepted.windowMode = .rolling ∧ reserved.windowMode = .rolling ∧
            accepted.scope = reserved.scope ∧ accepted.state = .accepted ∧
            reserved.state = .reserved ∧
            ∃ until_, accepted.blockedUntil = some until_ ∧ reserved.reservedAt < until_ :=
  ⟨Reached.initial.run _, by decide +kernel⟩

end StockAnalysis.Delivery
