import Mathlib.Data.List.Chain
import StockAnalysis.Delivery.Steps

/-!
# Slots, scopes and claims

The reservations taken by themselves. The active slots of a date are distinct and within the limit.
The reservations of a rolling scope follow one another: a new one is made only after the one before
it was released, or was accepted and its recorded time has passed, and the head of the scope is at
the last one. A reservation under a business-date window belongs to the owner of the claim.

All of it is kept when a generation is reserved, when an attempt is attached and when a decision is
settled.
-/

namespace StockAnalysis.Delivery

/-! ## What the operations change -/

/-- What a generation takes of the cooldowns. -/
inductive TakesCooldown (host : Host) (reservations : Reservations) (envelope : DeliveryEnvelope)
    (policy : PolicyRow) (number : Nat) (reservedAt : Instant) :
    Option String → Table CooldownReservation.identity → Table CooldownHead.scope → Prop
  | absent (unbounded : policy.windowMode = .none) :
      TakesCooldown host reservations envelope policy number reservedAt none
        reservations.cooldowns reservations.heads
  | taken (cooldowns : Table CooldownReservation.identity) (heads : Table CooldownHead.scope)
      (windowed : policy.windowMode ≠ .none)
      (inserted : reservations.cooldowns.insert?
        (newCooldown host envelope policy number reservedAt) = some cooldowns)
      (led : takeHeadIn policy.windowMode reservations.heads envelope.scope
        (cooldownIdentity host envelope.decisionIdentity number) = .ok heads) :
      TakesCooldown host reservations envelope policy number reservedAt
        (some (cooldownIdentity host envelope.decisionIdentity number)) cooldowns heads

/-- What a generation takes of the budget. -/
inductive TakesBudget (host : Host) (reservations : Reservations) (envelope : DeliveryEnvelope)
    (policy : PolicyRow) (number : Nat) (reservedAt : Instant) :
    Option String → Table BudgetReservation.identity → Prop
  | absent (exempt : policy.countsAgainstDailyBudget = false) :
      TakesBudget host reservations envelope policy number reservedAt none reservations.budgets
  | taken (slotNo : Nat) (budgets : Table BudgetReservation.identity)
      (counted : policy.countsAgainstDailyBudget = true)
      (free : firstAvailableBudgetSlot reservations.budgets envelope.businessDate = some slotNo)
      (inserted : reservations.budgets.insert? (newBudget host envelope number slotNo reservedAt) =
        some budgets) :
      TakesBudget host reservations envelope policy number reservedAt
        (some (newBudget host envelope number slotNo reservedAt).identity) budgets

/-- What a generation reserves. -/
structure Reserves (host : Host) (reservations : Reservations) (envelope : DeliveryEnvelope)
    (policy : PolicyRow) (number : Nat) (reservedAt : Instant) (generation : Generation) : Prop where
  claimed : policy.windowMode = .businessDateOnce →
    ∃ claim ∈ generation.reservations.claims.rows, claim.key = envelope.claimKey ∧
      claim.decision = envelope.decisionIdentity
  claimsKept : ∀ claim ∈ reservations.claims.rows, claim ∈ generation.reservations.claims.rows
  cooldown : TakesCooldown host reservations envelope policy number reservedAt generation.cooldown
    generation.reservations.cooldowns generation.reservations.heads
  budget : TakesBudget host reservations envelope policy number reservedAt generation.budget
    generation.reservations.budgets

variable {cooldown : Option String} {generation : Generation} {host : Host}
  {reservations next : Reservations} {envelope : DeliveryEnvelope} {policy : PolicyRow}
  {number attemptNo : Nat} {reservedAt occurredAt : Instant} {decision : Decision}
  {attempt : String} {toState : ReservationState} {acceptedAt : Option Instant}

section Inversion

variable {journal after : Journal}

theorem claimBusinessDate_eq_ok
    (done : claimBusinessDate host reservations journal envelope policy reservedAt =
      .ok (next, after)) :
    ∃ claims, next = { reservations with claims := claims } ∧
      (policy.windowMode = .businessDateOnce → ∃ claim ∈ claims.rows,
        claim.key = envelope.claimKey ∧ claim.decision = envelope.decisionIdentity) ∧
      ∀ claim ∈ reservations.claims.rows, claim ∈ claims.rows := by
  unfold claimBusinessDate at done
  split at done
  · cases found : reservations.claims.get? envelope.claimKey with
    | some claim =>
      simp only [found, bind_eq_ok, require_eq_ok] at done
      obtain ⟨_, owner, done⟩ := done
      cases pure_eq_ok.mp done
      obtain ⟨member, isKey⟩ := Table.get?_eq_some_iff.mp found
      exact ⟨_, rfl, fun _ => ⟨claim, member, isKey, owner⟩, fun _ listed => listed⟩
    | none =>
      simp only [found, insertClaim, bind_eq_ok, Prod.exists] at done
      obtain ⟨audit, _, _, claims, stored, done⟩ := done
      cases pure_eq_ok.mp done
      have inserted := (insertRow_eq_ok stored).1
      exact ⟨claims, rfl,
        fun _ => ⟨_, (Table.mem_of_insert inserted).mpr (.inr rfl), rfl, rfl⟩,
        fun _ listed => (Table.mem_of_insert inserted).mpr (.inl listed)⟩
  · rename_i other
    cases pure_eq_ok.mp done
    exact ⟨_, rfl, fun once => absurd once other, fun _ listed => listed⟩

theorem reserveCooldown_eq_ok
    (done : reserveCooldown host reservations journal envelope policy number reservedAt =
      .ok (cooldown, next, after)) :
    ∃ cooldowns heads, next = { reservations with cooldowns := cooldowns, heads := heads } ∧
      TakesCooldown host reservations envelope policy number reservedAt cooldown cooldowns
        heads := by
  unfold reserveCooldown at done
  split at done
  · rename_i unbounded
    cases pure_eq_ok.mp done
    exact ⟨_, _, rfl, .absent unbounded⟩
  · rename_i windowed
    simp only [bind_eq_ok] at done
    obtain ⟨cooldowns, stored, _, _, heads, led, done⟩ := done
    cases pure_eq_ok.mp done
    exact ⟨cooldowns, heads, rfl, .taken cooldowns heads windowed (insertRow_eq_ok stored).1 led⟩

theorem reserveBudget_eq_ok {budget : Option String}
    (done : reserveBudget host reservations journal envelope policy number reservedAt =
      .ok (budget, next, after)) :
    ∃ budgets, next = { reservations with budgets := budgets } ∧
      TakesBudget host reservations envelope policy number reservedAt budget budgets := by
  unfold reserveBudget at done
  split at done
  · rename_i counted
    simp only [bind_eq_ok, okOr_eq_ok] at done
    obtain ⟨slotNo, free, budgets, stored, _, _, done⟩ := done
    cases pure_eq_ok.mp done
    exact ⟨budgets, rfl, .taken slotNo budgets counted free (insertRow_eq_ok stored).1⟩
  · rename_i exempt
    cases pure_eq_ok.mp done
    exact ⟨_, rfl, .absent (by simpa using exempt)⟩

theorem reserveGeneration_eq_ok
    (done : reserveGeneration host reservations journal envelope policy number reservedAt =
      .ok generation) :
    Reserves host reservations envelope policy number reservedAt generation := by
  simp only [reserveGeneration, bind_eq_ok, Prod.exists] at done
  obtain ⟨_, _, _, _, claimed, _, _, _, cooled, _, _, _, budgeted, done⟩ := done
  cases pure_eq_ok.mp done
  obtain ⟨claims, rfl, once, kept⟩ := claimBusinessDate_eq_ok claimed
  obtain ⟨cooldowns, heads, rfl, takesCooldown⟩ := reserveCooldown_eq_ok cooled
  obtain ⟨budgets, rfl, takesBudget⟩ := reserveBudget_eq_ok budgeted
  refine ⟨once, kept, ?_, ?_⟩
  · cases takesCooldown with
    | absent unbounded => exact .absent unbounded
    | taken _ _ windowed inserted led => exact .taken _ _ windowed inserted led
  · cases takesBudget with
    | absent exempt => exact .absent exempt
    | taken slotNo _ counted free inserted => exact .taken slotNo _ counted free inserted

theorem attachBudget_eq_ok
    (done : attachBudget host reservations journal decision attempt attemptNo occurredAt =
      .ok (next, after)) :
    next = reservations ∨ ∃ old ∈ reservations.budgets.rows,
      next = { reservations with
        budgets := reservations.budgets.set (old.attached attempt) } := by
  unfold attachBudget at done
  split at done
  · cases pure_eq_ok.mp done
    exact .inl rfl
  · simp only [bind_eq_ok, okOr_eq_ok] at done
    obtain ⟨old, held, _, _, _, _, done⟩ := done
    cases pure_eq_ok.mp done
    obtain ⟨member, rfl⟩ :=
      Table.get?_eq_some_iff.mp (Option.filter_eq_some_iff.mp held).1
    refine .inr ⟨old, member, ?_⟩
    rw [Table.update_key_eq_set member]

theorem attachCooldown_eq_ok
    (done : attachCooldown host reservations journal decision attempt attemptNo occurredAt =
      .ok (next, after)) :
    next = reservations ∨ ∃ old ∈ reservations.cooldowns.rows,
      next = { reservations with
        cooldowns := reservations.cooldowns.set (old.attached attempt) } := by
  unfold attachCooldown at done
  split at done
  · cases pure_eq_ok.mp done
    exact .inl rfl
  · simp only [bind_eq_ok, okOr_eq_ok] at done
    obtain ⟨old, held, _, _, done⟩ := done
    cases pure_eq_ok.mp done
    obtain ⟨member, rfl⟩ :=
      Table.get?_eq_some_iff.mp (Option.filter_eq_some_iff.mp held).1
    refine .inr ⟨old, member, ?_⟩
    rw [Table.update_key_eq_set member]

/-- What a settlement changes in the budget. -/
inductive MovesBudget (reservations : Reservations) (current : Option String)
    (toState : ReservationState) (occurredAt : Instant) (acceptedAt : Option Instant) :
    Reservations → Prop
  | absent (unbudgeted : current = none) :
      MovesBudget reservations current toState occurredAt acceptedAt reservations
  | unmoved (old : BudgetReservation) (member : old ∈ reservations.budgets.rows)
      (isCurrent : current = some old.identity) (already : old.state = toState) :
      MovesBudget reservations current toState occurredAt acceptedAt reservations
  | moved (old : BudgetReservation) (member : old ∈ reservations.budgets.rows)
      (isCurrent : current = some old.identity) (pending : old.state.isPending = true) :
      MovesBudget reservations current toState occurredAt acceptedAt { reservations with
        budgets := reservations.budgets.set (old.moved toState occurredAt acceptedAt) }

theorem mutateBudget_eq_ok
    (done : mutateBudget host reservations journal decision toState occurredAt acceptedAt =
      .ok (next, after)) :
    MovesBudget reservations decision.currentBudgetReservation toState occurredAt acceptedAt
      next := by
  unfold mutateBudget at done
  split at done
  · rename_i unbudgeted
    cases pure_eq_ok.mp done
    exact .absent unbudgeted
  · rename_i identity isCurrent
    obtain ⟨old, found, done⟩ := bind_eq_ok.mp done
    obtain ⟨member, rfl⟩ := Table.get?_eq_some_iff.mp (okOr_eq_ok.mp found)
    split at done
    · rename_i already
      cases pure_eq_ok.mp done
      exact .unmoved old member isCurrent already
    · simp only [bind_eq_ok, require_eq_ok] at done
      obtain ⟨_, pending, _, _, done⟩ := done
      cases pure_eq_ok.mp done
      rw [Table.update_key_eq_set member]
      exact .moved old member isCurrent pending

/-- What a settlement changes in the cooldowns. -/
inductive MovesCooldown (reservations : Reservations) (current : Option String)
    (toState : ReservationState) (occurredAt : Instant) (acceptedAt : Option Instant) :
    Reservations → Prop
  | absent (unbounded : current = none) :
      MovesCooldown reservations current toState occurredAt acceptedAt reservations
  | unmoved (old : CooldownReservation) (member : old ∈ reservations.cooldowns.rows)
      (isCurrent : current = some old.identity) (already : old.state = toState) :
      MovesCooldown reservations current toState occurredAt acceptedAt reservations
  | moved (old : CooldownReservation) (member : old ∈ reservations.cooldowns.rows)
      (isCurrent : current = some old.identity) (pending : old.state.isPending = true) :
      MovesCooldown reservations current toState occurredAt acceptedAt { reservations with
        cooldowns := reservations.cooldowns.set (old.moved toState occurredAt acceptedAt)
        heads := moveHead old.windowMode reservations.heads old.identity toState
          (old.blockedAfter toState occurredAt acceptedAt) }

theorem mutateCooldown_eq_ok
    (done : mutateCooldown host reservations journal decision toState occurredAt acceptedAt =
      .ok (next, after)) :
    MovesCooldown reservations decision.currentCooldownReservation toState occurredAt acceptedAt
      next := by
  unfold mutateCooldown at done
  split at done
  · rename_i unbounded
    cases pure_eq_ok.mp done
    exact .absent unbounded
  · rename_i identity isCurrent
    obtain ⟨old, found, done⟩ := bind_eq_ok.mp done
    obtain ⟨member, rfl⟩ := Table.get?_eq_some_iff.mp (okOr_eq_ok.mp found)
    split at done
    · rename_i already
      cases pure_eq_ok.mp done
      exact .unmoved old member isCurrent already
    · simp only [bind_eq_ok, require_eq_ok] at done
      obtain ⟨_, pending, _, _, done⟩ := done
      cases pure_eq_ok.mp done
      rw [Table.update_key_eq_set member]
      exact .moved old member isCurrent pending

theorem mutateReservations_eq_ok
    (done : mutateReservations host reservations journal decision toState occurredAt acceptedAt =
      .ok (next, after)) :
    ∃ middle, MovesBudget reservations decision.currentBudgetReservation toState occurredAt
        acceptedAt middle ∧
      MovesCooldown middle decision.currentCooldownReservation toState occurredAt acceptedAt
        next := by
  simp only [mutateReservations, bind_eq_ok, Prod.exists] at done
  obtain ⟨_, _, middle, _, budgeted, cooled⟩ := done
  exact ⟨middle, mutateBudget_eq_ok budgeted, mutateCooldown_eq_ok cooled⟩

theorem attachAttemptToReservations_eq_ok
    (done : attachAttemptToReservations host reservations journal decision attempt attemptNo
      occurredAt = .ok (next, after)) :
    ∃ middle middleJournal, attachBudget host reservations journal decision attempt attemptNo
        occurredAt = .ok (middle, middleJournal) ∧
      attachCooldown host middle middleJournal decision attempt attemptNo occurredAt =
        .ok (next, after) := by
  simp only [attachAttemptToReservations, bind_eq_ok, Prod.exists] at done
  exact done

end Inversion

/-! ## Turns of a rolling scope -/

/-- What a reservation means for the next one of its scope. -/
structure Turn where
  identity : String
  state : ReservationState
  reservedAt : Int
  blockedUntil : Option Int

def CooldownReservation.turn (row : CooldownReservation) : Turn :=
  ⟨row.identity, row.state, row.reservedAt, row.blockedUntil⟩

/-- The reservations of a rolling scope, in the order in which they were made. -/
def turns (cooldowns : Table CooldownReservation.identity) (scope : Scope) : List Turn :=
  (cooldowns.rows.filter fun row => row.windowMode = .rolling ∧ row.scope = scope).map
    CooldownReservation.turn

/-- A turn may be followed by another one: it was released, or it was accepted and the other one
was reserved no earlier than the recorded time. -/
def Turn.before (first second : Turn) : Prop :=
  first.state = .released ∨ first.state = .accepted ∧
    ∃ until_, first.blockedUntil = some until_ ∧ until_ ≤ second.reservedAt

/-- The turns follow one another, and the head of the scope is at the last one. -/
def InTurn (turns : List Turn) : Option CooldownHead → Prop
  | none => turns = []
  | some head => turns.IsChain Turn.before ∧ ∃ last, turns.getLast? = some last ∧
      head.currentReservation = last.identity ∧ head.state = last.state ∧
      head.blockedUntil = last.blockedUntil

variable {cooldowns : Table CooldownReservation.identity} {scope : Scope} {turn : Turn}
  {row old : CooldownReservation} {head : CooldownHead} {budgets : Table BudgetReservation.identity}
  {heads : Table CooldownHead.scope}

theorem mem_turns :
    turn ∈ turns cooldowns scope ↔
      ∃ row ∈ cooldowns.rows, row.windowMode = .rolling ∧ row.scope = scope ∧ row.turn = turn := by
  simp [turns, and_assoc]

/-- The identity of a turn is the primary key of its reservation. -/
theorem turn_of_identity (member : turn ∈ turns cooldowns scope) (listed : row ∈ cooldowns.rows)
    (same : turn.identity = row.identity) :
    row.turn = turn ∧ row.windowMode = .rolling ∧ row.scope = scope := by
  obtain ⟨other, isOther, rolling, inScope, rfl⟩ := mem_turns.mp member
  obtain rfl := Table.eq_of_key isOther listed same
  exact ⟨rfl, rolling, inScope⟩

theorem turns_insert {next : Table CooldownReservation.identity}
    (inserted : cooldowns.insert? row = some next) (scope : Scope) :
    turns next scope = turns cooldowns scope ++
      if row.windowMode = .rolling ∧ row.scope = scope then [row.turn] else [] := by
  rw [turns, (Table.rows_of_insert inserted).1, List.filter_append, List.map_append, ← turns]
  congr 1
  split <;> simp_all

theorem turns_set (member : old ∈ cooldowns.rows) (same : row.identity = old.identity)
    (sameMode : row.windowMode = old.windowMode) (sameScope : row.scope = old.scope) (scope : Scope)
    :
    turns (cooldowns.set row) scope = (turns cooldowns scope).map fun turn =>
      if turn.identity = row.identity then row.turn else turn := by
  have selects : ∀ other ∈ cooldowns.rows,
      ((fun other : CooldownReservation =>
          decide (other.windowMode = .rolling ∧ other.scope = scope)) ∘
        fun old => if old.identity = row.identity then row else old) other =
      decide (other.windowMode = .rolling ∧ other.scope = scope) := by
    intro other listed
    by_cases found : other.identity = row.identity
    · obtain rfl := Table.eq_of_key listed member (found.trans same)
      simp [found, sameMode, sameScope]
    · simp [found]
  rw [turns, Table.rows_set, List.filter_map, List.filter_congr selects, turns, List.map_map,
    List.map_map]
  refine List.map_congr_left fun other _ => ?_
  by_cases found : other.identity = row.identity <;>
    simp [found, CooldownReservation.turn]

/-- Only the last turn can be undecided. -/
theorem InTurn.pending_last {turns : List Turn} {head : Option CooldownHead}
    (inTurn : InTurn turns head) (member : turn ∈ turns) (pending : turn.state.isPending = true) :
    ∃ current, head = some current ∧ turns.getLast? = some turn ∧
      current.currentReservation = turn.identity := by
  cases head with
  | none =>
    obtain rfl : turns = [] := inTurn
    cases member
  | some head =>
    obtain ⟨chain, last, isLast, isCurrent, _⟩ := inTurn
    obtain ⟨earlier, later, rfl⟩ := List.append_of_mem member
    cases later with
    | nil =>
      rw [List.getLast?_concat] at isLast ⊢
      obtain rfl := Option.some.inj isLast
      exact ⟨head, rfl, rfl, isCurrent⟩
    | cons next rest =>
      have follows := (List.isChain_append_cons_cons.mp chain).2.1
      rcases follows with released | ⟨accepted, _⟩
      · rw [released] at pending
        cases pending
      · rw [accepted] at pending
        cases pending

/-- A turn is added behind a head that does not conflict. -/
theorem InTurn.concat {turns : List Turn} {head : Option CooldownHead} (inTurn : InTurn turns head)
    (free : ∀ current, head = some current → current.conflicts reservedAt = false)
    (isTime : turn.reservedAt = timestamp reservedAt) {next : CooldownHead}
    (isCurrent : next.currentReservation = turn.identity) (sameState : next.state = turn.state)
    (sameBlock : next.blockedUntil = turn.blockedUntil) :
    InTurn (turns ++ [turn]) (some next) := by
  refine ⟨?_, turn, List.getLast?_concat, isCurrent, sameState, sameBlock⟩
  cases head with
  | none =>
    obtain rfl : turns = [] := inTurn
    exact List.isChain_singleton turn
  | some current =>
    obtain ⟨chain, last, isLast, _, lastState, lastBlock⟩ := inTurn
    refine chain.append (List.isChain_singleton turn) ?_
    intro first isFirst second isSecond
    obtain rfl : last = first := Option.some.inj (isLast.symm.trans isFirst)
    obtain rfl : turn = second := Option.some.inj isSecond
    have open_ := free current rfl
    unfold CooldownHead.conflicts at open_
    rw [lastState, lastBlock] at open_
    cases reached : last.state with
    | released => exact .inl reached
    | reserved | uncertain => simp [reached] at open_
    | accepted =>
      refine .inr ⟨reached, ?_⟩
      cases block : last.blockedUntil with
      | none => simp [reached, block] at open_
      | some until_ =>
        refine ⟨until_, rfl, ?_⟩
        simp only [reached, block, Option.all_some, parseTimestamp] at open_
        have passed : until_ * 1000000 ≤ reservedAt :=
          Int.not_lt.mp (of_decide_eq_false open_)
        rw [isTime, timestamp]
        omega

/-- The last turn is decided, and the head follows it. -/
theorem InTurn.settle {turns : List Turn} {next : CooldownHead} {moved : Turn}
    (inTurn : InTurn turns (some head)) (member : turn ∈ turns)
    (pending : turn.state.isPending = true) (same : moved.identity = turn.identity)
    (sameTime : moved.reservedAt = turn.reservedAt)
    (only : ∀ other ∈ turns, other.identity = moved.identity → other = turn)
    (isCurrent : next.currentReservation = moved.identity) (sameState : next.state = moved.state)
    (sameBlock : next.blockedUntil = moved.blockedUntil) :
    InTurn (turns.map fun other => if other.identity = moved.identity then moved else other)
      (some next) := by
  obtain ⟨_, _, isLast, _⟩ := inTurn.pending_last member pending
  refine ⟨?_, moved, ?_, isCurrent, sameState, sameBlock⟩
  · rw [List.isChain_map]
    refine inTurn.1.imp_of_mem_imp fun first second isFirst _ follows => ?_
    -- What is followed is decided, so that it is not the turn that moves.
    have unmoved : ¬ first.identity = moved.identity := by
      intro equal
      obtain rfl := only first isFirst equal
      rcases follows with released | ⟨accepted, _⟩
      · rw [released] at pending
        cases pending
      · rw [accepted] at pending
        cases pending
    rw [if_neg unmoved]
    rcases follows with released | ⟨accepted, until_, block, passed⟩
    · exact .inl released
    · refine .inr ⟨accepted, until_, block, ?_⟩
      split
      · rename_i equal
        rw [sameTime, ← only second (by assumption) equal]
        exact passed
      · exact passed
  · rw [List.getLast?_map, isLast]
    simp [same]

/-! ## Reservations in order -/

/-- The claim that a reservation of a business date needs. -/
def CooldownReservation.claimKey (row : CooldownReservation) : ClaimKey :=
  ⟨row.businessDate, row.scope.pushKind, row.scope.subKind, row.scope.scopeKey⟩

/-- The slots are within the limit, and the active ones of a date are distinct. -/
structure SlotsInOrder (budgets : Table BudgetReservation.identity) : Prop where
  bounds : ∀ row ∈ budgets.rows, 1 ≤ row.slotNo ∧ row.slotNo ≤ dailyBudgetLimit
  distinct : ∀ first ∈ budgets.rows, ∀ second ∈ budgets.rows, first.state.isActive = true →
    second.state.isActive = true → first.businessDate = second.businessDate →
    first.slotNo = second.slotNo → first = second

def ScopesInTurn (cooldowns : Table CooldownReservation.identity)
    (heads : Table CooldownHead.scope) : Prop :=
  ∀ scope, InTurn (turns cooldowns scope) (heads.get? scope)

/-- A reservation of a business date belongs to the owner of the claim. -/
def DatesClaimed (cooldowns : Table CooldownReservation.identity)
    (claims : Table BusinessDateClaim.key) : Prop :=
  ∀ row ∈ cooldowns.rows, row.windowMode = .businessDateOnce →
    ∃ claim ∈ claims.rows, claim.key = row.claimKey ∧ claim.decision = row.decision

/-- The order of the reservations by slot, scope and date. -/
structure Reservations.Ordered (reservations : Reservations) : Prop where
  slots : SlotsInOrder reservations.budgets
  scopes : ScopesInTurn reservations.cooldowns reservations.heads
  dates : DatesClaimed reservations.cooldowns reservations.claims

theorem firstAvailableBudgetSlot_eq_some {businessDate : String} {slotNo : Nat}
    (free : firstAvailableBudgetSlot budgets businessDate = some slotNo) :
    (1 ≤ slotNo ∧ slotNo ≤ dailyBudgetLimit) ∧
      ∀ row ∈ budgets.rows, row.businessDate = businessDate → row.state.isActive = true →
        row.slotNo ≠ slotNo := by
  have inRange := List.mem_range'_1.mp (List.mem_of_find?_eq_some free)
  have unused : slotNo ∉ occupiedSlots budgets businessDate := by
    simpa using List.find?_some free
  constructor
  · omega
  · intro row listed onDate active same
    apply unused
    simp only [occupiedSlots, List.mem_map, List.mem_filter, decide_eq_true_eq]
    exact ⟨row, ⟨listed, onDate, active⟩, same⟩

theorem SlotsInOrder.insert {next : Table BudgetReservation.identity} {row : BudgetReservation}
    (order : SlotsInOrder budgets)
    (free : firstAvailableBudgetSlot budgets row.businessDate = some row.slotNo)
    (inserted : budgets.insert? row = some next) : SlotsInOrder next := by
  obtain ⟨inBounds, unused⟩ := firstAvailableBudgetSlot_eq_some free
  constructor
  · intro other listed
    rcases (Table.mem_of_insert inserted).mp listed with listed | rfl
    · exact order.bounds other listed
    · exact inBounds
  · intro first isFirst second isSecond firstActive secondActive sameDate sameSlot
    rcases (Table.mem_of_insert inserted).mp isFirst with firstOld | rfl <;>
      rcases (Table.mem_of_insert inserted).mp isSecond with secondOld | rfl
    · exact order.distinct first firstOld second secondOld firstActive secondActive sameDate
        sameSlot
    · exact absurd sameSlot (unused first firstOld sameDate firstActive)
    · exact absurd sameSlot.symm (unused second secondOld sameDate.symm secondActive)
    · rfl

theorem SlotsInOrder.set {row old : BudgetReservation} (order : SlotsInOrder budgets)
    (member : old ∈ budgets.rows) (same : row.identity = old.identity)
    (sameDate : row.businessDate = old.businessDate) (sameSlot : row.slotNo = old.slotNo)
    (active : row.state.isActive = true → old.state.isActive = true) :
    SlotsInOrder (budgets.set row) := by
  -- A row that shares a slot with the row that is set shared it with the old one.
  have alone {other : BudgetReservation} (listed : other ∈ budgets.rows)
      (different : other.identity ≠ row.identity) (otherActive : other.state.isActive = true)
      (rowActive : row.state.isActive = true) (onDate : other.businessDate = row.businessDate)
      (inSlot : other.slotNo = row.slotNo) : False := by
    have isOld := order.distinct other listed old member otherActive (active rowActive)
      (onDate.trans sameDate) (inSlot.trans sameSlot)
    exact different (by rw [isOld, same])
  constructor
  · intro other listed
    rcases (Table.mem_set member same).mp listed with ⟨listed, _⟩ | rfl
    · exact order.bounds other listed
    · rw [sameSlot]
      exact order.bounds old member
  · intro first isFirst second isSecond firstActive secondActive onDate inSlot
    rcases (Table.mem_set member same).mp isFirst with ⟨firstOld, firstOther⟩ | rfl <;>
      rcases (Table.mem_set member same).mp isSecond with ⟨secondOld, secondOther⟩ | rfl
    · exact order.distinct first firstOld second secondOld firstActive secondActive onDate inSlot
    · exact (alone firstOld firstOther firstActive secondActive onDate inSlot).elim
    · exact (alone secondOld secondOther secondActive firstActive onDate.symm inSlot.symm).elim
    · rfl

/-- The head of the scope is at the new reservation, every other head where it was. -/
theorem takeHead_eq_ok {heads next : Table CooldownHead.scope} {reservation : String}
    (done : takeHead heads scope reservation = .ok next) :
    (∃ head, next.get? scope = some head ∧ head.currentReservation = reservation ∧
        head.state = .reserved ∧ head.blockedUntil = none) ∧
      ∀ other, other ≠ scope → next.get? other = heads.get? other := by
  unfold takeHead at done
  split at done
  · rename_i head found
    cases pure_eq_ok.mp done
    obtain ⟨member, rfl⟩ := Table.get?_eq_some_iff.mp found
    have same := CooldownHead.taken_scope reservation head
    rw [Table.update_key_eq_set member]
    constructor
    · refine ⟨head.taken reservation, ?_, rfl, rfl, rfl⟩
      rw [Table.get?_set member same, if_pos same]
    · intro other different
      rw [Table.get?_set member same, if_neg fun equal => different (equal.symm.trans same)]
  · have inserted := okOr_eq_ok.mp done
    constructor
    · exact ⟨_, by rw [Table.get?_of_insert inserted, if_pos rfl], rfl, rfl, rfl⟩
    · intro other different
      rw [Table.get?_of_insert inserted, if_neg fun equal => different equal.symm]

theorem ScopesInTurn.reserve (inTurn : ScopesInTurn reservations.cooldowns reservations.heads)
    (takes : TakesCooldown host reservations envelope policy number reservedAt cooldown cooldowns
      heads) (free : policy.windowMode = .rolling → ∀ head,
      reservations.heads.get? envelope.scope = some head → head.conflicts reservedAt = false) :
    ScopesInTurn cooldowns heads := by
  cases takes with
  | absent unbounded => exact inTurn
  | taken _ _ windowed inserted led =>
    intro scope
    rw [turns_insert inserted]
    unfold takeHeadIn at led
    split at led
    · rename_i rolling
      obtain ⟨⟨head, found, isCurrent, isReserved, unblocked⟩, others⟩ := takeHead_eq_ok led
      by_cases own : envelope.scope = scope
      · subst own
        rw [if_pos ⟨rolling, rfl⟩, found]
        exact (inTurn envelope.scope).concat (free rolling) rfl isCurrent isReserved unblocked
      · rw [if_neg fun same => own same.2, List.append_nil, others scope (Ne.symm own)]
        exact inTurn scope
    · rename_i other
      cases pure_eq_ok.mp led
      rw [if_neg fun same => other same.1, List.append_nil]
      exact inTurn scope

/-- A reservation changes without a change of its turn. -/
theorem ScopesInTurn.set (inTurn : ScopesInTurn cooldowns heads) (member : old ∈ cooldowns.rows)
    (sameTurn : row.turn = old.turn) (sameMode : row.windowMode = old.windowMode)
    (sameScope : row.scope = old.scope) : ScopesInTurn (cooldowns.set row) heads := by
  intro scope
  have same : row.identity = old.identity := congrArg Turn.identity sameTurn
  rw [turns_set member same sameMode sameScope, List.map_congr_left fun turn listed => ?_,
    List.map_id']
  · exact inTurn scope
  · split
    · rename_i found
      rw [sameTurn]
      exact (turn_of_identity listed member (found.trans same)).1
    · rfl

theorem ScopesInTurn.move (inTurn : ScopesInTurn cooldowns heads) (member : old ∈ cooldowns.rows)
    (pending : old.state.isPending = true) (same : row.identity = old.identity)
    (sameMode : row.windowMode = old.windowMode) (sameScope : row.scope = old.scope)
    (sameTime : row.reservedAt = old.reservedAt) :
    ScopesInTurn (cooldowns.set row)
      (moveHead old.windowMode heads old.identity row.state row.blockedUntil) := by
  intro scope
  rw [turns_set member same sameMode sameScope]
  by_cases own : old.windowMode = .rolling ∧ old.scope = scope
  · obtain ⟨rolling, rfl⟩ := own
    have listed : old.turn ∈ turns cooldowns old.scope :=
      mem_turns.mpr ⟨old, member, rolling, rfl, rfl⟩
    obtain ⟨head, found, _, isCurrent⟩ := (inTurn old.scope).pending_last listed pending
    have before := inTurn old.scope
    rw [found] at before
    have isCurrent : head.currentReservation = old.identity := isCurrent
    rw [moveHead, if_pos rolling, Table.get?_update, found, Option.map_some, if_pos isCurrent]
    have follows : (head.moved row.state row.blockedUntil).currentReservation = row.turn.identity :=
      isCurrent.trans same.symm
    refine InTurn.settle before listed pending same sameTime ?_ follows rfl rfl
    intro other isOther equal
    exact (turn_of_identity isOther member (equal.trans same)).1.symm
  · have unmoved : ∀ turn ∈ turns cooldowns scope, turn.identity ≠ row.identity := by
      intro turn isTurn equal
      obtain ⟨_, rolling, inScope⟩ := turn_of_identity isTurn member (equal.trans same)
      exact own ⟨rolling, inScope⟩
    rw [List.map_congr_left fun turn isTurn => if_neg (unmoved turn isTurn), List.map_id']
    -- The head of another scope is at a turn of that scope.
    have kept : (moveHead old.windowMode heads old.identity row.state row.blockedUntil).get? scope =
        heads.get? scope := by
      unfold moveHead
      split
      · rw [Table.get?_update]
        cases found : heads.get? scope with
        | none => rfl
        | some head =>
          have before := inTurn scope
          rw [found] at before
          obtain ⟨_, last, isLast, isCurrent, _⟩ := before
          have elsewhere : head.currentReservation ≠ old.identity := by
            rw [isCurrent, ← same]
            exact unmoved last (List.mem_of_getLast? isLast)
          rw [Option.map_some, if_neg elsewhere]
      · rfl
    rw [kept]
    exact inTurn scope

theorem DatesClaimed.set {claims : Table BusinessDateClaim.key}
    (claimed : DatesClaimed cooldowns claims) (member : old ∈ cooldowns.rows)
    (same : row.identity = old.identity) (sameMode : row.windowMode = old.windowMode)
    (sameKey : row.claimKey = old.claimKey) (sameOwner : row.decision = old.decision) :
    DatesClaimed (cooldowns.set row) claims := by
  intro other listed once
  rcases (Table.mem_set member same).mp listed with ⟨listed, _⟩ | rfl
  · exact claimed other listed once
  · rw [sameKey, sameOwner]
    exact claimed old member (sameMode.symm.trans once)

variable {mode : WindowMode} {admissionAt : Instant}

/-- A window that lets a decision in does not conflict. -/
theorem windowDenial_eq_none
    (admissible : windowDenial reservations envelope mode admissionAt = none)
    (rolling : mode = .rolling) (found : reservations.heads.get? envelope.scope = some head) :
    head.conflicts admissionAt = false := by
  subst rolling
  simp only [windowDenial, found, Option.map_eq_none_iff, Option.filter_eq_none_iff] at admissible
  simpa using admissible head rfl

theorem evaluatePrepareDenial_eq_none {sinkCount : Nat}
    (admissible : evaluatePrepareDenial reservations envelope policy sinkCount admissionAt = none) :
    windowDenial reservations envelope policy.windowMode admissionAt = none := by
  unfold evaluatePrepareDenial at admissible
  split at admissible
  · cases admissible
  · split at admissible
    · cases admissible
    · split at admissible
      · cases admissible
      · assumption

theorem windowOccupied_eq_false {now : Instant}
    (free : windowOccupied reservations envelope mode now = false) (rolling : mode = .rolling)
    (found : reservations.heads.get? envelope.scope = some head) :
    head.conflicts now = false := by
  subst rolling
  simpa [windowOccupied, rollingHeadConflicts, found] using free

variable {current : Option String}

namespace Reservations.Ordered

theorem empty : Ordered ⟨.empty, .empty, .empty, .empty⟩ := by
  refine ⟨⟨?_, ?_⟩, ?_, ?_⟩
  · intro row member
    cases Table.mem_empty.mp member
  · intro row member
    cases Table.mem_empty.mp member
  · intro scope
    rfl
  · intro row member
    cases Table.mem_empty.mp member

section

variable (ordered : reservations.Ordered)

include ordered

theorem reserve (reserves : Reserves host reservations envelope policy number reservedAt generation)
    (free : policy.windowMode = .rolling → ∀ head,
      reservations.heads.get? envelope.scope = some head → head.conflicts reservedAt = false) :
    generation.reservations.Ordered := by
  obtain ⟨budget, cooldown, ⟨budgets, cooldowns, heads, claims⟩, _⟩ := generation
  obtain ⟨claimed, claimsKept, takesCooldown, takesBudget⟩ := reserves
  dsimp only at claimed claimsKept takesCooldown takesBudget
  refine ⟨?_, ordered.scopes.reserve takesCooldown free, ?_⟩
  · cases takesBudget with
    | absent exempt => exact ordered.slots
    | taken slotNo _ counted free inserted => exact ordered.slots.insert free inserted
  · have kept : DatesClaimed reservations.cooldowns claims := by
      intro row listed once
      obtain ⟨claim, isClaim, isKey, owner⟩ := ordered.dates row listed once
      exact ⟨claim, claimsKept claim isClaim, isKey, owner⟩
    cases takesCooldown with
    | absent unbounded => exact kept
    | taken _ _ windowed inserted led =>
      intro row listed once
      rcases (Table.mem_of_insert inserted).mp listed with listed | rfl
      · exact kept row listed once
      · exact claimed once

theorem moveBudget (moves : MovesBudget reservations current toState occurredAt acceptedAt next) :
    next.Ordered := by
  cases moves with
  | absent | unmoved => exact ordered
  | moved old member isCurrent pending =>
    refine ⟨?_, ordered.scopes, ordered.dates⟩
    refine ordered.slots.set member
      (BudgetReservation.moved_identity toState occurredAt acceptedAt old) rfl rfl ?_
    intro
    cases reached : old.state <;> simp_all [ReservationState.isPending, ReservationState.isActive]

theorem moveCooldown
    (moves : MovesCooldown reservations current toState occurredAt acceptedAt next) :
    next.Ordered := by
  cases moves with
  | absent | unmoved => exact ordered
  | moved old member isCurrent pending =>
    have same := CooldownReservation.moved_identity toState occurredAt acceptedAt old
    exact ⟨ordered.slots, ordered.scopes.move member pending same rfl rfl rfl,
      ordered.dates.set member same rfl rfl rfl⟩

theorem attach {journal after : Journal}
    (done : attachAttemptToReservations host reservations journal decision attempt attemptNo
      occurredAt = .ok (next, after)) : next.Ordered := by
  obtain ⟨middle, _, budgeted, cooled⟩ := attachAttemptToReservations_eq_ok done
  have between : middle.Ordered := by
    rcases attachBudget_eq_ok budgeted with rfl | ⟨old, member, rfl⟩
    · exact ordered
    · exact ⟨ordered.slots.set member (BudgetReservation.attached_identity attempt old) rfl rfl
        fun active => active,
        ordered.scopes, ordered.dates⟩
  rcases attachCooldown_eq_ok cooled with rfl | ⟨old, member, rfl⟩
  · exact between
  · exact ⟨between.slots, between.scopes.set member rfl rfl rfl,
      between.dates.set member (CooldownReservation.attached_identity attempt old) rfl rfl rfl⟩

end

end Reservations.Ordered

end StockAnalysis.Delivery
