import StockAnalysis.Book.FillModel

/-!
# The execution projection and its validation

The checks of `trading/paper_book_v2_execution.rs` that no request bypasses: the approved intent,
the execution manifest, the reservation of a parent, the opening projection, and `validate`, which
every accepted request runs last. `Valid` names what a projection that passed `validate`
satisfies; later proofs use it and never unfold the loops of the check.
-/

namespace StockAnalysis.Book

open StockAnalysis.Ledger (LedgerError Outcome Money Lot Mark Projection)

variable (id : String) (parent : ParentState)

/-! ## Intents, manifest, reservation -/

def intentVersion : String := "approved-paper-parent-intent/v1"

/-- A lowercase hexadecimal digit. -/
def isLowerHex (c : Char) : Bool :=
  ('0' ≤ c && c ≤ '9') || ('a' ≤ c && c ≤ 'f')

def IntentRecord.validate (host : Host) (intent : IntentRecord) : Outcome Unit := do
  intent.sourceWindow.validate host
  require (intent.version = intentVersion ∧
    [intent.accountId, intent.epochId, intent.parentId, intent.investmentDecisionId,
      intent.familyId, intent.chainId, intent.instrumentCode, intent.instrumentName,
      intent.approvalReference].all token = true ∧
    byteLength intent.executionManifestHash = 64 ∧
    intent.executionManifestHash.toList.all isLowerHex = true ∧
    intent.quantity ≠ 0 ∧ intent.quantity % 100 = 0 ∧
    intent.instrumentCode = intent.sourceWindow.instrumentCode ∧
    intent.sessionDate = intent.sourceWindow.sessionDate ∧
    intent.approvedAt = intent.sourceWindow.observedAt ∧
    intent.sourceWindow.lowerMicroCny.val ≤ intent.limitMicroCny.val ∧
    intent.limitMicroCny.val ≤ intent.feePriceCapMicroCny.val ∧
    intent.feePriceCapMicroCny.val ≤ intent.sourceWindow.upperMicroCny.val ∧
    intent.limitMicroCny.val.tmod intent.sourceWindow.tickMicroCny.val = 0 ∧
    intent.feePriceCapMicroCny.val.tmod intent.sourceWindow.tickMicroCny.val = 0)
    (.invalidInput "closed parent intent binding invalid")

/-- What the book uses of a valid intent. -/
structure IntentRecord.Sound (intent : IntentRecord) : Prop where
  positive : 0 < intent.quantity
  whole : intent.quantity % 100 = 0
  cap : 0 < intent.feePriceCapMicroCny.val

variable {host : Host} {intent : IntentRecord} {done : Unit}

theorem IntentRecord.validate_sound (valid : intent.validate host = .ok done) : intent.Sound := by
  simp only [IntentRecord.validate, bind_eq_ok, require_eq_ok] at valid
  obtain ⟨_, window, _, _, _, _, positive, whole, _, _, _, low, high, _⟩ := valid
  have lower := (WindowRecord.validate_price window).1
  exact ⟨Nat.pos_of_ne_zero positive, whole, by omega⟩

def manifestVersion : String := "paper-parent-execution-manifest/v1"

/-- `validate_with_work`: the fee policy of a valid manifest. -/
def ExecutionManifest.validate (host : Host) (manifest : ExecutionManifest) :
    Outcome AShareFeePolicyV2 := do
  manifest.budget.validateShape
  let fee ← feeFromRecord manifest.feeDescriptor
  require (manifest.version = manifestVersion ∧ manifest.fillModelVersion = modelVersion ∧
    token manifest.accountId = true ∧ token manifest.epochId = true ∧
    token manifest.cutoverId = true ∧ token manifest.approvedReference = true ∧
    byteLength manifest.genesisEventHash = 64 ∧ byteLength manifest.genesisProjectionHash = 64 ∧
    manifest.feePolicyInstanceId = fee.instanceId host)
    (.integrityFailure "execution manifest invalid")
  pure fee

/-- The notional amount reserved for a remainder; a sale reserves none. -/
def reservedNotional (intent : IntentRecord) (remaining : Nat) : Outcome Money :=
  if intent.side = .buy ∧ 0 < remaining then notional intent.feePriceCapMicroCny remaining
  else pure 0

/-- `reservation_with_work`: what is set aside for a parent's remainder. -/
def reservation (host : Host) (intent : IntentRecord) (remaining : Nat)
    (fee : AShareFeePolicyV2) : Outcome WorkingReservation := do
  let fees ← worstCaseFee host intent.side remaining intent.feePriceCapMicroCny intent.sessionDate
    fee
  let value ← reservedNotional intent remaining
  let cashReserve ← checked (value.val + fees.val)
  pure
    { parentId := intent.parentId
      code := intent.instrumentCode
      chainId := intent.chainId
      buyMaxNotional := value
      feeReserve := fees
      cashReserve := cashReserve }

/-- The cash a remainder needs at most, as a number. -/
def IntentRecord.cashNeed (intent : IntentRecord) (fee : AShareFeePolicyV2) (remaining : Nat) :
    Int :=
  (match intent.side with
    | .buy => intent.feePriceCapMicroCny.val * remaining
    | .sell => 0) +
    fee.perLotFee intent.side intent.feePriceCapMicroCny.val intent.sessionDate *
      (remaining / 100 : Nat)

variable {remaining : Nat} {entry : String × ParentState} {entries : List (String × ParentState)}
  {lots : List Lot}

theorem reservedNotional_val {value : Money} (done : reservedNotional intent remaining = .ok value)
    :
    value.val = match intent.side with
      | .buy => intent.feePriceCapMicroCny.val * remaining
      | .sell => 0 := by
  unfold reservedNotional at done
  split at done
  · rename_i buying
    rw [buying.1, (notional_eq_ok.mp done).2]
  · rename_i other
    obtain rfl := pure_eq_ok.mp done
    cases side : intent.side with
    | sell => rfl
    | buy =>
      have none : remaining = 0 := by
        by_contra some
        exact other ⟨side, Nat.pos_of_ne_zero some⟩
      simp [none]

theorem reservation_cash {fee : AShareFeePolicyV2} {reserve : WorkingReservation}
    (done : reservation host intent remaining fee = .ok reserve) :
    reserve.cashReserve.val = intent.cashNeed fee remaining := by
  simp only [reservation, bind_eq_ok, checked_eq_ok, pure_eq_ok] at done
  obtain ⟨fees, feesDone, value, valueDone, cash, cashEq, rfl⟩ := done
  rw [cashEq, reservedNotional_val valueDone, (worstCaseFee_val feesDone).2]
  rfl

/-! ## The opening projection -/

def projectionVersion : String := "paper-parent-projection/v1"

/-- The chain that an allocation assigns its lot to. -/
def assignedChain (allocation : InitialLotAllocation) : Option String :=
  match allocation.disposition with
  | .allocatedToStrategy => allocation.chainId
  | .unassignedReadOnly => none

def initialAssignments (budget : BudgetRecord) : OrdMap String (Option String) :=
  budget.initialLots.foldl
    (fun assignments allocation => assignments.insert allocation.lotId (assignedChain allocation))
    OrdMap.empty

/-! ## Validation -/

def markFromWindow (window : WindowRecord) : Mark :=
  { code := window.instrumentCode
    price := window.priceMicroCny
    observedAt := window.observedAt
    source := window.sourceReference }

def checkValuation (host : Host) (marks : OrdMap String Mark) (_ : Unit)
    (entry : String × WindowRecord) : Outcome Unit := do
  entry.2.validate host
  require (entry.1 = entry.2.instrumentCode ∧
    marks.get? entry.1 = some (markFromWindow entry.2))
    (.integrityFailure "recorded valuation window differs from original mark")

/-- Every lot is assigned exactly once and every assignment is of a lot. -/
def DispositionsMatch (lots : List Lot) (assignments : OrdMap String (Option String)) : Prop :=
  (lots.map Lot.lotId).Nodup ∧
    (∀ id ∈ lots.map Lot.lotId, id ∈ assignments.keys) ∧
    (∀ id ∈ assignments.keys, id ∈ lots.map Lot.lotId)

instance (lots : List Lot) (assignments : OrdMap String (Option String)) :
    Decidable (DispositionsMatch lots assignments) :=
  inferInstanceAs (Decidable (_ ∧ _ ∧ _))

/-- The sums that validation collects over the parents. -/
structure ParentTally where
  reserve : Int
  claims : OrdMap String Nat

def addClaim (claims : OrdMap String Nat) (claim : LotClaim) : Outcome (OrdMap String Nat) := do
  let sum ← u32Add ((claims.get? claim.lotId).getD 0) claim.quantity
  pure (claims.insert claim.lotId sum)

/-- The checks of a working parent, whose reservation and claims are added up. -/
def checkWorking (tally : ParentTally) : Outcome ParentTally := do
  require (0 < parent.remaining ∧ parent.remaining % 100 = 0)
    (.integrityFailure "working parent remainder invalid")
  require (parent.reservation.parentId = id ∧
    parent.reservation.code = parent.intent.instrumentCode ∧
    parent.reservation.chainId = parent.intent.chainId)
    (.integrityFailure "reservation owner differs")
  let components ← checked
    (parent.reservation.buyMaxNotional.val + parent.reservation.feeReserve.val)
  require (components = parent.reservation.cashReserve)
    (.integrityFailure "reservation components differ")
  let claims ← each addClaim tally.claims parent.sellClaims
  pure ⟨tally.reserve + parent.reservation.cashReserve.val, claims⟩

/-- The checks of a parent that can no longer fill. -/
def checkTerminal (tally : ParentTally) : Outcome ParentTally := do
  require (parent.reservation.cashReserve.val = 0 ∧ parent.reservation.buyMaxNotional.val = 0 ∧
    parent.reservation.feeReserve.val = 0 ∧ parent.sellClaims = [])
    (.integrityFailure "terminal parent retains reservation")
  pure tally

def checkParent (host : Host) (tally : ParentTally) (entry : String × ParentState) :
    Outcome ParentTally := do
  entry.2.intent.validate host
  require (entry.1 = entry.2.intent.parentId ∧
    entry.2.filled + entry.2.remaining + entry.2.cancelled = entry.2.intent.quantity)
    (.integrityFailure "parent quantity differs")
  if entry.2.status.isWorking then checkWorking entry.1 entry.2 tally
  else checkTerminal entry.2 tally

def checkClaimed (lots : List Lot) (_ : Unit) (entry : String × Nat) : Outcome Unit := do
  let lot ← okOr (lots.find? fun lot => lot.lotId = entry.1)
    (.integrityFailure "claim references absent lot")
  require (entry.2 ≤ lot.quantity) (.integrityFailure "sell claims overbook lot")

/-- The error of reservations that the strategy cash does not cover. -/
def reservationExceedsCash : LedgerError :=
  .integrityFailure "working reservation exceeds strategy cash"

/-- `ExecutionProjection::validate_with_work`. -/
def ExecutionProjection.validate (host : Host) (state : ExecutionProjection) : Outcome Unit := do
  state.cash.validate
  require (state.version = projectionVersion ∧
    state.account.cash.val = state.cash.accountCash.val)
    (.integrityFailure "account cash differs from execution partition")
  each (checkValuation host state.account.marks) () state.valuationWindows.entries
  require (DispositionsMatch state.account.lots state.lotAssignments)
    (.integrityFailure "full lot dispositions differ")
  let tally ← each (checkParent host) ⟨0, OrdMap.empty⟩ state.parents.entries
  let reserve ← checked tally.reserve
  require (reserve.val ≤ state.cash.strategyCash.val) reservationExceedsCash
  each (checkClaimed state.account.lots) () tally.claims.entries

/-- `initial_with_work`: the projection that a manifest opens on the genesis account. -/
def ExecutionProjection.initial (host : Host) (genesis : Projection) (budget : BudgetRecord) :
    Outcome ExecutionProjection := do
  let cash ← budget.initialCash genesis
  let state : ExecutionProjection :=
    { version := projectionVersion
      account := genesis
      cash := cash
      lotAssignments := initialAssignments budget
      parents := OrdMap.empty
      usedWindows := OrdMap.empty
      fills := []
      valuationWindows := OrdMap.empty }
  state.validate host
  pure state

/-! ## What validation establishes -/

/-- The shares that a list of claims takes from one lot. -/
def claimedOn (claims : List LotClaim) (id : String) : Nat :=
  ((claims.filter fun claim => claim.lotId = id).map LotClaim.quantity).sum

@[simp]
theorem claimedOn_nil : claimedOn [] id = 0 :=
  rfl

theorem claimedOn_cons (claim : LotClaim) (claims : List LotClaim) (id : String) :
    claimedOn (claim :: claims) id =
      (if claim.lotId = id then claim.quantity else 0) + claimedOn claims id := by
  by_cases same : claim.lotId = id <;> simp [claimedOn, same]

/-- The claims of a parent, which count while it is working. -/
def ParentState.claimed (id : String) : Nat :=
  if parent.status.isWorking then claimedOn parent.sellClaims id else 0

/-- The reserve of a parent, which counts while it is working. -/
def ParentState.reserved : Int :=
  if parent.status.isWorking then parent.reservation.cashReserve.val else 0

/-- The shares of a lot that the working parents claim. -/
def ExecutionProjection.claimed (state : ExecutionProjection) (id : String) : Nat :=
  state.parents.total fun parent => parent.claimed id

/-- The cash that the working parents reserve. -/
def ExecutionProjection.reserved (state : ExecutionProjection) : Int :=
  state.parents.total ParentState.reserved

/-- What validation checks of one parent. -/
structure ParentValid : Prop where
  intent : parent.intent.Sound
  key : id = parent.intent.parentId
  quantity : parent.filled + parent.remaining + parent.cancelled = parent.intent.quantity
  working : parent.status.isWorking = true → 0 < parent.remaining ∧ parent.remaining % 100 = 0
  terminal : parent.status.isWorking = false → parent.sellClaims = []

/-- What validation establishes. -/
structure ExecutionProjection.Valid (state : ExecutionProjection) : Prop where
  cash : state.cash.Sound
  account : state.account.cash.val = state.cash.accountCash.val
  dispositions : DispositionsMatch state.account.lots state.lotAssignments
  parents : ∀ id parent, state.parents.get? id = some parent → ParentValid id parent
  covered : state.reserved ≤ state.cash.strategyCash.val
  claimedLots : ∀ id parent, state.parents.get? id = some parent →
    parent.status.isWorking = true → ∀ claim ∈ parent.sellClaims,
      ∃ lot ∈ state.account.lots, lot.lotId = claim.lotId
  unbooked : ∀ lot ∈ state.account.lots, state.claimed lot.lotId ≤ lot.quantity

/-- Adding claims adds them up by lot. -/
theorem each_addClaim {claims : List LotClaim} {start result : OrdMap String Nat}
    (done : each addClaim start claims = .ok result) (id : String) :
    (result.get? id).getD 0 = (start.get? id).getD 0 + claimedOn claims id ∧
      ((result.get? id).isSome = true ↔
        (start.get? id).isSome = true ∨ ∃ claim ∈ claims, claim.lotId = id) := by
  induction claims generalizing start with
  | nil =>
    simp only [each, Except.ok.injEq] at done
    simp [done]
  | cons claim claims ih =>
    simp only [each, addClaim, bind_eq_ok, u32Add_eq_ok, pure_eq_ok] at done
    obtain ⟨_, ⟨_, ⟨_, rfl⟩, rfl⟩, rest⟩ := done
    obtain ⟨sum, stored⟩ := ih rest
    rw [OrdMap.get?_insert] at sum stored
    by_cases same : claim.lotId = id
    · subst same
      simp only [if_true, Option.getD_some, Option.isSome_some, true_or, iff_true] at sum stored
      refine ⟨?_, by simp [stored]⟩
      rw [sum, claimedOn_cons, if_pos rfl]
      omega
    · rw [if_neg same] at sum stored
      refine ⟨?_, ?_⟩
      · rw [sum, claimedOn_cons, if_neg same, Nat.zero_add]
      · rw [stored]
        simp [same]

/-- What the loop over the parents establishes of a list of them. -/
structure Tallied (start result : ParentTally) (entries : List (String × ParentState)) : Prop where
  valid : ∀ entry ∈ entries, ParentValid entry.1 entry.2
  reserve : result.reserve =
    start.reserve + (entries.map fun entry => entry.2.reserved).sum
  sums : ∀ id, (result.claims.get? id).getD 0 =
    (start.claims.get? id).getD 0 + (entries.map fun entry => entry.2.claimed id).sum
  stored : ∀ id, (result.claims.get? id).isSome = true ↔
    (start.claims.get? id).isSome = true ∨
      ∃ entry ∈ entries, entry.2.status.isWorking = true ∧
        ∃ claim ∈ entry.2.sellClaims, claim.lotId = id

variable {start result : ParentTally}

theorem checkParent_tallied (done : checkParent host start entry = .ok result) :
    Tallied start result [entry] := by
  simp only [checkParent, bind_eq_ok, require_eq_ok] at done
  obtain ⟨_, intentValid, _, ⟨key, quantity⟩, done⟩ := done
  have intent := IntentRecord.validate_sound intentValid
  split at done
  · rename_i working
    simp only [checkWorking, bind_eq_ok, require_eq_ok, pure_eq_ok] at done
    obtain ⟨_, remainder, _, _, _, _, _, _, claims, added, rfl⟩ := done
    refine ⟨?_, ?_, fun id => ?_, fun id => ?_⟩
    · simp only [List.mem_singleton, forall_eq]
      exact ⟨intent, key, quantity, fun _ => remainder, by simp [working]⟩
    · simp [ParentState.reserved, working]
    · simpa [ParentState.claimed, working] using (each_addClaim added id).1
    · simpa [working] using (each_addClaim added id).2
  · rename_i terminal
    simp only [checkTerminal, bind_eq_ok, require_eq_ok, pure_eq_ok] at done
    obtain ⟨_, ⟨_, _, _, noClaims⟩, rfl⟩ := done
    refine ⟨?_, ?_, fun id => ?_, fun id => ?_⟩
    · simp only [List.mem_singleton, forall_eq]
      exact ⟨intent, key, quantity, fun working => absurd working terminal, fun _ => noClaims⟩
    · simp [ParentState.reserved, terminal]
    · simp [ParentState.claimed, terminal]
    · simp [terminal]

theorem Tallied.cons {middle : ParentTally} (first : Tallied start middle [entry])
    (rest : Tallied middle result entries) : Tallied start result (entry :: entries) := by
  refine ⟨?_, ?_, fun id => ?_, fun id => ?_⟩
  · intro other member
    rcases List.mem_cons.mp member with rfl | inRest
    · exact first.valid other (List.mem_singleton_self other)
    · exact rest.valid other inRest
  · have one := first.reserve
    rw [rest.reserve]
    simp only [List.map_cons, List.map_nil, List.sum_cons, List.sum_nil] at one ⊢
    omega
  · have one := first.sums id
    rw [rest.sums id]
    simp only [List.map_cons, List.map_nil, List.sum_cons, List.sum_nil] at one ⊢
    omega
  · rw [rest.stored id, first.stored id]
    simp [or_assoc]

theorem each_checkParent (done : each (checkParent host) start entries = .ok result) :
    Tallied start result entries := by
  induction entries generalizing start with
  | nil =>
    simp only [each, Except.ok.injEq] at done
    subst done
    exact ⟨by simp, by simp, by simp, by simp⟩
  | cons entry entries ih =>
    obtain ⟨middle, first, rest⟩ := bind_eq_ok.mp done
    exact (checkParent_tallied first).cons (ih rest)

theorem each_checkClaimed {entries : List (String × Nat)}
    (passed : each (checkClaimed lots) () entries = .ok done) :
    ∀ entry ∈ entries, ∃ lot, lots.find? (fun lot => lot.lotId = entry.1) = some lot ∧
      entry.2 ≤ lot.quantity := by
  induction entries with
  | nil => simp
  | cons entry entries ih =>
    simp only [each, checkClaimed, bind_eq_ok, okOr_eq_ok, require_eq_ok] at passed
    obtain ⟨_, ⟨lot, found, within⟩, rest⟩ := passed
    intro other member
    rcases List.mem_cons.mp member with rfl | inRest
    · exact ⟨lot, found, within⟩
    · exact ih rest other inRest

theorem lot_eq_of_lotId (distinct : (lots.map Lot.lotId).Nodup) {first second : Lot}
    (inFirst : first ∈ lots) (inSecond : second ∈ lots) (same : first.lotId = second.lotId) :
    first = second :=
  List.inj_on_of_nodup_map distinct inFirst inSecond same

theorem ExecutionProjection.validate_valid {state : ExecutionProjection}
    (passed : state.validate host = .ok done) : state.Valid := by
  simp only [ExecutionProjection.validate, bind_eq_ok, CashPartitions.validate_eq_ok,
    require_eq_ok, checked_eq_ok] at passed
  obtain ⟨_, cash, _, ⟨_, account⟩, _, _, _, dispositions, tally, parents, reserve, reserveEq, _,
    covered, claimed⟩ := passed
  have tallied := each_checkParent parents
  have lotsFound := each_checkClaimed claimed
  have sums : ∀ id, (tally.claims.get? id).getD 0 = state.claimed id := by
    intro id
    have sum := tallied.sums id
    simp only [OrdMap.get?_empty, Option.getD_none, Nat.zero_add] at sum
    rw [sum, ExecutionProjection.claimed, OrdMap.total, OrdMap.values, List.map_map]
    rfl
  refine ⟨cash, account, dispositions, ?_, ?_, ?_, ?_⟩
  · intro id parent stored
    exact tallied.valid (id, parent) (OrdMap.get?_eq_some_iff.mp stored)
  · have total := tallied.reserve
    rw [reserveEq, total] at covered
    rw [ExecutionProjection.reserved, OrdMap.total, OrdMap.values, List.map_map]
    simpa [Function.comp_def] using covered
  · intro id parent stored working claim member
    have present := (tallied.stored claim.lotId).mpr (Or.inr
      ⟨(id, parent), OrdMap.get?_eq_some_iff.mp stored, working, claim, member, rfl⟩)
    obtain ⟨sum, sumStored⟩ := Option.isSome_iff_exists.mp present
    obtain ⟨lot, found, _⟩ := lotsFound _ (OrdMap.get?_eq_some_iff.mp sumStored)
    exact ⟨lot, List.mem_of_find?_eq_some found, by simpa using List.find?_some found⟩
  · intro lot member
    rw [← sums lot.lotId]
    cases stored : tally.claims.get? lot.lotId with
    | none => simp
    | some sum =>
      obtain ⟨found, isFound, within⟩ := lotsFound _ (OrdMap.get?_eq_some_iff.mp stored)
      have same : found.lotId = lot.lotId := by simpa using List.find?_some isFound
      have equal := lot_eq_of_lotId dispositions.1 (List.mem_of_find?_eq_some isFound) member same
      subst equal
      exact within

end StockAnalysis.Book
