import StockAnalysis.Book.Reservations
import StockAnalysis.Book.SellClaims

/-!
# Evaluations never run short

An evaluation of a reachable book can fail for many reasons, but not for want of cash and not for
want of shares: the strategy cash covers every fill of a working parent, the reserves that remain
are covered afterwards, and the claims of a sell parent supply every share of its fills. The
module follows the evaluation through all its checks and shows that the five errors that would
report a shortfall are none of those it can return.
-/

namespace StockAnalysis.Book

open StockAnalysis.Ledger (LedgerError Outcome Money Lot Projection allocatedBuyFee)

/-- The errors that report a shortfall of cash or of claimed shares. -/
def shortfalls : List LedgerError :=
  [cashPartitionsDiffer, reservationExceedsCash, ExecutionProjection.sellLotDisappeared,
    ExecutionProjection.sellLotUnassigned, ExecutionProjection.fillExceedsClaims]

/-- An error that reports no shortfall. -/
def Ordinary (error : LedgerError) : Prop :=
  error ∉ shortfalls

instance (error : LedgerError) : Decidable (Ordinary error) :=
  inferInstanceAs (Decidable (_ ∉ _))

/-- An error that is no integrity failure. -/
def NoIntegrityFailure (error : LedgerError) : Prop :=
  ∀ text, error ≠ .integrityFailure text

theorem NoIntegrityFailure.ordinary {error : LedgerError} (other : NoIntegrityFailure error) :
    Ordinary error := by
  intro short
  simp only [shortfalls, List.mem_cons, List.not_mem_nil, or_false] at short
  rcases short with rfl | rfl | rfl | rfl | rfl <;> exact absurd rfl (other _)

theorem noIntegrityFailure_overflow : NoIntegrityFailure .overflow := by
  intro text same
  cases same

theorem noIntegrityFailure_evidence (text : String) :
    NoIntegrityFailure (.evidenceUnavailable text) := by
  intro other same
  cases same

theorem noIntegrityFailure_invalid (text : String) : NoIntegrityFailure (.invalidInput text) := by
  intro other same
  cases same

/-! ## Parts that report no integrity failure -/

section NoIntegrity

theorem checked_fails (value : Int) : FailsOnly NoIntegrityFailure (checked value) :=
  .okOr (Or.inr noIntegrityFailure_overflow)

theorem notional_fails (price : Money) (quantity : Nat) :
    FailsOnly NoIntegrityFailure (notional price quantity) :=
  .bind (.require (Or.inr (noIntegrityFailure_invalid _))) fun _ _ => checked_fails _

theorem u32Add_fails (a b : Nat) : FailsOnly NoIntegrityFailure (u32Add a b) :=
  .bind (.require (Or.inr noIntegrityFailure_overflow)) fun _ _ => .ok _

theorem u32Sub_fails (a b : Nat) : FailsOnly NoIntegrityFailure (u32Sub a b) :=
  .bind (.require (Or.inr noIntegrityFailure_overflow)) fun _ _ => .ok _

/-- A foreign error that is reported as missing evidence. -/
theorem mapError_fails {ε α : Type} (result : Except ε α) (text : ε → String) :
    FailsOnly NoIntegrityFailure
      (result.mapError fun error => LedgerError.evidenceUnavailable (text error)) := by
  cases result with
  | error error => exact .error (noIntegrityFailure_evidence _)
  | ok value => exact .ok value

theorem checkedShanghaiLocal_fails (at_ : Instant) (text : String) :
    FailsOnly NoIntegrityFailure (checkedShanghaiLocal at_ (.evidenceUnavailable text)) :=
  .bind (.require (Or.inr (noIntegrityFailure_evidence _))) fun _ _ => .ok _

theorem WindowRecord.validate_fails (host : Host) (window : WindowRecord) :
    FailsOnly NoIntegrityFailure (window.validate host) := by
  refine .bind (checkedShanghaiLocal_fails _ _) fun local_ _ => ?_
  refine .bind (.require (Or.inr (noIntegrityFailure_evidence _))) fun _ _ => ?_
  refine .bind (mapError_fails _ _) fun open_ _ => ?_
  exact .require (Or.inr (noIntegrityFailure_evidence _))

theorem feeRateInteger_fails (policy : AShareFeePolicyV2) (field : FeeRateField) :
    FailsOnly NoIntegrityFailure (feeRateInteger policy.canonicalText field) := by
  rw [policy.feeRateInteger_canonicalText]
  exact .ok _

theorem worstCaseFee_fails (host : Host) (side : Side) (remaining : Nat) (maxPrice : Money)
    (date : Day) (policy : AShareFeePolicyV2) :
    FailsOnly NoIntegrityFailure (worstCaseFee host side remaining maxPrice date policy) := by
  refine .bind (.require (Or.inr (noIntegrityFailure_evidence _))) fun _ _ => ?_
  split
  · exact .ok _
  · refine .bind (notional_fails _ _) fun value _ => ?_
    refine .bind (mapError_fails _ _) fun fee _ => ?_
    refine .bind (feeRateInteger_fails policy _) fun numerator _ => ?_
    refine .bind (feeRateInteger_fails policy _) fun denominator _ => ?_
    refine .bind (.require (Or.inr (noIntegrityFailure_evidence _))) fun _ _ => ?_
    exact checked_fails _

theorem reservation_fails (host : Host) (intent : IntentRecord) (remaining : Nat)
    (fee : AShareFeePolicyV2) :
    FailsOnly NoIntegrityFailure (reservation host intent remaining fee) := by
  refine .bind (worstCaseFee_fails _ _ _ _ _ _) fun fees _ => ?_
  refine .bind ?_ fun value _ => ?_
  · unfold reservedNotional
    split
    · exact notional_fails _ _
    · exact .ok _
  · exact .bind (checked_fails _) fun _ _ => .ok _

theorem model_fails (host : Host) (side : Side) (remaining : Nat) (limit feePriceCap : Money)
    (window : WindowRecord) (policy : AShareFeePolicyV2) :
    FailsOnly NoIntegrityFailure (model host side remaining limit feePriceCap window policy) := by
  refine .bind (window.validate_fails host) fun _ _ => ?_
  refine .bind (.require (Or.inr (noIntegrityFailure_invalid _))) fun _ _ => ?_
  split
  · exact .ok _
  · split
    · exact .ok _
    · split
      · exact .error (noIntegrityFailure_evidence _)
      · split
        · exact .ok _
        · refine .bind (notional_fails _ _) fun value _ => ?_
          refine .bind (mapError_fails _ _) fun fee _ => ?_
          exact .bind (mapError_fails _ _) fun sellableFrom _ => .ok _

theorem allocatedBuyFee_fails (lot : Lot) (taken : Nat) :
    FailsOnly NoIntegrityFailure (allocatedBuyFee lot taken) := by
  unfold allocatedBuyFee
  split
  · exact .ok _
  · exact .okOr (Or.inr noIntegrityFailure_overflow)

theorem IntentRecord.validate_fails (host : Host) (intent : IntentRecord) :
    FailsOnly NoIntegrityFailure (intent.validate host) :=
  .bind (intent.sourceWindow.validate_fails host) fun _ _ =>
    .require (Or.inr (noIntegrityFailure_invalid _))

end NoIntegrity

variable (fields : OrdMap String (List Char))

/-- A part that reports no integrity failure reports no shortfall. -/
theorem ordinary_of_noIntegrity {α : Type} {run : Outcome α}
    (fails : FailsOnly NoIntegrityFailure run) : FailsOnly Ordinary run :=
  fails.mono fun _ => NoIntegrityFailure.ordinary

/-! ## The manifest -/

theorem descriptorGet_ordinary (key : String) : FailsOnly Ordinary (descriptorGet fields key) :=
  .okOr (Or.inr (by decide))

theorem descriptorInteger_ordinary (key : String) :
    FailsOnly Ordinary (descriptorInteger fields key) :=
  .bind (descriptorGet_ordinary _ _) fun _ _ => .okOr (Or.inr (by decide))

theorem descriptorReason_ordinary (key : String) :
    FailsOnly Ordinary (descriptorReason fields key) := by
  refine .bind (descriptorGet_ordinary _ _) fun value _ => ?_
  split
  · exact .ok _
  · split
    · exact .ok _
    · exact .error (by decide)

theorem descriptorSegment_ordinary : FailsOnly Ordinary (descriptorSegment fields) := by
  refine .bind (descriptorGet_ordinary _ _) fun value _ => ?_
  split
  · exact .ok _
  · split
    · exact .ok _
    · exact .error (by decide)

theorem feeFromRecord_ordinary (bytes : DescriptorBytes) :
    FailsOnly Ordinary (feeFromRecord bytes) := by
  refine .bind (.okOr (Or.inr (by decide))) fun text _ => ?_
  refine .bind (.each _ fun line _ fields => ?_) fun fields _ => ?_
  · refine .bind (.okOr (Or.inr (by decide))) fun parts _ => ?_
    exact .bind (.require (Or.inr (by decide))) fun _ _ => .ok _
  · refine .bind (descriptorSegment_ordinary _) fun segment _ => ?_
    refine .bind (ordinary_of_noIntegrity (mapError_fails _ _)) fun scope _ => ?_
    refine .bind (descriptorInteger_ordinary _ _) fun num _ => ?_
    refine .bind (descriptorInteger_ordinary _ _) fun den _ => ?_
    refine .bind (ordinary_of_noIntegrity (mapError_fails _ _)) fun rate _ => ?_
    refine .bind (descriptorInteger_ordinary _ _) fun minimum _ => ?_
    refine .bind (descriptorReason_ordinary _ _) fun transfer _ => ?_
    refine .bind (descriptorReason_ordinary _ _) fun other _ => ?_
    refine .bind (descriptorGet_ordinary _ _) fun revision _ => ?_
    refine .bind (ordinary_of_noIntegrity (mapError_fails _ _)) fun policy _ => ?_
    exact .bind (.require (Or.inr (by decide))) fun _ _ => .ok _

theorem ExecutionManifest.validate_ordinary (host : Host) (manifest : ExecutionManifest) :
    FailsOnly Ordinary (manifest.validate host) := by
  refine .bind ?_ fun _ _ => ?_
  · refine .bind (.require (Or.inr (by decide))) fun _ _ => ?_
    refine .bind (.each _ fun allocation _ previous => ?_) fun _ _ => .ok _
    exact .bind (.require (Or.inr (by decide))) fun _ _ => .ok _
  · refine .bind (feeFromRecord_ordinary _) fun fee _ => ?_
    exact .bind (.require (Or.inr (by decide))) fun _ _ => .ok _

/-! ## Cash and claims -/

variable {cash : CashPartitions}

theorem CashPartitions.Sound.validate_ordinary (sound : cash.Sound) :
    FailsOnly Ordinary cash.validate := by
  have passes : cash.validate = .ok () := CashPartitions.validate_eq_ok.mpr sound
  rw [passes]
  exact .ok _

/-- A covered delta is not refused for the partitions. -/
theorem CashPartitions.Sound.applyStrategyDelta_ordinary (sound : cash.Sound) {delta : Money}
    (covered : 0 ≤ cash.strategyCash.val + delta.val) :
    FailsOnly Ordinary (cash.applyStrategyDelta delta) := by
  refine .bind sound.validate_ordinary fun _ _ => ?_
  refine .bind (ordinary_of_noIntegrity ?_) fun next moved => ?_
  · refine .bind (checked_fails _) fun _ _ => ?_
    exact .bind (checked_fails _) fun _ _ => .ok _
  · have nextSound := (CashPartitions.moved_eq_ok moved).sound sound covered
    exact .bind nextSound.validate_ordinary fun _ _ => .ok _

variable {lots leftovers : List Lot} {assignments : OrdMap String (Option String)} {chain : String}
  {session : Day}

namespace ExecutionProjection

/-- A lot that a claim of the chain may be consumed from in the session. -/
def Supplies (assignments : OrdMap String (Option String)) (chain : String) (session : Day)
    (lots : List Lot) (claim : LotClaim) : Prop :=
  ∃ lot ∈ lots, lot.lotId = claim.lotId ∧ lot.sellableFrom ≤ session ∧
    AssignedTo assignments lot.lotId chain

theorem forall₂_shrunk_forward (shrunk : List.Forall₂ Shrunk lots leftovers) {lot : Lot}
    (member : lot ∈ lots) :
    ∃ left ∈ leftovers, Shrunk lot left := by
  induction shrunk with
  | nil => cases member
  | cons first rest ih =>
    rcases List.mem_cons.mp member with rfl | later
    · exact ⟨_, List.mem_cons_self, first⟩
    · obtain ⟨left, inLeft, shrinks⟩ := ih later
      exact ⟨left, List.mem_cons_of_mem _ inLeft, shrinks⟩

theorem forall₂_shrunk_lotIds (shrunk : List.Forall₂ Shrunk lots leftovers) :
    leftovers.map Lot.lotId = lots.map Lot.lotId := by
  induction shrunk with
  | nil => rfl
  | cons first rest ih => rw [List.map_cons, List.map_cons, ih, first.lotId]

variable {claim : LotClaim}

theorem Supplies.shrunk (supplied : Supplies assignments chain session lots claim)
    (shrunk : List.Forall₂ Shrunk lots leftovers) :
    Supplies assignments chain session leftovers claim := by
  obtain ⟨lot, held, lotId, sellable, assigned⟩ := supplied
  obtain ⟨left, inLeft, shrinks⟩ := forall₂_shrunk_forward shrunk held
  refine ⟨left, inLeft, shrinks.lotId.trans lotId, ?_, ?_⟩
  · rw [shrinks.sellableFrom]
    exact sellable
  · rw [shrinks.lotId]
    exact assigned

theorem consumeClaim_ordinary {tally : Consumption} (distinct : (tally.lots.map Lot.lotId).Nodup)
    (supplied : Supplies assignments chain session tally.lots claim) :
    FailsOnly Ordinary (consumeClaim assignments chain session tally claim) := by
  obtain ⟨lot, held, lotId, sellable, assigned⟩ := supplied
  unfold consumeClaim
  split
  · exact .ok _
  · have present : (tally.lots.find? fun lot => lot.lotId = claim.lotId).isSome = true :=
      List.find?_isSome.mpr ⟨lot, held, by simpa using lotId⟩
    refine .bind (.okOr (Or.inl present)) fun found isFound => ?_
    have isLot := okOr_eq_ok.mp isFound
    have foundId : found.lotId = claim.lotId := by simpa using List.find?_some isLot
    obtain rfl := lot_eq_of_lotId distinct (List.mem_of_find?_eq_some isLot) held
      (foundId.trans lotId.symm)
    refine .bind (.require (Or.inl ⟨sellable, assigned⟩)) fun _ _ => ?_
    refine .bind (ordinary_of_noIntegrity (allocatedBuyFee_fails _ _)) fun allocated _ => ?_
    refine .bind (ordinary_of_noIntegrity (notional_fails _ _)) fun cost _ => ?_
    exact .bind (.okOr (Or.inr (by decide))) fun remaining _ => .ok _

theorem consumeClaims_ordinary {claims : List LotClaim} (tally : Consumption)
    (distinct : (tally.lots.map Lot.lotId).Nodup)
    (supplied : ∀ claim ∈ claims, Supplies assignments chain session tally.lots claim) :
    FailsOnly Ordinary (consumeClaims assignments chain session tally claims) := by
  induction claims generalizing tally with
  | nil => exact .ok _
  | cons claim claims ih =>
    have first := supplied claim List.mem_cons_self
    refine .bind (consumeClaim_ordinary distinct first) fun result taken => ?_
    obtain ⟨next, left⟩ := result
    have shrunk := (consumeClaim_consumed taken).shrunk
    refine .bind (ih next ?_ fun other later => ?_) fun _ _ => .ok _
    · rw [forall₂_shrunk_lotIds shrunk]
      exact distinct
    · exact (supplied other (List.mem_cons_of_mem claim later)).shrunk shrunk

/-! ## The evaluation -/

variable {host : Host} {manifest : ExecutionManifest} {fee : AShareFeePolicyV2}
  {state : ExecutionProjection}

section Evaluation

variable {parentId : String} {window : WindowRecord} {parent : ParentState} {modeled : ModeledFill}

section

variable (valid : state.Valid) (reserving : Reserving fee state)

include valid reserving

theorem buyFill_ordinary
    (matched : Matches state parentId window parent) (priced : parent.Priced window fee modeled)
    (side : parent.intent.side = .buy) (fillId : String) :
    FailsOnly Ordinary ((state.observe host window).buyFill parent fillId window modeled) := by
  have covers := reserving.strategy_covers valid matched priced
  rw [side] at covers
  refine .bind (ordinary_of_noIntegrity (checked_fails _)) fun debit debitDone => ?_
  refine .bind (ordinary_of_noIntegrity (checked_fails _)) fun delta deltaDone => ?_
  have deltaEq : delta.val = tradeDelta .buy modeled := by
    rw [checked_eq_ok.mp deltaDone, checked_eq_ok.mp debitDone]
    rfl
  refine .bind (valid.cash.applyStrategyDelta_ordinary (deltaEq ▸ covers)) fun cash _ => ?_
  exact .bind (.require (Or.inr (by decide))) fun _ _ => .ok _

theorem sellFill_ordinary
    (claiming : Claiming state) (matched : Matches state parentId window parent)
    (priced : parent.Priced window fee modeled) (side : parent.intent.side = .sell) :
    FailsOnly Ordinary ((state.observe host window).sellFill parent window modeled) := by
  have covers := reserving.strategy_covers valid matched priced
  rw [side] at covers
  have sound := claiming parentId parent matched.stored
  have total := sound.sell matched.working side
  refine .bind (consumeClaims_ordinary _ valid.dispositions.1 fun claim member => ?_)
    fun result consumed => ?_
  · obtain ⟨lot, held, lotId, _, sellable, assigned⟩ := (sound.claims claim member).lot
    exact ⟨lot, held, lotId, matched.session ▸ sellable, assigned⟩
  · obtain ⟨next, rest⟩ := result
    have toTake := (consumeClaims_consumed consumed).toTake
    have within := priced.quantity_le.1
    have nothing : next.left = 0 := by
      rw [toTake, total]
      exact Nat.sub_eq_zero_of_le within
    refine .bind (.require (Or.inl nothing)) fun _ _ => ?_
    refine .bind (ordinary_of_noIntegrity (checked_fails _)) fun proceeds proceedsDone => ?_
    have proceedsEq : proceeds.val = tradeDelta .sell modeled := checked_eq_ok.mp proceedsDone
    exact .bind (valid.cash.applyStrategyDelta_ordinary (proceedsEq ▸ covers)) fun _ _ => .ok _

theorem applyFill_ordinary
    (claiming : Claiming state) (matched : Matches state parentId window parent)
    (priced : parent.Priced window fee modeled) :
    FailsOnly Ordinary ((state.observe host window).applyFill host manifest fee parent parentId
      window modeled) := by
  refine .bind (ordinary_of_noIntegrity (u32Add_fails _ _)) fun filled _ => ?_
  refine .bind (ordinary_of_noIntegrity (u32Sub_fails _ _)) fun remaining _ => ?_
  refine .bind ?_ fun trade _ => ?_
  · unfold trade
    split
    · rename_i side
      exact buyFill_ordinary valid reserving matched priced side _
    · rename_i side
      exact sellFill_ordinary valid reserving claiming matched priced side
  · refine .bind ?_ fun realized _ => ?_
    · unfold realizedResult
      split
      · exact .ok _
      · exact ordinary_of_noIntegrity (checked_fails _)
    · refine .bind (ordinary_of_noIntegrity (checked_fails _)) fun realizedPnl _ => ?_
      refine .bind (ordinary_of_noIntegrity (checked_fails _)) fun fees _ => ?_
      refine .bind (ordinary_of_noIntegrity (reservation_fails _ _ _ _)) fun reserve _ => ?_
      exact .bind (ordinary_of_noIntegrity (checked_fails _)) fun inherited _ => .ok _

end

theorem admitWindow_ordinary :
    FailsOnly Ordinary (state.admitWindow host fee parentId window) := by
  refine .bind (ordinary_of_noIntegrity (window.validate_fails host)) fun _ _ => ?_
  refine .bind (.require (Or.inr (by decide))) fun _ _ => ?_
  refine .bind (.require (Or.inr (by decide))) fun _ _ => ?_
  refine .bind (.okOr (Or.inr (by decide))) fun found _ => ?_
  refine .bind (.require (Or.inr (by decide))) fun _ _ => ?_
  exact .bind (.require (Or.inr (by decide))) fun _ _ => .ok _

theorem evaluate_ordinary (valid : state.Valid) (reserving : Reserving fee state)
    (claiming : Claiming state) :
    FailsOnly Ordinary (state.evaluate host manifest fee parentId window) := by
  refine .bind admitWindow_ordinary fun found admitted => ?_
  refine .bind (ordinary_of_noIntegrity (model_fails _ _ _ _ _ _ _)) fun outcome modeledBy => ?_
  cases outcome with
  | noFill reason => exact .ok _
  | fill fill =>
    have matched := admitWindow_eq_ok admitted
    exact .bind (applyFill_ordinary valid reserving claiming matched (model_fill modeledBy))
      fun _ _ => .ok _

end Evaluation

/-! ## The final validation -/

theorem checkParent_ordinary (host : Host) (tally : ParentTally) (entry : String × ParentState) :
    FailsOnly Ordinary (checkParent host tally entry) := by
  refine .bind (ordinary_of_noIntegrity (entry.2.intent.validate_fails host)) fun _ _ => ?_
  refine .bind (.require (Or.inr (by decide))) fun _ _ => ?_
  split
  · refine .bind (.require (Or.inr (by decide))) fun _ _ => ?_
    refine .bind (.require (Or.inr (by decide))) fun _ _ => ?_
    refine .bind (ordinary_of_noIntegrity (checked_fails _)) fun components _ => ?_
    refine .bind (.require (Or.inr (by decide))) fun _ _ => ?_
    refine .bind (.each _ fun claim _ claims => ?_) fun _ _ => .ok _
    exact .bind (ordinary_of_noIntegrity (u32Add_fails _ _)) fun _ _ => .ok _
  · exact .bind (.require (Or.inr (by decide))) fun _ _ => .ok _

/-- Validation of sound partitions that cover the reserves reports no shortfall. -/
theorem validate_ordinary (cash : state.cash.Sound)
    (covered : state.reserved ≤ state.cash.strategyCash.val) :
    FailsOnly Ordinary (state.validate host) := by
  refine .bind cash.validate_ordinary fun _ _ => ?_
  refine .bind (.require (Or.inr (by decide))) fun _ _ => ?_
  refine .bind (.each _ fun entry _ done => ?_) fun _ _ => ?_
  · refine .bind (ordinary_of_noIntegrity (entry.2.validate_fails host)) fun _ _ => ?_
    exact .require (Or.inr (by decide))
  · refine .bind (.require (Or.inr (by decide))) fun _ _ => ?_
    refine .bind (.each _ fun entry _ tally => checkParent_ordinary host tally entry)
      fun tally tallied => ?_
    refine .bind (ordinary_of_noIntegrity (checked_fails _)) fun reserve reserveDone => ?_
    have total : reserve.val = state.reserved := by
      rw [checked_eq_ok.mp reserveDone, (each_checkParent tallied).reserve, reserved,
        OrdMap.total, OrdMap.values, List.map_map]
      simp [Function.comp_def]
    refine .bind (.require (Or.inl (total.trans_le covered))) fun _ _ => ?_
    refine .each _ fun entry _ done => ?_
    exact .bind (.okOr (Or.inr (by decide))) fun lot _ => .require (Or.inr (by decide))

theorem Step.cash_sound {next : ExecutionProjection} {request : CommandRecord}
    (step : Step host manifest fee state next request) (valid : state.Valid)
    (reserving : Reserving fee state) : next.cash.Sound := by
  cases step with
  | submit submitted => exact submitted.holdings.cash ▸ valid.cash
  | observe observed => exact observed.holdings.cash ▸ valid.cash
  | fill filled =>
    exact filled.strategy.sound valid.cash
      (reserving.strategy_covers valid filled.matched filled.priced)
  | close closed => exact closed.holdings.cash ▸ valid.cash
  | marks remarked => exact remarked.holdings.cash ▸ valid.cash

variable {genesis : Projection}

/-- An evaluation of a reachable projection reports no shortfall. -/
theorem Reachable.evaluate_ordinary (reachable : Reachable host manifest genesis state)
    (expected : HeadIdentity) (parentId : String) (window : WindowRecord) :
    FailsOnly Ordinary
      (state.applyRequest host manifest (.evaluate expected parentId window)) := by
  have valid := reachable.valid
  refine .bind (.bind (manifest.validate_ordinary host) fun fee feeValid => ?_)
    fun result body => ?_
  · exact ExecutionProjection.evaluate_ordinary valid (reachable.reserving feeValid)
      reachable.claiming
  · obtain ⟨next, effect⟩ := result
    obtain ⟨fee, feeValid, step⟩ := requestBody_step body
    have reserving := reachable.reserving feeValid
    have grows := step.free_le valid reserving (by simp)
    have nonneg := valid.free_nonneg
    have covered : next.reserved ≤ next.cash.strategyCash.val := by
      unfold free at grows nonneg
      omega
    exact .bind (validate_ordinary (step.cash_sound valid reserving) covered) fun _ _ => .ok _

/-! ## Main results -/

section Results

/-- Reservations always suffice: free cash is never negative, only a submission can lower it, and no
evaluation fails because its debit or the remaining reserves exceed the strategy cash.

Proof: every working parent reserves the need of its remainder (`Reserving`), which covers the debit
of any window together with the need of what the fill leaves. -/
theorem reservations_suffice (reachable : Reachable host manifest genesis state) :
    0 ≤ state.free ∧
      (∀ request next effect, (∀ expected intent, request ≠ .submit expected intent) →
        state.applyRequest host manifest request = .ok (next, effect) →
          state.free ≤ next.free) ∧
      ∀ expected parentId window error,
        state.applyRequest host manifest (.evaluate expected parentId window) = .error error →
          error ≠ cashPartitionsDiffer ∧ error ≠ reservationExceedsCash := by
  have valid := reachable.valid
  refine ⟨valid.free_nonneg, ?_, ?_⟩
  · intro request next effect other applied
    obtain ⟨_, fee, feeValid, step⟩ := applyRequest_step applied
    exact step.free_le valid (reachable.reserving feeValid) other
  · intro expected parentId window error failed
    have ordinary := reachable.evaluate_ordinary expected parentId window error failed
    constructor
    · rintro rfl
      exact absurd ordinary (by decide)
    · rintro rfl
      exact absurd ordinary (by decide)

/-- After two fills two orders are still working. -/
theorem reservations_suffice_sample : ∃ state,
    Reachable sampleHost sampleManifest sampleGenesis state ∧ state.working.length = 2 ∧
      0 ≤ state.free := by
  obtain ⟨state, reached, working, _⟩ := sampleBook_filled
  exact ⟨state, ⟨_, reached⟩, working, (reservations_suffice ⟨_, reached⟩).1⟩

/-- Sell claims are exact and never dangle: the claims of a working sell parent add up to its
remainder and each stands on a lot that the parent may sell, the claims on a lot stay within it, no
other parent holds a claim, and no evaluation fails for want of a claimed share.

Proof: every step keeps `Claiming`, and an evaluation under it fails only with `Ordinary` errors. -/
theorem sell_claims_exact (reachable : Reachable host manifest genesis state) :
    (∀ id parent, state.parents.get? id = some parent →
      (parent.status.isWorking = true → parent.intent.side = .sell →
        (parent.sellClaims.map LotClaim.quantity).sum = parent.remaining) ∧
      (∀ claim ∈ parent.sellClaims, ClaimSound state parent.intent claim) ∧
      (parent.intent.side = .buy → parent.sellClaims = []) ∧
      (parent.status.isWorking = false → parent.sellClaims = [])) ∧
    (∀ lot ∈ state.account.lots, state.claimed lot.lotId ≤ lot.quantity) ∧
    ∀ expected parentId window error,
      state.applyRequest host manifest (.evaluate expected parentId window) = .error error →
        error ≠ sellLotDisappeared ∧ error ≠ sellLotUnassigned ∧ error ≠ fillExceedsClaims := by
  have valid := reachable.valid
  refine ⟨?_, valid.unbooked, ?_⟩
  · intro id parent stored
    have sound := reachable.claiming id parent stored
    exact ⟨sound.sell, sound.claims, sound.buy, (valid.parents id parent stored).terminal⟩
  · intro expected parentId window error failed
    have ordinary := reachable.evaluate_ordinary expected parentId window error failed
    refine ⟨?_, ?_, ?_⟩ <;> rintro rfl <;> exact absurd ordinary (by decide)

/-- The same book, with a working sale. -/
theorem sell_claims_exact_sample : ∃ state,
    Reachable sampleHost sampleManifest sampleGenesis state ∧ state.working.length = 2 ∧
      ∀ lot ∈ state.account.lots, state.claimed lot.lotId ≤ lot.quantity := by
  obtain ⟨state, reached, working, _⟩ := sampleBook_filled
  exact ⟨state, ⟨_, reached⟩, working, (sell_claims_exact ⟨_, reached⟩).2.1⟩

end Results

end ExecutionProjection

end StockAnalysis.Book
