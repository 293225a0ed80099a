import StockAnalysis.Book.Requests

/-!
# Claiming shares and consuming claims

What the two loops of a sell parent do. The claiming loop makes positive claims on the lots it is
given, and they sum to what it covered. The consuming loop takes shares from the claimed lots: it
changes only the quantity and the remaining buy fee of a lot, and as long as the claims on a lot
do not exceed its shares, what the lots lose is exactly the basis and the buy fee that the fill
inherits.
-/

namespace StockAnalysis.Book

open StockAnalysis.Ledger (LedgerError Outcome Money Lot carryingValue carryingValue_append
  carryingValue_cons allocatedBuyFee allocatedBuyFee_full)

/-- The shares of a list of claims. -/
def claimedShares (claims : List LotClaim) : Nat :=
  (claims.map LotClaim.quantity).sum

@[simp]
theorem claimedShares_nil : claimedShares [] = 0 :=
  rfl

@[simp]
theorem claimedShares_cons (claim : LotClaim) (claims : List LotClaim) :
    claimedShares (claim :: claims) = claim.quantity + claimedShares claims := by
  simp [claimedShares]

@[simp]
theorem claimedShares_append (first second : List LotClaim) :
    claimedShares (first ++ second) = claimedShares first + claimedShares second := by
  simp [claimedShares]

/-- Dropping empty claims drops no shares. -/
theorem claimedShares_filter (claims : List LotClaim) :
    claimedShares (claims.filter fun claim => 0 < claim.quantity) = claimedShares claims := by
  induction claims with
  | nil => rfl
  | cons claim claims ih =>
    by_cases positive : 0 < claim.quantity
    · simp [positive, ih]
    · simp [show claim.quantity = 0 by omega, ih]

variable {claim left : LotClaim} {lots : List Lot} {claims rest : List LotClaim} {lot sold : Lot}
  {assignments : OrdMap String (Option String)} {chain : String} {session : Day}
  {tally next : Consumption} {allocated : Money}

namespace ExecutionProjection

/-! ## The claiming loop -/

variable {id : String}

theorem claimOf_positive {take : Nat} (member : claim ∈ claimOf id take) :
    0 < claim.quantity ∧ claim.lotId = id := by
  unfold claimOf at member
  split at member
  · rename_i positive
    rw [List.mem_singleton.mp member]
    exact ⟨positive, rfl⟩
  · cases member

theorem claimedShares_claimOf (id : String) (take : Nat) :
    Book.claimedShares (claimOf id take) = take := by
  unfold claimOf
  split
  · simp
  · simp only [claimedShares_nil]
    omega

variable {state : ExecutionProjection}

/-- Every claim the loop makes is positive and on one of its lots; the claims and what is left
sum to what was asked for. -/
theorem claimLots_claims {left rest : Nat} (done : state.claimLots left lots = .ok (rest, claims)) :
    (∀ claim ∈ claims, 0 < claim.quantity ∧ ∃ lot ∈ lots, lot.lotId = claim.lotId) ∧
      rest + Book.claimedShares claims = left := by
  induction lots generalizing left rest claims with
  | nil =>
    cases pure_eq_ok.mp done
    simp
  | cons lot lots ih =>
    rw [claimLots] at done
    simp only [bind_eq_ok] at done
    obtain ⟨claimed, _, available, _, done⟩ := done
    have taken : min left available ≤ left := min_le_left _ _
    have first : ∀ claim ∈ claimOf lot.lotId (min left available),
        0 < claim.quantity ∧ ∃ other ∈ lot :: lots, other.lotId = claim.lotId := by
      intro claim member
      obtain ⟨positive, same⟩ := claimOf_positive member
      exact ⟨positive, lot, List.mem_cons_self, same.symm⟩
    split at done
    · rename_i covered
      cases pure_eq_ok.mp done
      refine ⟨first, ?_⟩
      rw [claimedShares_claimOf]
      omega
    · simp only [bind_eq_ok, pure_eq_ok, Prod.exists, Prod.mk.injEq] at done
      obtain ⟨_, others, loop, rfl, rfl⟩ := done
      obtain ⟨otherClaims, sum⟩ := ih loop
      refine ⟨fun claim member => ?_, ?_⟩
      · rcases List.mem_append.mp member with here | later
        · exact first claim here
        · obtain ⟨positive, other, inLots, same⟩ := otherClaims claim later
          exact ⟨positive, other, List.mem_cons_of_mem lot inLots, same⟩
      · rw [claimedShares_append, claimedShares_claimOf]
        omega

theorem mem_claimableLots {intent : IntentRecord} :
    lot ∈ state.claimableLots intent ↔
      lot ∈ state.account.lots ∧ lot.code = intent.instrumentCode ∧
        lot.sellableFrom ≤ intent.sessionDate ∧
        AssignedTo state.lotAssignments lot.lotId intent.chainId := by
  simp [claimableLots, List.mem_insertionSort, List.mem_filter]

/-! ## One claim -/

/-- What a take leaves of a lot: all but the quantity and the remaining buy fee. -/
def Shrunk (lot left : Lot) : Prop :=
  left = { lot with quantity := left.quantity, buyFeeRemaining := left.buyFeeRemaining }

theorem Shrunk.refl (lot : Lot) : Shrunk lot lot :=
  rfl

theorem Shrunk.trans {first second third : Lot} (one : Shrunk first second)
    (two : Shrunk second third) : Shrunk first third := by
  unfold Shrunk at *
  rw [two, one]

theorem Shrunk.lotId {left : Lot} (shrunk : Shrunk lot left) : left.lotId = lot.lotId := by
  rw [shrunk]

theorem Shrunk.code {left : Lot} (shrunk : Shrunk lot left) : left.code = lot.code := by
  rw [shrunk]

theorem Shrunk.sellableFrom {left : Lot} (shrunk : Shrunk lot left) :
    left.sellableFrom = lot.sellableFrom := by
  rw [shrunk]

/-- A lot that is found is replaced in its place. -/
theorem putLot_split (found : lots.find? (fun lot => lot.lotId = id) = some lot)
    (same : sold.lotId = lot.lotId) :
    ∃ before after, lots = before ++ lot :: after ∧ putLot sold lots = before ++ sold :: after := by
  induction lots with
  | nil => cases found
  | cons other lots ih =>
    by_cases here : other.lotId = id
    · simp only [List.find?_cons, here, decide_true, Option.some.injEq] at found
      subst found
      exact ⟨[], lots, rfl, by simp [putLot, same]⟩
    · simp only [List.find?_cons, here, decide_false] at found
      have lotId : lot.lotId = id := by simpa using List.find?_some found
      obtain ⟨before, after, lotsEq, putEq⟩ := ih found
      refine ⟨other :: before, after, by rw [lotsEq]; rfl, ?_⟩
      have different : other.lotId ≠ sold.lotId := by rw [same, lotId]; exact here
      rw [putLot, if_neg different, putEq]
      rfl

/-- What taking shares of one claim does. -/
structure Taken (tally next : Consumption) (claim left : LotClaim) (lot sold : Lot)
    (allocated : Money) : Prop where
  found : tally.lots.find? (fun lot => lot.lotId = claim.lotId) = some lot
  some : 0 < min tally.left claim.quantity
  share : allocatedBuyFee lot (min tally.left claim.quantity) = .ok allocated
  shrunk : Shrunk lot sold
  quantity : sold.quantity = wrappingSub lot.quantity (min tally.left claim.quantity)
  fee : sold.buyFeeRemaining.val = lot.buyFeeRemaining.val - allocated.val
  lots : next.lots = putLot sold tally.lots
  toTake : next.left = tally.left - min tally.left claim.quantity
  inherited : next.inheritedFee = tally.inheritedFee + allocated.val
  basis : next.basis = tally.basis + lot.basisPrice.val * (min tally.left claim.quantity : Nat)
  remainder : left = { claim with quantity := claim.quantity - min tally.left claim.quantity }

/-- A claim is passed over, or shares of it are taken. -/
theorem consumeClaim_cases
    (done : consumeClaim assignments chain session tally claim = .ok (next, left)) :
    (min tally.left claim.quantity = 0 ∧ next = tally ∧ left = claim) ∨
      ∃ lot sold allocated, Taken tally next claim left lot sold allocated := by
  unfold consumeClaim at done
  split at done
  · rename_i nothing
    cases pure_eq_ok.mp done
    exact Or.inl ⟨nothing, rfl, rfl⟩
  · rename_i something
    simp only [bind_eq_ok, okOr_eq_ok, require_eq_ok, notional_eq_ok, Money.sub_eq_ok, pure_eq_ok,
      Prod.mk.injEq] at done
    obtain ⟨lot, found, _, _, allocated, share, cost, ⟨_, costEq⟩, fee, feeEq, rfl, rfl⟩ := done
    let sold : Lot := { lot with
      quantity := wrappingSub lot.quantity (min tally.left claim.quantity)
      buyFeeRemaining := fee }
    refine Or.inr ⟨lot, sold, allocated, found, Nat.pos_of_ne_zero something, share, rfl, rfl,
      feeEq, rfl, rfl, rfl, ?_, rfl⟩
    rw [costEq]

theorem Taken.split (taken : Taken tally next claim left lot sold allocated) :
    ∃ before after, tally.lots = before ++ lot :: after ∧ next.lots = before ++ sold :: after := by
  obtain ⟨before, after, lotsEq, putEq⟩ := putLot_split taken.found taken.shrunk.lotId
  exact ⟨before, after, lotsEq, taken.lots.trans putEq⟩

theorem Taken.lotId (taken : Taken tally next claim left lot sold allocated) :
    lot.lotId = claim.lotId := by
  simpa using List.find?_some taken.found

theorem forall₂_shrunk_refl (lots : List Lot) : List.Forall₂ Shrunk lots lots :=
  List.forall₂_same.mpr fun lot _ => Shrunk.refl lot

theorem forall₂_shrunk_trans {first second third : List Lot}
    (one : List.Forall₂ Shrunk first second) (two : List.Forall₂ Shrunk second third) :
    List.Forall₂ Shrunk first third := by
  induction one generalizing third with
  | nil =>
    cases two
    exact List.Forall₂.nil
  | cons shrunk _ ih =>
    cases two with
    | cons again rest => exact List.Forall₂.cons (shrunk.trans again) (ih rest)

theorem Taken.forall₂_shrunk (taken : Taken tally next claim left lot sold allocated) :
    List.Forall₂ Shrunk tally.lots next.lots := by
  obtain ⟨before, after, lotsEq, nextEq⟩ := taken.split
  rw [lotsEq, nextEq]
  exact List.rel_append (forall₂_shrunk_refl before)
    (List.Forall₂.cons taken.shrunk (forall₂_shrunk_refl after))

/-! ## The consuming loop -/

/-- What the consuming loop does, whatever the lots hold. -/
structure Consumed (tally next : Consumption) (claims rest : List LotClaim) : Prop where
  shrunk : List.Forall₂ Shrunk tally.lots next.lots
  lotIds : rest.map LotClaim.lotId = claims.map LotClaim.lotId
  toTake : next.left = tally.left - Book.claimedShares claims
  shares : Book.claimedShares rest + tally.left = Book.claimedShares claims + next.left

theorem consumeClaim_consumed
    (done : consumeClaim assignments chain session tally claim = .ok (next, left)) :
    Consumed tally next [claim] [left] := by
  rcases consumeClaim_cases done with ⟨nothing, rfl, rfl⟩ | ⟨lot, sold, allocated, taken⟩
  · refine ⟨forall₂_shrunk_refl _, rfl, ?_, rfl⟩
    simp only [claimedShares_cons, claimedShares_nil]
    omega
  · have toTake := taken.toTake
    refine ⟨taken.forall₂_shrunk, by simp [taken.remainder], ?_, ?_⟩
    · simp only [claimedShares_cons, claimedShares_nil]
      omega
    · simp only [taken.remainder, claimedShares_cons, claimedShares_nil]
      omega

theorem Consumed.cons {middle : Consumption} (first : Consumed tally middle [claim] [left])
    (others : Consumed middle next claims rest) :
    Consumed tally next (claim :: claims) (left :: rest) := by
  have one := first.toTake
  have oneShares := first.shares
  have two := others.toTake
  have twoShares := others.shares
  simp only [claimedShares_cons, claimedShares_nil] at one oneShares
  have lotId : left.lotId = claim.lotId := by simpa using first.lotIds
  refine ⟨?_, ?_, ?_, ?_⟩
  · exact forall₂_shrunk_trans first.shrunk others.shrunk
  · simp [others.lotIds, lotId]
  · simp only [claimedShares_cons]
    omega
  · simp only [claimedShares_cons]
    omega

theorem consumeClaims_consumed
    (done : consumeClaims assignments chain session tally claims = .ok (next, rest)) :
    Consumed tally next claims rest := by
  induction claims generalizing tally rest with
  | nil =>
    cases pure_eq_ok.mp done
    exact ⟨forall₂_shrunk_refl _, rfl, by simp, by simp⟩
  | cons claim claims ih =>
    simp only [consumeClaims, bind_eq_ok, pure_eq_ok, Prod.exists, Prod.mk.injEq] at done
    obtain ⟨middle, left, first, _, others, loop, rfl, rfl⟩ := done
    exact (consumeClaim_consumed first).cons (ih loop)

/-- The claims on each lot do not exceed its shares. -/
def Covered (lots : List Lot) (claims : List LotClaim) : Prop :=
  ∀ lot ∈ lots, claimedOn claims lot.lotId ≤ lot.quantity

/-- A lot without shares carries no buy fee. -/
def Spent (lots : List Lot) : Prop :=
  ∀ lot ∈ lots, lot.quantity = 0 → lot.buyFeeRemaining.val = 0

/-- What the consuming loop does to covered claims. -/
structure ConsumedExactly (tally next : Consumption) (claims : List LotClaim) : Prop where
  covered : Covered next.lots claims
  spent : Spent next.lots
  carried : carryingValue tally.lots = carryingValue next.lots +
    (next.basis - tally.basis) + (next.inheritedFee - tally.inheritedFee)

theorem Covered.tail (covered : Covered lots (claim :: claims)) : Covered lots claims := by
  intro lot member
  have whole := covered lot member
  rw [claimedOn_cons] at whole
  omega

/-- Shares taken from a lot that holds them leave a lot that is worth less by what was taken. -/
theorem Taken.exactly (taken : Taken tally next claim left lot sold allocated)
    (holds : min tally.left claim.quantity ≤ lot.quantity) :
    sold.quantity + min tally.left claim.quantity = lot.quantity ∧
      (sold.quantity = 0 → sold.buyFeeRemaining.val = 0) ∧
      lot.carrying = sold.carrying + lot.basisPrice.val * (min tally.left claim.quantity : Nat) +
        allocated.val := by
  have quantity : sold.quantity + min tally.left claim.quantity = lot.quantity := by
    rw [taken.quantity, wrappingSub, if_pos holds]
    omega
  refine ⟨quantity, fun empty => ?_, ?_⟩
  · have full : min tally.left claim.quantity = lot.quantity := by omega
    have share := taken.share
    rw [full] at share
    rw [taken.fee, allocatedBuyFee_full share]
    omega
  · have basisPrice : sold.basisPrice = lot.basisPrice := by rw [taken.shrunk]
    have split : (lot.quantity : Int) =
        sold.quantity + (min tally.left claim.quantity : Nat) := by omega
    rw [Lot.carrying, Lot.carrying, basisPrice, taken.fee, split]
    ring

theorem consumeClaim_exactly
    (done : consumeClaim assignments chain session tally claim = .ok (next, left))
    (covered : Covered tally.lots (claim :: claims)) (spent : Spent tally.lots) :
    ConsumedExactly tally next claims := by
  rcases consumeClaim_cases done with ⟨_, rfl, rfl⟩ | ⟨lot, sold, allocated, taken⟩
  · exact ⟨covered.tail, spent, by ring⟩
  · obtain ⟨before, after, lotsEq, nextEq⟩ := taken.split
    have member : lot ∈ tally.lots := by simp [lotsEq]
    have claimBound := covered lot member
    rw [claimedOn_cons, if_pos taken.lotId.symm] at claimBound
    have takenBound : min tally.left claim.quantity ≤ claim.quantity := min_le_right _ _
    obtain ⟨quantity, emptied, carried⟩ := taken.exactly (by omega)
    refine ⟨?_, ?_, ?_⟩
    · intro other inNext
      rw [nextEq] at inNext
      rcases List.mem_append.mp inNext with early | rest
      · exact covered.tail other (by simp [lotsEq, early])
      · rcases List.mem_cons.mp rest with rfl | late
        · rw [taken.shrunk.lotId]
          omega
        · exact covered.tail other (by simp [lotsEq, late])
    · intro other inNext
      rw [nextEq] at inNext
      rcases List.mem_append.mp inNext with early | rest
      · exact spent other (by simp [lotsEq, early])
      · rcases List.mem_cons.mp rest with rfl | late
        · exact emptied
        · exact spent other (by simp [lotsEq, late])
    · rw [lotsEq, nextEq, taken.basis, taken.inherited]
      simp only [carryingValue_append, carryingValue_cons, carried]
      ring

theorem consumeClaims_exactly
    (done : consumeClaims assignments chain session tally claims = .ok (next, rest))
    (covered : Covered tally.lots claims) (spent : Spent tally.lots) :
    ConsumedExactly tally next [] := by
  induction claims generalizing tally rest with
  | nil =>
    cases pure_eq_ok.mp done
    exact ⟨covered, spent, by ring⟩
  | cons claim claims ih =>
    simp only [consumeClaims, bind_eq_ok, pure_eq_ok, Prod.exists, Prod.mk.injEq] at done
    obtain ⟨middle, left, first, _, others, loop, rfl, rfl⟩ := done
    have one := consumeClaim_exactly first covered spent
    have more := ih loop one.covered one.spent
    refine ⟨more.covered, more.spent, ?_⟩
    rw [one.carried, more.carried]
    ring

end ExecutionProjection

end StockAnalysis.Book
