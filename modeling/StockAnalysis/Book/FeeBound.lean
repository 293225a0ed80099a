import StockAnalysis.Book.Steps

/-!
# The reserved fee covers every partition

A remainder may fill in any number of parts, each of whole lots and each at a price of its own up
to the cap. The fee reserved for the remainder is at least the sum of the parts' fees, since each
part pays at most its lots' share of the reserve. A part has a fee exactly when its notional amount
is a machine integer: the reserve is computed for one lot, so that its success says nothing about
the notional amount of many lots.
-/

namespace StockAnalysis.Book

open StockAnalysis.Rounding
open StockAnalysis.Ledger (LedgerError Outcome Money)

/-- One fill of a partition: some shares at a price. -/
structure FillPart where
  quantity : Nat
  price : Money

/-- The fee of a part, charged as the fill model charges it. -/
def FillPart.fee (host : Host) (policy : AShareFeePolicyV2) (side : Side) (date : Day)
    (part : FillPart) : Outcome Money := do
  let value ← notional part.price part.quantity
  let fee ← feeEvidence (fillFee host policy policy.scope side.feeSide value date
    .modeledComponentsOnly)
  pure fee.totalMicroCny

/-- Whole lots at a positive price up to the cap. -/
structure FillPart.Within (cap : Money) (part : FillPart) : Prop where
  positive : 0 < part.quantity
  whole : part.quantity % 100 = 0
  pricePositive : 0 < part.price.val
  capped : part.price.val ≤ cap.val

/-- The notional amount of the part is a machine integer. -/
def FillPart.Representable (part : FillPart) : Prop :=
  part.price.val * part.quantity ≤ 9223372036854775807

/-- A split of a quantity into parts within the cap. -/
structure Partition (quantity : Nat) (cap : Money) (parts : List FillPart) : Prop where
  within : ∀ part ∈ parts, part.Within cap
  sum : (parts.map FillPart.quantity).sum = quantity

/-! ## When a fee exists -/

theorem stampTaxMicro_exists {side : FillSide} {notional bound : Money} {tradeDate : Day}
    (positive : 0 < notional.val) (within : stampOn side tradeDate notional.val ≤ bound.val) :
    ∃ stamp, stampTaxMicro side notional (stampTaxBracket tradeDate) = .ok stamp := by
  cases side with
  | buy => exact ⟨0, rfl⟩
  | sell =>
    have nonneg := stampOn_nonneg .sell tradeDate positive.le
    obtain ⟨stamp, _, stampEq⟩ := I64.ofInt?_between 0 bound nonneg within
    refine ⟨stamp, roundedRateMicro_eq_ok.mpr ?_⟩
    rw [Int.mul_one, stampEq]
    rfl

variable {policy : AShareFeePolicyV2}

/-- A fee exists on a supported date when its exact amount is within a machine integer. -/
theorem fillFee_exists {side : FillSide} {notional bound : Money} {tradeDate : Day} (host : Host)
    (positive : 0 < notional.val) (authorized : firstSupportedDate ≤ tradeDate)
    (within : policy.commissionOn notional.val + stampOn side tradeDate notional.val ≤ bound.val) :
    ∃ fee, fillFee host policy policy.scope side notional tradeDate .modeledComponentsOnly =
      .ok fee := by
  have commissionNonneg := policy.commissionOn_nonneg notional.val
  have stampNonneg := stampOn_nonneg side tradeDate positive.le
  have rateNonneg : 0 ≤ halfUp (notional.val * policy.commissionRate.numerator.val)
      policy.commissionRate.denominator.val :=
    halfUp_nonneg (Int.mul_nonneg positive.le policy.commissionRate.nonneg)
      policy.commissionRate.positive
  have rateLe : halfUp (notional.val * policy.commissionRate.numerator.val)
      policy.commissionRate.denominator.val ≤ policy.commissionOn notional.val := le_max_left _ _
  obtain ⟨proportional, _, proportionalEq⟩ :=
    I64.ofInt?_between 0 bound rateNonneg (by omega)
  have stampLe : stampOn side tradeDate notional.val ≤ bound.val := by omega
  obtain ⟨stamp, taxed⟩ := stampTaxMicro_exists positive stampLe
  have commissionEq : (proportional.max policy.commissionMinimumMicroCny).val =
      policy.commissionOn notional.val := by
    rw [I64.val_max, proportionalEq]
    rfl
  have stampEq := stampTaxMicro_val taxed
  have sumNonneg : 0 ≤ (proportional.max policy.commissionMinimumMicroCny).val + stamp.val := by
    omega
  obtain ⟨total, added, _⟩ := I64.ofInt?_between 0 bound sumNonneg (by omega)
  have rounded := roundedRateMicro_eq_ok.mpr proportionalEq
  cases charged : fillFee host policy policy.scope side notional tradeDate
      .modeledComponentsOnly with
  | ok fee => exact ⟨fee, rfl⟩
  | error reason =>
    simp only [fillFee, require_pos, positive, authorized, rounded, taxed, ok_bind,
      I64.checkedAdd, added, okOr, ne_eq, reduceCtorEq, not_false_eq_true] at charged
    cases charged

variable {remaining : Nat} {host : Host} {side : Side} {date : Day}

/-- The reserve of a positive remainder: when it exists, and what it is. -/
theorem worstCaseFee_eq_ok {maxPrice total : Money} (some : remaining ≠ 0) :
    worstCaseFee host side remaining maxPrice date policy = .ok total ↔
      remaining % 100 = 0 ∧ 0 < maxPrice.val ∧ maxPrice.val * 100 ≤ 9223372036854775807 ∧
      firstSupportedDate ≤ date ∧
      total.val = policy.perLotFee side maxPrice.val date * (remaining / 100 : Nat) := by
  constructor
  · intro done
    obtain ⟨whole, totalEq⟩ := worstCaseFee_val done
    unfold worstCaseFee at done
    obtain ⟨_, _, done⟩ := bind_eq_ok.mp done
    rw [if_neg some] at done
    obtain ⟨value, amount, done⟩ := bind_eq_ok.mp done
    obtain ⟨fee, charged, _⟩ := bind_eq_ok.mp done
    obtain ⟨⟨pricePositive, _⟩, valueEq⟩ := notional_eq_ok.mp amount
    have fits := value.bounds.2
    rw [valueEq] at fits
    exact ⟨whole, pricePositive, fits,
      (fillFee_charged (feeEvidence_eq_ok.mp charged)).authorized, totalEq⟩
  · rintro ⟨whole, pricePositive, fits, authorized, totalEq⟩
    have lotFits : -9223372036854775808 ≤ maxPrice.val * (100 : Nat) ∧
        maxPrice.val * (100 : Nat) ≤ 9223372036854775807 := by omega
    let value : Money := ⟨maxPrice.val * (100 : Nat), lotFits⟩
    have amount : notional maxPrice 100 = .ok value :=
      notional_eq_ok.mpr ⟨⟨pricePositive, by decide⟩, rfl⟩
    have oneLot : policy.commissionOn value.val + stampOn side.feeSide date value.val ≤
        total.val := by
      have share := policy.fee_le_perLotFee side date pricePositive le_rfl
        (by decide : 0 < 100) (by decide)
      have perLotNonneg := policy.perLotFee_nonneg side pricePositive.le date
      have lots : ((100 / 100 : Nat) : Int) ≤ (remaining / 100 : Nat) := by omega
      exact share.trans (totalEq ▸ Int.mul_le_mul_of_nonneg_left lots perLotNonneg)
    have valuePositive : 0 < value.val := Int.mul_pos pricePositive (by decide)
    obtain ⟨fee, charged⟩ := fillFee_exists host valuePositive authorized oneLot
    have charge := fillFee_charged charged
    rw [worstCaseFee, require_pos whole, ok_bind, if_neg some]
    simp only [policy.feeRateInteger_canonicalText, bind_eq_ok, feeEvidence_eq_ok,
      require_eq_ok, checked_eq_ok, Except.ok.injEq, FeeRateField.value]
    refine ⟨value, amount, fee, charged, _, rfl, _, rfl, ⟨⟩,
      ⟨policy.commissionRate.nonneg, policy.commissionRate.positive⟩, ?_⟩
    rw [totalEq, charge.amount, charge.commission, charge.bracket]
    rfl

/-- The reserve of a smaller remainder exists with the reserve of the whole. -/
theorem worstCaseFee_less {smaller : Nat} {maxPrice total : Money}
    (done : worstCaseFee host side remaining maxPrice date policy = .ok total)
    (whole : smaller % 100 = 0) (less : smaller ≤ remaining) :
    ∃ rest, worstCaseFee host side smaller maxPrice date policy = .ok rest := by
  by_cases empty : smaller = 0
  · subst empty
    exact ⟨0, rfl⟩
  obtain ⟨_, pricePositive, fits, authorized, totalEq⟩ :=
    (worstCaseFee_eq_ok (by omega)).mp done
  have perLotNonneg := policy.perLotFee_nonneg side pricePositive.le date
  have lots : ((smaller / 100 : Nat) : Int) ≤ (remaining / 100 : Nat) := by
    exact_mod_cast Nat.div_le_div_right less
  have nonneg : 0 ≤ policy.perLotFee side maxPrice.val date * (smaller / 100 : Nat) :=
    Int.mul_nonneg perLotNonneg (Int.natCast_nonneg _)
  have within : policy.perLotFee side maxPrice.val date * (smaller / 100 : Nat) ≤ total.val :=
    totalEq ▸ Int.mul_le_mul_of_nonneg_left lots perLotNonneg
  obtain ⟨rest, _, restEq⟩ := I64.ofInt?_between 0 total nonneg within
  exact ⟨rest, (worstCaseFee_eq_ok empty).mpr ⟨whole, pricePositive, fits, authorized, restEq⟩⟩

/-! ## Parts of a remainder -/

section Parts

variable {cap : Money} {part : FillPart}

/-- A part pays at most the share of its lots in the reserve. -/
theorem FillPart.fee_le {fee : Money} (within : part.Within cap)
    (charged : part.fee host policy side date = .ok fee) :
    fee.val ≤ policy.perLotFee side cap.val date * (part.quantity / 100 : Nat) := by
  simp only [FillPart.fee, bind_eq_ok, notional_eq_ok, feeEvidence_eq_ok, pure_eq_ok] at charged
  obtain ⟨value, ⟨_, valueEq⟩, found, filled, rfl⟩ := charged
  rw [(fillFee_charged filled).total, valueEq]
  exact policy.fee_le_perLotFee side date within.pricePositive within.capped within.positive
    within.whole

/-- On a day and at a cap for which a reserve of at least its lots exists, a part has a fee exactly
when its notional amount is a machine integer. -/
theorem FillPart.fee_exists_iff {worst : Money}
    (bounded : worstCaseFee host side remaining cap date policy = .ok worst)
    (within : part.Within cap) (fits : part.quantity ≤ remaining) :
    (∃ fee, part.fee host policy side date = .ok fee) ↔ part.Representable := by
  constructor
  · rintro ⟨fee, charged⟩
    obtain ⟨value, amount, _⟩ := bind_eq_ok.mp charged
    have valueEq := (notional_eq_ok.mp amount).2
    rw [FillPart.Representable, ← valueEq]
    exact value.bounds.2
  · intro representable
    have positive := within.positive
    have pricePositive := within.pricePositive
    have amountPositive : 0 < part.price.val * part.quantity :=
      Int.mul_pos pricePositive (by omega)
    have amountFits : -9223372036854775808 ≤ part.price.val * part.quantity ∧
        part.price.val * part.quantity ≤ 9223372036854775807 :=
      ⟨by omega, representable⟩
    obtain ⟨_, _, _, authorized, worstEq⟩ := (worstCaseFee_eq_ok (by omega)).mp bounded
    have perLotNonneg := policy.perLotFee_nonneg side (pricePositive.le.trans within.capped) date
    have share := policy.fee_le_perLotFee side date pricePositive within.capped positive
      within.whole
    have lots : ((part.quantity / 100 : Nat) : Int) ≤ (remaining / 100 : Nat) := by
      exact_mod_cast Nat.div_le_div_right fits
    have covered : policy.perLotFee side cap.val date * (part.quantity / 100 : Nat) ≤
        worst.val := worstEq ▸ Int.mul_le_mul_of_nonneg_left lots perLotNonneg
    have reserved := share.trans covered
    let value : Money := ⟨part.price.val * part.quantity, amountFits⟩
    have amount : notional part.price part.quantity = .ok value :=
      notional_eq_ok.mpr ⟨⟨pricePositive, by omega⟩, rfl⟩
    obtain ⟨fee, charged⟩ := @fillFee_exists policy side.feeSide value worst date host
      amountPositive authorized reserved
    refine ⟨fee.totalMicroCny, ?_⟩
    rw [FillPart.fee, amount, ok_bind, feeEvidence_eq_ok.mpr charged]
    rfl

/-- The fees of the parts add up to at most the reserve of their lots. -/
theorem parts_fee_le {parts : List FillPart} {fees : List Money}
    (within : ∀ part ∈ parts, part.Within cap)
    (charged : List.Forall₂ (fun part fee => part.fee host policy side date = .ok fee) parts fees) :
    (fees.map I64.val).sum ≤ policy.perLotFee side cap.val date *
      ((parts.map FillPart.quantity).sum / 100 : Nat) := by
  induction charged with
  | nil => simp
  | @cons part fee parts fees one _ ih =>
    have whole := (within part List.mem_cons_self).whole
    have first := FillPart.fee_le (within part List.mem_cons_self) one
    have others := ih fun other member => within other (List.mem_cons_of_mem _ member)
    have lots : ((part.quantity + (parts.map FillPart.quantity).sum) / 100 : Nat) =
        part.quantity / 100 + (parts.map FillPart.quantity).sum / 100 := by omega
    rw [List.map_cons, List.sum_cons, List.map_cons, List.sum_cons, lots, Nat.cast_add,
      Int.mul_add]
    exact add_le_add first others

end Parts

/-- The reserve bounds every partition: each part whose notional amount is a machine integer has a
fee, the fees of the parts add up to at most the reserve, and the reserve pays for any one part with
what it leaves reserved for the rest.

Proof: the reserve is a multiple of the number of lots, and no part costs more than its own lots'
share. -/
theorem worstCaseFee_bounds_partitions {host : Host} {side : Side} {remaining : Nat}
    {cap worst : Money} {date : Day} {policy : AShareFeePolicyV2}
    (bounded : worstCaseFee host side remaining cap date policy = .ok worst) :
    (∀ parts, Partition remaining cap parts →
      (∀ part ∈ parts,
        (∃ fee, part.fee host policy side date = .ok fee) ↔ part.Representable) ∧
      ∀ fees, List.Forall₂ (fun part fee => FillPart.fee host policy side date part = .ok fee)
        parts fees → (fees.map I64.val).sum ≤ worst.val) ∧
    (∀ part : FillPart, part.Within cap → part.quantity ≤ remaining → part.Representable →
      ∃ fee rest, part.fee host policy side date = .ok fee ∧
        worstCaseFee host side (remaining - part.quantity) cap date policy = .ok rest ∧
        fee.val + rest.val ≤ worst.val) := by
  obtain ⟨whole, worstEq⟩ := worstCaseFee_val bounded
  refine ⟨fun parts split => ⟨fun part member => ?_, fun fees charged => ?_⟩,
    fun part within fits representable => ?_⟩
  · have fits : part.quantity ≤ remaining :=
      split.sum ▸ List.single_le_sum (fun _ _ => Nat.zero_le _) _ (List.mem_map_of_mem member)
    exact FillPart.fee_exists_iff bounded (split.within part member) fits
  · have total := parts_fee_le split.within charged
    rw [split.sum] at total
    exact worstEq ▸ total
  · obtain ⟨fee, charged⟩ := (FillPart.fee_exists_iff bounded within fits).mpr representable
    have partWhole := within.whole
    obtain ⟨rest, reserved⟩ := worstCaseFee_less bounded
      (by omega : (remaining - part.quantity) % 100 = 0) (Nat.sub_le _ _)
    refine ⟨fee, rest, charged, reserved, ?_⟩
    have share := FillPart.fee_le within charged
    have lots : remaining / 100 = part.quantity / 100 + (remaining - part.quantity) / 100 := by
      omega
    rw [worstEq, (worstCaseFee_val reserved).2, lots, Nat.cast_add, Int.mul_add]
    exact Int.add_le_add_right share _

namespace ExecutionProjection

/-- Four lots sold in two fills below the cap, within the fee reserved for them. -/
theorem worstCaseFee_bounds_partitions_sample : ∃ worst,
    worstCaseFee sampleHost .sell 400 (I64.lit 11000000) 19700 samplePolicy = .ok worst ∧
    ∀ fees, List.Forall₂ (fun part fee =>
        FillPart.fee sampleHost samplePolicy .sell 19700 part = .ok fee)
      [⟨100, I64.lit 10000000⟩, ⟨300, I64.lit 11000000⟩] fees →
        (fees.map I64.val).sum ≤ worst.val := by
  have bounded : worstCaseFee sampleHost .sell 400 (I64.lit 11000000) 19700 samplePolicy =
      .ok (I64.lit 22200000) := (worstCaseFee_eq_ok (by decide)).mpr (by decide)
  have split : Partition 400 (I64.lit 11000000)
      [⟨100, I64.lit 10000000⟩, ⟨300, I64.lit 11000000⟩] := by
    refine ⟨fun part member => ?_, rfl⟩
    rcases List.mem_pair.mp member with rfl | rfl
    · exact ⟨by decide, by decide, by decide, by decide⟩
    · exact ⟨by decide, by decide, by decide, by decide⟩
  exact ⟨_, bounded, ((worstCaseFee_bounds_partitions bounded).1 _ split).2⟩

/-- The reserve of two lots at a very high cap exists, while their notional amount in one fill is
no machine integer and the fill has no fee. -/
theorem worstCaseFee_part_overflows :
    worstCaseFee sampleHost .buy 200 (I64.lit 90000000000000000) 19700 samplePolicy =
      .ok (I64.lit 5400000000000000) ∧
    Partition 200 (I64.lit 90000000000000000) [⟨200, I64.lit 90000000000000000⟩] ∧
    FillPart.fee sampleHost samplePolicy .buy 19700 ⟨200, I64.lit 90000000000000000⟩ =
      .error .overflow := by
  refine ⟨(worstCaseFee_eq_ok (by decide)).mpr (by decide), ⟨fun part member => ?_, rfl⟩, rfl⟩
  obtain rfl := List.mem_singleton.mp member
  exact ⟨by decide, by decide, by decide, by decide⟩

end ExecutionProjection

end StockAnalysis.Book
