import Mathlib.Data.Int.GCD
import StockAnalysis.Book.Types
import StockAnalysis.Foundation.Rounding

/-!
# The fee policy and its descriptor

`performance/fee_policy.rs` and the descriptor reader of the book: the constructors of a policy,
its canonical descriptor, the reconstruction of a policy from stored bytes, and the fee of one
fill. Commission is a rate with a minimum for each fill; stamp tax is paid by the seller at the
rate of the trade date. Each component is rounded half up.

The descriptor is written and read as text. What the book needs of it is proved here: the rate
that a reader finds in the canonical text is the rate of the policy.
-/

namespace StockAnalysis.Book

open StockAnalysis.TextRecord StockAnalysis.Rounding
open StockAnalysis.Ledger (LedgerError Outcome Money)

variable (policy : AShareFeePolicyV2) (fields : OrdMap String (List Char))

/-- Report a fee error as missing evidence. -/
def feeEvidence {α : Type} (result : Except AShareFeeV2Error α) : Outcome α :=
  result.mapError fun error => .evidenceUnavailable error.text

theorem feeEvidence_eq_ok {α : Type} {result : Except AShareFeeV2Error α} {value : α} :
    feeEvidence result = .ok value ↔ result = .ok value := by
  cases result <;> simp [feeEvidence, Except.mapError]

/-! ## Construction -/

def QualifiedInstrument.new (market : FeeMarket) (securityKind : FeeSecurityKind)
    (segment : FeeListingSegment) : Except AShareFeeV2Error QualifiedInstrument :=
  if supported : market = .shanghai ∧ securityKind = .aShareStock ∧ segment.Supported then
    .ok ⟨market, securityKind, segment, supported⟩
  else
    .error .unsupportedInstrument

/-- A nonnegative amount divided by a common divisor. -/
def FeeRate.scaled (amount : Money) (nonneg : 0 ≤ amount.val) (divisor : Nat) : Money :=
  ⟨amount.val / divisor, by
    have low : 0 ≤ amount.val / divisor := Int.ediv_nonneg nonneg (Int.natCast_nonneg divisor)
    have high : amount.val / divisor ≤ amount.val := Int.ediv_le_self divisor nonneg
    have bounds := amount.bounds
    omega⟩

def FeeRate.new (numerator denominator : Money) : Except AShareFeeV2Error FeeRate :=
  if valid : 0 ≤ numerator.val ∧ 0 < denominator.val then
    have divides : (Int.gcd numerator.val denominator.val : Int) ∣ denominator.val :=
      Int.gcd_dvd_right ..
    have common : 0 < Int.gcd numerator.val denominator.val :=
      Int.gcd_pos_of_ne_zero_right _ valid.2.ne'
    .ok
      { numerator := FeeRate.scaled numerator valid.1 (Int.gcd numerator.val denominator.val)
        denominator :=
          FeeRate.scaled denominator valid.2.le (Int.gcd numerator.val denominator.val)
        nonneg := Int.ediv_nonneg valid.1 (Int.natCast_nonneg _)
        positive := Int.ediv_pos_of_pos_of_dvd valid.2 (Int.natCast_nonneg _) divides
        reduced := Int.gcd_ediv_gcd_ediv_gcd common }
  else
    .error .invalidCommissionRate

def AShareFeePolicyV2.new (scope : QualifiedInstrument) (commissionRate : FeeRate)
    (commissionMinimum : Money) (coverage : FeeCoverage) (sourceRevision : List Char) :
    Except AShareFeeV2Error AShareFeePolicyV2 :=
  if minimumNonneg : 0 ≤ commissionMinimum.val then
    if revisionToken : RevisionToken sourceRevision then
      .ok ⟨scope, commissionRate, commissionMinimum, minimumNonneg, coverage, sourceRevision,
        revisionToken⟩
    else
      .error .invalidSourceRevision
  else
    .error .invalidCommissionMinimum

/-! ## The canonical descriptor -/

def descriptorSchema : String := "a-share-fee-policy-descriptor/v1"

def aShareFeeScheduleV2 : String := "a-share-policy-by-trade-date-v2"

/-- One field of a descriptor. -/
def fieldLine (key : String) (value : List Char) : List Char :=
  key.toList ++ '=' :: value

/-- The lines of a policy's descriptor, in the order they are written. -/
def AShareFeePolicyV2.descriptorLines : List (List Char) :=
  [ fieldLine "schema" descriptorSchema.toList
  , fieldLine "schedule" aShareFeeScheduleV2.toList
  , fieldLine "market" "Shanghai".toList
  , fieldLine "instrument" "AShareStock".toList
  , fieldLine "segment" policy.scope.segment.token.toList
  , fieldLine "first_supported_trade_date" "2008-09-19".toList
  , fieldLine "date_basis" "executed_fill_at_asia_shanghai_date".toList
  , fieldLine "commission_kind" "simulated_rate_with_per_fill_minimum".toList
  , fieldLine "commission_rate_num" (showInt policy.commissionRate.numerator.val)
  , fieldLine "commission_rate_den" (showInt policy.commissionRate.denominator.val)
  , fieldLine "commission_minimum_micro_cny" (showInt policy.commissionMinimumMicroCny.val)
  , fieldLine "commission_applies_to" "buy_and_sell".toList
  , fieldLine "stamp_tax_buy_num" "0".toList
  , fieldLine "stamp_tax_buy_den" "1".toList
  , fieldLine "stamp_tax_sell_bracket_1" "2008-09-19..2023-08-27:1/1000".toList
  , fieldLine "stamp_tax_sell_bracket_2" "2023-08-28..:1/2000".toList
  , fieldLine "rounding" "integer_half_up_micro_cny_per_component".toList
  , fieldLine "coverage_commission" "modeled_assumption".toList
  , fieldLine "coverage_stamp_tax" "modeled_policy".toList
  , fieldLine "coverage_transfer_fee" policy.coverage.transferFee.token.toList
  , fieldLine "coverage_other_charges" policy.coverage.otherCharges.token.toList
  , fieldLine "source_revision" policy.sourceRevision ]

/-- `canonical_bytes`: the descriptor is ASCII, so its bytes are its text. -/
def AShareFeePolicyV2.canonicalText : List Char :=
  unlines policy.descriptorLines

/-- `instance_id`: the schedule and the digest of the descriptor. -/
def AShareFeePolicyV2.instanceId (host : Host) (policy : AShareFeePolicyV2) : String :=
  aShareFeeScheduleV2 ++ ":sha256:" ++ host.descriptorDigest policy.canonicalText

/-! ## Reading a stored descriptor -/

/-- Add the field of one line, refusing a second field of its key. -/
def addDescriptorField (line : List Char) : Outcome (OrdMap String (List Char)) := do
  let (key, value) ← okOr (splitOnce '=' line) (.integrityFailure "fee descriptor field")
  require (fields.contains (String.ofList key) = false)
    (.integrityFailure "duplicate fee descriptor field")
  pure (fields.insert (String.ofList key) value)

def descriptorGet (key : String) : Outcome (List Char) :=
  okOr (fields.get? key) (.integrityFailure "fee descriptor missing field")

def descriptorInteger (key : String) : Outcome Money := do
  let value ← descriptorGet fields key
  okOr ((parseInt value).bind I64.ofInt?) (.integrityFailure "fee descriptor integer")

def descriptorReason (key : String) : Outcome ExcludedFeeReason := do
  let value ← descriptorGet fields key
  if value = "excluded_unmodeled".toList then pure .unmodeled
  else if value = "excluded_unverified".toList then pure .unverified
  else .error (.integrityFailure "fee coverage field")

def descriptorSegment : Outcome FeeListingSegment := do
  let value ← descriptorGet fields "segment"
  if value = "ShanghaiMainA".toList then pure .shanghaiMainA
  else if value = "ShanghaiStarA".toList then pure .shanghaiStarA
  else .error (.evidenceUnavailable "fee segment unavailable")

/-- `fee_from_record_with_work`: the policy whose canonical descriptor the bytes are. -/
def feeFromRecord (bytes : DescriptorBytes) : Outcome AShareFeePolicyV2 := do
  let text ← okOr bytes (.integrityFailure "fee descriptor UTF8")
  let fields ← each addDescriptorField OrdMap.empty (lines text)
  let segment ← descriptorSegment fields
  let scope ← feeEvidence (QualifiedInstrument.new .shanghai .aShareStock segment)
  let num ← descriptorInteger fields "commission_rate_num"
  let den ← descriptorInteger fields "commission_rate_den"
  let rate ← feeEvidence (FeeRate.new num den)
  let minimum ← descriptorInteger fields "commission_minimum_micro_cny"
  let transfer ← descriptorReason fields "coverage_transfer_fee"
  let other ← descriptorReason fields "coverage_other_charges"
  let revision ← descriptorGet fields "source_revision"
  let policy ← feeEvidence (AShareFeePolicyV2.new scope rate minimum ⟨transfer, other⟩ revision)
  require (policy.canonicalText = text)
    (.integrityFailure "fee descriptor is not canonical reviewed policy")
  pure policy

inductive FeeRateField where
  | numerator | denominator

def FeeRateField.key : FeeRateField → String
  | .numerator => "commission_rate_num"
  | .denominator => "commission_rate_den"

/-- The values of the lines that begin with a field's key. -/
def rateValues (text : List Char) (field : FeeRateField) : List (List Char) :=
  (lines text).filterMap (fieldLine field.key []).isPrefixOf?

/-- `parse::<i128>()`. -/
def parseI128 (text : List Char) : Option Int :=
  (parseInt text).filter fun value => decide (-2 ^ 127 ≤ value ∧ value < 2 ^ 127)

/-- The one integer a descriptor text holds for a field of the rate. -/
def feeRateInteger (text : List Char) (field : FeeRateField) : Outcome Int := do
  let values := rateValues text field
  let value ← okOr (values.head?.bind parseI128)
    (.evidenceUnavailable "fee descriptor rate unavailable")
  require (values.tail = []) (.evidenceUnavailable "fee descriptor rate duplicated")
  pure value

/-! ### What the canonical text says of the rate -/

theorem plain_revision {revision : List Char} (token : RevisionToken revision) :
    Plain revision := by
  have chars := List.all_eq_true.mp token.2.2
  exact ⟨fun member => absurd (chars _ member) (by decide),
    fun member => absurd (chars _ member) (by decide)⟩

theorem FeeListingSegment.plain_token (segment : FeeListingSegment) :
    Plain segment.token.toList := by
  cases segment <;> decide

theorem ExcludedFeeReason.plain_token (reason : ExcludedFeeReason) :
    Plain reason.token.toList := by
  cases reason <;> decide

theorem plain_fieldLine {key : String} {value : List Char} (plainKey : Plain key.toList)
    (plainValue : Plain value) : Plain (fieldLine key value) :=
  plainKey.append (Plain.append (by decide : Plain ['=']) plainValue)

theorem AShareFeePolicyV2.plain_lines : ∀ line ∈ policy.descriptorLines, Plain line := by
  simp only [descriptorLines, List.forall_mem_cons]
  refine ⟨by decide, by decide, by decide, by decide,
    plain_fieldLine (by decide) policy.scope.segment.plain_token, by decide, by decide, by decide,
    plain_fieldLine (by decide) (plain_showInt _), plain_fieldLine (by decide) (plain_showInt _),
    plain_fieldLine (by decide) (plain_showInt _), by decide, by decide, by decide, by decide,
    by decide, by decide, by decide, by decide,
    plain_fieldLine (by decide) policy.coverage.transferFee.plain_token,
    plain_fieldLine (by decide) policy.coverage.otherCharges.plain_token,
    plain_fieldLine (by decide) (plain_revision policy.revisionToken),
    fun _ member => absurd member List.not_mem_nil⟩

/-- Reading a canonical descriptor by lines gives the fields that were written. -/
theorem AShareFeePolicyV2.lines_canonicalText :
    lines policy.canonicalText = policy.descriptorLines :=
  lines_unlines policy.plain_lines

/-- The value of the rate that a field names. -/
def FeeRateField.value (rate : FeeRate) : FeeRateField → Money
  | .numerator => rate.numerator
  | .denominator => rate.denominator

theorem AShareFeePolicyV2.rateValues_canonicalText (field : FeeRateField) :
    rateValues policy.canonicalText field =
      [showInt (field.value policy.commissionRate).val] := by
  rw [rateValues, policy.lines_canonicalText]
  cases field <;> rfl

theorem parseI128_showInt (value : Money) : parseI128 (showInt value.val) = some value.val := by
  have bounds := value.bounds
  rw [parseI128, parseInt_showInt, Option.filter_some, if_pos]
  simp only [decide_eq_true_eq]
  omega

/-- The rate read back from a policy's canonical descriptor is the policy's rate. -/
theorem AShareFeePolicyV2.feeRateInteger_canonicalText (field : FeeRateField) :
    feeRateInteger policy.canonicalText field =
      .ok (field.value policy.commissionRate).val := by
  rw [feeRateInteger, policy.rateValues_canonicalText]
  simp [parseI128_showInt, okOr, StockAnalysis.require, pure, Except.pure]

/-! ## The fee of one fill -/

/-- 2008-09-19, from which the schedule has authority. -/
def firstSupportedDate : Day := 14141

/-- 2023-08-28, from which the halved stamp tax applies. -/
def halvedStampDate : Day := 19597

def stampTaxBracket (tradeDate : Day) : StampTaxBracketV2 :=
  if tradeDate < halvedStampDate then .sellerOnePerThousand else .sellerHalfPerThousand

def StampTaxBracketV2.denominator : StampTaxBracketV2 → Int
  | .sellerOnePerThousand => 1000
  | .sellerHalfPerThousand => 2000

/-- `rounded_rate_micro`: an amount at a rate, rounded half up. -/
def roundedRateMicro (amount : Money) (numerator denominator : Int) :
    Except AShareFeeV2Error Money :=
  okOr (I64.ofInt? (halfUp (amount.val * numerator) denominator)) .overflow

theorem roundedRateMicro_eq_ok {amount result : Money} {numerator denominator : Int} :
    roundedRateMicro amount numerator denominator = .ok result ↔
      result.val = halfUp (amount.val * numerator) denominator := by
  rw [roundedRateMicro, okOr_eq_ok, I64.ofInt?_eq_some]

/-- The stamp tax of a fill, which only a sale pays. -/
def stampTaxMicro (side : FillSide) (notional : Money) (bracket : StampTaxBracketV2) :
    Except AShareFeeV2Error Money :=
  match side with
  | .buy => .ok 0
  | .sell => roundedRateMicro notional 1 bracket.denominator

/-- `fill_fee_with_work`: the modeled fee of one fill. -/
def fillFee (host : Host) (policy : AShareFeePolicyV2) (instrument : QualifiedInstrument)
    (side : FillSide) (notional : Money) (tradeDate : Day)
    (requiredCoverage : FeeCoverageRequirement) : Except AShareFeeV2Error AShareFillFeeV2 := do
  require (instrument = policy.scope) .scopeMismatch
  require (requiredCoverage ≠ .completeTradingCost) .unsupportedCoverage
  require (0 < notional.val) .invalidNotional
  require (firstSupportedDate ≤ tradeDate) .unsupportedTradeDate
  let proportional ← roundedRateMicro notional policy.commissionRate.numerator.val
    policy.commissionRate.denominator.val
  let commission := proportional.max policy.commissionMinimumMicroCny
  let stamp ← stampTaxMicro side notional (stampTaxBracket tradeDate)
  let total ← okOr (commission.checkedAdd stamp) .overflow
  pure
    { basisId := aShareFeeScheduleV2
      policyInstanceId := policy.instanceId host
      scope := instrument
      tradeDate := tradeDate
      stampTaxBracket := stampTaxBracket tradeDate
      side := side
      notionalMicroCny := notional
      commissionMicroCny := commission
      stampTaxMicroCny := stamp
      totalMicroCny := total
      coverage := policy.coverage }

/-- The commission on a notional amount. -/
def AShareFeePolicyV2.commissionOn (notional : Int) : Int :=
  max (halfUp (notional * policy.commissionRate.numerator.val)
    policy.commissionRate.denominator.val) policy.commissionMinimumMicroCny.val

/-- The stamp tax on a notional amount. -/
def stampOn (side : FillSide) (tradeDate : Day) (notional : Int) : Int :=
  match side with
  | .buy => 0
  | .sell => halfUp notional (stampTaxBracket tradeDate).denominator

/-- What a modeled fee says. -/
structure FeeCharged (side : FillSide) (notional : Money) (tradeDate : Day)
    (fee : AShareFillFeeV2) : Prop where
  positive : 0 < notional.val
  authorized : firstSupportedDate ≤ tradeDate
  bracket : fee.stampTaxBracket = stampTaxBracket tradeDate
  amount : fee.notionalMicroCny = notional
  commission : fee.commissionMicroCny.val = policy.commissionOn notional.val
  stamp : fee.stampTaxMicroCny.val = stampOn side tradeDate notional.val
  total : fee.totalMicroCny.val =
    policy.commissionOn notional.val + stampOn side tradeDate notional.val

variable {side : FillSide} {notional : Money} {tradeDate : Day}

theorem stampTaxMicro_val {stamp : Money}
    (taxed : stampTaxMicro side notional (stampTaxBracket tradeDate) = .ok stamp) :
    stamp.val = stampOn side tradeDate notional.val := by
  cases side with
  | buy =>
    simp only [stampTaxMicro, Except.ok.injEq] at taxed
    rw [← taxed]
    rfl
  | sell =>
    have rounded := roundedRateMicro_eq_ok.mp taxed
    rwa [Int.mul_one] at rounded

theorem fillFee_charged {host : Host} {policy : AShareFeePolicyV2}
    {instrument : QualifiedInstrument} {coverage : FeeCoverageRequirement} {fee : AShareFillFeeV2}
    (charged : fillFee host policy instrument side notional tradeDate coverage = .ok fee) :
    FeeCharged policy side notional tradeDate fee := by
  simp only [fillFee, bind_eq_ok, require_eq_ok, roundedRateMicro_eq_ok, okOr_eq_ok, pure_eq_ok,
    I64.checkedAdd, I64.ofInt?_eq_some] at charged
  obtain ⟨_, _, _, _, _, positive, _, authorized, proportional, proportionalEq, stamp, taxed, total,
    totalEq, rfl⟩ := charged
  have commissionEq : (proportional.max policy.commissionMinimumMicroCny).val =
      policy.commissionOn notional.val := by
    rw [I64.val_max, proportionalEq]
    rfl
  have stampEq := stampTaxMicro_val taxed
  exact ⟨positive, authorized, rfl, rfl, commissionEq, stampEq,
    by rw [totalEq, commissionEq, stampEq]⟩

theorem StampTaxBracketV2.denominator_pos (bracket : StampTaxBracketV2) :
    0 < bracket.denominator := by
  cases bracket <;> decide

theorem AShareFeePolicyV2.commissionOn_nonneg (notional : Int) : 0 ≤ policy.commissionOn notional :=
  le_max_of_le_right policy.minimumNonneg

theorem stampOn_nonneg (side : FillSide) (tradeDate : Day) {notional : Int}
    (nonneg : 0 ≤ notional) : 0 ≤ stampOn side tradeDate notional := by
  cases side with
  | buy => exact le_refl _
  | sell => exact halfUp_nonneg nonneg (StampTaxBracketV2.denominator_pos _)

end StockAnalysis.Book
