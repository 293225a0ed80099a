import Mathlib.Data.Rat.Lemmas
import StockAnalysis.Book.FeePolicy

/-!
# The descriptor of a fee policy is read back

Reading the canonical descriptor of a policy gives the policy, and bytes that are read are the
canonical descriptor of what they give. A rate is kept in lowest terms, so that the ways to write
one rate share a descriptor.
-/

namespace StockAnalysis.Book

open StockAnalysis.TextRecord
open StockAnalysis.Ledger (Outcome Money)

variable {key : String} {value : List Char} {fields : OrdMap String (List Char)}
  (policy : AShareFeePolicyV2)

/-! ## Fields -/

theorem splitOnce_fieldLine (free : '=' ∉ key.toList) :
    splitOnce '=' (fieldLine key value) = some (key.toList, value) := by
  unfold fieldLine
  generalize key.toList = characters at free
  induction characters with
  | nil => rfl
  | cons first rest ih =>
    obtain ⟨other, later⟩ := not_or.mp (mt List.mem_cons.mpr free)
    rw [List.cons_append, splitOnce, if_neg (Ne.symm other), ih later]
    rfl

theorem addDescriptorField_fieldLine (free : '=' ∉ key.toList)
    (absent : fields.contains key = false) :
    addDescriptorField fields (fieldLine key value) = .ok (fields.insert key value) := by
  rw [addDescriptorField, splitOnce_fieldLine free]
  simp only [okOr, ok_bind, String.ofList_toList, require_pos absent]
  rfl

/-- Lines of distinct fields are read into a map that has each of them. -/
theorem each_addDescriptorField {entries : List (String × List Char)}
    (free : ∀ entry ∈ entries, '=' ∉ entry.1.toList) (distinct : (entries.map Prod.fst).Nodup)
    (absent : ∀ entry ∈ entries, fields.contains entry.1 = false) :
    ∃ read, each addDescriptorField fields (entries.map fun entry => fieldLine entry.1 entry.2) =
        .ok read ∧
      (∀ entry ∈ entries, read.get? entry.1 = some entry.2) ∧
      ∀ key, key ∉ entries.map Prod.fst → read.get? key = fields.get? key := by
  induction entries generalizing fields with
  | nil => exact ⟨fields, rfl, by simp, fun _ _ => rfl⟩
  | cons entry entries ih =>
    obtain ⟨new, others⟩ := List.nodup_cons.mp distinct
    have added : addDescriptorField fields (fieldLine entry.1 entry.2) =
        .ok (fields.insert entry.1 entry.2) :=
      addDescriptorField_fieldLine (free entry List.mem_cons_self)
        (absent entry List.mem_cons_self)
    have stillAbsent : ∀ other ∈ entries,
        (fields.insert entry.1 entry.2).contains other.1 = false := by
      intro other member
      rw [Bool.eq_false_iff]
      intro contains
      rcases OrdMap.contains_insert.mp contains with same | old
      · exact new (same ▸ List.mem_map_of_mem member)
      · rw [absent other (List.mem_cons_of_mem entry member)] at old
        cases old
    obtain ⟨read, done, found, kept⟩ := ih
      (fun other member => free other (List.mem_cons_of_mem entry member)) others stillAbsent
    refine ⟨read, ?_, ?_, ?_⟩
    · rw [List.map_cons, each, added, ok_bind, done]
    · intro other member
      rcases List.mem_cons.mp member with rfl | later
      · rw [kept _ new, OrdMap.get?_insert, if_pos rfl]
      · exact found other later
    · intro key outside
      obtain ⟨different, later⟩ := not_or.mp (mt List.mem_cons.mpr outside)
      rw [kept key later, OrdMap.get?_insert, if_neg (Ne.symm different)]

def descriptorKeys : List String :=
  ["schema", "schedule", "market", "instrument", "segment", "first_supported_trade_date",
    "date_basis", "commission_kind", "commission_rate_num", "commission_rate_den",
    "commission_minimum_micro_cny", "commission_applies_to", "stamp_tax_buy_num",
    "stamp_tax_buy_den", "stamp_tax_sell_bracket_1", "stamp_tax_sell_bracket_2", "rounding",
    "coverage_commission", "coverage_stamp_tax", "coverage_transfer_fee",
    "coverage_other_charges", "source_revision"]

/-- The fields of a descriptor: what stands behind the key of each line. -/
def AShareFeePolicyV2.entries : List (String × List Char) :=
  descriptorKeys.zipWith (fun key line => (key, line.drop (key.toList.length + 1)))
    policy.descriptorLines

theorem AShareFeePolicyV2.fields_read : ∃ fields,
    each addDescriptorField OrdMap.empty (lines policy.canonicalText) = .ok fields ∧
      ∀ entry ∈ policy.entries, fields.get? entry.1 = some entry.2 := by
  have keys : policy.entries.map Prod.fst = descriptorKeys := rfl
  have free : ∀ entry ∈ policy.entries, '=' ∉ entry.1.toList := by
    intro entry member
    have listed := List.mem_map_of_mem (f := Prod.fst) member
    rw [keys] at listed
    revert listed
    generalize entry.1 = key
    revert key
    decide +kernel
  obtain ⟨fields, read, found, _⟩ := each_addDescriptorField free (keys ▸ by decide +kernel)
    (fun _ _ => show OrdMap.empty.contains _ = false from rfl)
  refine ⟨fields, ?_, found⟩
  rw [policy.lines_canonicalText]
  exact read

/-! ## Values -/

theorem descriptorInteger_read {amount : Money} (found : fields.get? key = some (showInt amount.val)) :
    descriptorInteger fields key = .ok amount := by
  rw [descriptorInteger, descriptorGet, found]
  simp only [okOr, ok_bind, parseInt_showInt, Option.bind_some, I64.ofInt?_val]

theorem descriptorReason_read {reason : ExcludedFeeReason}
    (found : fields.get? key = some reason.token.toList) :
    descriptorReason fields key = .ok reason := by
  rw [descriptorReason, descriptorGet, found]
  cases reason <;> decide +kernel

theorem descriptorSegment_read {segment : FeeListingSegment} (supported : segment.Supported)
    (found : fields.get? "segment" = some segment.token.toList) :
    descriptorSegment fields = .ok segment := by
  rw [descriptorSegment, descriptorGet, found]
  rcases supported with rfl | rfl <;> rfl

theorem QualifiedInstrument.new_self (scope : QualifiedInstrument) :
    QualifiedInstrument.new .shanghai .aShareStock scope.segment = .ok scope := by
  obtain ⟨market, kind, segment, rfl, rfl, supported⟩ := scope
  exact dif_pos ⟨rfl, rfl, supported⟩

variable {first second : FeeRate}

theorem FeeRate.ext (numerators : first.numerator = second.numerator)
    (denominators : first.denominator = second.denominator) : first = second := by
  cases first
  cases second
  simp_all

theorem FeeRate.new_self (rate : FeeRate) :
    FeeRate.new rate.numerator rate.denominator = .ok rate := by
  rw [FeeRate.new, dif_pos ⟨rate.nonneg, rate.positive⟩]
  refine congrArg Except.ok ?_
  apply FeeRate.ext <;> apply I64.ext <;> simp [FeeRate.scaled, rate.reduced]

theorem AShareFeePolicyV2.new_self :
    AShareFeePolicyV2.new policy.scope policy.commissionRate policy.commissionMinimumMicroCny
      policy.coverage policy.sourceRevision = .ok policy := by
  rw [AShareFeePolicyV2.new, dif_pos policy.minimumNonneg, dif_pos policy.revisionToken]

/-! ## Round trips -/

theorem feeFromRecord_canonicalText : feeFromRecord (some policy.canonicalText) = .ok policy := by
  obtain ⟨fields, read, found⟩ := policy.fields_read
  have get {i : Nat} {entry : String × List Char} (listed : policy.entries[i]? = some entry) :
      fields.get? entry.1 = some entry.2 := found entry (List.mem_of_getElem? listed)
  have segment := descriptorSegment_read policy.scope.supported.2.2 (get (i := 4) rfl)
  have numerator := descriptorInteger_read (get (i := 8) rfl)
  have denominator := descriptorInteger_read (get (i := 9) rfl)
  have minimum := descriptorInteger_read (get (i := 10) rfl)
  have transfer := descriptorReason_read (get (i := 19) rfl)
  have other := descriptorReason_read (get (i := 20) rfl)
  have revision : descriptorGet fields "source_revision" = .ok policy.sourceRevision :=
    okOr_eq_ok.mpr (get (i := 21) rfl)
  have scope := feeEvidence_eq_ok.mpr policy.scope.new_self
  have rate := feeEvidence_eq_ok.mpr policy.commissionRate.new_self
  have built := feeEvidence_eq_ok.mpr policy.new_self
  simp only [feeFromRecord, okOr, ok_bind, read, segment, scope, numerator, denominator, rate,
    minimum, transfer, other, revision]
  rw [built, ok_bind, require_pos rfl]
  rfl

theorem canonicalText_of_feeFromRecord {bytes : DescriptorBytes} {policy : AShareFeePolicyV2}
    (read : feeFromRecord bytes = .ok policy) : bytes = some policy.canonicalText := by
  simp only [feeFromRecord, bind_eq_ok, okOr_eq_ok, require_eq_ok, pure_eq_ok] at read
  obtain ⟨text, rfl, _, _, _, _, _, _, _, _, _, _, _, _, _, _, _, _, _, _, _, _, built, _, _,
    canonical, rfl⟩ := read
  rw [canonical]

/-- The rate of a fraction has the value of the fraction. -/
theorem FeeRate.new_value {numerator denominator : Money} {rate : FeeRate}
    (made : FeeRate.new numerator denominator = .ok rate) :
    (rate.numerator.val : ℚ) / rate.denominator.val = numerator.val / denominator.val := by
  rw [FeeRate.new] at made
  split at made
  · rename_i valid
    cases made
    have common : (Int.gcd numerator.val denominator.val : ℚ) ≠ 0 :=
      Nat.cast_ne_zero.mpr (Int.gcd_pos_of_ne_zero_right _ valid.2.ne').ne'
    have scaled {amount : Money} (nonneg : 0 ≤ amount.val)
        (divides : (Int.gcd numerator.val denominator.val : Int) ∣ amount.val) :
        ((FeeRate.scaled amount nonneg (Int.gcd numerator.val denominator.val)).val : ℚ) =
          amount.val / Int.gcd numerator.val denominator.val := by
      rw [FeeRate.scaled, Int.cast_div divides (by exact_mod_cast common), Int.cast_natCast]
    rw [scaled valid.1 (Int.gcd_dvd_left ..), scaled valid.2.le (Int.gcd_dvd_right ..),
      div_div_div_cancel_right₀ common]
  · cases made

theorem FeeRate.eq_of_value (same : (first.numerator.val : ℚ) / first.denominator.val =
      second.numerator.val / second.denominator.val) : first = second := by
  obtain ⟨numerators, denominators⟩ := Rat.div_int_inj first.positive second.positive
    first.reduced second.reduced same
  exact FeeRate.ext (I64.ext numerators) (I64.ext denominators)

/-- The descriptor of a policy and the policy determine each other, and the ways to write one rate
have one descriptor.

Proof: the lines are read back field by field, a record is accepted only if it is the text of the
policy read, and a rate is kept in lowest terms. -/
theorem fee_descriptor_round_trip :
    (∀ policy, feeFromRecord (some policy.canonicalText) = .ok policy) ∧
    (∀ bytes policy, feeFromRecord bytes = .ok policy → bytes = some policy.canonicalText) ∧
    (∀ first second : AShareFeePolicyV2, first.canonicalText = second.canonicalText →
      first = second) ∧
    ∀ numerator denominator otherNumerator otherDenominator rate other,
      FeeRate.new numerator denominator = .ok rate →
      FeeRate.new otherNumerator otherDenominator = .ok other →
      (numerator.val : ℚ) / denominator.val = otherNumerator.val / otherDenominator.val →
      ∀ scope minimum coverage revision first second,
        AShareFeePolicyV2.new scope rate minimum coverage revision = .ok first →
        AShareFeePolicyV2.new scope other minimum coverage revision = .ok second →
        first.canonicalText = second.canonicalText := by
  refine ⟨feeFromRecord_canonicalText, fun _ _ => canonicalText_of_feeFromRecord, ?_, ?_⟩
  · intro first second same
    have read := feeFromRecord_canonicalText first
    rw [same, feeFromRecord_canonicalText second] at read
    exact (Except.ok.inj read).symm
  · intro numerator denominator otherNumerator otherDenominator rate other made otherMade same
      scope minimum coverage revision first second firstMade secondMade
    have equal := FeeRate.eq_of_value
      ((FeeRate.new_value made).trans (same.trans (FeeRate.new_value otherMade).symm))
    rw [equal, secondMade] at firstMade
    rw [Except.ok.inj firstMade]

end StockAnalysis.Book
