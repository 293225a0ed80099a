import Mathlib.Data.List.Perm.Subperm
import StockAnalysis.Ledger.Economics

/-!
# Folding facts into a projection

`apply_fact`: what each kind of persisted fact does to the projection. Valuation marks are
admitted only as a whole, one positive sourced mark for each required code and no other.
-/

namespace StockAnalysis.Ledger

/-! ## Whole-account valuation -/

/-- The distinct codes a valuation must cover: those of the lots, and the traded one. -/
def requiredCodes (lots : List Lot) (extra : Option String) : List String :=
  (lots.map Lot.code ++ extra.toList).dedup

def admitMark (required : List String) (admitted : OrdMap String Mark) (mark : Mark) :
    Outcome (OrdMap String Mark) := do
  require (mark.code ∈ required ∧ 0 < mark.price.val ∧ blank mark.source = false ∧
    admitted.contains mark.code = false)
    (.evidenceUnavailable "invalid/duplicate/extraneous valuation mark")
  pure (admitted.insert mark.code mark)

def admitMarks (lots : List Lot) (marks : List Mark) (extra : Option String) :
    Outcome (OrdMap String Mark) := do
  let admitted ← each (admitMark (requiredCodes lots extra)) OrdMap.empty marks
  require ((requiredCodes lots extra).length = admitted.size)
    (.evidenceUnavailable "incomplete whole-account valuation")
  pure admitted

/-- Marks collected by code, the last of a code winning. -/
def collectMarks (marks : List Mark) : OrdMap String Mark :=
  marks.foldl (fun collected mark => collected.insert mark.code mark) OrdMap.empty

/-- The marks of codes that some lot still holds. -/
def heldMarks (marks : OrdMap String Mark) (lots : List Lot) : OrdMap String Mark :=
  marks.retain fun code => lots.any fun lot => decide (lot.code = code)

/-- A map whose entries are filed under their own codes, all of them wanted. -/
structure FiledMarks (wanted : List String) (marks : OrdMap String Mark) : Prop where
  filed : ∀ code mark, marks.get? code = some mark → mark.code = code ∧ 0 < mark.price.val
  within : ∀ code mark, marks.get? code = some mark → code ∈ wanted

theorem FiledMarks.empty (wanted : List String) : FiledMarks wanted OrdMap.empty :=
  ⟨by simp, by simp⟩

variable {marks : OrdMap String Mark} {code : String} {lots : List Lot} {seed : SeedManifest}
  {next : Day} {i : Nat} {state : Projection} {wanted : List String} {admitted : OrdMap String Mark}
  {extra : Option String} {made : List Lot} {host : Host} {order : OrderFact}

theorem FiledMarks.insert {mark : Mark} (filed : FiledMarks wanted marks)
    (inside : mark.code ∈ wanted) (price : 0 < mark.price.val) :
    FiledMarks wanted (marks.insert mark.code mark) := by
  refine ⟨fun code found stored => ?_, fun code found stored => ?_⟩ <;>
    rw [OrdMap.get?_insert] at stored <;> split at stored
  · rename_i same
    obtain rfl := Option.some.inj stored
    exact ⟨same, price⟩
  · exact filed.filed code found stored
  · rename_i same
    exact same ▸ inside
  · exact filed.within code found stored

theorem each_admitMark {required : List String} {marks : List Mark} {start : OrdMap String Mark}
    (filed : FiledMarks required start)
    (done : each (admitMark required) start marks = .ok admitted) :
    FiledMarks required admitted ∧
      admitted = marks.foldl (fun collected mark => collected.insert mark.code mark) start := by
  induction marks generalizing start with
  | nil =>
    simp only [each, Except.ok.injEq] at done
    exact ⟨done ▸ filed, done.symm⟩
  | cons mark marks ih =>
    simp only [each, admitMark, bind_eq_ok, require_eq_ok, pure_eq_ok] at done
    obtain ⟨next, ⟨_, ⟨inside, price, _, _⟩, rfl⟩, rest⟩ := done
    exact ih (filed.insert inside price) rest

/-- Marks filed within a list and as many as it are marks of all of it. -/
theorem FiledMarks.complete (filed : FiledMarks wanted marks) (counted : wanted.length = marks.size)
    (member : code ∈ wanted) :
    ∃ mark, marks.get? code = some mark := by
  have keysWithin : marks.keys ⊆ wanted := fun key inKeys => by
    obtain ⟨mark, stored⟩ := OrdMap.mem_keys_iff.mp inKeys
    exact filed.within key mark stored
  have sameLength : wanted.length ≤ marks.keys.length := by
    rw [counted]
    simp [OrdMap.keys, OrdMap.size]
  have perm : marks.keys.Perm wanted :=
    (List.subperm_of_subset marks.nodup_keys keysWithin).perm_of_length_le sameLength
  exact OrdMap.mem_keys_iff.mp (perm.mem_iff.mpr member)

/-- What a whole-account valuation consists of. -/
structure Admitted (lots : List Lot) (marks : List Mark) (extra : Option String)
    (admitted : OrdMap String Mark) : Prop where
  collected : admitted = collectMarks marks
  filed : ∀ code mark, admitted.get? code = some mark → mark.code = code ∧ 0 < mark.price.val
  within : ∀ code mark, admitted.get? code = some mark →
    code ∈ lots.map Lot.code ∨ extra = some code
  covers : ∀ code, code ∈ lots.map Lot.code ∨ extra = some code →
    ∃ mark, admitted.get? code = some mark

theorem mem_requiredCodes :
    code ∈ requiredCodes lots extra ↔ code ∈ lots.map Lot.code ∨ extra = some code := by
  cases extra <;> simp [requiredCodes, eq_comm]

theorem admitMarks_admitted {marks : List Mark} (done : admitMarks lots marks extra = .ok admitted)
    :
    Admitted lots marks extra admitted := by
  simp only [admitMarks, bind_eq_ok, require_eq_ok, pure_eq_ok] at done
  obtain ⟨found, admits, _, counted, rfl⟩ := done
  obtain ⟨filed, collected⟩ := each_admitMark (FiledMarks.empty _) admits
  refine ⟨collected, filed.filed, fun code mark stored => ?_, fun code wanted => ?_⟩
  · exact mem_requiredCodes.mp (filed.within code mark stored)
  · exact filed.complete counted (mem_requiredCodes.mpr wanted)

/-! ## The seed projection -/

/-- The identity of a seed lot. -/
def seedLotId (i : Nat) : String :=
  "seed:" ++ toString i

/-- What a seed lot is: a positive quantity at its mark, with no buy fee. -/
structure SeedLotAt (marks : OrdMap String Mark) (i : Nat) (lot : Lot) : Prop where
  lotId : lot.lotId = seedLotId i
  quantity : 0 < lot.quantity
  boardLots : lot.quantity % 100 = 0
  marked : ∃ mark, marks.get? lot.code = some mark ∧ lot.basisPrice = mark.price
  fee : lot.buyFeeRemaining = 0

theorem seedLot_at {lot : SeedLot} {made : Lot}
    (admitted : seedLot seed next marks i lot = .ok made) :
    SeedLotAt marks i made := by
  simp only [seedLot, bind_eq_ok, require_eq_ok, okOr_eq_ok, pure_eq_ok] at admitted
  obtain ⟨_, ⟨quantity, boardLots, _⟩, mark, marked, sellableFrom, _, rfl⟩ := admitted
  exact ⟨rfl, Nat.pos_of_ne_zero quantity, boardLots, ⟨mark, marked, rfl⟩, rfl⟩

theorem seedLots_at {lots : List SeedLot} (admitted : seedLots seed next marks i lots = .ok made)
    {lot : Lot} (member : lot ∈ made) :
    ∃ j, i ≤ j ∧ SeedLotAt marks j lot := by
  induction lots generalizing i made with
  | nil =>
    simp only [seedLots, Except.ok.injEq] at admitted
    simp [← admitted] at member
  | cons first rest ih =>
    simp only [seedLots, bind_eq_ok, pure_eq_ok] at admitted
    obtain ⟨head, headMade, tail, tailMade, rfl⟩ := admitted
    rcases List.mem_cons.mp member with rfl | inTail
    · exact ⟨i, le_refl i, seedLot_at headMade⟩
    · obtain ⟨j, above, made⟩ := ih tailMade inTail
      exact ⟨j, by omega, made⟩

theorem seedLotId_inj {j : Nat} (same : seedLotId i = seedLotId j) : i = j := by
  have texts : toString i = toString j := (String.append_right_inj _).mp same
  rw [Nat.toString_eq_ofList_toDigits, Nat.toString_eq_ofList_toDigits, String.ofList_inj] at texts
  rw [← Nat.ofDigitChars_toDigits (b := 10) (n := i) (by decide) (by decide), texts,
    Nat.ofDigitChars_toDigits (by decide) (by decide)]

theorem seedLots_nodup {lots : List SeedLot} (admitted : seedLots seed next marks i lots = .ok made)
    : (made.map Lot.lotId).Nodup := by
  induction lots generalizing i made with
  | nil =>
    simp only [seedLots, Except.ok.injEq] at admitted
    simp [← admitted]
  | cons first rest ih =>
    simp only [seedLots, bind_eq_ok, pure_eq_ok] at admitted
    obtain ⟨head, headMade, tail, tailMade, rfl⟩ := admitted
    refine List.nodup_cons.mpr ⟨fun inTail => ?_, ih tailMade⟩
    obtain ⟨lot, member, same⟩ := List.mem_map.mp inTail
    obtain ⟨j, above, made⟩ := seedLots_at tailMade member
    rw [made.lotId, (seedLot_at headMade).lotId] at same
    have := seedLotId_inj same
    omega

/-- The genesis projection of a manifest: its cash, lots at their marks, and nothing else. -/
structure Seeded (seed : SeedManifest) (state : Projection) : Prop where
  cash : state.cash = seed.cash
  fees : state.fees = 0
  realizedPnl : state.realizedPnl = 0
  asOf : state.asOf = seed.cutoverAt
  closes : state.closes = OrdMap.empty
  available : state.economicUnavailable = none
  solvent : 0 ≤ state.cash.val
  valued : state.equity = .ok state.seedEquity
  lots : ∀ lot ∈ state.lots, ∃ i, SeedLotAt state.marks i lot
  distinct : (state.lots.map Lot.lotId).Nodup
  held : ∀ code, (∃ mark, state.marks.get? code = some mark) → code ∈ state.lots.map Lot.code

/-- The codes under which a map is filed are within a list that has as many codes. -/
theorem keys_within {codes : List String} (distinct : codes.Nodup)
    (covered : ∀ code ∈ codes, ∃ mark, marks.get? code = some mark)
    (counted : marks.size = codes.length) (stored : ∃ mark, marks.get? code = some mark) :
    code ∈ codes := by
  have within : codes ⊆ marks.keys := fun key member =>
    OrdMap.mem_keys_iff.mpr (covered key member)
  have sameLength : marks.keys.length ≤ codes.length := by
    rw [← counted]
    simp [OrdMap.keys, OrdMap.size]
  have perm : codes.Perm marks.keys :=
    (List.subperm_of_subset distinct within).perm_of_length_le sameLength
  exact perm.mem_iff.mpr (OrdMap.mem_keys_iff.mpr stored)

theorem seedProjection_seeded (projected : seedProjection host seed = .ok state) :
    Seeded seed state := by
  simp only [seedProjection, bind_eq_ok, require_eq_ok, pure_eq_ok] at projected
  obtain ⟨_, wellFormed, next, _, marks, _, lots, made, _, counted, equity, valued, _, _, _, _,
    _, _, rfl⟩ := projected
  have solvent : 0 ≤ seed.cash.val := by
    simp only [seedWellFormed, Bool.and_eq_true, decide_eq_true_eq] at wellFormed
    exact wellFormed.1.1.1.2
  have lotsAt : ∀ lot ∈ lots, ∃ i, SeedLotAt marks i lot := fun lot member =>
    (seedLots_at made member).imp fun _ found => found.2
  refine ⟨rfl, rfl, rfl, rfl, rfl, rfl, solvent, valued, lotsAt, seedLots_nodup made, ?_⟩
  intro code stored
  refine List.mem_dedup.mp (keys_within (List.nodup_dedup _) ?_ counted stored)
  intro held member
  obtain ⟨lot, inLots, rfl⟩ := List.mem_map.mp (List.mem_dedup.mp member)
  obtain ⟨_, at_⟩ := lotsAt lot inLots
  exact at_.marked.imp fun _ found => found.1

/-- Seed lots carry exactly their market value. -/
theorem carryingValue_seed (seeded : ∀ lot ∈ lots, ∃ i, SeedLotAt marks i lot) :
    carryingValue lots = marketValue marks lots := by
  induction lots with
  | nil => rfl
  | cons lot lots ih =>
    obtain ⟨_, at_⟩ := seeded lot List.mem_cons_self
    obtain ⟨mark, marked, basis⟩ := at_.marked
    rw [carryingValue_cons, marketValue_cons,
      ih fun other member => seeded other (List.mem_cons_of_mem lot member)]
    simp [Lot.carrying, markPrice, marked, basis, at_.fee]

theorem Seeded.sound (seeded : Seeded seed state) :
    Sound state := by
  refine ⟨?_, fun lot member => ?_⟩
  · have valued := equity_val seeded.valued
    unfold Balanced
    rw [carryingValue_seed seeded.lots, seeded.realizedPnl, valued]
    simp
  · obtain ⟨_, at_⟩ := seeded.lots lot member
    exact at_.quantity

/-! ## The fold -/

/-- Record the closing equity of a closing batch. -/
def closeDay (batch : ValuationBatch) (state : Projection) : Outcome Projection :=
  if batch.closing then do
    require (state.closes.contains (day batch.asOf) = false) .identityConflict
    let equity ← state.equity
    pure { state with closes := state.closes.insert (day batch.asOf) equity }
  else pure state

def applyMarked (host : Host) (state : Projection) (batch : ValuationBatch) :
    Outcome Projection := do
  require (host.inventoryHash state.lots = batch.inventoryFingerprint)
    (.integrityFailure "mark inventory mismatch")
  let marks ← admitMarks state.lots batch.marks none
  closeDay batch { state with marks := marks, asOf := batch.asOf }

/-- Apply the lot changes of an order in their order. -/
def applyLotChanges (lots : List Lot) (changes : List LotChange) : Outcome (List Lot) :=
  KeyedPatch.patch Lot.lotId (.integrityFailure "FIFO before-lot mismatch")
    (.integrityFailure "duplicate lot identity") lots changes

def applyFilledOrder (state : Projection) (order : OrderFact) : Outcome Projection := do
  let cash ← state.cash.add order.cashDelta
  let withCommission ← state.fees.add order.commission
  let fees ← withCommission.add order.stamp
  let realizedPnl ← state.realizedPnl.add order.realizedDelta
  let lots ← applyLotChanges state.lots order.lotChanges
  let next : Projection := { state with
    cash := cash
    fees := fees
    realizedPnl := realizedPnl
    lots := lots
    marks := heldMarks order.marks lots
    asOf := order.occurredAt }
  require (0 ≤ cash.val) (.integrityFailure "negative paper cash")
  let _ ← next.equity
  pure next

def applyOrder (state : Projection) (order : OrderFact) : Outcome Projection :=
  if order.status = .filled then applyFilledOrder state order
  else do
    require (order.cashDelta = 0 ∧ order.commission = 0 ∧ order.stamp = 0 ∧
      order.realizedDelta = 0 ∧ order.lotChanges = [])
      (.integrityFailure "nonfill has financial effects")
    pure state

def snapshotAlgorithm : String := "PaperSnapshotNetFifoV1"

def validateSnapshot (host : Host) (revision : SnapshotRevision) : Outcome Unit :=
  require (revision.algorithm = snapshotAlgorithm ∧
    revision.targetDate = revision.requestAsOf ∧
    revision.metricsDate = host.dateText revision.targetDate ∧
    host.snapshotHash revision = revision.resultHash)
    (.integrityFailure "unknown/invalid derived snapshot payload")

def applyFact (host : Host) (state : Projection) : Fact → Outcome Projection
  | .derivedSnapshotV1 revision => do
      validateSnapshot host revision
      pure state
  | .adjudicatedV1 ruling => pure ruling.projection
  | .seeded _ _ _ => .error (.integrityFailure "second genesis")
  | .marked batch => applyMarked host state batch
  | .order order => applyOrder state order

/-- Everything a filled order does. -/
structure OrderApplied (state : Projection) (order : OrderFact) (next : Projection) : Prop where
  cash : next.cash.val = state.cash.val + order.cashDelta.val
  fees : next.fees.val = state.fees.val + order.commission.val + order.stamp.val
  realizedPnl : next.realizedPnl.val = state.realizedPnl.val + order.realizedDelta.val
  lots : applyLotChanges state.lots order.lotChanges = .ok next.lots
  solvent : 0 ≤ next.cash.val
  valued : ∃ equity, next.equity = .ok equity
  rest : next = { state with
    cash := next.cash
    fees := next.fees
    realizedPnl := next.realizedPnl
    lots := next.lots
    marks := heldMarks order.marks next.lots
    asOf := order.occurredAt }

variable {next : Projection}

theorem applyOrder_filled (filled : order.status = .filled)
    (applied : applyOrder state order = .ok next) :
    OrderApplied state order next := by
  simp only [applyOrder, filled, if_true, applyFilledOrder, bind_eq_ok, Money.add_eq_ok,
    require_eq_ok, pure_eq_ok] at applied
  obtain ⟨cash, cashEq, withCommission, commissionEq, fees, feesEq, realizedPnl, realizedEq, lots,
    patched, _, solvent, equity, valued, rfl⟩ := applied
  exact ⟨cashEq, by rw [feesEq, commissionEq], realizedEq, patched, solvent, ⟨equity, valued⟩, rfl⟩

/-- An order that did not fill changes nothing. -/
theorem applyOrder_unfilled (unfilled : order.status ≠ .filled)
    (applied : applyOrder state order = .ok next) :
    next = state := by
  simp only [applyOrder, unfilled, if_false, bind_eq_ok, require_eq_ok, pure_eq_ok] at applied
  obtain ⟨_, _, same⟩ := applied
  exact same.symm

/-- Everything a valuation batch does. -/
structure MarkApplied (host : Host) (state : Projection) (batch : ValuationBatch)
    (next : Projection) : Prop where
  inventory : host.inventoryHash state.lots = batch.inventoryFingerprint
  admitted : Admitted state.lots batch.marks none next.marks
  closes : next.closes = state.closes ∧ batch.closing = false ∨
    batch.closing = true ∧ state.closes.contains (day batch.asOf) = false ∧
      ∃ equity, next.equity = .ok equity ∧
        next.closes = state.closes.insert (day batch.asOf) equity
  rest : next = { state with marks := next.marks, asOf := batch.asOf, closes := next.closes }

theorem applyMarked_applied {batch : ValuationBatch}
    (applied : applyMarked host state batch = .ok next) : MarkApplied host state batch next := by
  simp only [applyMarked, bind_eq_ok, require_eq_ok] at applied
  obtain ⟨_, inventory, marks, admits, closed⟩ := applied
  unfold closeDay at closed
  split at closed
  · rename_i closing
    simp only [bind_eq_ok, require_eq_ok, pure_eq_ok] at closed
    obtain ⟨_, absent, equity, valued, rfl⟩ := closed
    exact ⟨inventory, admitMarks_admitted admits, Or.inr ⟨closing, absent, equity, valued, rfl⟩,
      rfl⟩
  · rename_i open_
    obtain rfl := pure_eq_ok.mp closed
    exact ⟨inventory, admitMarks_admitted admits, Or.inl ⟨rfl, by simpa using open_⟩, rfl⟩

end StockAnalysis.Ledger
