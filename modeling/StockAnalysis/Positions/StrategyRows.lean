import Mathlib.Data.List.ReduceOption
import StockAnalysis.Ledger.Steps
import StockAnalysis.Positions.OpeningInventory

/-!
# Strategy rows without the opening inventory

The bought lots of a sample are the queues that the lot ledger builds from the strategy rows alone. A
lot becomes sellable later than it was bought, and a later lot not before an earlier one, so a sale
takes its strategy part from the front of the queue even where it skips a seed lot.
-/

namespace StockAnalysis.Positions

open StockAnalysis.Ledger (Lot Money)

/-- What the two inventories share about a lot. -/
structure LotShares where
  lotId : String
  date : Day
  shares : Nat

def sharesMeasure : Fifo.Measure LotShares where
  size := LotShares.shares
  resize lot n := { lot with shares := n }
  size_resize _ _ := rfl
  resize_size _ := rfl
  resize_resize _ _ _ := rfl

def lotShares (lot : Lot) : LotShares :=
  ⟨lot.lotId, lot.acquiredOn, lot.quantity⟩

def OpenPaperLot.lotShares (lot : OpenPaperLot) : LotShares :=
  ⟨"effective:" ++ toString lot.buyFillId, lot.boughtAt.date, lot.remainingQuantity⟩

def LotShares.boughtBefore (date : Day) (lot : LotShares) : Bool :=
  decide (lot.date < date)

/-- The lots that a strategy holds of a code. -/
def strategyLots (code : String) (lots : List SampleLot) : List Lot :=
  (lots.filter fun entry => entry.opening = false ∧ entry.lot.code = code).map SampleLot.lot

/-! ## One sale -/

variable {shares : Nat} {tally : ExitTally} {lots : List SampleLot}

section Sale

variable {code : String} {date : Day} {next : ExitTally} {entry left : SampleLot}

theorem portion_eq_ok {amount share : Money} {part total : Nat} :
    portion amount part total = .ok share ↔
      (total ≠ 0 ∧ part ≤ total) ∧ share.val = (amount.val * part).tdiv total := by
  simp only [portion, bind_eq_ok, require_eq_ok, Ledger.Money.exact_eq_ok, exists_and_left,
    exists_const]

/-- What a seed lot adds. -/
structure OpeningTaken (tally : ExitTally) (taken : Nat) (consumedBasis allocated : Money)
    (next : ExitTally) : Prop where
  opening : next.opening = tally.opening + taken
  basis : next.openingBasis.val = tally.openingBasis.val + consumedBasis.val
  buyFee : next.openingBuyFee.val = tally.openingBuyFee.val + allocated.val

/-- What one lot gives to a sale. -/
inductive LotTakes (code : String) (date : Day) (tally : ExitTally) (entry : SampleLot) :
    ExitTally → SampleLot → Prop where
  | skipped (reason : tally.left = 0 ∨ entry.lot.code ≠ code ∨ date < entry.lot.sellableFrom) :
      LotTakes code date tally entry tally entry
  | taken (next : ExitTally) (consumedBasis allocated remaining : Money)
      (open_ : tally.left ≠ 0) (sameCode : entry.lot.code = code)
      (sellable : entry.lot.sellableFrom ≤ date) (holds : entry.lot.quantity ≠ 0)
      (left : next.left = tally.left - min tally.left entry.lot.quantity)
      (basis : next.basis.val = tally.basis.val + consumedBasis.val)
      (buyFee : next.buyFee.val = tally.buyFee.val + allocated.val)
      (seeds : entry.opening = true →
        OpeningTaken tally (min tally.left entry.lot.quantity) consumedBasis allocated next)
      (bought : entry.opening = false → next.opening = tally.opening ∧
        next.openingBasis = tally.openingBasis ∧ next.openingBuyFee = tally.openingBuyFee) :
      LotTakes code date tally entry next { entry with lot := { entry.lot with
        buyFeeRemaining := remaining
        quantity := entry.lot.quantity - min tally.left entry.lot.quantity } }

theorem takeLot_takes (took : takeLot code date tally entry = .ok (next, left)) :
    LotTakes code date tally entry next left := by
  unfold takeLot at took
  split at took
  · rename_i reason
    cases pure_eq_ok.mp took
    exact .skipped reason
  · rename_i eligible
    rw [not_or, not_or, not_not, not_lt] at eligible
    obtain ⟨isOpen, sameCode, sellable⟩ := eligible
    simp only [bind_eq_ok, pure_eq_ok, Prod.mk.injEq, portion_eq_ok, Ledger.Money.add_eq_ok] at took
    obtain ⟨allocated, ⟨⟨holds, _⟩, _⟩, consumedBasis, _, basis, isBasis, buyFee, isBuyFee, split,
      isSplit, remaining, _, rfl, rfl⟩ := took
    refine .taken _ consumedBasis allocated remaining isOpen sameCode sellable holds rfl isBasis
      isBuyFee ?_ ?_
    · intro opening
      rw [ExitTally.takeOpening, if_pos opening] at isSplit
      simp only [bind_eq_ok, require_eq_ok, Ledger.Money.add_eq_ok,
        pure_eq_ok] at isSplit
      obtain ⟨_, _, openingBasis, isOpeningBasis, openingBuyFee, isOpeningBuyFee, rfl⟩ := isSplit
      exact ⟨rfl, isOpeningBasis, isOpeningBuyFee⟩
    · intro bought
      rw [ExitTally.takeOpening, if_neg (by simp [bought])] at isSplit
      cases pure_eq_ok.mp isSplit
      exact ⟨rfl, rfl, rfl⟩

variable {final : ExitTally} {after : List SampleLot}

theorem takeLots_cons {entries : List SampleLot}
    (took : takeLots code date tally (entry :: entries) = .ok (final, after)) :
    ∃ next left rest, LotTakes code date tally entry next left ∧
      takeLots code date next entries = .ok (final, rest) ∧ after = left :: rest := by
  simp only [takeLots, bind_eq_ok, pure_eq_ok, Prod.exists, Prod.mk.injEq] at took
  obtain ⟨next, left, isNext, _, rest, others, rfl, rfl⟩ := took
  exact ⟨next, left, rest, takeLot_takes isNext, others, rfl⟩

theorem strategyLots_cons (code : String) (entry : SampleLot) (entries : List SampleLot) :
    strategyLots code (entry :: entries) = if entry.opening = false ∧ entry.lot.code = code then
      entry.lot :: strategyLots code entries else strategyLots code entries := by
  unfold strategyLots
  split
  · rename_i isOf
    rw [List.filter_cons_of_pos (by simpa using isOf), List.map_cons]
  · rename_i notOf
    rw [List.filter_cons_of_neg (by simpa using notOf)]

/-- What a sale leaves of a lot besides its shares and its buy fee. -/
structure SameLot (entry left : SampleLot) : Prop where
  lotId : left.lot.lotId = entry.lot.lotId
  code : left.lot.code = entry.lot.code
  acquiredOn : left.lot.acquiredOn = entry.lot.acquiredOn
  sellableFrom : left.lot.sellableFrom = entry.lot.sellableFrom
  opening : left.opening = entry.opening

theorem LotTakes.same (takes : LotTakes code date tally entry next left) : SameLot entry left := by
  cases takes with
  | skipped => exact ⟨rfl, rfl, rfl, rfl, rfl⟩
  | taken => exact ⟨rfl, rfl, rfl, rfl, rfl⟩

theorem LotTakes.other (takes : LotTakes code date tally entry next left)
    (different : entry.lot.code ≠ code) : left = entry := by
  cases takes with
  | skipped => rfl
  | taken _ _ _ _ _ sameCode => exact absurd sameCode different

section

variable (took : takeLots code date tally lots = .ok (final, after))

include took

theorem takeLots_same : List.Forall₂ SameLot lots after := by
  induction lots generalizing tally after with
  | nil =>
    cases pure_eq_ok.mp took
    exact .nil
  | cons entry lots ih =>
    obtain ⟨next, left, rest, takes, others, rfl⟩ := takeLots_cons took
    exact .cons takes.same (ih others)

theorem takeLots_other {other : String} (different : code ≠ other) :
    strategyLots other after = strategyLots other lots := by
  induction lots generalizing tally after with
  | nil =>
    cases pure_eq_ok.mp took
    rfl
  | cons entry lots ih =>
    obtain ⟨next, left, rest, takes, others, rfl⟩ := takeLots_cons took
    have same := takes.same
    rw [strategyLots_cons, strategyLots_cons, ih others, same.opening, same.code]
    split
    · rename_i isOf
      rw [takes.other (isOf.2 ▸ Ne.symm different)]
    · rfl

/-- A sale that is complete, or that no lot of the strategy is sellable for, takes none of them. -/
theorem takeLots_locked
    (locked : tally.left = 0 ∨ ∀ lot ∈ strategyLots code lots, date < lot.sellableFrom) :
    strategyLots code after = strategyLots code lots := by
  induction lots generalizing tally after with
  | nil =>
    cases pure_eq_ok.mp took
    rfl
  | cons entry lots ih =>
    obtain ⟨next, left, rest, takes, others, rfl⟩ := takeLots_cons took
    rw [strategyLots_cons] at locked
    rw [strategyLots_cons, strategyLots_cons, takes.same.opening, takes.same.code]
    cases takes with
    | skipped =>
      rw [ih others]
      refine locked.imp_right fun all lot member => all lot ?_
      split
      · exact List.mem_cons_of_mem _ member
      · exact member
    | taken _ _ _ _ isOpen sameCode sellable =>
      have all := locked.resolve_left isOpen
      by_cases isOf : entry.opening = false ∧ entry.lot.code = code
      · rw [if_pos isOf] at all
        exact absurd (all _ List.mem_cons_self) (not_lt.mpr sellable)
      · rw [if_neg isOf] at all
        rw [if_neg isOf, if_neg isOf, ih others (.inr all)]

end

/-- How a sale is divided between seed lots and `shares` of the strategy. -/
structure Divides (tally final : ExitTally) (shares : Nat) : Prop where
  quantity : final.left + final.opening + shares = tally.left + tally.opening
  onlyOpening : shares = 0 →
    final.basis.val - tally.basis.val = final.openingBasis.val - tally.openingBasis.val ∧
    final.buyFee.val - tally.buyFee.val = final.openingBuyFee.val - tally.openingBuyFee.val
  noOpening : final.opening = tally.opening → final.openingBasis.val = tally.openingBasis.val ∧
    final.openingBuyFee.val = tally.openingBuyFee.val
  grows : tally.opening ≤ final.opening

theorem Divides.trans {first second third : ExitTally} {more : Nat}
    (one : Divides first second shares) (two : Divides second third more) :
    Divides first third (shares + more) where
  quantity := by
    have := one.quantity
    have := two.quantity
    omega
  onlyOpening none := by
    obtain ⟨basis, buyFee⟩ := one.onlyOpening (by omega)
    obtain ⟨basis', buyFee'⟩ := two.onlyOpening (by omega)
    omega
  noOpening same := by
    have grows := one.grows
    have grows' := two.grows
    obtain ⟨basis, buyFee⟩ := one.noOpening (by omega)
    obtain ⟨basis', buyFee'⟩ := two.noOpening (by omega)
    omega
  grows := one.grows.trans two.grows

theorem Divides.refl (tally : ExitTally) : Divides tally tally 0 where
  quantity := rfl
  onlyOpening _ := by omega
  noOpening _ := ⟨rfl, rfl⟩
  grows := le_refl _

/-- A lot gives its shares to the strategy part of a sale exactly when it is not a seed lot. -/
theorem LotTakes.divides (takes : LotTakes code date tally entry next left) :
    Divides tally next (if entry.opening = true then 0 else entry.lot.quantity - left.lot.quantity) := by
  cases takes with
  | skipped =>
    rw [Nat.sub_self, ite_self]
    exact .refl tally
  | taken _ consumedBasis allocated _ isOpen _ _ holds isLeft basis buyFee seeds bought =>
    by_cases opening : entry.opening = true
    · obtain ⟨isOpening, openingBasis, openingBuyFee⟩ := seeds opening
      rw [if_pos opening]
      exact ⟨by omega, fun _ => by omega, fun same => by omega, by omega⟩
    · obtain ⟨isOpening, openingBasis, openingBuyFee⟩ := bought (by simpa using opening)
      rw [if_neg opening]
      refine ⟨?_, fun none => ?_, fun _ => by rw [openingBasis, openingBuyFee]; exact ⟨rfl, rfl⟩,
        isOpening.ge⟩
      · dsimp only
        omega
      · dsimp only at none
        omega

/-- A sale takes its strategy part from the front of the strategy's lots. -/
theorem takeLots_strategy (took : takeLots code date tally lots = .ok (final, after))
    (positive : ∀ lot ∈ strategyLots code lots, 0 < lot.quantity)
    (before : ∀ lot ∈ strategyLots code lots, lot.sellableFrom ≤ date → lot.acquiredOn < date)
    (ordered : (strategyLots code lots).Pairwise fun earlier later =>
      later.sellableFrom ≤ date → earlier.sellableFrom ≤ date) :
    ∃ shares, Divides tally final shares ∧
      shares ≤ Fifo.available sharesMeasure (LotShares.boughtBefore date)
        ((strategyLots code lots).map lotShares) ∧
      ((strategyLots code after).filter fun lot => 0 < lot.quantity).map lotShares =
        Fifo.unsold sharesMeasure shares ((strategyLots code lots).map lotShares) := by
  induction lots generalizing tally after with
  | nil =>
    cases pure_eq_ok.mp took
    exact ⟨0, .refl _, Nat.zero_le _, rfl⟩
  | cons entry lots ih =>
    obtain ⟨next, left, rest, takes, others, rfl⟩ := takeLots_cons took
    have first := takes.divides
    rw [strategyLots_cons] at positive before ordered ⊢
    by_cases isOf : entry.opening = false ∧ entry.lot.code = code
    · rw [if_pos isOf] at positive before ordered ⊢
      rw [if_neg (by simp [isOf.1])] at first
      rw [List.forall_mem_cons] at positive before
      rw [List.pairwise_cons] at ordered
      obtain ⟨shares, divides, free, isLeft⟩ := ih others positive.2 before.2 ordered.2
      -- Where no later lot gives shares, the lots behind this one stay as they are.
      have untouched (locked : next.left = 0 ∨
          ∀ lot ∈ strategyLots code lots, date < lot.sellableFrom) :
          shares = 0 ∧ ((strategyLots code rest).filter fun lot => 0 < lot.quantity) =
            strategyLots code lots := by
        have whole : (strategyLots code rest).filter (fun lot => 0 < lot.quantity) =
            strategyLots code lots := by
          rw [takeLots_locked others locked, List.filter_eq_self]
          exact fun lot member => decide_eq_true (positive.2 lot member)
        rw [whole] at isLeft
        exact ⟨Fifo.eq_zero_of_unsold (free.trans (Fifo.available_le _)) isLeft.symm, whole⟩
      have keeps : left.opening = false ∧ left.lot.code = code := by
        rw [takes.same.opening, takes.same.code]
        exact isOf
      have unsoldFirst (n : Nat) (queue : List LotShares) :
          Fifo.unsold sharesMeasure n (lotShares entry.lot :: queue) =
            if entry.lot.quantity ≤ n then
              Fifo.unsold sharesMeasure (n - entry.lot.quantity) queue
            else ⟨entry.lot.lotId, entry.lot.acquiredOn, entry.lot.quantity - n⟩ :: queue := rfl
      have size : sharesMeasure.size (lotShares entry.lot) = entry.lot.quantity := rfl
      rw [strategyLots_cons, if_pos keeps, List.map_cons, Fifo.available_cons, size]
      cases takes with
      | skipped reason =>
        have locked : tally.left = 0 ∨
            ∀ lot ∈ strategyLots code lots, date < lot.sellableFrom := by
          rcases reason with complete | other | unsellable
          · exact .inl complete
          · exact absurd isOf.2 other
          · refine .inr fun lot member => ?_
            by_contra sellable
            exact absurd (ordered.1 lot member (not_lt.mp sellable)) (not_le.mpr unsellable)
        obtain ⟨rfl, whole⟩ := untouched locked
        refine ⟨0, by simpa using divides, Nat.zero_le _, ?_⟩
        rw [List.filter_cons_of_pos (by simpa using positive.1), whole, unsoldFirst,
          if_neg (by omega)]
        rfl
      | taken _ _ _ _ isOpen _ sellable holds nextLeft =>
        have allowed : (lotShares entry.lot).boughtBefore date = true :=
          decide_eq_true (before.1 sellable)
        rw [if_pos allowed]
        refine ⟨_, first.trans divides, by dsimp only; omega, ?_⟩
        dsimp only
        by_cases whole : entry.lot.quantity ≤ tally.left
        · have empty : entry.lot.quantity - min tally.left entry.lot.quantity = 0 := by omega
          rw [List.filter_cons_of_neg (by simp [empty]), isLeft, empty, unsoldFirst,
            if_pos (by omega)]
          congr 1
          omega
        · obtain ⟨rfl, isRest⟩ := untouched (.inl (by omega))
          have some : 0 < entry.lot.quantity - min tally.left entry.lot.quantity := by omega
          rw [List.filter_cons_of_pos (by simpa using some), isRest, unsoldFirst,
            if_neg (by omega)]
          simp only [List.map_cons, lotShares]
          congr 2
          omega
    · rw [if_neg isOf] at positive before ordered ⊢
      obtain ⟨shares, divides, free, isLeft⟩ := ih others positive before ordered
      have keeps : ¬ (left.opening = false ∧ left.lot.code = code) := by
        rw [takes.same.opening, takes.same.code]
        exact isOf
      have none : (if entry.opening = true then 0 else entry.lot.quantity - left.lot.quantity) =
          0 := by
        split
        · rfl
        · rename_i bought
          have different : entry.lot.code ≠ code := fun same => isOf ⟨by simpa using bought, same⟩
          rw [takes.other different, Nat.sub_self]
      rw [none] at first
      refine ⟨shares, by simpa using first.trans divides, free, ?_⟩
      rw [strategyLots_cons, if_neg keeps]
      exact isLeft

end Sale

/-! ## The lots of the strategy in the lot ledger -/

/-- The trade of a fill in the loop of `rebuild_paper_positions`, without the checks of the fill
itself. -/
def tradeFill (lots : OrdMap String (List OpenPaperLot)) (fill : PaperFill) :
    Except FifoText (OrdMap String (List OpenPaperLot)) := do
  let left ← tradeLots fill (fill.fillPrice.getD 0) fill.shares ((lots.get? fill.code).getD [])
  pure (lots.insert fill.code left)

variable {host : Host}

section Ledger

variable {asOf : Day} {done rest : List PaperFill} {run : Rebuild}
  {lots final : OrdMap String (List OpenPaperLot)}

end Ledger

/-! ## The sample next to the lot ledger -/

/-- The next trading day is later, and does not step back. -/
structure Calendar (market : Ledger.Host) : Prop where
  later : ∀ day next, market.nextTradingDay day = .ok next → day < next
  monotone : ∀ first second next after, first ≤ second → market.nextTradingDay first = .ok next →
    market.nextTradingDay second = .ok after → next ≤ after

/-- The days a lot was bought on and is sellable from. -/
def lotDays (lot : Lot) : Day × Day :=
  (lot.acquiredOn, lot.sellableFrom)

/-- Days of lots in the order they were bought. -/
structure TradingDays (market : Ledger.Host) (days : List (Day × Day)) : Prop where
  sellable : ∀ entry ∈ days, market.nextTradingDay entry.1 = .ok entry.2
  ordered : days.Pairwise fun earlier later => earlier.1 ≤ later.1

/-- How the records of a sample divide a sale, and the row that the strategy keeps of it. -/
structure SaleDivided (market : Ledger.Host) (state : SampleState) (row : EconomicFillRow)
    (part : Option EconomicFillRow) (rowFee : Money) (split : ExitSplit) (strategy : Nat) : Prop where
  charged : ∃ price, row.fillPrice.map market.fromCny = some (.ok price) ∧
    Ledger.fee price row.quantity.toNat row.direction = .ok rowFee
  quantity : (split.tally.opening + strategy : Nat) = row.quantity
  part : part = if strategy = 0 then none else some { row with quantity := strategy }
  fee : split.openingSellFee.val + split.strategyFee.val = rowFee.val
  exclusion : 0 < split.tally.opening →
    split.exclusion row.id row.quantity.toNat ∈ state.exclusions
  unexcluded : split.tally.opening = 0 → split.openingNet.val = 0 ∧ split.openingSellFee.val = 0
  exitPnl : ∃ date, ⟨row.id, date, split.accountNet,
    if 0 < strategy then some split.strategyNet else none⟩ ∈ state.exitPnls
  net : split.openingNet.val + (if 0 < strategy then split.strategyNet.val else 0) =
    split.accountNet.val
  cost : 0 < strategy → ∃ evidenceId,
    ⟨row.id, market.cny split.strategyFee, evidenceId⟩ ∈ state.costs

/-- What the strategy keeps of a row. -/
inductive RowPart (market : Ledger.Host) (state : SampleState) (row : EconomicFillRow) :
    Option EconomicFillRow → Prop where
  | bought (buying : row.direction = "buy") : RowPart market state row (some row)
  | sold (part : Option EconomicFillRow) (rowFee : Money) (split : ExitSplit) (strategy : Nat)
      (selling : row.direction = "sell")
      (divided : SaleDivided market state row part rowFee split strategy) :
      RowPart market state row part

/-- The loop of a sample next to the lot ledger on the strategy rows. -/
structure Sampled (host : Host) (market : Ledger.Host) (done rest : List EconomicFillRow)
    (state : SampleState) : Prop where
  parts : ∃ parts, List.Forall₂ (RowPart market state) done parts ∧ state.rows = parts.reduceOption
  ledger : ∃ fills lots, paperFills host state.rows = .ok fills ∧
    each tradeFill OrdMap.empty fills = .ok lots ∧
    ∀ code, ((lots.get? code).getD []).map OpenPaperLot.lotShares =
      (strategyLots code state.lots).map lotShares
  positive : ∀ code, ∀ lot ∈ strategyLots code state.lots, 0 < lot.quantity
  days : ∀ code, TradingDays market ((strategyLots code state.lots).map lotDays)
  past : ∀ code, ∀ days ∈ (strategyLots code state.lots).map lotDays, ∀ row ∈ rest, ∀ time,
    parsePaperFillTimestamp host row.id row.occurredAt = .ok time → days.1 ≤ time.date

variable {quantity : Nat} {split : ExitSplit}

section Sampled

variable {market : Ledger.Host} {done rest : List EconomicFillRow} {state next : SampleState}
  {row : EconomicFillRow} {projectionHash : String} {part : Option EconomicFillRow}

theorem RowPart.mono (isPart : RowPart market state row part)
    (exclusions : state.exclusions ⊆ next.exclusions) (exitPnls : state.exitPnls ⊆ next.exitPnls)
    (costs : state.costs ⊆ next.costs) : RowPart market next row part := by
  cases isPart with
  | bought buying => exact .bought buying
  | sold part rowFee split strategy selling divided =>
    obtain ⟨date, isPnl⟩ := divided.exitPnl
    refine .sold part rowFee split strategy selling { divided with
      exclusion := fun opening => exclusions (divided.exclusion opening)
      exitPnl := ⟨date, exitPnls isPnl⟩
      cost := fun positive => ?_ }
    obtain ⟨evidenceId, isCost⟩ := divided.cost positive
    exact ⟨evidenceId, costs isCost⟩

theorem TradingDays.sublist {days part : List (Day × Day)} (trading : TradingDays market days)
    (within : part.Sublist days) : TradingDays market part where
  sellable entry member := trading.sellable entry (within.subset member)
  ordered := trading.ordered.sublist within

theorem strategyLots_append (code : String) (first second : List SampleLot) :
    strategyLots code (first ++ second) = strategyLots code first ++ strategyLots code second := by
  simp [strategyLots]

theorem strategyLots_filter (code : String) (lots : List SampleLot) :
    strategyLots code (lots.filter fun entry => 0 < entry.lot.quantity) =
      (strategyLots code lots).filter fun lot => 0 < lot.quantity := by
  simp only [strategyLots, List.filter_map, List.filter_filter]
  congr 1
  refine List.filter_congr fun entry _ => ?_
  exact Bool.and_comm _ _

variable {time : NaiveDateTime}

theorem paperFills_concat {rows : List EconomicFillRow} {fills : List PaperFill}
    (parsed : paperFills host rows = .ok fills)
    (isTime : parsePaperFillTimestamp host row.id row.occurredAt = .ok time) :
    paperFills host (rows ++ [row]) = .ok (fills ++ [⟨row.id, row.code, row.name, row.direction,
      row.fillPrice, row.quantity, time⟩]) := by
  induction rows generalizing fills with
  | nil =>
    cases parsed
    simp only [List.nil_append, paperFills, isTime, ok_bind, pure, Except.pure]
  | cons first rows ih =>
    simp only [paperFills, bind_eq_ok, pure_eq_ok] at parsed
    obtain ⟨occurredAt, isOccurred, others, isOthers, rfl⟩ := parsed
    simp only [List.cons_append, paperFills, isOccurred, ih isOthers, ok_bind, pure, Except.pure]

/-- What every row of a sample goes through. -/
structure RowRead (host : Host) (market : Ledger.Host) (row : EconomicFillRow) (time : NaiveDateTime)
    (price rowFee : Money) : Prop where
  parsed : parsePaperFillTimestamp host row.id row.occurredAt = .ok time
  priced : row.fillPrice.map market.fromCny = some (.ok price)
  charged : Ledger.fee price row.quantity.toNat row.direction = .ok rowFee

theorem sampleFillRow_eq_ok (stepped : sampleFillRow host market projectionHash state row = .ok next) :
    ∃ time price rowFee, RowRead host market row time price rowFee ∧
      ((row.direction = "buy" ∧ state.buy market projectionHash row row.quantity.toNat price time.date
          rowFee = .ok next) ∨
        (row.direction = "sell" ∧ state.sell market projectionHash row row.quantity.toNat price
          time.date rowFee = .ok next)) := by
  simp only [sampleFillRow, exactQuantity, ledgerTimestamp, bind_eq_ok, require_eq_ok, okOr_eq_ok,
    pure_eq_ok, mapError_eq_ok] at stepped
  obtain ⟨_, ⟨_, _, rfl⟩, fillPrice, isFillPrice, price, isPrice, time, parsed, rowFee, charged,
    stepped⟩ := stepped
  refine ⟨time, price, rowFee, ⟨parsed, by rw [isFillPrice, Option.map_some, isPrice], charged⟩, ?_⟩
  split at stepped
  · rename_i buying
    exact .inl ⟨buying, stepped⟩
  · split at stepped
    · rename_i selling
      exact .inr ⟨selling, stepped⟩
    · cases stepped

/-- A row that is kept, seen by the lot ledger. -/
theorem Sampled.trade {kept : EconomicFillRow} (inStep : Sampled host market done rest state)
    (parsed : parsePaperFillTimestamp host kept.id kept.occurredAt = .ok time)
    (traded : ∀ queue : List OpenPaperLot,
      queue.map OpenPaperLot.lotShares = (strategyLots kept.code state.lots).map lotShares →
      ∃ left, tradeLots ⟨kept.id, kept.code, kept.name, kept.direction, kept.fillPrice, kept.quantity,
          time⟩ (kept.fillPrice.getD 0) kept.quantity.toNat queue = .ok left ∧
        left.map OpenPaperLot.lotShares = (strategyLots kept.code lots).map lotShares)
    (others : ∀ code, kept.code ≠ code → strategyLots code lots = strategyLots code state.lots) :
    ∃ fills final, paperFills host (state.rows ++ [kept]) = .ok fills ∧
      each tradeFill OrdMap.empty fills = .ok final ∧
      ∀ code, ((final.get? code).getD []).map OpenPaperLot.lotShares =
        (strategyLots code lots).map lotShares := by
  obtain ⟨fills, queues, isFills, finished, agrees⟩ := inStep.ledger
  obtain ⟨left, isLeft, sameLeft⟩ := traded _ (agrees kept.code)
  refine ⟨_, queues.insert kept.code left, paperFills_concat isFills parsed,
    each_concat finished (bind_eq_ok.mpr ⟨left, isLeft, rfl⟩), fun code => ?_⟩
  rw [OrdMap.get?_insert]
  split
  · rename_i same
    rw [← same]
    exact sameLeft
  · rename_i different
    rw [others code different]
    exact agrees code

variable {price rowFee : Money}

theorem Sampled.extend (inStep : Sampled host market done (row :: rest) state)
    (isPart : RowPart market next row part) (rows : next.rows = state.rows ++ part.toList)
    (exclusions : state.exclusions ⊆ next.exclusions) (exitPnls : state.exitPnls ⊆ next.exitPnls)
    (costs : state.costs ⊆ next.costs) :
    ∃ parts, List.Forall₂ (RowPart market next) (done ++ [row]) parts ∧
      next.rows = parts.reduceOption := by
  obtain ⟨parts, each, isRows⟩ := inStep.parts
  refine ⟨parts ++ [part], List.rel_append ?_ (.cons isPart .nil), ?_⟩
  · exact each.imp fun _ _ old => old.mono exclusions exitPnls costs
  · rw [rows, isRows, List.reduceOption_append, List.reduceOption_singleton]

/-- The lot of a buy. -/
def boughtLot (row : EconomicFillRow) (price rowFee : Money) (date sellableFrom : Day) : Lot :=
  ⟨"effective:" ++ toString row.id, row.code, row.name, row.quantity.toNat, price, rowFee, date,
    sellableFrom, none⟩

theorem buy_eq_ok (bought : state.buy market projectionHash row row.quantity.toNat price time.date
      rowFee = .ok next) :
    ∃ sellableFrom, market.nextTradingDay time.date = .ok sellableFrom ∧
      next.lots = state.lots ++ [⟨boughtLot row price rowFee time.date sellableFrom, false⟩] ∧
      next.rows = state.rows ++ [row] ∧ next.exclusions = state.exclusions ∧
      next.exitPnls = state.exitPnls ∧ state.costs ⊆ next.costs := by
  simp only [SampleState.buy, bind_eq_ok, mapError_eq_ok, pure_eq_ok] at bought
  obtain ⟨sellableFrom, isSellable, rfl⟩ := bought
  exact ⟨sellableFrom, isSellable, rfl, rfl, rfl, rfl, List.subset_append_left _ _⟩

/-- A buy adds the last lot of its code. -/
theorem Sampled.buy (inStep : Sampled host market done (row :: rest) state)
    (read : RowRead host market row time price rowFee) (buying : row.direction = "buy")
    (positive : 0 < row.quantity)
    (later : ∀ other ∈ rest, ∀ at_,
      parsePaperFillTimestamp host other.id other.occurredAt = .ok at_ → time.date ≤ at_.date)
    (bought : state.buy market projectionHash row row.quantity.toNat price time.date rowFee =
      .ok next) : Sampled host market (done ++ [row]) rest next := by
  obtain ⟨sellableFrom, isSellable, isLots, isRows, exclusions, exitPnls, costs⟩ := buy_eq_ok bought
  have lots (code : String) : strategyLots code next.lots = strategyLots code state.lots ++
      if row.code = code then [boughtLot row price rowFee time.date sellableFrom] else [] := by
    rw [isLots, strategyLots_append, strategyLots_cons]
    by_cases same : row.code = code
    · rw [if_pos ⟨rfl, same⟩, if_pos same]
      rfl
    · rw [if_neg fun isOf => same isOf.2, if_neg same]
      rfl
  have before (code : String) : ∀ days ∈ (strategyLots code state.lots).map lotDays,
      days.1 ≤ time.date :=
    fun days member => inStep.past code days member row List.mem_cons_self time read.parsed
  have added (code : String) : (strategyLots code next.lots).map lotDays =
      (strategyLots code state.lots).map lotDays ++
        if row.code = code then [(time.date, sellableFrom)] else [] := by
    rw [lots, List.map_append]
    split <;> rfl
  have isNew {code : String} {days : Day × Day}
      (member : days ∈ if row.code = code then [(time.date, sellableFrom)] else []) :
      days = (time.date, sellableFrom) := by
    split at member
    · exact List.mem_singleton.mp member
    · cases member
  constructor
  · exact inStep.extend (.bought buying) isRows (exclusions ▸ List.Subset.refl _)
      (exitPnls ▸ List.Subset.refl _) costs
  · rw [isRows]
    refine inStep.trade read.parsed (fun queue same => ?_) fun code different => ?_
    · refine ⟨_, by rw [tradeLots, if_pos buying]; rfl, ?_⟩
      rw [List.map_append, same, lots, if_pos rfl, List.map_append]
      rfl
    · rw [lots, if_neg different, List.append_nil]
  · intro code lot member
    rw [lots] at member
    rcases List.mem_append.mp member with old | new
    · exact inStep.positive code lot old
    · split at new
      · rw [List.mem_singleton.mp new]
        exact Int.pos_iff_toNat_pos.mp positive
      · cases new
  · intro code
    rw [added]
    refine ⟨fun days member => ?_, List.pairwise_append.mpr ⟨(inStep.days code).ordered, ?_, ?_⟩⟩
    · rcases List.mem_append.mp member with old | new
      · exact (inStep.days code).sellable days old
      · rw [isNew new]
        exact isSellable
    · split
      · exact List.pairwise_singleton _ _
      · exact .nil
    · intro days old other new
      rw [isNew new]
      exact before code days old
  · intro code days member other isOther at_ parsed
    rw [added] at member
    rcases List.mem_append.mp member with old | new
    · exact inStep.past code days old other (List.mem_cons_of_mem row isOther) at_ parsed
    · rw [isNew new]
      exact later other isOther at_ parsed

/-! ### Sales -/

theorem netOf_eq_ok {basis buyFee sellFee net : Money} :
    netOf price quantity basis buyFee sellFee = .ok net →
      net.val = price.val * quantity - basis.val - buyFee.val - sellFee.val := by
  simp only [netOf, bind_eq_ok, Ledger.Money.mul_eq_ok, Ledger.Money.sub_eq_ok]
  rintro ⟨notional, isNotional, overBasis, isOverBasis, overBuyFee, isOverBuyFee, isNet⟩
  omega

/-- The money of a divided sale. -/
structure SplitOf (price : Money) (quantity : Nat) (rowFee : Money) (tally : ExitTally)
    (split : ExitSplit) : Prop where
  sameTally : split.tally = tally
  sellFee : (quantity ≠ 0 ∧ tally.opening ≤ quantity) ∧
    split.openingSellFee.val = (rowFee.val * tally.opening).tdiv quantity
  opening : split.openingNet.val = price.val * tally.opening - tally.openingBasis.val -
    tally.openingBuyFee.val - split.openingSellFee.val
  account : split.accountNet.val = price.val * quantity - tally.basis.val - tally.buyFee.val -
    rowFee.val
  strategy : split.strategyNet.val = split.accountNet.val - split.openingNet.val
  strategyFee : split.strategyFee.val = rowFee.val - split.openingSellFee.val

theorem splitExit_eq_ok (divided : splitExit price quantity rowFee tally = .ok split) :
    SplitOf price quantity rowFee tally split := by
  simp only [splitExit, bind_eq_ok, pure_eq_ok, portion_eq_ok, Ledger.Money.sub_eq_ok] at divided
  obtain ⟨openingSellFee, isFee, openingNet, isOpening, accountNet, isAccount, strategyNet, isStrategy,
    strategyFee, isStrategyFee, rfl⟩ := divided
  exact ⟨rfl, isFee, netOf_eq_ok isOpening, netOf_eq_ok isAccount, isStrategy, isStrategyFee⟩

/-- The opening part of a sale of seed lots only is the whole sale. -/
theorem SplitOf.nets {strategy : Nat} (isSplit : SplitOf price quantity rowFee tally split)
    (divides : Divides (.start quantity) tally strategy) (complete : tally.left = 0) :
    split.openingNet.val + (if 0 < strategy then split.strategyNet.val else 0) =
        split.accountNet.val ∧
      (tally.opening = 0 → split.openingNet.val = 0 ∧ split.openingSellFee.val = 0) := by
  have total := divides.quantity
  obtain ⟨⟨nonzero, _⟩, sellFee⟩ := isSplit.sellFee
  have zero : (ExitTally.start quantity).openingBasis.val = 0 ∧
    (ExitTally.start quantity).openingBuyFee.val = 0 ∧ (ExitTally.start quantity).basis.val = 0 ∧
    (ExitTally.start quantity).buyFee.val = 0 := ⟨rfl, rfl, rfl, rfl⟩
  simp only [ExitTally.start] at total
  constructor
  · split
    · rw [isSplit.strategy]
      omega
    · rename_i none
      obtain ⟨basis, buyFee⟩ := divides.onlyOpening (by omega)
      have all : tally.opening = quantity := by omega
      have whole : split.openingSellFee.val = rowFee.val := by
        rw [sellFee, all, Int.mul_tdiv_cancel _ (by omega)]
      rw [isSplit.opening, isSplit.account, all, whole]
      omega
  · intro noOpening
    obtain ⟨basis, buyFee⟩ := divides.noOpening noOpening
    have noFee : split.openingSellFee.val = 0 := by
      rw [sellFee, noOpening]
      simp
    refine ⟨?_, noFee⟩
    rw [isSplit.opening, noOpening, noFee]
    omega

/-- What a sale does to a sample. -/
structure Sold (market : Ledger.Host) (row : EconomicFillRow) (price rowFee : Money) (date : Day)
    (state next : SampleState) (tally : ExitTally) (left : List SampleLot) (split : ExitSplit) :
    Prop where
  took : takeLots row.code date (.start row.quantity.toNat) state.lots = .ok (tally, left)
  complete : tally.left = 0
  isSplit : SplitOf price row.quantity.toNat rowFee tally split
  lots : next.lots = left.filter fun entry => 0 < entry.lot.quantity
  exitPnls : next.exitPnls = state.exitPnls ++ [⟨row.id, date, split.accountNet,
    if 0 < row.quantity.toNat - tally.opening then some split.strategyNet else none⟩]
  exclusions : next.exclusions = if 0 < tally.opening then
    state.exclusions ++ [split.exclusion row.id row.quantity.toNat] else state.exclusions
  rows : next.rows = state.rows ++ if row.quantity.toNat - tally.opening = 0 then [] else
    [{ row with quantity := (row.quantity.toNat - tally.opening : Nat) }]
  costs : state.costs ⊆ next.costs
  cost : row.quantity.toNat - tally.opening ≠ 0 → ∃ evidenceId,
    ⟨row.id, market.cny split.strategyFee, evidenceId⟩ ∈ next.costs

theorem sell_eq_ok (sold : state.sell market projectionHash row row.quantity.toNat price time.date
      rowFee = .ok next) :
    ∃ tally left split, Sold market row price rowFee time.date state next tally left split := by
  simp only [SampleState.sell, bind_eq_ok, require_eq_ok, pure_eq_ok, Prod.exists] at sold
  obtain ⟨tally, left, took, _, complete, split, isSplit, rfl⟩ := sold
  refine ⟨tally, left, split, ?_⟩
  by_cases none : row.quantity.toNat - tally.opening = 0
  · rw [if_pos none]
    exact ⟨took, complete, splitExit_eq_ok isSplit, rfl, rfl, rfl, by simp [none],
      List.Subset.refl _, fun some => absurd none some⟩
  · rw [if_neg none]
    exact ⟨took, complete, splitExit_eq_ok isSplit, rfl, rfl, rfl, by simp [none, SampleState.keep],
      List.subset_append_left _ _, fun _ => ⟨_, List.mem_append_right _ (List.mem_singleton_self _)⟩⟩

variable {left : List SampleLot}

theorem map_lotDays_same (same : List.Forall₂ SameLot lots left) (code : String) :
    (strategyLots code left).map lotDays = (strategyLots code lots).map lotDays := by
  induction same with
  | nil => rfl
  | cons first _ ih =>
    rw [strategyLots_cons, strategyLots_cons, first.opening, first.code]
    split
    · rw [List.map_cons, List.map_cons, ih, lotDays, lotDays, first.acquiredOn, first.sellableFrom]
    · exact ih

/-- A queue of the lot ledger that holds the strategy's lots gives up the same shares. -/
theorem sellLots_shares {fill : PaperFill} {lots : List Lot} {queue : List OpenPaperLot}
    (positive : ∀ lot ∈ lots, 0 < lot.quantity)
    (same : queue.map OpenPaperLot.lotShares = lots.map lotShares)
    (free : shares ≤ Fifo.available sharesMeasure (LotShares.boughtBefore fill.occurredAt.date)
      (lots.map lotShares)) :
    ∃ left, sellLots fill shares queue = .ok left ∧
      left.map OpenPaperLot.lotShares = Fifo.unsold sharesMeasure shares (lots.map lotShares) := by
  have queuePositive : Fifo.Positive lotMeasure queue := by
    intro lot member
    have isShares := List.mem_map_of_mem (f := OpenPaperLot.lotShares) member
    rw [same] at isShares
    obtain ⟨held, isHeld, equal⟩ := List.mem_map.mp isShares
    have sameShares : held.quantity = lot.remainingQuantity := congrArg LotShares.shares equal
    exact lt_of_lt_of_eq (positive held isHeld) sameShares
  have available := @Fifo.available_map _ lotMeasure _ sharesMeasure OpenPaperLot.lotShares
    (fun _ => rfl) (OpenPaperLot.boughtBefore fill.occurredAt.date)
    (LotShares.boughtBefore fill.occurredAt.date) (fun _ => rfl) queue
  have unsold := @Fifo.unsold_map _ lotMeasure _ sharesMeasure OpenPaperLot.lotShares
    (fun _ => rfl) (fun _ _ => rfl) shares queue
  rw [same] at available unsold
  refine ⟨Fifo.unsold lotMeasure shares queue, ?_, unsold.symm⟩
  rw [sellLots, mapError_eq_ok, Fifo.consume_eq_ok queuePositive, ← available]
  exact ⟨free, rfl⟩

theorem Sold.divided (sold : Sold market row price rowFee time.date state next tally left split)
    (read : RowRead host market row time price rowFee) (positive : 0 < row.quantity)
    (divides : Divides (.start row.quantity.toNat) tally shares)
    (isShares : row.quantity.toNat - tally.opening = shares) :
    SaleDivided market next row (if shares = 0 then none else some { row with quantity := shares })
      rowFee split shares := by
  obtain ⟨nets, unexcluded⟩ := sold.isSplit.nets divides sold.complete
  have sameTally := sold.isSplit.sameTally
  have within := sold.isSplit.sellFee.1.2
  rw [← sameTally] at unexcluded
  refine ⟨⟨price, read.priced, read.charged⟩, ?_, rfl, ?_, fun opening => ?_, unexcluded,
    ⟨time.date, ?_⟩, nets, fun some => sold.cost (by omega)⟩
  · rw [sameTally]
    omega
  · rw [sold.isSplit.strategyFee]
    omega
  · rw [sameTally] at opening
    rw [sold.exclusions, if_pos opening]
    exact List.mem_append_right _ (List.mem_singleton_self _)
  · rw [sold.exitPnls, isShares]
    exact List.mem_append_right _ (List.mem_singleton_self _)

/-- A sale takes its strategy part as the lot ledger does. -/
theorem Sampled.sell (inStep : Sampled host market done (row :: rest) state)
    (calendar : Calendar market) (read : RowRead host market row time price rowFee)
    (selling : row.direction = "sell") (positive : 0 < row.quantity)
    (isSold : state.sell market projectionHash row row.quantity.toNat price time.date rowFee =
      .ok next) : Sampled host market (done ++ [row]) rest next := by
  obtain ⟨tally, left, split, sold⟩ := sell_eq_ok isSold
  have days := inStep.days row.code
  have before : ∀ lot ∈ strategyLots row.code state.lots, lot.sellableFrom ≤ time.date →
      lot.acquiredOn < time.date := by
    intro lot member sellable
    exact lt_of_lt_of_le
      (calendar.later _ _ (days.sellable _ (List.mem_map_of_mem member))) sellable
  have ordered : (strategyLots row.code state.lots).Pairwise fun earlier later =>
      later.sellableFrom ≤ time.date → earlier.sellableFrom ≤ time.date := by
    refine List.Pairwise.imp_of_mem ?_ (List.pairwise_map.mp days.ordered)
    intro earlier later isEarlier isLater notAfter sellable
    exact (calendar.monotone _ _ _ _ notAfter (days.sellable _ (List.mem_map_of_mem isEarlier))
      (days.sellable _ (List.mem_map_of_mem isLater))).trans sellable
  obtain ⟨shares, divides, free, isLeft⟩ := takeLots_strategy sold.took (inStep.positive row.code)
    before ordered
  have isShares : row.quantity.toNat - tally.opening = shares := by
    have total := divides.quantity
    have complete := sold.complete
    simp only [ExitTally.start] at total
    omega
  have newLots (code : String) : strategyLots code next.lots =
      (strategyLots code left).filter fun lot => 0 < lot.quantity := by
    rw [sold.lots, strategyLots_filter]
  have others (code : String) (different : row.code ≠ code) :
      strategyLots code next.lots = strategyLots code state.lots := by
    rw [newLots, takeLots_other sold.took different, List.filter_eq_self]
    exact fun lot member => decide_eq_true (inStep.positive code lot member)
  have keptDays (code : String) : ((strategyLots code next.lots).map lotDays).Sublist
      ((strategyLots code state.lots).map lotDays) := by
    rw [← map_lotDays_same (takeLots_same sold.took), newLots]
    exact List.filter_sublist.map _
  have rows := sold.rows
  rw [isShares] at rows
  have isOwn : (strategyLots row.code next.lots).map lotShares = Fifo.unsold sharesMeasure shares
      ((strategyLots row.code state.lots).map lotShares) := by
    rw [newLots]
    exact isLeft
  constructor
  · refine inStep.extend (.sold _ rowFee split shares selling
      (sold.divided read positive divides isShares)) ?_ ?_ ?_ sold.costs
    · rw [rows]
      split <;> rfl
    · rw [sold.exclusions]
      split
      · exact List.subset_append_left _ _
      · exact List.Subset.refl _
    · rw [sold.exitPnls]
      exact List.subset_append_left _ _
  · by_cases none : shares = 0
    · obtain ⟨fills, lots, isFills, finished, agrees⟩ := inStep.ledger
      rw [rows, if_pos none, List.append_nil]
      refine ⟨fills, lots, isFills, finished, fun code => ?_⟩
      rw [agrees]
      by_cases same : row.code = code
      · have whole : Fifo.Positive sharesMeasure
            ((strategyLots row.code state.lots).map lotShares) := by
          intro held member
          obtain ⟨lot, isLot, rfl⟩ := List.mem_map.mp member
          exact inStep.positive row.code lot isLot
        rw [← same, isOwn, none, Fifo.unsold_zero whole]
      · rw [others code same]
    · rw [rows, if_neg none]
      refine inStep.trade read.parsed (fun queue same => ?_) others
      obtain ⟨kept, isKept, sameKept⟩ := @sellLots_shares shares ⟨row.id, row.code, row.name,
        row.direction, row.fillPrice, shares, time⟩ _ queue (inStep.positive row.code) same free
      refine ⟨kept, ?_, sameKept.trans isOwn.symm⟩
      have notBuy : row.direction ≠ "buy" := by rw [selling]; decide
      rw [tradeLots, if_neg notBuy, if_pos selling, Int.toNat_natCast]
      exact isKept
  · intro code lot member
    rw [newLots] at member
    exact of_decide_eq_true (List.mem_filter.mp member).2
  · intro code
    exact (inStep.days code).sublist (keptDays code)
  · intro code entry member other isOther
    exact inStep.past code entry ((keptDays code).subset member) other
      (List.mem_cons_of_mem row isOther)

theorem Sampled.run (inStep : Sampled host market done rest state) (calendar : Calendar market)
    (ordered : RowsOrdered host rest) (positive : ∀ row ∈ rest, 0 < row.quantity)
    (finished : each (sampleFillRow host market projectionHash) state rest = .ok next) :
    Sampled host market (done ++ rest) [] next := by
  induction rest generalizing done state with
  | nil =>
    cases finished
    rw [List.append_nil]
    exact inStep
  | cons row rest ih =>
    obtain ⟨middle, stepped, finished⟩ := bind_eq_ok.mp finished
    rw [List.forall_mem_cons] at positive
    obtain ⟨behind, ordered⟩ := List.pairwise_cons.mp ordered
    obtain ⟨time, price, rowFee, read, traded⟩ := sampleFillRow_eq_ok stepped
    have later : ∀ other ∈ rest, ∀ at_,
        parsePaperFillTimestamp host other.id other.occurredAt = .ok at_ →
          time.date ≤ at_.date := fun other member at_ parsed =>
      date_le_of_fillOrder (behind other member time at_ read.parsed parsed)
    have extended : Sampled host market (done ++ [row]) rest middle := by
      rcases traded with ⟨buying, bought⟩ | ⟨selling, sold⟩
      · exact inStep.buy read buying positive.1 later bought
      · exact inStep.sell calendar read selling positive.1 sold
    have complete := ih extended ordered positive.2 finished
    rwa [List.append_assoc, List.singleton_append] at complete

theorem strategyLots_seed (code : String) (seeds : List Lot) :
    strategyLots code (seeds.map (SampleLot.mk · true)) = [] := by
  simp [strategyLots]

theorem Sampled.start (rest : List EconomicFillRow) (seeds : List Lot) :
    Sampled host market [] rest ⟨seeds.map (SampleLot.mk · true), [], [], [], []⟩ where
  parts := ⟨[], .nil, rfl⟩
  ledger := ⟨[], OrdMap.empty, rfl, rfl, fun code => by rw [strategyLots_seed]; rfl⟩
  positive code := by simp [strategyLots_seed]
  days code := by
    rw [strategyLots_seed]
    exact ⟨by simp, .nil⟩
  past code := by simp [strategyLots_seed]

end Sampled

end StockAnalysis.Positions
