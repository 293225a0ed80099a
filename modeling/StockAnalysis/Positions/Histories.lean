import Mathlib.Algebra.Order.BigOperators.Group.List
import StockAnalysis.Positions.PaperLots

/-!
# Histories of fills

The lots that a history leaves have a closed form: the buys of a code in order, without the shares
that were sold. The loop over the fills refines it, and takes a sale exactly when up to and with it
no more was sold of its code than was bought on earlier dates.
-/

namespace StockAnalysis.Positions

variable (code : String) (fills : List PaperFill)

/-- The shares of a fill. -/
def PaperFill.shares (fill : PaperFill) : Nat :=
  fill.quantity.toNat

def PaperFill.isOf (code direction : String) (fill : PaperFill) : Bool :=
  decide (fill.code = code ∧ fill.direction = direction)

/-- The shares that the fills of a code in a direction move. -/
def moved (code direction : String) (fills : List PaperFill) : Nat :=
  ((fills.filter (PaperFill.isOf code direction)).map PaperFill.shares).sum

def bought : Nat :=
  moved code "buy" fills

def sold : Nat :=
  moved code "sell" fills

/-- The shares of a code bought on strictly earlier dates. -/
def boughtBefore (date : Day) (fills : List PaperFill) : Nat :=
  bought code (fills.filter fun fill => decide (fill.occurredAt.date < date))

def boughtOn (date : Day) (fills : List PaperFill) : Nat :=
  bought code (fills.filter fun fill => decide (fill.occurredAt.date = date))

/-- The lot of a buy before any sale. -/
def PaperFill.lot (fill : PaperFill) : OpenPaperLot :=
  ⟨fill.id, fill.occurredAt, fill.shares, fill.shares, fill.fillPrice.getD 0⟩

def buyLots : List OpenPaperLot :=
  (fills.filter (PaperFill.isOf code "buy")).map PaperFill.lot

/-- The buys of a code in order, without the first shares that were sold. -/
def unsoldLots : List OpenPaperLot :=
  Fifo.unsold lotMeasure (sold code fills) (buyLots code fills)

/-- Fills that pass every check of their own and stand in order. -/
structure WellFormed (host : Host) (asOf : Day) (fills : List PaperFill) : Prop where
  identities : ∀ fill ∈ fills, 0 < fill.id ∧ blank fill.code = false ∧ blank fill.name = false
  distinct : (fills.map PaperFill.id).Nodup
  ordered : fills.Pairwise fun earlier later =>
    fillOrder earlier.occurredAt earlier.id < fillOrder later.occurredAt later.id
  dated : ∀ fill ∈ fills, fill.occurredAt.date ≤ asOf
  priced : ∀ fill ∈ fills, ∃ price, fill.fillPrice = some price ∧ host.validPrice price = true
  quantities : ∀ fill ∈ fills,
    0 < fill.quantity ∧ fill.quantity < u32Limit ∧ fill.quantity % 100 = 0
  directions : ∀ fill ∈ fills, fill.direction = "buy" ∨ fill.direction = "sell"

/-- Up to and with each sale, no more of its code was sold than was bought on earlier dates. -/
def TPlusOneFeasible : Prop :=
  ∀ done sale rest, fills = done ++ sale :: rest → sale.direction = "sell" →
    sold sale.code (done ++ [sale]) ≤ boughtBefore sale.code sale.occurredAt.date fills

variable {host : Host} {asOf : Day} {fills done rest : List PaperFill} {fill : PaperFill}

section Histories

@[simp]
theorem moved_append (code direction : String) (first second : List PaperFill) :
    moved code direction (first ++ second) =
      moved code direction first + moved code direction second := by
  simp [moved]

theorem moved_singleton (code direction : String) (fill : PaperFill) :
    moved code direction [fill] = if fill.isOf code direction then fill.shares else 0 := by
  unfold moved
  split
  · rename_i isOf
    rw [List.filter_cons_of_pos isOf]
    simp
  · rename_i notOf
    rw [List.filter_cons_of_neg notOf]
    simp

theorem moved_filter_le (code direction : String) (keep : PaperFill → Bool)
    (fills : List PaperFill) : moved code direction (fills.filter keep) ≤
      moved code direction fills := by
  have kept : (fills.filter keep).Sublist fills := List.filter_sublist
  exact ((kept.filter _).map _).sum_le_sum fun _ _ => Nat.zero_le _

theorem buyLots_append (first second : List PaperFill) :
    buyLots code (first ++ second) = buyLots code first ++ buyLots code second := by
  simp [buyLots]

theorem total_buyLots (fills : List PaperFill) :
    Fifo.total lotMeasure (buyLots code fills) = bought code fills := by
  simp only [Fifo.total, buyLots, bought, moved, List.map_map]
  rfl

/-- Selecting buys by date before or after they became lots. -/
theorem filter_buyLots (keep : NaiveDateTime → Bool) (fills : List PaperFill) :
    (buyLots code fills).filter (fun lot => keep lot.boughtAt) =
      buyLots code (fills.filter fun fill => keep fill.occurredAt) := by
  simp only [buyLots, List.filter_map, List.filter_filter]
  congr 1
  refine List.filter_congr fun fill _ => ?_
  exact Bool.and_comm _ _

namespace WellFormed

section

variable (wellFormed : WellFormed host asOf fills)

include wellFormed

theorem sublist {part : List PaperFill} (within : part.Sublist fills) :
    WellFormed host asOf part where
  identities fill member := wellFormed.identities fill (within.subset member)
  distinct := wellFormed.distinct.sublist (within.map _)
  ordered := wellFormed.ordered.sublist within
  dated fill member := wellFormed.dated fill (within.subset member)
  priced fill member := wellFormed.priced fill (within.subset member)
  quantities fill member := wellFormed.quantities fill (within.subset member)
  directions fill member := wellFormed.directions fill (within.subset member)

theorem dates :
    fills.Pairwise fun earlier later => earlier.occurredAt.date ≤ later.occurredAt.date :=
  wellFormed.ordered.imp fun before => date_le_of_fillOrder before

theorem positive (code : String) : Fifo.Positive lotMeasure (buyLots code fills) := by
  intro lot member
  obtain ⟨fill, isBuy, rfl⟩ := List.mem_map.mp member
  have quantity := (wellFormed.quantities fill (List.mem_filter.mp isBuy).1).1
  exact Int.pos_iff_toNat_pos.mp quantity

theorem lotDates (code : String) :
    (buyLots code fills).Pairwise fun earlier later =>
      earlier.boughtAt.date ≤ later.boughtAt.date :=
  List.pairwise_map.mpr (wellFormed.dates.filter _)

/-- What may be sold of the buys on a date was bought before it. -/
theorem available_buyLots (code : String) (date : Day) :
    Fifo.available lotMeasure (OpenPaperLot.boughtBefore date) (buyLots code fills) =
      boughtBefore code date fills := by
  have ordered : (buyLots code fills).Pairwise fun earlier later =>
      OpenPaperLot.boughtBefore date later = true →
        OpenPaperLot.boughtBefore date earlier = true := by
    refine (wellFormed.lotDates code).imp fun notAfter isBefore => ?_
    simp only [OpenPaperLot.boughtBefore, decide_eq_true_eq] at isBefore ⊢
    exact lt_of_le_of_lt notAfter isBefore
  rw [Fifo.available_eq_filter ordered]
  have selected := filter_buyLots code (fun time => decide (time.date < date)) fills
  exact (congrArg (Fifo.total lotMeasure) selected).trans (total_buyLots code _)

end

end WellFormed

/-- The buys before a fill are all that its date can sell from. -/
theorem boughtBefore_append (wellFormed : WellFormed host asOf (done ++ fill :: rest))
    (code : String) :
    boughtBefore code fill.occurredAt.date (done ++ fill :: rest) =
      boughtBefore code fill.occurredAt.date done := by
  have later : (fill :: rest).filter
      (fun other => decide (other.occurredAt.date < fill.occurredAt.date)) = [] := by
    rw [List.filter_eq_nil_iff]
    intro other member
    have dates := (List.pairwise_append.mp wellFormed.dates).2.1
    rcases List.mem_cons.mp member with rfl | inRest
    · simp
    · have notBefore := (List.pairwise_cons.mp dates).1 other inRest
      simpa using notBefore
  unfold boughtBefore
  rw [List.filter_append, later, List.append_nil]

theorem sold_concat (fill : PaperFill) (code : String) :
    sold code (done ++ [fill]) =
      sold code done + if fill.isOf code "sell" then fill.shares else 0 := by
  rw [sold, moved_append, moved_singleton]
  rfl

theorem unsoldLots_other {code : String} (other : fill.code ≠ code) :
    unsoldLots code (done ++ [fill]) = unsoldLots code done := by
  have notOf (direction : String) : fill.isOf code direction = false := by
    simp [PaperFill.isOf, other]
  have none : buyLots code [fill] = [] := by simp [buyLots, notOf]
  rw [unsoldLots, unsoldLots, sold_concat, notOf, buyLots_append, none, List.append_nil]
  rfl

theorem boughtBefore_mono {date later : Day} (notAfter : date ≤ later) (more : List PaperFill) :
    boughtBefore code date done ≤ boughtBefore code later (done ++ more) := by
  have kept : (done.filter fun fill => decide (fill.occurredAt.date < date)).Sublist
      ((done ++ more).filter fun fill => decide (fill.occurredAt.date < later)) := by
    rw [List.filter_append]
    refine (List.monotone_filter_right done fun fill isBefore => ?_).trans
      (List.sublist_append_left _ _)
    simp only [decide_eq_true_eq] at isBefore ⊢
    exact lt_of_lt_of_le isBefore notAfter
  exact ((kept.filter _).map _).sum_le_sum fun _ _ => Nat.zero_le _

end Histories

/-! ## The fold refines the closed form -/

/-- The lots of a code in the state of the loop. -/
def Rebuild.lotsOf (run : Rebuild) (code : String) : List OpenPaperLot :=
  ((run.states.get? code).map PositionState.lots).getD []

/-- The state of the loop after some fills. -/
structure Rebuilt (done : List PaperFill) (run : Rebuild) : Prop where
  seen : ∀ id, id ∈ run.seenIds ↔ id ∈ done.map PaperFill.id
  previous : ∀ order ∈ run.previousOrder, ∃ fill ∈ done,
    order = fillOrder fill.occurredAt fill.id
  lots : ∀ code, run.lotsOf code = unsoldLots code done
  codes : ∀ code, (run.states.get? code).isSome = true ↔ code ∈ done.map PaperFill.code
  covered : ∀ code date, (∀ fill ∈ done, fill.occurredAt.date ≤ date) →
    sold code done ≤ boughtBefore code date done

theorem Rebuilt.start : Rebuilt [] Rebuild.start where
  seen := by simp [Rebuild.start]
  previous := by simp [Rebuild.start]
  lots code := rfl
  codes := by simp [Rebuild.start]
  covered code date _ := Nat.zero_le _

section Fold

variable {run next : Rebuild}

/-- The state of the loop with the lots that a fill led to. -/
def Rebuild.record (run : Rebuild) (fill : PaperFill) (lots : List OpenPaperLot) : Rebuild where
  states := run.states.insert fill.code ⟨fill.name, lots,
    ((run.states.get? fill.code).getD ⟨fill.name, [], []⟩).sourceFillIds ++ [fill.id]⟩
  seenIds := fill.id :: run.seenIds
  previousOrder := some (fillOrder fill.occurredAt fill.id)

theorem Rebuild.lotsOf_record (run : Rebuild) (fill : PaperFill) (lots : List OpenPaperLot)
    (code : String) :
    (run.record fill lots).lotsOf code = if fill.code = code then lots else run.lotsOf code := by
  unfold lotsOf record
  rw [OrdMap.get?_insert]
  split <;> rfl

/-- A well-formed fill fails only at its trade. -/
theorem rebuildFill_eq_ok (wellFormed : WellFormed host asOf (done ++ fill :: rest))
    (rebuilt : Rebuilt done run) :
    rebuildFill host asOf run fill = .ok next ↔
      ∃ lots, tradeLots fill (fill.fillPrice.getD 0) fill.shares (run.lotsOf fill.code) = .ok lots ∧
        next = run.record fill lots := by
  have member : fill ∈ done ++ fill :: rest := by simp
  obtain ⟨price, isPrice, valid⟩ := wellFormed.priced fill member
  have quantity := wellFormed.quantities fill member
  have distinct := wellFormed.distinct
  rw [List.map_append, List.map_cons, List.nodup_append] at distinct
  have unseen : fill.id ∉ run.seenIds := by
    rw [rebuilt.seen]
    exact fun isOld => distinct.2.2 _ isOld _ List.mem_cons_self rfl
  have forward : ∀ order ∈ run.previousOrder, order < fillOrder fill.occurredAt fill.id := by
    intro order isPrevious
    obtain ⟨old, isOld, rfl⟩ := rebuilt.previous order isPrevious
    exact (List.pairwise_append.mp wellFormed.ordered).2.2 old isOld fill List.mem_cons_self
  have isQuantity : boardQuantity u32Limit fill.quantity = some fill.shares :=
    boardQuantity_eq_some.mpr ⟨quantity, rfl⟩
  have lots : ((run.states.get? fill.code).getD ⟨fill.name, [], []⟩).lots = run.lotsOf fill.code := by
    unfold Rebuild.lotsOf
    cases run.states.get? fill.code <;> rfl
  simp only [rebuildFill, bind_eq_ok, require_eq_ok, okOr_eq_ok, pure_eq_ok, isPrice,
    Option.filter_some, valid, if_true, isQuantity, lots, Option.getD_some, Option.some.injEq]
  constructor
  · rintro ⟨_, _, _, _, _, _, _, _, _, rfl, _, rfl, left, traded, rfl⟩
    exact ⟨left, traded, rfl⟩
  · rintro ⟨left, traded, rfl⟩
    exact ⟨⟨⟩, wellFormed.identities fill member, ⟨⟩, unseen, ⟨⟩, forward, ⟨⟩,
      wellFormed.dated fill member, price, rfl, _, rfl, left, traded, rfl⟩

/-- A trade on the unsold lots of a history succeeds exactly when the history allows it, and leads
to the unsold lots of the longer history. -/
theorem tradeLots_eq_ok (wellFormed : WellFormed host asOf (done ++ fill :: rest))
    (covered : sold fill.code done ≤ boughtBefore fill.code fill.occurredAt.date done)
    {lots : List OpenPaperLot} :
    tradeLots fill (fill.fillPrice.getD 0) fill.shares (unsoldLots fill.code done) = .ok lots ↔
      (fill.direction = "sell" → sold fill.code (done ++ [fill]) ≤
        boughtBefore fill.code fill.occurredAt.date done) ∧
      lots = unsoldLots fill.code (done ++ [fill]) := by
  have before : WellFormed host asOf done := wellFormed.sublist (List.sublist_append_left _ _)
  have upTo : WellFormed host asOf (done ++ [fill]) := by
    refine wellFormed.sublist (List.Sublist.append (List.Sublist.refl _) ?_)
    exact List.cons_sublist_cons.mpr (List.nil_sublist rest)
  have within : sold fill.code done ≤ Fifo.total lotMeasure (buyLots fill.code done) := by
    rw [total_buyLots]
    exact covered.trans (moved_filter_le _ _ _ _)
  rcases wellFormed.directions fill (by simp) with buying | selling
  · have isBuy : fill.isOf fill.code "buy" = true := by simp [PaperFill.isOf, buying]
    have notSell : fill.isOf fill.code "sell" = false := by simp [PaperFill.isOf, buying]
    have longer : unsoldLots fill.code (done ++ [fill]) =
        unsoldLots fill.code done ++ [fill.lot] := by
      have one : buyLots fill.code [fill] = [fill.lot] := by simp [buyLots, isBuy]
      have positive := upTo.positive fill.code
      rw [unsoldLots, sold_concat, notSell, buyLots_append, one] at *
      refine Fifo.unsold_append _ (fun lot member => positive lot ?_) within
      exact List.mem_append_right _ member
    rw [tradeLots, if_pos buying, pure_eq_ok, longer]
    simp [buying, PaperFill.lot, eq_comm]
  · have notBuy : fill.isOf fill.code "buy" = false := by simp [PaperFill.isOf, selling]
    have isSell : fill.isOf fill.code "sell" = true := by simp [PaperFill.isOf, selling]
    have positive := before.positive fill.code
    have longer : unsoldLots fill.code (done ++ [fill]) =
        Fifo.unsold lotMeasure fill.shares (unsoldLots fill.code done) := by
      have none : buyLots fill.code [fill] = [] := by simp [buyLots, notBuy]
      rw [unsoldLots, sold_concat, isSell, buyLots_append, none, List.append_nil, unsoldLots,
        Fifo.unsold_unsold, if_pos rfl]
    have free := before.available_buyLots fill.code fill.occurredAt.date
    rw [tradeLots, if_neg (by simp [selling]), if_pos selling, sellLots, mapError_eq_ok,
      unsoldLots, Fifo.consume_eq_ok (Fifo.positive_unsold positive _),
      Fifo.available_unsold positive (fun _ _ => rfl) (by rw [free]; exact covered), free, longer,
      sold_concat, if_pos isSell]
    refine and_congr ?_ Iff.rfl
    simp only [selling, forall_const]
    omega

/-- A fill keeps the state of the loop in its closed form. -/
theorem Rebuilt.record (rebuilt : Rebuilt done run)
    (feasible : fill.direction = "sell" → sold fill.code (done ++ [fill]) ≤
      boughtBefore fill.code fill.occurredAt.date done) :
    Rebuilt (done ++ [fill]) (run.record fill (unsoldLots fill.code (done ++ [fill]))) where
  seen id := by
    simp only [Rebuild.record, List.mem_cons, rebuilt.seen, List.map_append, List.map_cons,
      List.map_nil, List.mem_append, List.not_mem_nil, or_false]
    exact or_comm
  previous order isPrevious := by
    obtain rfl := Option.some.inj isPrevious
    exact ⟨fill, by simp, rfl⟩
  lots code := by
    rw [Rebuild.lotsOf_record]
    split
    · rename_i same
      rw [same]
    · rename_i other
      rw [rebuilt.lots, unsoldLots_other other]
  codes code := by
    simp only [Rebuild.record, OrdMap.get?_insert, List.map_append, List.map_cons, List.map_nil,
      List.mem_append, List.mem_singleton, ← rebuilt.codes]
    split
    · rename_i same
      simp [same]
    · rename_i other
      simp [Ne.symm other]
  covered code date notAfter := by
    have isBefore := notAfter fill (by simp)
    by_cases isSell : fill.isOf code "sell" = true
    · simp only [PaperFill.isOf, decide_eq_true_eq] at isSell
      obtain ⟨rfl, selling⟩ := isSell
      exact (feasible selling).trans (boughtBefore_mono _ isBefore _)
    · rw [sold_concat, if_neg isSell]
      have earlier := rebuilt.covered code date fun old member =>
        notAfter old (List.mem_append_left _ member)
      exact earlier.trans (boughtBefore_mono _ (le_refl _) _)

/-- Feasibility of the sales that are left after some fills. -/
def FeasibleFrom (done rest : List PaperFill) : Prop :=
  ∀ more sale tail, rest = more ++ sale :: tail → sale.direction = "sell" →
    sold sale.code (done ++ more ++ [sale]) ≤
      boughtBefore sale.code sale.occurredAt.date (done ++ rest)

theorem feasibleFrom_nil : FeasibleFrom done [] := by
  intro more sale tail split
  simp at split

theorem feasibleFrom_cons :
    FeasibleFrom done (fill :: rest) ↔
      (fill.direction = "sell" → sold fill.code (done ++ [fill]) ≤
        boughtBefore fill.code fill.occurredAt.date (done ++ fill :: rest)) ∧
      FeasibleFrom (done ++ [fill]) rest := by
  have assoc : done ++ [fill] ++ rest = done ++ fill :: rest := by simp
  unfold FeasibleFrom
  rw [assoc]
  constructor
  · intro feasible
    refine ⟨fun selling => ?_, fun more sale tail split selling => ?_⟩
    · simpa using feasible [] fill rest rfl selling
    · have := feasible (fill :: more) sale tail (by rw [split]; rfl) selling
      simpa using this
  · rintro ⟨first, others⟩ more sale tail split selling
    cases more with
    | nil =>
      obtain ⟨rfl, _⟩ := List.cons.inj split
      simpa using first selling
    | cons head more =>
      obtain ⟨rfl, rfl⟩ := List.cons.inj split
      simpa using others more sale tail rfl selling

/-- A fill is taken exactly when it is no sale or a feasible one. -/
theorem rebuildFill_rebuilt (wellFormed : WellFormed host asOf (done ++ fill :: rest))
    (rebuilt : Rebuilt done run) :
    rebuildFill host asOf run fill = .ok next ↔
      (fill.direction = "sell" → sold fill.code (done ++ [fill]) ≤
        boughtBefore fill.code fill.occurredAt.date (done ++ fill :: rest)) ∧
      next = run.record fill (unsoldLots fill.code (done ++ [fill])) := by
  have covered : sold fill.code done ≤ boughtBefore fill.code fill.occurredAt.date done := by
    refine rebuilt.covered _ _ fun old member => ?_
    have dates := (List.pairwise_append.mp wellFormed.dates).2.2
    exact dates old member fill List.mem_cons_self
  rw [rebuildFill_eq_ok wellFormed rebuilt, rebuilt.lots, boughtBefore_append wellFormed]
  simp only [tradeLots_eq_ok wellFormed covered]
  constructor
  · rintro ⟨_, ⟨feasible, rfl⟩, rfl⟩
    exact ⟨feasible, rfl⟩
  · rintro ⟨feasible, rfl⟩
    exact ⟨_, ⟨feasible, rfl⟩, rfl⟩

/-- The loop over the rest of a history leaves the closed form, and succeeds exactly when every
sale that is left is feasible. -/
theorem rebuild_from (wellFormed : WellFormed host asOf (done ++ rest)) (rebuilt : Rebuilt done run) :
    (∀ final, each (rebuildFill host asOf) run rest = .ok final →
      FeasibleFrom done rest ∧ Rebuilt (done ++ rest) final) ∧
    (FeasibleFrom done rest → ∃ final, each (rebuildFill host asOf) run rest = .ok final) := by
  induction rest generalizing done run with
  | nil =>
    rw [List.append_nil]
    refine ⟨fun final finished => ?_, fun _ => ⟨run, rfl⟩⟩
    cases finished
    exact ⟨feasibleFrom_nil, rebuilt⟩
  | cons fill rest ih =>
    have stepped {next : Rebuild} := @rebuildFill_rebuilt host asOf done rest fill run next
      wellFormed rebuilt
    have assoc : done ++ fill :: rest = done ++ [fill] ++ rest := by simp
    have recorded (feasible : fill.direction = "sell" → sold fill.code (done ++ [fill]) ≤
        boughtBefore fill.code fill.occurredAt.date (done ++ fill :: rest)) := by
      rw [boughtBefore_append wellFormed] at feasible
      exact rebuilt.record feasible
    rw [feasibleFrom_cons]
    constructor
    · intro final finished
      obtain ⟨next, isNext, others⟩ := bind_eq_ok.mp finished
      obtain ⟨feasible, rfl⟩ := stepped.mp isNext
      rw [assoc] at wellFormed
      obtain ⟨restFeasible, complete⟩ := (ih wellFormed (recorded feasible)).1 final others
      rw [assoc]
      exact ⟨⟨assoc ▸ feasible, restFeasible⟩, complete⟩
    · rintro ⟨feasible, others⟩
      have isNext := stepped.mpr ⟨feasible, rfl⟩
      rw [assoc] at wellFormed
      obtain ⟨final, finished⟩ := (ih wellFormed (recorded feasible)).2 others
      exact ⟨final, bind_eq_ok.mpr ⟨_, isNext, finished⟩⟩

theorem rebuild_all (wellFormed : WellFormed host asOf fills) :
    (∀ final, each (rebuildFill host asOf) .start fills = .ok final →
      TPlusOneFeasible fills ∧ Rebuilt fills final) ∧
    (TPlusOneFeasible fills → ∃ final, each (rebuildFill host asOf) .start fills = .ok final) :=
  @rebuild_from host asOf [] fills .start wellFormed Rebuilt.start

end Fold

end StockAnalysis.Positions
