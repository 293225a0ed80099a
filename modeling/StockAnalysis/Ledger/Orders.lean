import StockAnalysis.Foundation.Rounding
import StockAnalysis.Ledger.Accounting

/-!
# An order and its replay

`execute` decides on a copy of the lots and records the difference; `apply_order` applies the
difference to the lots it finds. The two agree on every account: the replayed lots are the decided
ones, in order, and cash and fees move by the recorded amounts. A sale goes through the eligible
lots of its code in their order and leaves a lot partly sold only as the last one it touches.
-/

namespace StockAnalysis.Ledger

/-! ## First in, first out -/

/-- A sale of the code on the date may take from the lot. -/
def Lot.Eligible (code : String) (date : Day) (lot : Lot) : Prop :=
  lot.code = code ∧ lot.sellableFrom ≤ date

/-- A sale over the lots, each paired with what is left of it. -/
structure FifoSale (code : String) (date : Day) (quantity : Nat) (sold : List (Lot × Lot)) :
    Prop where
  reduced : ∀ pair ∈ sold, pair.2.quantity ≤ pair.1.quantity ∧ pair.2 = { pair.1 with
    quantity := pair.2.quantity, buyFeeRemaining := pair.2.buyFeeRemaining }
  eligible : ∀ pair ∈ sold, pair.2 ≠ pair.1 → pair.1.Eligible code date
  inOrder : sold.Pairwise fun earlier later =>
    later.2 ≠ later.1 → earlier.1.Eligible code date → earlier.2.quantity = 0
  taken : (sold.map fun pair => pair.1.quantity - pair.2.quantity).sum = quantity

/-- What one lot contributes to a sale. -/
structure LotTaken (code : String) (date : Day) (before after : SaleTally) (lot left : Lot) :
    Prop where
  reduced : left.quantity ≤ lot.quantity ∧ left = { lot with
    quantity := left.quantity, buyFeeRemaining := left.buyFeeRemaining }
  eligible : left ≠ lot → lot.Eligible code date
  exhausted : lot.Eligible code date → left.quantity = 0 ∨ after.left = 0
  taken : lot.quantity - left.quantity + after.left = before.left
  done : before.left = 0 → left = lot

variable {code : String} {date : Day} {tally : SaleTally}

theorem sellLot_taken {next : SaleTally} {lot left : Lot}
    (sold : sellLot code date tally lot = .ok (next, left)) :
    LotTaken code date tally next lot left := by
  unfold sellLot at sold
  split at sold
  · rename_i skipped
    cases pure_eq_ok.mp sold
    refine ⟨⟨le_refl _, rfl⟩, fun changed => absurd rfl changed, ?_, by simp, fun _ => rfl⟩
    rintro ⟨sameCode, sellable⟩
    rcases skipped with otherCode | locked | nothing
    · exact absurd sameCode otherCode
    · exact absurd sellable (Int.not_le.mpr locked)
    · exact .inr nothing
  · rename_i taking
    push Not at taking
    obtain ⟨sameCode, sellable, wanted⟩ := taking
    simp only [bind_eq_ok, pure_eq_ok, Prod.mk.injEq] at sold
    obtain ⟨allocated, _, cost, _, basis, _, buyFee, _, remaining, _, rfl, rfl⟩ := sold
    refine ⟨⟨Nat.sub_le _ _, rfl⟩, fun _ => ⟨sameCode, sellable⟩, fun _ => ?_, ?_, fun nothing =>
      absurd nothing wanted⟩
    · dsimp only
      omega
    · dsimp only
      omega

variable {lots : List Lot}

/-- A sale over the lots is first in, first out. -/
theorem sellFrom_fifo {final : SaleTally} {left : List Lot}
    (sells : sellFrom code date tally lots = .ok (final, left)) :
    ∃ sold : List (Lot × Lot), sold.map Prod.fst = lots ∧ sold.map Prod.snd = left ∧
      final.left ≤ tally.left ∧ FifoSale code date (tally.left - final.left) sold ∧
      (tally.left = 0 → ∀ pair ∈ sold, pair.2 = pair.1) := by
  induction lots generalizing tally left with
  | nil =>
    cases pure_eq_ok.mp sells
    exact ⟨[], rfl, rfl, le_refl _, ⟨by simp, by simp, .nil, by simp⟩, by simp⟩
  | cons lot lots ih =>
    simp only [sellFrom, bind_eq_ok, pure_eq_ok, Prod.exists, Prod.mk.injEq] at sells
    obtain ⟨middle, first, firstSold, final, rest, restSold, rfl, rfl⟩ := sells
    have one := sellLot_taken firstSold
    obtain ⟨sold, rfl, rfl, less, fifo, unchanged⟩ := ih restSold
    have taken := one.taken
    have fewer := one.reduced.1
    refine ⟨(lot, first) :: sold, rfl, rfl, by omega, ⟨?_, ?_, ?_, ?_⟩, ?_⟩
    · rw [List.forall_mem_cons]
      exact ⟨one.reduced, fifo.reduced⟩
    · rw [List.forall_mem_cons]
      exact ⟨one.eligible, fifo.eligible⟩
    · refine List.pairwise_cons.mpr ⟨fun later member touched isEligible => ?_, fifo.inOrder⟩
      rcases one.exhausted isEligible with empty | finished
      · exact empty
      · exact absurd (unchanged finished later member) touched
    · rw [List.map_cons, List.sum_cons, fifo.taken]
      dsimp only
      omega
    · intro nothing
      rw [List.forall_mem_cons]
      refine ⟨one.done nothing, unchanged ?_⟩
      omega

/-! ## Fees -/

theorem rate_eq_round {amount result : Money} {numerator denominator : Int}
    (nonneg : 0 ≤ amount.val * numerator) (positive : 0 < denominator) (even : 2 ∣ denominator)
    (rated : rate amount numerator denominator = .ok result) :
    result.val = round ((amount.val * numerator : ℚ) / denominator) := by
  have exactly := Money.exact_eq_ok.mp rated
  have rounded := Rounding.halfUp_eq_round nonneg positive even
  push_cast at rounded
  rw [exactly, ← rounded]
  rfl

variable {notional : Money}

theorem commissionOf_eq_round {commission : Money} (nonneg : 0 ≤ notional.val)
    (charged : commissionOf notional = .ok commission) :
    commission.val = max (round ((3 * notional.val : ℚ) / 10000)) 5000000 := by
  obtain ⟨proportional, rated, done⟩ := bind_eq_ok.mp charged
  have rounded := rate_eq_round (by omega) (by decide) (by decide) rated
  rw [← pure_eq_ok.mp done, I64.val_max, rounded, mul_comm]
  rfl

theorem stampOf_eq_round {stamp : Money} {side : Direction} (nonneg : 0 ≤ notional.val)
    (charged : stampOf notional side.asStr = .ok stamp) :
    stamp.val = if side = .sell then round ((notional.val : ℚ) / 1000) else 0 := by
  cases side with
  | buy =>
    rw [stampOf_buy charged]
    rfl
  | sell =>
    have rounded := rate_eq_round (by omega) (by decide) (by decide) charged
    rw [rounded]
    norm_num

/-! ## The recorded order -/

/-- A recorded order agrees with what was decided: the replay of the fact on the projection it was
decided on. -/
structure OrderReplayed (before : Projection) (intent : ExecuteIntent) (now : Instant)
    (effect : FillEffect) (order : OrderFact) (after : Projection) : Prop where
  replays : applyOrder before order = .ok after
  lots : after.lots = effect.lots
  cash : order.cashDelta = effect.cashDelta ∧
    after.cash.val = before.cash.val + effect.cashDelta.val
  fees : after.fees.val = before.fees.val + (order.commission.val + order.stamp.val)
  unfilled : order.status ≠ .filled → after = before
  commission : order.status = .filled → order.commission.val =
    max (round ((3 * (order.requestedPrice.val * order.quantity) : ℚ) / 10000)) 5000000
  stamp : order.status = .filled → order.stamp.val = if intent.signal.direction = .sell then
    round ((order.requestedPrice.val * order.quantity : ℚ) / 1000) else 0
  sale : order.status = .filled → intent.signal.direction = .sell →
    ∃ sold : List (Lot × Lot), sold.map Prod.fst = before.lots ∧
      after.lots = openLots (sold.map Prod.snd) ∧
      FifoSale intent.signal.code (day now) intent.signal.quantity sold

variable {host : Host} {store next : Store} {book : Book} {view : PaperView}

section Recorded

variable {intent : ExecuteIntent} {intentHash : String} {now : Instant} {terms : OrderTerms}
  {verdict : LedgerStatus × Option String} {effect : FillEffect} {tradeId : Option Int}
  {audit : AuditLink} {after : Projection}

theorem fillEffect_fifo (selling : intent.signal.direction = .sell)
    (effected : fillEffect host lots intent terms now .filled = .ok effect) :
    ∃ sold : List (Lot × Lot), sold.map Prod.fst = lots ∧
      effect.lots = openLots (sold.map Prod.snd) ∧
      FifoSale intent.signal.code (day now) intent.signal.quantity sold := by
  obtain ⟨_, tally, left, sells, done, isLots, _⟩ := fillEffect_sell selling effected
  obtain ⟨sold, firsts, rfl, _, fifo, _⟩ := sellFrom_fifo sells
  rw [done] at fifo
  exact ⟨sold, firsts, isLots, fifo⟩

/-- Any order that was placed on sound lots and could be applied agrees with its replay. -/
theorem OrderPlaced.replayed
    (placed : OrderPlaced host store next book view intent intentHash now terms verdict effect
      tradeId audit)
    (new : ∀ event ∈ book.events, event.commandId ≠ intent.commandId)
    (ids : LotIds book.events view.projection.lots)
    (applied : applyOrder view.projection
      (orderFact intent view intentHash terms now verdict.1 verdict.2 effect tradeId audit) =
        .ok after) :
    OrderReplayed view.projection intent now effect
      (orderFact intent view intentHash terms now verdict.1 verdict.2 effect tradeId audit)
      after := by
  have termed := orderTerms_termed placed.termed
  have effected := placed.effected
  by_cases filled : verdict.1 = .filled
  · rw [filled] at effected
    have order := applyOrder_filled filled applied
    have lots : after.lots = effect.lots :=
      Except.ok.inj (order.lots.symm.trans
        (lotChanges_rebuild ids.distinct (ids.fresh new) effected))
    have notional : (terms.notional.val : ℚ) = terms.price.val * intent.signal.quantity := by
      exact_mod_cast termed.notional
    have nonneg : 0 ≤ terms.notional.val := by
      rw [termed.notional]
      exact Int.mul_nonneg (le_of_lt termed.positive) (Int.natCast_nonneg _)
    have fees := order.fees
    simp only [orderFact, filled, if_true] at fees
    refine ⟨applied, lots, ⟨rfl, order.cash⟩, ?_, fun unfilled => absurd filled unfilled, ?_, ?_,
      ?_⟩
    · simp only [orderFact, filled, if_true]
      omega
    · intro _
      simp only [orderFact, filled, if_true]
      rw [commissionOf_eq_round nonneg termed.commission, notional]
    · intro _
      simp only [orderFact, filled, if_true]
      rw [stampOf_eq_round nonneg termed.stamp, notional]
    · intro _ selling
      rw [lots]
      exact fillEffect_fifo selling effected
  · have same := applyOrder_unfilled filled applied
    have nothing := fillEffect_none filled effected
    subst same nothing
    refine ⟨applied, rfl, ⟨rfl, by simp [noEffect]⟩, by simp [orderFact, filled], fun _ => rfl, ?_, ?_,
      ?_⟩
    all_goals exact fun isFilled => absurd isFilled filled

end Recorded

/-! ## Executed orders -/

theorem receipt_alreadyApplied (version : Int) (hash : String) (fact : Fact) (repeated : Bool) :
    (receipt version hash fact repeated).alreadyApplied = repeated := by
  cases fact <;> rfl

variable {plan : Option (String × String)} {row : EventRow} {found : PaperReceipt}
  {mark : Option ValuationBatch} {command : String}

theorem matchOrder_repeated {sameCommand : Bool} {order : OrderFact}
    (matched : matchOrder sameCommand plan row order = .ok (some found)) :
    found = receipt row.seq row.eventHash row.payload true := by
  unfold matchOrder at matched
  split at matched
  · cases matched
  · split at matched
    · cases matched
    · split at matched
      · exact (Option.some.inj (pure_eq_ok.mp matched)).symm
      · cases matched

theorem matchMarked_repeated {original : ValuationBatch}
    (matched : matchMarked mark row original = .ok (some found)) :
    found = receipt row.seq row.eventHash row.payload true := by
  unfold matchMarked at matched
  split at matched
  · cases matched
  · split at matched
    · exact (Option.some.inj (pure_eq_ok.mp matched)).symm
    · cases matched

theorem matchEvent_repeated (matched : matchEvent command plan mark row = .ok (some found)) :
    found = receipt row.seq row.eventHash row.payload true := by
  unfold matchEvent at matched
  dsimp only at matched
  split at matched <;> split at matched
  · exact matchOrder_repeated matched
  · cases matched
  · exact matchMarked_repeated matched
  · cases matched
  · cases matched
  · cases matched

/-- A receipt of the identity scan says that the command was applied before. -/
theorem replayCommand_repeated {events : List EventRow}
    (scanned : replayCommand command plan mark events = .ok (some found)) :
    found.alreadyApplied = true := by
  induction events with
  | nil => cases scanned
  | cons row rows ih =>
    obtain ⟨matched, isMatched, rest⟩ := bind_eq_ok.mp scanned
    cases matched with
    | none => exact ih rest
    | some receipt =>
      cases pure_eq_ok.mp rest
      rw [matchEvent_repeated isMatched, receipt_alreadyApplied]

theorem Appended.written {accountId : String} {fact : Fact} {projection : Projection}
    (appended : Appended host store next accountId book view command fact projection) :
    next.books.get? accountId = some (book.extend (view.nextRow host accountId command fact)
      (view.nextHead host accountId command fact projection)) := by
  rw [appended.books, OrdMap.get?_insert, if_pos rfl]
  rfl

/-- Replaying a recorded order agrees with the decision that recorded it: whenever `execute`
appends an order in a reachable store, the account's new head is the fact applied to the old head,
with the lots that were decided, in order, and cash and fees moved by exactly the recorded
amounts. -/
theorem executed_order_replays (host : Host) (store : Store) (reachable : Reachable host store)
    (access : Access) (intent : ExecuteIntent) (now : Instant) (createdAt : String) (next : Store)
    (result : PaperReceipt)
    (executed : execute host access store intent now createdAt = .ok (next, result))
    (appended : result.alreadyApplied = false) :
    ∃ book view terms effect order written row after,
      store.books.get? intent.binding.accountId = some book ∧ book.head = some view ∧
      orderTerms host view intent now = .ok terms ∧
      fillEffect host view.projection.lots intent terms now order.status = .ok effect ∧
      next.books.get? intent.binding.accountId = some written ∧
      written.events = book.events ++ [row] ∧ row.payload = .order order ∧
      written.head = some after ∧
      OrderReplayed view.projection intent now effect order after.projection := by
  simp only [execute, bind_eq_ok, bookOf_eq_ok] at executed
  obtain ⟨view, loads, intentHash, _, book, found, previous, scanned, rest⟩ := executed
  have loaded := load_loaded found loads
  cases previous with
  | some earlier =>
    cases pure_eq_ok.mp rest
    rw [replayCommand_repeated scanned] at appended
    cases appended
  | none =>
    obtain ⟨terms, verdict, effect, tradeId, audit, projection, placed, extended⟩ :=
      executeFresh_placed loaded scanned rest
    obtain ⟨_, ids⟩ := (reachable_bookSound reachable _ book loaded.found).head view loaded.head
    have replayed := placed.replayed extended.newCommand ids extended.applied
    exact ⟨book, view, terms, effect, _, _, _, _, loaded.found, loaded.head, placed.termed,
      placed.effected, extended.written, rfl, rfl, rfl, replayed⟩

/-- The sale of what `sampleBuy` bought, a day later. -/
def sampleSell : ExecuteIntent := { sampleBuy 2 with
  commandId := "sell"
  inventoryFingerprint := "1 lots"
  signal := { sampleSignal with
    planId := "paper:e:2", direction := .sell, quoteObservedAt := 31 * nanosPerHour }
  priceQualification := ⟨"x", 1, ⟨1, 1, 1000000000⟩⟩
  marks := [⟨"x", I64.lit 10000000, 31 * nanosPerHour, "feed"⟩] }

theorem executed_order_replays_sale :
    ∃ next result view effect order after,
      execute sampleHost openAccess (sampleStore [.seed sampleSeed, .execute (sampleBuy 1)])
        sampleSell (31 * nanosPerHour) "created" = .ok (next, result) ∧
      result.status = .filled ∧
      OrderReplayed view sampleSell (31 * nanosPerHour) effect order after := by
  have ran : sampleRun [.seed sampleSeed, .execute (sampleBuy 1)] =
      .ok (sampleStore [.seed sampleSeed, .execute (sampleBuy 1)]) := by decide +kernel
  have sold : ((execute sampleHost openAccess
      (sampleStore [.seed sampleSeed, .execute (sampleBuy 1)]) sampleSell (31 * nanosPerHour)
      "created").map fun result => (result.2.alreadyApplied, result.2.status)) =
        .ok (false, .filled) := by decide +kernel
  cases executed : execute sampleHost openAccess
      (sampleStore [.seed sampleSeed, .execute (sampleBuy 1)]) sampleSell (31 * nanosPerHour)
      "created" with
  | error failure =>
    rw [executed] at sold
    cases sold
  | ok outcome =>
    obtain ⟨next, result⟩ := outcome
    rw [executed] at sold
    obtain ⟨first, filled⟩ := Prod.mk.inj (Except.ok.inj sold)
    obtain ⟨_, view, _, effect, order, _, _, after, _, _, _, _, _, _, _, _, replayed⟩ :=
      executed_order_replays sampleHost _ (sampleRun_reachable ran) openAccess sampleSell
        (31 * nanosPerHour) "created" next result executed first
    exact ⟨next, result, view.projection, effect, order, after.projection, rfl, filled, replayed⟩

end StockAnalysis.Ledger
