import StockAnalysis.Book.Steps

/-!
# The life of a parent and where its fills come from

A parent is filled by the fills that name it and by nothing else. Its status says what is filled
and what remains, a terminal parent never changes again, and parents are told apart by their
investment decisions. A fill comes from one accepted evaluation: its window is used once over all
parents, its price is within the limit of the parent, and its quantity is a positive number of
whole lots within what the window makes available.
-/

namespace StockAnalysis.Book

open StockAnalysis.Ledger (Projection)

/-- The shares that the fills naming a parent filled. -/
def filledFor (fills : List FillRecord) (id : String) : Nat :=
  ((fills.filter fun fill => fill.parentId = id).map fun fill => fill.model.quantity).sum

theorem filledFor_append_one (fills : List FillRecord) (fill : FillRecord) (id : String) :
    filledFor (fills ++ [fill]) id =
      filledFor fills id + if fill.parentId = id then fill.model.quantity else 0 := by
  by_cases named : fill.parentId = id <;> simp [filledFor, named]

variable {fills : List FillRecord} {id : String} {parent : ParentState} {fill : FillRecord}

theorem filledFor_eq_zero (unnamed : ∀ fill ∈ fills, fill.parentId ≠ id) :
    filledFor fills id = 0 := by
  have none : (fills.filter fun fill => fill.parentId = id) = [] := by
    simpa [List.filter_eq_nil_iff] using unnamed
  rw [filledFor, none]
  rfl

/-- A parent whose quantities are those of its fills and whose status says what remains. -/
structure ParentSound (fills : List FillRecord) (id : String) (parent : ParentState) : Prop where
  filledShares : parent.filled = filledFor fills id
  working : parent.status = .working ↔ parent.filled = 0 ∧ 0 < parent.remaining
  partiallyFilled : parent.status = .partiallyFilled ↔ 0 < parent.filled ∧ 0 < parent.remaining
  filled : parent.status = .filled ↔ parent.remaining = 0 ∧ parent.cancelled = 0
  uncancelled : parent.status.isWorking = true → parent.cancelled = 0

theorem ParentSound.unnamed (sound : ParentSound fills id parent) (other : fill.parentId ≠ id) :
    ParentSound (fills ++ [fill]) id parent := by
  obtain ⟨filledShares, working, partiallyFilled, filled, uncancelled⟩ := sound
  refine ⟨?_, working, partiallyFilled, filled, uncancelled⟩
  rw [filledFor_append_one, if_neg other, filledShares, Nat.add_zero]

variable {reserve : WorkingReservation} {claims : List LotClaim} {intent : IntentRecord}
  {closing : Closing} {parentId : String}

namespace ExecutionProjection

/-- A fill within the terms of its parent and of the window of an accepted evaluation. -/
structure FillSound (accepted : List CommandRecord) (state : ExecutionProjection)
    (fill : FillRecord) : Prop where
  parent : ∃ parent, state.parents.get? fill.parentId = some parent ∧
    fill.side = parent.intent.side ∧
    (fill.side = .buy → fill.model.priceMicroCny.val ≤ parent.intent.limitMicroCny.val) ∧
    (fill.side = .sell → parent.intent.limitMicroCny.val ≤ fill.model.priceMicroCny.val)
  positive : 0 < fill.model.quantity
  whole : fill.model.quantity % 100 = 0
  window : ∃ expected window, .evaluate expected fill.parentId window ∈ accepted ∧
    window.observationId = fill.observationId ∧
    fill.model.quantity ≤ window.modeledAvailableQuantity

/-- The parents and the fills after the accepted requests. -/
structure Lifecycle (accepted : List CommandRecord) (state : ExecutionProjection) : Prop where
  parents : ∀ id parent, state.parents.get? id = some parent → ParentSound state.fills id parent
  fills : ∀ fill ∈ state.fills, FillSound accepted state fill
  observed : ∀ fill ∈ state.fills, (state.usedWindows.get? fill.observationId).isSome = true
  once : (state.fills.map FillRecord.observationId).Nodup
  decisions : ∀ one first other second, state.parents.get? one = some first →
    state.parents.get? other = some second →
      first.intent.investmentDecisionId = second.intent.investmentDecisionId → one = other

variable {genesis : Projection}

theorem Opened.lifecycle {budget : BudgetRecord} {start : ExecutionProjection}
    (opened : Opened genesis budget start) : Lifecycle [] start := by
  have none : ∀ id, start.parents.get? id = none := by
    intro id
    rw [opened.parents, OrdMap.get?_empty]
  refine ⟨?_, by simp [opened.fills], by simp [opened.fills], by simp [opened.fills], ?_⟩
  · intro id parent stored
    rw [none] at stored
    cases stored
  · intro one first other second stored
    rw [none] at stored
    cases stored

/-! ## Parents -/

/-- A parent that is stored stays stored with its intent. -/
def IntentsKept (state next : ExecutionProjection) : Prop :=
  ∀ id parent, state.parents.get? id = some parent →
    ∃ later, next.parents.get? id = some later ∧ later.intent = parent.intent

variable {state next : ExecutionProjection}

theorem intentsKept_of_parents_eq (parents : next.parents = state.parents) :
    IntentsKept state next := by
  intro id parent stored
  exact ⟨parent, by rw [parents]; exact stored, rfl⟩

/-- Storing a parent keeps the intents when its key is fresh or holds a parent of its intent. -/
theorem intentsKept_of_insert (parents : next.parents = state.parents.insert id parent)
    (same : ∀ old, state.parents.get? id = some old → parent.intent = old.intent) :
    IntentsKept state next := by
  intro other found stored
  rw [parents, OrdMap.get?_insert]
  by_cases here : id = other
  · subst here
    exact ⟨parent, by simp, same found stored⟩
  · exact ⟨found, by simpa [here] using stored, rfl⟩

variable {host : Host} {manifest : ExecutionManifest} {fee : AShareFeePolicyV2}
  {request : CommandRecord}

theorem Step.intentsKept (step : Step host manifest fee state next request) :
    IntentsKept state next := by
  cases step with
  | submit submitted =>
    refine intentsKept_of_insert submitted.parents fun old stored => ?_
    rw [submitted.fresh] at stored
    cases stored
  | observe observed => exact intentsKept_of_parents_eq observed.parents
  | fill filled =>
    refine intentsKept_of_insert filled.parents fun old stored => ?_
    rw [filled.matched.stored] at stored
    obtain rfl := Option.some.inj stored
    rfl
  | close closed =>
    refine intentsKept_of_insert closed.parents fun old stored => ?_
    rw [closed.stored] at stored
    obtain rfl := Option.some.inj stored
    rfl
  | marks remarked => exact intentsKept_of_parents_eq remarked.parents

theorem Step.terminal_kept (step : Step host manifest fee state next request)
    (stored : state.parents.get? id = some parent) (terminal : parent.status.isWorking = false) :
    next.parents.get? id = some parent := by
  -- The key that a step stores under is fresh or holds a working parent.
  have apart : ∀ other found, state.parents.get? other = some found →
      found.status.isWorking = true → other ≠ id := by
    rintro other found holds working rfl
    rw [stored] at holds
    obtain rfl := Option.some.inj holds
    rw [terminal] at working
    cases working
  cases step with
  | @submit _ intent _ _ submitted =>
    have different : intent.parentId ≠ id := by
      rintro rfl
      rw [submitted.fresh] at stored
      cases stored
    rw [submitted.parents, OrdMap.get?_insert, if_neg different]
    exact stored
  | observe observed => exact observed.parents ▸ stored
  | fill filled =>
    have different := apart _ _ filled.matched.stored filled.matched.working
    rw [filled.parents, OrdMap.get?_insert, if_neg different]
    exact stored
  | close closed =>
    have different := apart _ _ closed.stored closed.working
    rw [closed.parents, OrdMap.get?_insert, if_neg different]
    exact stored
  | marks remarked => exact remarked.parents ▸ stored

variable {requests : List CommandRecord}

/-- No run of accepted requests changes a terminal parent. -/
theorem run_terminal_kept {last : ExecutionProjection}
    (ran : run host manifest state requests = .ok last)
    (stored : state.parents.get? id = some parent) (terminal : parent.status.isWorking = false) :
    last.parents.get? id = some parent := by
  refine each_induction (fun state => state.parents.get? id = some parent) ?_ stored ran
  intro before request after kept stepped
  obtain ⟨effect, applied⟩ := step_eq_ok stepped
  obtain ⟨_, fee, _, step⟩ := applyRequest_step applied
  exact step.terminal_kept kept terminal

/-! ## One request -/

section Preservation

variable {accepted : List CommandRecord}

theorem FillSound.later (sound : FillSound accepted state fill) (kept : IntentsKept state next) :
    FillSound (accepted ++ [request]) next fill := by
  obtain ⟨parent, stored, side, buy, sell⟩ := sound.parent
  obtain ⟨expected, window, evaluated, observation, within⟩ := sound.window
  obtain ⟨later, storedLater, intent⟩ := kept _ parent stored
  refine ⟨⟨later, storedLater, ?_, ?_, ?_⟩, sound.positive, sound.whole,
    ⟨expected, window, List.mem_append_left _ evaluated, observation, within⟩⟩
  · rw [intent]
    exact side
  · rw [intent]
    exact buy
  · rw [intent]
    exact sell

/-- A request without a fill keeps the life cycle when what it stores is sound and brings no
decision twice. -/
theorem Lifecycle.unfilled (lifecycle : Lifecycle accepted state) (kept : IntentsKept state next)
    (fills : next.fills = state.fills)
    (used : ∀ id, (state.usedWindows.get? id).isSome = true →
      (next.usedWindows.get? id).isSome = true)
    (parents : ∀ id parent, next.parents.get? id = some parent →
      ParentSound state.fills id parent)
    (decisions : ∀ one first other second, next.parents.get? one = some first →
      next.parents.get? other = some second →
        first.intent.investmentDecisionId = second.intent.investmentDecisionId → one = other) :
    Lifecycle (accepted ++ [request]) next := by
  refine ⟨?_, ?_, ?_, ?_, decisions⟩
  · rw [fills]
    exact parents
  · rw [fills]
    intro fill member
    exact (lifecycle.fills fill member).later kept
  · rw [fills]
    intro fill member
    exact used _ (lifecycle.observed fill member)
  · rw [fills]
    exact lifecycle.once

theorem newParent_sound (sound : intent.Sound) (unnamed : ∀ fill ∈ fills, fill.parentId ≠ id) :
    ParentSound fills id (newParent intent reserve claims) := by
  have positive := sound.positive
  refine ⟨(filledFor_eq_zero unnamed).symm, ?_, ?_, ?_, fun _ => rfl⟩
  · simp [newParent, positive]
  · simp [newParent]
  · simp only [newParent, reduceCtorEq, false_iff, not_and]
    omega

theorem closedParent_sound (sound : ParentSound fills id parent) (remaining : 0 < parent.remaining)
    :
    ParentSound fills id (closedParent closing parent reserve) := by
  have some : parent.remaining ≠ 0 := Nat.ne_of_gt remaining
  refine ⟨sound.filledShares, ?_, ?_, ?_, ?_⟩ <;>
    cases closing <;> simp [closedParent, Closing.status, ParentStatus.isWorking, some]

theorem filledParent_sound {remaining : Nat} (sound : ParentSound fills id parent)
    (working : parent.status.isWorking = true) (named : fill.parentId = id)
    (positive : 0 < fill.model.quantity) :
    ParentSound (fills ++ [fill]) id
      (filledParent parent (parent.filled + fill.model.quantity) remaining reserve claims) := by
  have uncancelled := sound.uncancelled working
  refine ⟨?_, ?_, ?_, ?_, fun _ => uncancelled⟩
  · rw [filledFor_append_one, if_pos named, ← sound.filledShares]
    rfl
  all_goals
    by_cases finished : remaining = 0 <;>
      simp only [filledParent, finished, uncancelled, if_true, if_false, reduceCtorEq, and_self,
        true_iff, false_iff, false_and] <;>
      omega

section

variable (lifecycle : Lifecycle accepted state)

include lifecycle

theorem Lifecycle.submitted (submitted : Submitted host fee state next intent reserve claims)
    (kept : IntentsKept state next) : Lifecycle (accepted ++ [request]) next := by
  have unnamed : ∀ fill ∈ state.fills, fill.parentId ≠ intent.parentId := by
    intro fill member same
    obtain ⟨parent, stored, _⟩ := (lifecycle.fills fill member).parent
    rw [same, submitted.fresh] at stored
    cases stored
  refine lifecycle.unfilled kept submitted.holdings.fills ?_ ?_ ?_
  · rw [submitted.used]
    exact fun _ used => used
  · intro id parent stored
    rw [submitted.parents, OrdMap.get?_insert] at stored
    split at stored
    · rename_i here
      obtain rfl := Option.some.inj stored
      exact newParent_sound submitted.sound (here ▸ unnamed)
    · exact lifecycle.parents id parent stored
  · intro one first other second storedOne storedOther same
    rw [submitted.parents, OrdMap.get?_insert] at storedOne storedOther
    split at storedOne <;> split at storedOther
    · rename_i here there
      exact here.symm.trans there
    · obtain rfl := Option.some.inj storedOne
      exact absurd same.symm (submitted.decision other second storedOther)
    · obtain rfl := Option.some.inj storedOther
      exact absurd same (submitted.decision one first storedOne)
    · exact lifecycle.decisions one first other second storedOne storedOther same

/-- Parents that keep their intents keep their decisions apart. -/
theorem Lifecycle.decisions_of_insert {old : ParentState}
    (stored : state.parents.get? id = some old)
    (parents : next.parents = state.parents.insert id parent) (intent : parent.intent = old.intent) :
    ∀ one first other second, next.parents.get? one = some first →
      next.parents.get? other = some second →
        first.intent.investmentDecisionId = second.intent.investmentDecisionId →
          one = other := by
  have before : ∀ key found, next.parents.get? key = some found →
      ∃ earlier, state.parents.get? key = some earlier ∧ found.intent = earlier.intent := by
    intro key found storedNext
    rw [parents, OrdMap.get?_insert] at storedNext
    split at storedNext
    · rename_i here
      obtain rfl := Option.some.inj storedNext
      exact ⟨old, here ▸ stored, intent⟩
    · exact ⟨found, storedNext, rfl⟩
  intro one first other second storedOne storedOther same
  obtain ⟨earlierOne, heldOne, intentOne⟩ := before one first storedOne
  obtain ⟨earlierOther, heldOther, intentOther⟩ := before other second storedOther
  rw [intentOne, intentOther] at same
  exact lifecycle.decisions one earlierOne other earlierOther heldOne heldOther same

theorem Lifecycle.closed (valid : state.Valid)
    (closed : Closed host fee state next parentId closing parent reserve)
    (kept : IntentsKept state next) : Lifecycle (accepted ++ [request]) next := by
  have remaining := ((valid.parents parentId parent closed.stored).working closed.working).1
  refine lifecycle.unfilled kept closed.holdings.fills ?_ ?_
    (lifecycle.decisions_of_insert closed.stored closed.parents rfl)
  · rw [closed.used]
    exact fun _ used => used
  · intro id found stored
    rw [closed.parents, OrdMap.get?_insert] at stored
    split at stored
    · rename_i here
      subst here
      obtain rfl := Option.some.inj stored
      exact closedParent_sound (lifecycle.parents parentId parent closed.stored) remaining
    · exact lifecycle.parents id found stored

theorem Lifecycle.filled {expected : HeadIdentity}
    {window : WindowRecord} {modeled : ModeledFill} {trade : Trade} {record : FillRecord}
    (filled : Filled host manifest fee state next parentId window parent modeled trade reserve
      record) (kept : IntentsKept state next) :
    Lifecycle (accepted ++ [.evaluate expected parentId window]) next := by
  have priced := filled.priced
  have quantity : record.model.quantity = modeled.quantity := by rw [filled.recordModel]
  have positive : 0 < record.model.quantity := by rw [quantity]; exact priced.positive
  refine ⟨?_, ?_, ?_, ?_, lifecycle.decisions_of_insert filled.matched.stored filled.parents rfl⟩
  · intro id found stored
    rw [filled.fills]
    rw [filled.parents, OrdMap.get?_insert] at stored
    split at stored
    · rename_i here
      subst here
      obtain rfl := Option.some.inj stored
      rw [← quantity]
      exact filledParent_sound (lifecycle.parents parentId parent filled.matched.stored)
        filled.matched.working filled.recordParent positive
    · rename_i elsewhere
      refine (lifecycle.parents id found stored).unnamed ?_
      rw [filled.recordParent]
      exact elsewhere
  · intro fill member
    rw [filled.fills] at member
    rcases mem_concat.mp member with earlier | rfl
    · exact (lifecycle.fills fill earlier).later kept
    · obtain ⟨later, storedLater, intent⟩ := kept parentId parent filled.matched.stored
      have inLimit := priced.inLimit
      simp only [OutsideLimit, not_or, not_and, not_lt] at inLimit
      refine ⟨⟨later, ?_, ?_, ?_, ?_⟩, positive, quantity ▸ priced.whole,
        ⟨expected, window, ?_, filled.recordObservation.symm, quantity ▸ priced.quantity_le.2⟩⟩
      · rw [filled.recordParent]
        exact storedLater
      · rw [filled.recordSide, intent]
      · rw [filled.recordSide, filled.recordModel, intent]
        exact inLimit.1
      · rw [filled.recordSide, filled.recordModel, intent]
        exact inLimit.2
      · rw [filled.recordParent]
        exact List.mem_append_right _ List.mem_cons_self
  · intro fill member
    rw [filled.fills] at member
    rw [filled.used, OrdMap.get?_insert]
    split
    · rfl
    · rename_i different
      rcases mem_concat.mp member with earlier | rfl
      · exact lifecycle.observed fill earlier
      · exact absurd filled.recordObservation.symm different
  · rw [filled.fills, List.map_append, List.map_singleton, List.nodup_append]
    refine ⟨lifecycle.once, List.nodup_singleton _, ?_⟩
    -- The window was unused, so no earlier fill observed it.
    intro observation earlier other added same
    obtain ⟨fill, member, rfl⟩ := List.mem_map.mp earlier
    have seen := lifecycle.observed fill member
    rw [same, List.mem_singleton.mp added, filled.recordObservation, filled.matched.unused] at seen
    cases seen

end

theorem Step.lifecycle (step : Step host manifest fee state next request) (valid : state.Valid)
    (lifecycle : Lifecycle accepted state) : Lifecycle (accepted ++ [request]) next := by
  have kept := step.intentsKept
  cases step with
  | submit submitted => exact lifecycle.submitted submitted kept
  | observe observed =>
    refine lifecycle.unfilled kept observed.holdings.fills ?_ (observed.parents ▸ lifecycle.parents)
      (observed.parents ▸ lifecycle.decisions)
    intro id used
    rw [observed.used, OrdMap.get?_insert]
    split
    · rfl
    · exact used
  | fill filled => exact lifecycle.filled filled kept
  | close closed => exact lifecycle.closed valid closed kept
  | marks remarked =>
    refine lifecycle.unfilled kept remarked.holdings.fills ?_ (remarked.parents ▸ lifecycle.parents)
      (remarked.parents ▸ lifecycle.decisions)
    rw [remarked.used]
    exact fun _ used => used

end Preservation

/-! ## Whole runs -/

section Runs

theorem Reached.lifecycle (reached : Reached host manifest genesis requests state) :
    Lifecycle requests state :=
  (reached.invariant Lifecycle (fun _ opened => opened.lifecycle)
    fun _ _ _ _ _ valid _ _ step lifecycle => step.lifecycle valid lifecycle).2

/-- The life cycle of parents and the provenance of fills over whole runs: shares add up, a status
follows from them, an ended parent stays as it is, and every fill comes from its own window.

Proof: a step keeps `Lifecycle` of the requests accepted so far; no later run writes an ended
parent. -/
theorem parents_and_fills (reached : Reached host manifest genesis requests state) :
    (∀ id parent, state.parents.get? id = some parent →
      parent.filled = filledFor state.fills id ∧
      parent.filled + parent.remaining + parent.cancelled = parent.intent.quantity ∧
      (parent.status = .working ↔ parent.filled = 0 ∧ 0 < parent.remaining) ∧
      (parent.status = .partiallyFilled ↔ 0 < parent.filled ∧ 0 < parent.remaining) ∧
      (parent.status = .filled ↔ parent.remaining = 0 ∧ parent.cancelled = 0) ∧
      (parent.status ∈ [ParentStatus.filled, .cancelled, .expired] →
        ∀ later last, run host manifest state later = .ok last →
          last.parents.get? id = some parent)) ∧
    (state.fills.map FillRecord.observationId).Nodup ∧
    (∀ fill ∈ state.fills, FillSound requests state fill) ∧
    ∀ one first other second, state.parents.get? one = some first →
      state.parents.get? other = some second →
        first.intent.investmentDecisionId = second.intent.investmentDecisionId →
          one = other := by
  have lifecycle := reached.lifecycle
  refine ⟨?_, lifecycle.once, lifecycle.fills, lifecycle.decisions⟩
  intro id parent stored
  have sound := lifecycle.parents id parent stored
  have quantity := (reached.valid.parents id parent stored).quantity
  refine ⟨sound.filledShares, quantity, sound.working, sound.partiallyFilled, sound.filled, ?_⟩
  intro ended later last ran
  have terminal : parent.status.isWorking = false := by
    simp only [List.mem_cons, List.not_mem_nil, or_false] at ended
    rcases ended with status | status | status <;> rw [status] <;> rfl
  exact run_terminal_kept ran stored terminal

theorem parents_and_fills_sample : ∃ state,
    Reached sampleHost sampleManifest sampleGenesis sampleRequests state ∧
      state.fills.length = 2 ∧ ∀ fill ∈ state.fills, FillSound sampleRequests state fill := by
  obtain ⟨state, reached, _, fills⟩ := sampleBook_filled
  exact ⟨state, reached, fills, (parents_and_fills reached).2.2.1⟩

end Runs

end ExecutionProjection

end StockAnalysis.Book
