import Mathlib.Data.List.Sort
import Mathlib.Order.Defs.LinearOrder
import StockAnalysis.Foundation.Outcome

/-!
# Merging two timed lists into one fold

Two lists ordered by time drive one state: actions, and observations that see every action not
later than themselves. Before each observation the pending actions up to its time are taken;
the actions left at the end are taken last. The rules here say what a merge keeps, and when the
merge of a longer history is the merge of the shorter one followed by its last item.
-/

namespace StockAnalysis.TimedMerge

variable {σ α β ε τ : Type} {until_ : τ} {state caughtUp result : σ} {actions later : List α}
  {entries : List β} {last : α}

section Merge

variable [LinearOrder τ] (act : σ → α → Except ε σ) (observe : σ → β → Except ε σ)
  (actTime : α → τ) (obsTime : β → τ)

/-- Take the actions that are not later than the given time. -/
def drain (until_ : τ) : σ → List α → Except ε (σ × List α)
  | state, [] => pure (state, [])
  | state, action :: actions =>
    if actTime action ≤ until_ then do
      let next ← act state action
      drain until_ next actions
    else pure (state, action :: actions)

/-- Take actions and observations in the order of their times, actions first. -/
def merge : σ → List α → List β → Except ε σ
  | state, actions, [] => each act state actions
  | state, actions, entry :: entries => do
      let (caughtUp, later) ← drain act actTime (obsTime entry) state actions
      let observed ← observe caughtUp entry
      merge observed later entries

variable {act observe actTime obsTime}

/-- A property that drained actions keep holds after draining. -/
theorem drain_invariant (property : σ → List α → Prop)
    (acted : ∀ state action rest next, property state (action :: rest) →
      act state action = .ok next → property next rest) (initial : property state actions)
    (drained : drain act actTime until_ state actions = .ok (caughtUp, later)) :
    property caughtUp later := by
  induction actions generalizing state with
  | nil =>
    cases pure_eq_ok.mp drained
    exact initial
  | cons action actions ih =>
    unfold drain at drained
    split at drained
    · obtain ⟨next, stepped, rest⟩ := bind_eq_ok.mp drained
      exact ih (acted _ _ _ _ initial stepped) rest
    · cases pure_eq_ok.mp drained
      exact initial

/-- A property of the state and of what is still to come that every action and every
observation keeps holds at the end of the merge, when nothing is left. -/
theorem merge_invariant (property : σ → List α → List β → Prop)
    (acted : ∀ state action rest entries next, property state (action :: rest) entries →
      act state action = .ok next → property next rest entries)
    (observed : ∀ state rest entry entries next, property state rest (entry :: entries) →
      observe state entry = .ok next → property next rest entries)
    (initial : property state actions entries)
    (merged : merge act observe actTime obsTime state actions entries = .ok result) :
    property result [] [] := by
  induction entries generalizing state actions with
  | nil =>
    induction actions generalizing state with
    | nil =>
      simp only [merge, each, Except.ok.injEq] at merged
      exact merged ▸ initial
    | cons action actions ih =>
      simp only [merge, each, bind_eq_ok] at merged
      obtain ⟨next, stepped, rest⟩ := merged
      exact ih (acted _ _ _ _ _ initial stepped) rest
  | cons entry entries ih =>
    simp only [merge, bind_eq_ok, Prod.exists] at merged
    obtain ⟨caughtUp, later, drains, seen, observes, rest⟩ := merged
    have ready : property caughtUp later (entry :: entries) :=
      drain_invariant (fun state actions => property state actions (entry :: entries))
        (fun _ _ _ _ holds stepped => acted _ _ _ _ _ holds stepped) initial drains
    exact ih (observed _ _ _ _ _ ready observes) rest

/-- Draining takes every action once none is late. -/
theorem drain_all (due : ∀ action ∈ actions, actTime action ≤ until_) (state : σ) :
    drain act actTime until_ state actions =
      each act state actions >>= fun result => pure (result, []) := by
  induction actions generalizing state with
  | nil => rfl
  | cons action actions ih =>
    have rest := ih fun other member => due other (List.mem_cons_of_mem action member)
    simp only [drain, due action List.mem_cons_self, if_true, each]
    cases act state action with
    | error error => rfl
    | ok next => exact rest next

/-- An action that is still late stays last. -/
theorem drain_append_late (late : until_ < actTime last)
    (drained : drain act actTime until_ state actions = .ok (caughtUp, later)) :
    drain act actTime until_ state (actions ++ [last]) = .ok (caughtUp, later ++ [last]) := by
  induction actions generalizing state with
  | nil =>
    cases pure_eq_ok.mp drained
    simp [drain, not_le.mpr late, pure, Except.pure]
  | cons action actions ih =>
    simp only [List.cons_append, drain] at drained ⊢
    split at drained
    · rename_i due
      obtain ⟨next, stepped, rest⟩ := bind_eq_ok.mp drained
      rw [if_pos due, stepped]
      exact ih rest
    · rename_i early
      cases pure_eq_ok.mp drained
      rw [if_neg early]
      rfl

theorem drain_subset (drained : drain act actTime until_ state actions = .ok (caughtUp, later)) :
    later ⊆ actions :=
  drain_invariant (fun _ rest => rest ⊆ actions)
    (fun _ _ _ _ within _ => fun _ member => within (List.mem_cons_of_mem _ member))
    (List.Subset.refl actions) drained

/-- An observation not earlier than anything before it is made last. -/
theorem merge_append_observation {last : β}
    (due : ∀ action ∈ actions, actTime action ≤ obsTime last) :
    merge act observe actTime obsTime state actions (entries ++ [last]) =
      merge act observe actTime obsTime state actions entries >>= fun result =>
        observe result last := by
  induction entries generalizing state actions with
  | nil =>
    simp only [List.nil_append, merge, drain_all due]
    cases each act state actions with
    | error error => rfl
    | ok result =>
      simp only [ok_bind, pure, Except.pure]
      cases observe result last <;> rfl
  | cons entry entries ih =>
    simp only [List.cons_append, merge]
    cases drains : drain act actTime (obsTime entry) state actions with
    | error error => rfl
    | ok caught =>
      obtain ⟨caughtUp, later⟩ := caught
      simp only [ok_bind]
      cases observe caughtUp entry with
      | error error => rfl
      | ok seen => exact ih fun action member => due action (drain_subset drains member)

/-- The action can be taken before the observation as well as after it. -/
def Swaps (act : σ → α → Except ε σ) (observe : σ → β → Except ε σ) (entry : β) (action : α) :
    Prop :=
  ∀ state seen result, observe state entry = .ok seen → act seen action = .ok result →
    ∃ acted, act state action = .ok acted ∧ observe acted entry = .ok result

theorem merge_swap {action : α} {seen : σ}
    (swaps : ∀ entry ∈ entries, Swaps act observe entry action)
    (observed : merge act observe actTime obsTime state [] entries = .ok seen)
    (acted : act seen action = .ok result) :
    ∃ first, act state action = .ok first ∧
      merge act observe actTime obsTime first [] entries = .ok result := by
  induction entries generalizing state with
  | nil =>
    simp only [merge, each, Except.ok.injEq] at observed
    subst observed
    exact ⟨result, acted, rfl⟩
  | cons entry entries ih =>
    simp only [merge, drain, pure, Except.pure, ok_bind, bind_eq_ok] at observed
    obtain ⟨next, made, rest⟩ := observed
    obtain ⟨middle, actedNext, merged⟩ :=
      ih (fun other member => swaps other (List.mem_cons_of_mem entry member)) rest
    obtain ⟨first, actedState, madeFirst⟩ :=
      swaps entry List.mem_cons_self state next middle made actedNext
    refine ⟨first, actedState, ?_⟩
    simp only [merge, drain, pure, Except.pure, ok_bind, madeFirst]
    exact merged

/-- An action not earlier than anything before it is taken last, provided it can be swapped with
the observations of its own time. -/
theorem merge_append_action {merged : σ}
    (sorted : entries.Pairwise fun a b => obsTime a ≤ obsTime b)
    (due : ∀ action ∈ actions, actTime action ≤ actTime last)
    (past : ∀ entry ∈ entries, obsTime entry ≤ actTime last)
    (swaps : ∀ entry ∈ entries, obsTime entry = actTime last → Swaps act observe entry last)
    (merges : merge act observe actTime obsTime state actions entries = .ok merged)
    (acted : act merged last = .ok result) :
    merge act observe actTime obsTime state (actions ++ [last]) entries = .ok result := by
  induction entries generalizing state actions with
  | nil =>
    simp only [merge] at merges ⊢
    rw [each_append, merges]
    simp [each, acted]
  | cons entry entries ih =>
    obtain ⟨first, sortedRest⟩ := List.pairwise_cons.mp sorted
    simp only [merge, bind_eq_ok, Prod.exists] at merges
    obtain ⟨caughtUp, later, drains, seen, observes, rest⟩ := merges
    rcases lt_or_eq_of_le (past entry List.mem_cons_self) with early | together
    · simp only [merge, drain_append_late early drains, ok_bind, observes]
      refine ih sortedRest (fun action member => due action (drain_subset drains member)) ?_ ?_
        rest
      · exact fun other member => past other (List.mem_cons_of_mem entry member)
      · exact fun other member => swaps other (List.mem_cons_of_mem entry member)
    · -- Every observation from here on has the time of the action, and nothing is left behind.
      have dueNow : ∀ action ∈ actions, actTime action ≤ obsTime entry := by
        intro action member
        rw [together]
        exact due action member
      have dueAll : ∀ action ∈ actions ++ [last], actTime action ≤ obsTime entry := by
        intro action member
        rcases mem_concat.mp member with old | new
        · exact dueNow action old
        · rw [new, together]
      rw [drain_all dueNow, bind_eq_ok] at drains
      obtain ⟨taken, takes, done⟩ := drains
      obtain ⟨rfl, rfl⟩ := Prod.mk.inj (pure_eq_ok.mp done)
      have swapsAll : ∀ other ∈ entry :: entries, Swaps act observe other last := by
        intro other member
        refine swaps other member (le_antisymm (past other member) ?_)
        rcases List.mem_cons.mp member with rfl | later
        · exact together.ge
        · exact together ▸ first other later
      have whole : merge act observe actTime obsTime taken [] (entry :: entries) =
          .ok merged := by
        simp only [merge, drain, pure, Except.pure, ok_bind, observes]
        exact rest
      obtain ⟨next, actedTaken, mergedNext⟩ := merge_swap swapsAll whole acted
      simp only [merge, drain, pure, Except.pure, ok_bind] at mergedNext ⊢
      rw [drain_all dueAll, each_append, takes]
      simp only [ok_bind, each, actedTaken, pure, Except.pure]
      exact mergedNext

end Merge

/-! ## Stable sorting -/

section Sorting

variable {before : α → α → Prop} [DecidableRel before]

theorem orderedInsert_append_last {item : α} (below : before item last) (items : List α) :
    (items ++ [last]).orderedInsert before item = items.orderedInsert before item ++ [last] := by
  induction items with
  | nil => simp [List.orderedInsert, below]
  | cons head tail ih =>
    simp only [List.cons_append, List.orderedInsert_cons]
    split
    · rfl
    · rw [ih, List.cons_append]

/-- An item that is not before any other is sorted last. -/
theorem insertionSort_append_last {items : List α} (below : ∀ item ∈ items, before item last) :
    (items ++ [last]).insertionSort before = items.insertionSort before ++ [last] := by
  induction items with
  | nil => simp
  | cons item items ih =>
    rw [List.cons_append, List.insertionSort_cons,
      ih fun other member => below other (List.mem_cons_of_mem item member),
      orderedInsert_append_last (below item List.mem_cons_self), List.insertionSort_cons]

end Sorting

end StockAnalysis.TimedMerge
