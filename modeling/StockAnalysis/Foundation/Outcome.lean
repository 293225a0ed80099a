import Mathlib.Logic.Basic
import Mathlib.Data.List.Basic

/-!
# Outcomes of fallible code

Fallible functions return `Except`. This module holds the two actions the models use besides
`throw` (a guard, and the conversion of an optional value), the inversion lemmas by which a
successful run is taken apart, the loops over a list that stop at the first error, and the rules
by which the errors that a run can return are bounded.
-/

namespace StockAnalysis

universe u v

variable {ε : Type u} {α β σ : Type v}

/-- Continue exactly when the condition holds; otherwise fail with the given error. -/
def require (condition : Prop) [Decidable condition] (error : ε) : Except ε PUnit :=
  if condition then .ok ⟨⟩ else .error error

/-- The value of an option, or the given error when there is none. -/
def okOr (value : Option α) (error : ε) : Except ε α :=
  match value with
  | some found => .ok found
  | none => .error error

variable {first : Except ε α} {rest : α → Except ε β} {result start : σ}
  {action : σ → α → Except ε σ} {value item : α} {items : List α}

/-- A sequence succeeds exactly when its first part does and the rest succeeds on that value. -/
theorem bind_eq_ok {result : β} :
    (first >>= rest) = .ok result ↔ ∃ value, first = .ok value ∧ rest value = .ok result := by
  cases first <;> simp [bind, Except.bind]

theorem map_eq_ok {f : α → β} {result : β} :
    (f <$> first) = .ok result ↔ ∃ value, first = .ok value ∧ f value = result := by
  cases first <;> simp [Functor.map, Except.map]

theorem mapError_eq_ok {ε' : Type u} {outcome : Except ε α} {f : ε → ε'} :
    outcome.mapError f = .ok value ↔ outcome = .ok value := by
  cases outcome <;> simp [Except.mapError]

theorem pure_eq_ok {result : α} :
    (pure value : Except ε α) = .ok result ↔ value = result := by
  simp [pure, Except.pure]

theorem require_eq_ok {condition : Prop} [Decidable condition] {error : ε} {done : PUnit} :
    require condition error = .ok done ↔ condition := by
  unfold require
  split <;> simp_all

theorem okOr_eq_ok {value : Option α} {error : ε} {result : α} :
    okOr value error = .ok result ↔ value = some result := by
  cases value <;> simp [okOr]

theorem isOk_iff {outcome : Except ε α} :
    outcome.isOk = true ↔ ∃ value, outcome = .ok value := by
  cases outcome <;> simp [Except.isOk, Except.toBool]

theorem require_pos {condition : Prop} [Decidable condition] {error : ε} (holds : condition) :
    require condition error = .ok ⟨⟩ :=
  if_pos holds

@[simp]
theorem ok_bind (value : α) (rest : α → Except ε β) :
    ((.ok value : Except ε α) >>= rest) = rest value :=
  rfl

@[simp]
theorem error_bind (error : ε) (rest : α → Except ε β) :
    ((.error error : Except ε α) >>= rest) = .error error :=
  rfl

theorem mem_concat {last : α} :
    item ∈ items ++ [last] ↔ item ∈ items ∨ item = last := by
  rw [List.mem_append, List.mem_singleton]

/-- Run a state-changing action over a list from the left, stopping at the first error. -/
def each (action : σ → α → Except ε σ) : σ → List α → Except ε σ
  | state, [] => .ok state
  | state, item :: items => do
      let next ← action state item
      each action next items

/-- An invariant that every accepted item preserves holds after the whole loop. -/
theorem each_induction (invariant : σ → Prop)
    (preserved : ∀ state item next, invariant state → action state item = .ok next →
      invariant next) (initial : invariant start) (finished : each action start items = .ok result)
    : invariant result := by
  induction items generalizing start with
  | nil =>
    simp only [each, Except.ok.injEq] at finished
    exact finished ▸ initial
  | cons item items ih =>
    obtain ⟨next, stepped, rest⟩ := bind_eq_ok.mp finished
    exact ih (preserved start item next initial stepped) rest

/-- An invariant that relates the state to the items accepted so far holds after the loop. -/
theorem each_trace (invariant : List α → σ → Prop)
    (preserved : ∀ accepted state item next, invariant accepted state →
      action state item = .ok next → invariant (accepted ++ [item]) next) {accepted : List α}
    (initial : invariant accepted start) (finished : each action start items = .ok result) :
    invariant (accepted ++ items) result := by
  induction items generalizing start accepted with
  | nil =>
    simp only [each, Except.ok.injEq] at finished
    rw [List.append_nil]
    exact finished ▸ initial
  | cons item items ih =>
    obtain ⟨next, stepped, rest⟩ := bind_eq_ok.mp finished
    have extended := ih (preserved accepted start item next initial stepped) rest
    rwa [List.append_assoc, List.singleton_append] at extended

/-- A loop whose every accepted step another action takes in the same way is taken by it. -/
theorem each_mono {other : σ → α → Except ε σ}
    (same : ∀ item ∈ items, ∀ state next, action state item = .ok next →
      other state item = .ok next) (finished : each action start items = .ok result) :
    each other start items = .ok result := by
  induction items generalizing start with
  | nil => exact finished
  | cons item items ih =>
    obtain ⟨next, stepped, rest⟩ := bind_eq_ok.mp finished
    refine bind_eq_ok.mpr ⟨next, same item List.mem_cons_self start next stepped, ?_⟩
    exact ih (fun other member => same other (List.mem_cons_of_mem item member)) rest

theorem each_append (action : σ → α → Except ε σ) (start : σ) (first second : List α) :
    each action start (first ++ second) =
      each action start first >>= fun middle => each action middle second := by
  induction first generalizing start with
  | nil => rfl
  | cons item items ih =>
    simp only [List.cons_append, each]
    cases action start item with
    | error error => rfl
    | ok next => exact ih next

theorem each_concat {middle next : σ} (finished : each action start items = .ok middle)
    (stepped : action middle item = .ok next) :
    each action start (items ++ [item]) = .ok next := by
  rw [each_append, finished, ok_bind]
  exact bind_eq_ok.mpr ⟨next, stepped, rfl⟩

/-! ## The errors of a run -/

/-- Every error that the run can return is an expected one. -/
def FailsOnly (expected : ε → Prop) (run : Except ε α) : Prop :=
  ∀ error, run = .error error → expected error

variable {reason : ε}

namespace FailsOnly

variable {expected : ε → Prop}

theorem ok (value : α) : FailsOnly expected (.ok value : Except ε α) := by
  intro error failed
  cases failed

theorem error (holds : expected reason) :
    FailsOnly expected (.error reason : Except ε α) := by
  intro error failed
  cases failed
  exact holds

theorem mono {weaker : ε → Prop} {run : Except ε α} (fails : FailsOnly expected run)
    (implies : ∀ reason, expected reason → weaker reason) : FailsOnly weaker run :=
  fun reason failed => implies reason (fails reason failed)

/-- A sequence fails as its first part does, or as the rest does on the first part's value. -/
theorem bind (head : FailsOnly expected first)
    (tail : ∀ value, first = .ok value → FailsOnly expected (rest value)) :
    FailsOnly expected (first >>= rest) := by
  cases first with
  | error reason => exact error (head reason rfl)
  | ok value => exact tail value rfl

theorem require {condition : Prop} [Decidable condition] (explained : condition ∨ expected reason) :
    FailsOnly expected (require condition reason) := by
  unfold StockAnalysis.require
  split
  · exact ok _
  · rename_i violated
    exact error (explained.resolve_left violated)

theorem okOr {value : Option α} (explained : value.isSome ∨ expected reason) :
    FailsOnly expected (okOr value reason) := by
  cases value with
  | none => exact error (explained.resolve_left (by simp))
  | some found => exact ok found

/-- A loop fails as one of its actions does. -/
theorem each (start : σ) (actions : ∀ item ∈ items, ∀ state, FailsOnly expected (action state item))
    :
    FailsOnly expected (each action start items) := by
  induction items generalizing start with
  | nil => exact ok start
  | cons item items ih =>
    refine (actions item List.mem_cons_self start).bind fun next _ => ?_
    exact ih next fun other member => actions other (List.mem_cons_of_mem item member)

end FailsOnly

end StockAnalysis
