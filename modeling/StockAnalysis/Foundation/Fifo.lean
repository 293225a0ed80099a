import Mathlib.Algebra.BigOperators.Group.List.Basic
import Mathlib.Algebra.GroupWithZero.Nat
import Mathlib.Data.List.Pairwise
import Mathlib.Data.List.TakeWhile

/-!
# Taking from the front of a queue of batches

A queue holds batches of shares. Taking shares goes through the batches from the front, stops at a
batch that may not be taken from, and leaves the last batch it touched with its rest. What is left
does not depend on how the taking was divided: it is the queue without its first shares.
-/

namespace StockAnalysis.Fifo

/-- How the shares of a batch are counted and replaced. -/
structure Measure (β : Type) where
  size : β → Nat
  resize : β → Nat → β
  size_resize : ∀ batch n, size (resize batch n) = n
  resize_size : ∀ batch, resize batch (size batch) = batch
  resize_resize : ∀ batch n m, resize (resize batch n) m = resize batch m

/-- Why shares cannot be taken. -/
inductive Shortage (β : Type) where
  | exhausted (remaining : Nat)
  | blocked (batch : β)

section Queue

variable {β : Type} (measure : Measure β)

/-- The shares of a queue. -/
def total (queue : List β) : Nat :=
  (queue.map measure.size).sum

/-- Take shares from the front. A batch that is used up leaves the queue. -/
def consume (allowed : β → Bool) : Nat → List β → Except (Shortage β) (List β)
  | 0, queue => .ok queue
  | n + 1, [] => .error (.exhausted (n + 1))
  | n + 1, batch :: rest =>
    if allowed batch then
      let taken := min (n + 1) (measure.size batch)
      if measure.size batch - taken = 0 then consume allowed (n + 1 - taken) rest
      else .ok (measure.resize batch (measure.size batch - taken) :: rest)
    else .error (.blocked batch)

/-- The queue without its first shares. -/
def unsold : Nat → List β → List β
  | _, [] => []
  | n, batch :: rest =>
    if measure.size batch ≤ n then unsold (n - measure.size batch) rest
    else measure.resize batch (measure.size batch - n) :: rest

/-- The shares in front of the first batch that may not be taken from. -/
def available (allowed : β → Bool) (queue : List β) : Nat :=
  total measure (queue.takeWhile allowed)

/-- Every batch holds shares. -/
def Positive (queue : List β) : Prop :=
  ∀ batch ∈ queue, 0 < measure.size batch

variable {measure}

@[simp]
theorem total_nil : total measure [] = 0 :=
  rfl

@[simp]
theorem total_cons (batch : β) (rest : List β) :
    total measure (batch :: rest) = measure.size batch + total measure rest :=
  rfl

@[simp]
theorem total_append (front back : List β) :
    total measure (front ++ back) = total measure front + total measure back := by
  simp [total]

theorem unsold_zero {queue : List β} (positive : Positive measure queue) :
    unsold measure 0 queue = queue := by
  cases queue with
  | nil => rfl
  | cons batch rest =>
    have holds := positive batch List.mem_cons_self
    rw [unsold, if_neg (by omega), Nat.sub_zero, measure.resize_size]

theorem unsold_unsold (n m : Nat) (queue : List β) :
    unsold measure m (unsold measure n queue) = unsold measure (n + m) queue := by
  induction queue generalizing n with
  | nil => rfl
  | cons batch rest ih =>
    by_cases whole : measure.size batch ≤ n
    · rw [unsold, if_pos whole, ih, unsold, if_pos (by omega)]
      congr 1
      omega
    · rw [unsold, if_neg whole, unsold, unsold, measure.size_resize, measure.resize_resize]
      by_cases rest : measure.size batch - n ≤ m
      · rw [if_pos rest, if_pos (by omega)]
        congr 1
        omega
      · rw [if_neg rest, if_neg (by omega)]
        congr 2
        omega

/-- Shares that are in the front are not taken from the back. -/
theorem unsold_append {n : Nat} {front : List β} (back : List β)
    (positive : Positive measure back) (enough : n ≤ total measure front) :
    unsold measure n (front ++ back) = unsold measure n front ++ back := by
  induction front generalizing n with
  | nil =>
    obtain rfl : n = 0 := by simpa using enough
    exact unsold_zero positive
  | cons batch rest ih =>
    rw [List.cons_append, unsold, unsold]
    rw [total_cons] at enough
    split
    · exact ih (by omega)
    · rfl

theorem total_unsold (n : Nat) (queue : List β) :
    total measure (unsold measure n queue) = total measure queue - n := by
  induction queue generalizing n with
  | nil => simp [unsold]
  | cons batch rest ih =>
    rw [unsold]
    split
    · rw [ih, total_cons]
      omega
    · rw [total_cons, total_cons, measure.size_resize]
      omega

theorem positive_unsold {queue : List β} (positive : Positive measure queue) (n : Nat) :
    Positive measure (unsold measure n queue) := by
  induction queue generalizing n with
  | nil => exact positive
  | cons batch rest ih =>
    have restPositive : Positive measure rest := fun other member =>
      positive other (List.mem_cons_of_mem batch member)
    rw [unsold]
    split
    · exact ih restPositive _
    · intro other member
      rcases List.mem_cons.mp member with rfl | inRest
      · rw [measure.size_resize]
        omega
      · exact restPositive other inRest

/-- A queue that is left whole lost nothing. -/
theorem eq_zero_of_unsold {n : Nat} {queue : List β} (enough : n ≤ total measure queue)
    (whole : unsold measure n queue = queue) : n = 0 := by
  have left := @total_unsold _ measure n queue
  rw [whole] at left
  omega

/-- What is left of a queue are batches of it, in order. -/
theorem map_unsold_sublist {κ : Type} {key : β → κ}
    (kept : ∀ batch m, key (measure.resize batch m) = key batch) (n : Nat) (queue : List β) :
    ((unsold measure n queue).map key).Sublist (queue.map key) := by
  induction queue generalizing n with
  | nil => exact List.Sublist.refl _
  | cons batch rest ih =>
    rw [unsold]
    split
    · exact (ih _).trans (List.sublist_cons_self _ _)
    · rw [List.map_cons, kept, List.map_cons]

section Taking

variable {allowed : β → Bool}

@[simp]
theorem available_nil : available measure allowed [] = 0 :=
  rfl

theorem available_cons (batch : β) (rest : List β) :
    available measure allowed (batch :: rest) =
      if allowed batch then measure.size batch + available measure allowed rest else 0 := by
  unfold available
  split
  · rename_i isAllowed
    rw [List.takeWhile_cons_of_pos isAllowed, total_cons]
  · rename_i notAllowed
    rw [List.takeWhile_cons_of_neg notAllowed, total_nil]

theorem available_le (queue : List β) : available measure allowed queue ≤ total measure queue := by
  induction queue with
  | nil => rfl
  | cons batch rest ih =>
    rw [available_cons, total_cons]
    split <;> omega

/-- The available shares of a queue that lost some of them. -/
theorem available_unsold {n : Nat} {queue : List β} (positive : Positive measure queue)
    (stays : ∀ batch m, allowed (measure.resize batch m) = allowed batch)
    (enough : n ≤ available measure allowed queue) :
    available measure allowed (unsold measure n queue) = available measure allowed queue - n := by
  induction queue generalizing n with
  | nil => simp [unsold]
  | cons batch rest ih =>
    have holds := positive batch List.mem_cons_self
    have restPositive : Positive measure rest := fun other member =>
      positive other (List.mem_cons_of_mem batch member)
    rw [available_cons] at enough ⊢
    rw [unsold]
    split at enough
    · rename_i isAllowed
      rw [if_pos isAllowed]
      split
      · rw [ih restPositive (by omega)]
        omega
      · rw [available_cons, stays, if_pos isAllowed, measure.size_resize]
        omega
    · rename_i notAllowed
      rw [if_neg notAllowed, if_neg (by omega), available_cons, stays, if_neg notAllowed]
      omega

/-- Where nothing behind a batch that may not be taken from may be taken from, the available shares
are those of all batches that may. -/
theorem available_eq_filter {queue : List β}
    (ordered : queue.Pairwise fun earlier later => allowed later = true → allowed earlier = true) :
    available measure allowed queue = total measure (queue.filter allowed) := by
  induction queue with
  | nil => rfl
  | cons batch rest ih =>
    obtain ⟨first, others⟩ := List.pairwise_cons.mp ordered
    rw [available_cons]
    split
    · rename_i isAllowed
      rw [List.filter_cons_of_pos isAllowed, total_cons, ih others]
    · rename_i notAllowed
      have none : (batch :: rest).filter allowed = [] := by
        rw [List.filter_cons_of_neg notAllowed, List.filter_eq_nil_iff]
        exact fun later member isAllowed => notAllowed (first later member isAllowed)
      rw [none, total_nil]

/-- Taking shares succeeds exactly when they are available, and leaves the queue without them. -/
theorem consume_eq_ok {n : Nat} {queue left : List β} (positive : Positive measure queue) :
    consume measure allowed n queue = .ok left ↔
      n ≤ available measure allowed queue ∧ left = unsold measure n queue := by
  induction queue generalizing n with
  | nil =>
    cases n with
    | zero => simp [consume, unsold, eq_comm]
    | succ n => simp [consume]
  | cons batch rest ih =>
    have holds := positive batch List.mem_cons_self
    have restPositive : Positive measure rest := fun other member =>
      positive other (List.mem_cons_of_mem batch member)
    cases n with
    | zero => simp [consume, unsold_zero positive, eq_comm]
    | succ n =>
      rw [consume, available_cons, unsold]
      by_cases isAllowed : allowed batch = true
      · rw [if_pos isAllowed, if_pos isAllowed]
        dsimp only
        by_cases whole : measure.size batch ≤ n + 1
        · rw [if_pos (by omega), if_pos whole, ih restPositive, Nat.min_eq_right whole]
          refine and_congr ?_ Iff.rfl
          omega
        · have partly : ¬ measure.size batch - min (n + 1) (measure.size batch) = 0 := by omega
          rw [if_neg partly, if_neg whole, Nat.min_eq_left (by omega), Except.ok.injEq, eq_comm]
          refine ⟨fun same => ⟨by omega, same⟩, And.right⟩
      · rw [if_neg isAllowed, if_neg isAllowed]
        simp

end Taking

section Mapped

variable {γ : Type} {other : Measure γ} {f : β → γ}

section

variable (sizes : ∀ batch, other.size (f batch) = measure.size batch)

include sizes

theorem total_map (queue : List β) : total other (queue.map f) = total measure queue := by
  simp only [total, List.map_map, Function.comp_def, sizes]

/-- A queue seen through a map of its batches loses the same shares. -/
theorem unsold_map (resizes : ∀ batch m, other.resize (f batch) m = f (measure.resize batch m))
    (n : Nat) (queue : List β) : unsold other n (queue.map f) = (unsold measure n queue).map f := by
  induction queue generalizing n with
  | nil => rfl
  | cons batch rest ih =>
    rw [List.map_cons, unsold, unsold, sizes]
    split
    · exact ih _
    · rw [resizes, List.map_cons]

theorem available_map {allowed : β → Bool} {also : γ → Bool}
    (same : ∀ batch, also (f batch) = allowed batch) (queue : List β) :
    available other also (queue.map f) = available measure allowed queue := by
  induction queue with
  | nil => rfl
  | cons batch rest ih => rw [List.map_cons, available_cons, available_cons, same, sizes, ih]

end

end Mapped

end Queue

end StockAnalysis.Fifo
