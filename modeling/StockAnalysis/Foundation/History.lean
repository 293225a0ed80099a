import Mathlib.Data.List.Basic

/-!
# Histories

A history is a list that grows at its end. What was required of an event when it was written stays
true of the part before it, and the part of a history that is about one subject grows only by
events about that subject.
-/

namespace StockAnalysis.History

universe u v

variable {E : Type u} {K : Type v} {log : List E} {event : E} {key : K}

/-- A list with one item at its end, split elsewhere or there. -/
theorem concat_split {earlier later : List E} {last entry : E}
    (split : log ++ [last] = earlier ++ entry :: later) :
    (earlier = log ∧ entry = last ∧ later = []) ∨
      ∃ rest, later = rest ++ [last] ∧ log = earlier ++ entry :: rest := by
  rcases List.eq_nil_or_concat later with rfl | ⟨rest, final, rfl⟩
  · obtain ⟨same, isLast⟩ := List.append_inj' split rfl
    exact .inl ⟨same.symm, (List.cons.inj isLast).1.symm, rfl⟩
  · rw [List.concat_eq_append, ← List.cons_append, ← List.append_assoc] at split
    obtain ⟨same, isLast⟩ := List.append_inj' split rfl
    refine .inr ⟨rest, ?_, same⟩
    rw [List.concat_eq_append, (List.cons.inj isLast).1]

/-- Every event is preceded by what it requires. -/
def Preceded (requires : List E → E → Prop) (log : List E) : Prop :=
  ∀ before event after, log = before ++ event :: after → requires before event

theorem Preceded.nil (requires : List E → E → Prop) : Preceded requires [] := by
  intro before event after split
  simp at split

theorem Preceded.concat {requires : List E → E → Prop} (preceded : Preceded requires log)
    (now : requires log event) :
    Preceded requires (log ++ [event]) := by
  intro before other after split
  rcases concat_split split with ⟨rfl, rfl, _⟩ | ⟨rest, _, older⟩
  · exact now
  · exact preceded before other rest older

variable [DecidableEq K] {subject : E → Option K}

/-- The part of a history that is about a subject. -/
def about (subject : E → Option K) (key : K) (log : List E) : List E :=
  log.filter fun event => subject event = some key

theorem mem_about :
    event ∈ about subject key log ↔ event ∈ log ∧ subject event = some key := by
  simp [about]

theorem about_concat_own (own : subject event = some key) :
    about subject key (log ++ [event]) = about subject key log ++ [event] := by
  simp [about, own]

theorem about_concat_other (other : subject event ≠ some key) :
    about subject key (log ++ [event]) = about subject key log := by
  simp [about, other]

theorem about_eq_nil (unknown : ∀ event ∈ log, subject event ≠ some key) :
    about subject key log = [] := by
  simpa [about, List.filter_eq_nil_iff] using unknown

end StockAnalysis.History
