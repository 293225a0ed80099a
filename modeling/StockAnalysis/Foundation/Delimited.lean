import Mathlib.Data.List.Basic

/-!
# Codes that show where they end

A code is cancelled from the left of a longer word when the word determines both the item and what
follows it. Some codes need to know what may follow: the decimal text of a number ends only where
no digit follows. From the items the property passes to sequences that a symbol of their own
closes, with or without a separator.
-/

namespace StockAnalysis.Delimited

variable {α β : Type} {write : α → List β} {stops : List β → Prop} {separator close : β}

/-- The code of an item is told from every other code, and from what follows it. -/
def Cancels (stops : List β → Prop) (write : α → List β) (item : α) : Prop :=
  ∀ other rest tail, stops rest → stops tail → write item ++ rest = write other ++ tail →
    item = other ∧ rest = tail

/-- No code of these items begins with the closing symbol. -/
def Apart (close : β) (write : α → List β) (item : α) : Prop :=
  ∀ rest, (write item ++ rest).head? ≠ some close

variable {item : α} {items others : List α} {rest tail : List β}

theorem Apart.ne_cons (apart : Apart close write item) (rest tail : List β) :
    write item ++ rest ≠ close :: tail := by
  intro same
  exact apart rest (by rw [same, List.head?_cons])

/-- A closed sequence of codes determines the items. -/
theorem flatMap_closed (cancels : ∀ item, Cancels (fun _ => True) write item)
    (apart : ∀ item ∈ items, Apart close write item)
    (othersApart : ∀ item ∈ others, Apart close write item)
    (same : items.flatMap write ++ close :: rest = others.flatMap write ++ close :: tail) :
    items = others ∧ rest = tail := by
  induction items generalizing others with
  | nil =>
    cases others with
    | nil => exact ⟨rfl, (List.cons.inj same).2⟩
    | cons other others =>
      rw [List.flatMap_cons, List.append_assoc] at same
      exact absurd same.symm ((othersApart other List.mem_cons_self).ne_cons _ _)
  | cons item items ih =>
    cases others with
    | nil =>
      rw [List.flatMap_cons, List.append_assoc] at same
      exact absurd same ((apart item List.mem_cons_self).ne_cons _ _)
    | cons other others =>
      simp only [List.flatMap_cons, List.append_assoc] at same
      obtain ⟨rfl, remaining⟩ := cancels item other _ _ trivial trivial same
      obtain ⟨rfl, ends⟩ := ih (fun one member => apart one (List.mem_cons_of_mem item member))
        (fun one member => othersApart one (List.mem_cons_of_mem item member)) remaining
      exact ⟨rfl, ends⟩

/-- The codes of the items, with the separator before each but the one of index zero. -/
def separated (separator : β) (write : α → List β) (index : Nat) : List α → List β
  | [] => []
  | item :: items =>
    (if index ≠ 0 then [separator] else []) ++ write item ++
      separated separator write (index + 1) items

theorem separated_stops (after : ∀ rest, stops (separator :: rest))
    (ends : ∀ rest, stops (close :: rest)) (index : Nat) (items : List α) (rest : List β) :
    stops (separated separator write (index + 1) items ++ close :: rest) := by
  cases items with
  | nil => exact ends rest
  | cons item items =>
    rw [separated, if_pos (Nat.succ_ne_zero index)]
    exact after _

/-- A closed sequence of separated codes does not end before its first item. -/
theorem separated_ne_close (differ : separator ≠ close) (apart : Apart close write item)
    (index : Nat) (items : List α) (rest tail : List β) :
    separated separator write index (item :: items) ++ rest ≠ close :: tail := by
  rw [separated]
  split
  · intro same
    exact differ (List.cons.inj same).1
  · simp only [List.nil_append, List.append_assoc]
    exact apart.ne_cons _ _

/-- A closed sequence of separated codes determines the items. Only the codes of the first sequence
have to be cancelled, so that the lemma serves in an induction over them. -/
theorem separated_closed (differ : separator ≠ close) (after : ∀ rest, stops (separator :: rest))
    (ends : ∀ rest, stops (close :: rest)) (apart : ∀ item, Apart close write item)
    (cancels : ∀ item ∈ items, Cancels stops write item) (index : Nat)
    (same : separated separator write index items ++ close :: rest =
      separated separator write index others ++ close :: tail) :
    items = others ∧ rest = tail := by
  induction items generalizing index others with
  | nil =>
    cases others with
    | nil => exact ⟨rfl, (List.cons.inj same).2⟩
    | cons other others =>
      exact absurd same.symm (separated_ne_close differ (apart other) index others _ _)
  | cons item items ih =>
    cases others with
    | nil => exact absurd same (separated_ne_close differ (apart item) index items _ _)
    | cons other others =>
      simp only [separated, List.append_assoc, List.append_cancel_left_eq] at same
      obtain ⟨rfl, remaining⟩ := cancels item List.mem_cons_self other _ _
        (separated_stops after ends index items rest)
        (separated_stops after ends index others tail) same
      obtain ⟨rfl, closed⟩ := ih
        (fun one member => cancels one (List.mem_cons_of_mem item member)) _ remaining
      exact ⟨rfl, closed⟩

end StockAnalysis.Delimited
