import Mathlib.Data.List.Nodup
import StockAnalysis.Foundation.Outcome

/-!
# Patching a keyed list by its own difference

A list whose items carry distinct keys is compared with a later version of itself: items are
replaced under their key or dropped, and items with new keys are appended. The difference
records each changed item with what became of it, in order. Applying the difference to the old
list gives back the new one, order included.
-/

namespace StockAnalysis.KeyedPatch

/-- One change of an item: replaced, dropped or added. -/
structure Change (α : Type) where
  before : Option α
  after : Option α
deriving DecidableEq

variable {α κ ε : Type} [DecidableEq κ]

section Operations

variable [DecidableEq α]

/-- The change of one old item, if it changed. -/
def changeOf (key : α → κ) (after : List α) (old : α) : Option (Change α) :=
  let found := after.find? fun item => decide (key item = key old)
  if found = some old then none else some ⟨some old, found⟩

/-- The changes from one list to the other: old items in order, then the added ones. -/
def diff (key : α → κ) (before after : List α) : List (Change α) :=
  before.filterMap (changeOf key after) ++
    (after.filter fun item => !before.any fun old => decide (key old = key item)).map
      fun item => ⟨none, some item⟩

/-- Apply one change. An old item must be present unchanged, an added one must be new. -/
def patchOne (key : α → κ) (missing duplicate : ε) (items : List α) (change : Change α) :
    Except ε (List α) :=
  match change.before, change.after with
  | some old, after => do
      let index ← okOr (items.findIdx? fun item => decide (key item = key old) && decide (item = old))
        missing
      match after with
      | some item => pure (items.set index item)
      | none => pure (items.eraseIdx index)
  | none, some item => do
      require (items.any (fun other => decide (key other = key item)) = false) duplicate
      pure (items ++ [item])
  | none, none => pure items

/-- Apply a list of changes in order. -/
def patch (key : α → κ) (missing duplicate : ε) (items : List α) (changes : List (Change α)) :
    Except ε (List α) :=
  each (patchOne key missing duplicate) items changes

end Operations

variable {before kept fresh : List α}

section Kept

variable {key : α → κ} {evolve : α → Option α}

/-- Looking an old item up by key in its evolved list gives what it evolved into. -/
theorem find?_evolved (keeps : ∀ old item, evolve old = some item → key item = key old)
    (distinct : (before.map key).Nodup) {old : α} (member : old ∈ before) :
    ((before.filterMap evolve).find? fun item => decide (key item = key old)) = evolve old := by
  induction before with
  | nil => cases member
  | cons head tail ih =>
    obtain ⟨headNew, tailDistinct⟩ := List.nodup_cons.mp distinct
    rcases List.mem_cons.mp member with rfl | inTail
    · cases evolved : evolve old with
      | some item => simp [evolved, keeps old item evolved]
      | none =>
        simp only [List.filterMap_cons, evolved, List.find?_eq_none, List.mem_filterMap,
          decide_eq_true_eq]
        rintro item ⟨other, otherMember, otherEvolved⟩ sameKey
        exact headNew (List.mem_map.mpr
          ⟨other, otherMember, (keeps other item otherEvolved).symm.trans sameKey⟩)
    · have different : key head ≠ key old := fun same =>
        headNew (List.mem_map.mpr ⟨old, inTail, same.symm⟩)
      cases evolved : evolve head with
      | some item =>
        have itemKey : key item ≠ key old := fun same =>
          different ((keeps head item evolved).symm.trans same)
        simpa [List.filterMap_cons, evolved, itemKey] using ih tailDistinct inTail
      | none => simpa [List.filterMap_cons, evolved] using ih tailDistinct inTail

/-- A list whose keys are a sublist of the old ones is the evolution that looks each old item
up in it. -/
theorem filterMap_find?_of_sublist (distinct : (before.map key).Nodup)
    (sublist : (kept.map key).Sublist (before.map key)) :
    before.filterMap (fun old => kept.find? fun item => decide (key item = key old)) = kept := by
  induction before generalizing kept with
  | nil =>
    have : kept = [] := by simpa using sublist
    simp [this]
  | cons head tail ih =>
    obtain ⟨headNew, tailDistinct⟩ := List.nodup_cons.mp distinct
    cases kept with
    | nil => simp
    | cons first rest =>
      rw [List.map_cons, List.map_cons] at sublist
      by_cases same : key first = key head
      · have restSublist : (rest.map key).Sublist (tail.map key) := by
          rw [same] at sublist
          exact List.cons_sublist_cons.mp sublist
        have others : tail.filterMap (fun old =>
            (first :: rest).find? fun item => decide (key item = key old)) =
            tail.filterMap fun old => rest.find? fun item => decide (key item = key old) := by
          refine List.filterMap_congr fun old member => ?_
          have different : key first ≠ key old := fun equal =>
            headNew (List.mem_map.mpr ⟨old, member, equal.symm.trans same⟩)
          simp [different]
        rw [List.filterMap_cons, others, ih tailDistinct restSublist]
        simp [same]
      · have tailSublist : ((first :: rest).map key).Sublist (tail.map key) := by
          rcases List.sublist_cons_iff.mp sublist with inTail | ⟨_, atHead, _⟩
          · exact inTail
          · exact absurd (List.cons.inj atHead).1 same
        have absent : ((first :: rest).find? fun item => decide (key item = key head)) =
            none := by
          simp only [List.find?_eq_none, decide_eq_true_eq]
          exact fun item member equal =>
            headNew (equal ▸ tailSublist.subset (List.mem_map_of_mem member))
        rw [List.filterMap_cons, absent]
        exact ih tailDistinct tailSublist

variable [DecidableEq α]

/-- The changes among the old items, once each item's evolution is known. -/
def keptChanges (evolve : α → Option α) (before : List α) : List (Change α) :=
  before.filterMap fun old => if evolve old = some old then none else some ⟨some old, evolve old⟩

/-- The difference to an evolved list followed by new items. -/
theorem diff_evolved (keeps : ∀ old item, evolve old = some item → key item = key old)
    (distinct : (before.map key).Nodup) (new : ∀ item ∈ fresh, key item ∉ before.map key) :
    diff key before (before.filterMap evolve ++ fresh) =
      keptChanges evolve before ++ fresh.map fun item => ⟨none, some item⟩ := by
  have found : ∀ old ∈ before,
      ((before.filterMap evolve ++ fresh).find? fun item => decide (key item = key old)) =
        evolve old := by
    intro old member
    rw [List.find?_append, find?_evolved keeps distinct member]
    have absent : (fresh.find? fun item => decide (key item = key old)) = none := by
      simp only [List.find?_eq_none, decide_eq_true_eq]
      exact fun item itemMember same =>
        new item itemMember (List.mem_map.mpr ⟨old, member, same.symm⟩)
    rw [absent, Option.or_none]
  have kept : before.filterMap (changeOf key (before.filterMap evolve ++ fresh)) =
      keptChanges evolve before := by
    refine List.filterMap_congr fun old member => ?_
    simp only [changeOf, found old member]
  have evolvedDropped : ((before.filterMap evolve).filter fun item =>
      !before.any fun old => decide (key old = key item)) = [] := by
    simp only [List.filter_eq_nil_iff, List.mem_filterMap]
    rintro item ⟨old, member, evolved⟩
    simpa using ⟨old, member, (keeps old item evolved).symm⟩
  have freshKept : (fresh.filter fun item =>
      !before.any fun old => decide (key old = key item)) = fresh := by
    simp only [List.filter_eq_self]
    intro item itemMember
    have absent := new item itemMember
    simpa using absent
  rw [diff, kept, List.filter_append, evolvedDropped, freshKept, List.nil_append]

/-- Applying the changes of the remaining old items behind an already patched part. -/
theorem patch_keptChanges (missing duplicate : ε) {done : List α}
    (distinct : (before.map key).Nodup) (apart : ∀ item ∈ done, key item ∉ before.map key)
    (keeps : ∀ old item, evolve old = some item → key item = key old) :
    patch key missing duplicate (done ++ before) (keptChanges evolve before) =
      .ok (done ++ before.filterMap evolve) := by
  induction before generalizing done with
  | nil => rfl
  | cons head tail ih =>
    obtain ⟨headNew, tailDistinct⟩ := List.nodup_cons.mp distinct
    have apartTail : ∀ item ∈ done, key item ∉ tail.map key := fun item member inTail =>
      apart item member (List.mem_cons_of_mem _ inTail)
    -- The first unpatched item is the only one with its key, so it is the one found.
    have index : ((done ++ head :: tail).findIdx?
        fun item => decide (key item = key head) && decide (item = head)) =
          some done.length := by
      have absent : (done.findIdx? fun item =>
          decide (key item = key head) && decide (item = head)) = none := by
        simp only [List.findIdx?_eq_none_iff, Bool.and_eq_false_iff, decide_eq_false_iff_not]
        exact fun item member => Or.inl fun same => absurd (by simp [same]) (apart item member)
      simp [List.findIdx?_append, absent, List.findIdx?_cons]
    by_cases same : evolve head = some head
    · have doneHead : ∀ item ∈ done ++ [head], key item ∉ tail.map key := by
        intro item member
        rcases mem_concat.mp member with inDone | atHead
        · exact apartTail item inDone
        · rw [atHead]
          exact headNew
      have rest := ih tailDistinct doneHead
      simpa [keptChanges, List.filterMap_cons, same] using rest
    · cases evolved : evolve head with
      | none =>
        have rest := ih tailDistinct apartTail
        simp only [keptChanges, patch] at rest
        simp [keptChanges, patch, each, patchOne, evolved, index,
          okOr, pure, Except.pure, List.eraseIdx_append_of_length_le, rest]
      | some item =>
        have itemKey : key item = key head := keeps head item evolved
        have doneItem : ∀ other ∈ done ++ [item], key other ∉ tail.map key := by
          intro other member
          rcases mem_concat.mp member with inDone | atItem
          · exact apartTail other inDone
          · rw [atItem, itemKey]
            exact headNew
        have rest := ih tailDistinct doneItem
        simp only [keptChanges, patch, List.append_assoc, List.singleton_append] at rest
        have changed : ¬ item = head := fun equal => same (equal ▸ evolved)
        simp [keptChanges, patch, each, patchOne, evolved, changed, index,
          okOr, pure, Except.pure, rest]

/-- Applying the additions appends them, when their keys are new and distinct. -/
theorem patch_added (key : α → κ) (missing duplicate : ε) {items : List α}
    (distinct : (fresh.map key).Nodup) (new : ∀ item ∈ fresh, key item ∉ items.map key) :
    patch key missing duplicate items (fresh.map fun item => ⟨none, some item⟩) =
      .ok (items ++ fresh) := by
  induction fresh generalizing items with
  | nil => simp [patch, each]
  | cons head tail ih =>
    obtain ⟨headNew, tailDistinct⟩ := List.nodup_cons.mp distinct
    have headFree : items.any (fun other => decide (key other = key head)) = false := by
      have absent := new head List.mem_cons_self
      simpa using absent
    have newTail : ∀ item ∈ tail, key item ∉ (items ++ [head]).map key := by
      intro item member inItems
      simp only [List.map_append, List.map_cons, List.map_nil, List.mem_append,
        List.mem_singleton] at inItems
      rcases inItems with old | atHead
      · exact new item (List.mem_cons_of_mem head member) old
      · exact headNew (List.mem_map.mpr ⟨item, member, atHead⟩)
    have rest := ih tailDistinct newTail
    simp only [patch, List.append_assoc, List.singleton_append] at rest
    simp [patch, each, patchOne, headFree, require, pure, Except.pure, rest]

/-- A keyed list patched by its difference to a version that keeps some of its keys, in order,
and adds new ones is that version. -/
theorem patch_diff (missing duplicate : ε) (distinct : (before.map key).Nodup)
    (sublist : (kept.map key).Sublist (before.map key)) (freshDistinct : (fresh.map key).Nodup)
    (new : ∀ item ∈ fresh, key item ∉ before.map key) :
    patch key missing duplicate before (diff key before (kept ++ fresh)) =
      .ok (kept ++ fresh) := by
  let evolve : α → Option α := fun old => kept.find? fun item => decide (key item = key old)
  have keeps : ∀ old item, evolve old = some item → key item = key old := fun old item found => by
    simpa using List.find?_some found
  have evolved : before.filterMap evolve = kept := filterMap_find?_of_sublist distinct sublist
  have newAfter : ∀ item ∈ fresh, key item ∉ kept.map key := fun item member inKept =>
    new item member (sublist.subset inKept)
  have patched := patch_keptChanges missing duplicate distinct (by simp : ∀ item ∈ [], _) keeps
  rw [← evolved, diff_evolved keeps distinct new, patch, each_append]
  simp only [List.nil_append, patch] at patched
  rw [patched, evolved]
  exact patch_added key missing duplicate freshDistinct newAfter

end Kept

end StockAnalysis.KeyedPatch
