import Mathlib.Algebra.BigOperators.Group.List.Basic
import Mathlib.Algebra.GroupWithZero.Nat
import Mathlib.Order.Lattice
import Mathlib.Data.Prod.Basic

/-!
# Ordered finite maps

An ordered map is a list of entries whose keys increase strictly, so a map has one
representation: two maps with the same lookups are equal, and iteration is in key order. The
operations are those of a tree map with unique keys (lookup, insertion that replaces, removal,
retention by key), and each is described by its effect on lookups and on sums over the values.
-/

namespace StockAnalysis

universe u v

/-- A finite map whose entries are listed by strictly increasing key. -/
structure OrdMap (K : Type u) (V : Type v) [LinearOrder K] where
  entries : List (K × V)
  sorted : entries.Pairwise fun a b => a.1 < b.1

namespace OrdMap

section Entries

variable {K : Type u} {V : Type v} [LinearOrder K] {key : K} {value : V} {entries : List (K × V)}

/-- The value stored under a key in a list of entries. -/
def find? (key : K) : List (K × V) → Option V
  | [] => none
  | entry :: entries => if entry.1 = key then some entry.2 else find? key entries

/-- Insert an entry at its place in the key order, replacing the entry of an equal key. -/
def insertEntry (key : K) (value : V) : List (K × V) → List (K × V)
  | [] => [(key, value)]
  | entry :: entries =>
    if key < entry.1 then (key, value) :: entry :: entries
    else if entry.1 = key then (key, value) :: entries
    else entry :: insertEntry key value entries

theorem mem_insertEntry {entry : K × V} (member : entry ∈ insertEntry key value entries) :
    entry = (key, value) ∨ entry ∈ entries := by
  induction entries with
  | nil => simpa [insertEntry] using member
  | cons head tail ih =>
    unfold insertEntry at member
    split at member
    · simpa using member
    · split at member
      · rcases List.mem_cons.mp member with same | inTail
        · exact Or.inl same
        · exact Or.inr (List.mem_cons_of_mem head inTail)
      · rcases List.mem_cons.mp member with same | inTail
        · exact Or.inr (same ▸ List.mem_cons_self)
        · exact (ih inTail).imp_right (List.mem_cons_of_mem head)

theorem sorted_insertEntry (key : K) (value : V) (sorted : entries.Pairwise fun a b => a.1 < b.1) :
    (insertEntry key value entries).Pairwise fun a b => a.1 < b.1 := by
  induction entries with
  | nil => simp [insertEntry]
  | cons head tail ih =>
    obtain ⟨above, tailSorted⟩ := List.pairwise_cons.mp sorted
    unfold insertEntry
    split
    · rename_i before
      refine List.pairwise_cons.mpr ⟨fun entry member => ?_, sorted⟩
      rcases List.mem_cons.mp member with same | inTail
      · exact same ▸ before
      · exact lt_trans before (above entry inTail)
    · rename_i notBefore
      split
      · rename_i same
        exact List.pairwise_cons.mpr ⟨fun entry member => same ▸ above entry member, tailSorted⟩
      · rename_i different
        refine List.pairwise_cons.mpr ⟨fun entry member => ?_, ih tailSorted⟩
        rcases mem_insertEntry member with rfl | inTail
        · exact lt_of_le_of_ne (not_lt.mp notBefore) different
        · exact above entry inTail

theorem find?_insertEntry (key other : K) (value : V) (entries : List (K × V)) :
    find? other (insertEntry key value entries) =
      if key = other then some value else find? other entries := by
  induction entries with
  | nil => simp [insertEntry, find?]
  | cons head tail ih =>
    unfold insertEntry
    split
    · rfl
    · split
      · rename_i same
        by_cases wanted : key = other
        · simp [find?, wanted]
        · simp [find?, wanted, same]
      · rename_i different
        simp only [find?, ih]
        by_cases headWanted : head.1 = other
        · have : key ≠ other := fun wanted => different (headWanted.trans wanted.symm)
          simp [headWanted, this]
        · simp [headWanted]

theorem find?_eq_none_of_below (above : ∀ entry ∈ entries, key < entry.1) :
    find? key entries = none := by
  induction entries with
  | nil => rfl
  | cons head tail ih =>
    have headAbove : key < head.1 := above head List.mem_cons_self
    simp only [find?, if_neg headAbove.ne']
    exact ih fun entry member => above entry (List.mem_cons_of_mem head member)

theorem find?_eq_some_of_mem (sorted : entries.Pairwise fun a b => a.1 < b.1)
    (member : (key, value) ∈ entries) : find? key entries = some value := by
  induction entries with
  | nil => cases member
  | cons head tail ih =>
    obtain ⟨above, tailSorted⟩ := List.pairwise_cons.mp sorted
    rcases List.mem_cons.mp member with same | inTail
    · subst same
      simp [find?]
    · have : head.1 ≠ key := (above (key, value) inTail).ne
      simp only [find?, if_neg this]
      exact ih tailSorted inTail

theorem mem_of_find?_eq_some (found : find? key entries = some value) : (key, value) ∈ entries := by
  induction entries with
  | nil => cases found
  | cons head tail ih =>
    unfold find? at found
    split at found
    · rename_i same
      obtain rfl : head.2 = value := Option.some.inj found
      exact same ▸ List.mem_cons_self
    · exact List.mem_cons_of_mem head (ih found)

/-- Sorted entries with the same lookups are the same list. -/
theorem entries_ext {first second : List (K × V)}
    (firstSorted : first.Pairwise fun a b => a.1 < b.1)
    (secondSorted : second.Pairwise fun a b => a.1 < b.1)
    (same : ∀ key, find? key first = find? key second) : first = second := by
  induction first generalizing second with
  | nil =>
    cases second with
    | nil => rfl
    | cons head tail => simpa [find?] using same head.1
  | cons head tail ih =>
    cases second with
    | nil => simpa [find?] using same head.1
    | cons other rest =>
      obtain ⟨above, tailSorted⟩ := List.pairwise_cons.mp firstSorted
      obtain ⟨otherAbove, restSorted⟩ := List.pairwise_cons.mp secondSorted
      -- The least key of each list is found in the other, so the two heads agree.
      have headFound : find? head.1 (other :: rest) = some head.2 :=
        (same head.1).symm.trans (by simp [find?])
      have otherFound : find? other.1 (head :: tail) = some other.2 :=
        (same other.1).trans (by simp [find?])
      have headEq : head = other := by
        rcases List.mem_cons.mp (mem_of_find?_eq_some headFound) with equal | inRest
        · exact equal
        · rcases List.mem_cons.mp (mem_of_find?_eq_some otherFound) with equal | inTail
          · exact equal.symm
          · exact absurd (lt_trans (otherAbove _ inRest) (above _ inTail)) (lt_irrefl _)
      subst headEq
      refine congrArg (head :: ·) (ih tailSorted restSorted fun key => ?_)
      by_cases atHead : head.1 = key
      · rw [find?_eq_none_of_below (fun entry member => atHead ▸ above entry member),
          find?_eq_none_of_below (fun entry member => atHead ▸ otherAbove entry member)]
      · simpa [find?, atHead] using same key

theorem find?_filter (keep : K → Bool) (key : K) (entries : List (K × V)) :
    find? key (entries.filter fun entry => keep entry.1) =
      if keep key then find? key entries else none := by
  induction entries with
  | nil => simp [find?]
  | cons head tail ih =>
    by_cases same : head.1 = key
    · cases kept : keep key with
      | true => simp [find?, same, kept]
      | false => simpa [List.filter_cons, find?, same, kept] using ih
    · cases kept : keep head.1 with
      | true => simpa [List.filter_cons, find?, same, kept] using ih
      | false => simpa [List.filter_cons, find?, same, kept] using ih

theorem find?_filterMap {W : Type*} (f : V → Option W) (key : K)
    (sorted : entries.Pairwise fun a b => a.1 < b.1) :
    find? key (entries.filterMap fun entry => (f entry.2).map (entry.1, ·)) =
      (find? key entries).bind f := by
  induction entries with
  | nil => rfl
  | cons head tail ih =>
    obtain ⟨above, tailSorted⟩ := List.pairwise_cons.mp sorted
    rw [List.filterMap_cons]
    by_cases same : head.1 = key
    · -- A dropped entry is not found later: no other entry has its key.
      have absent := find?_eq_none_of_below fun entry member => same ▸ above entry member
      cases kept : f head.2 with
      | none => simp [ih tailSorted, find?, same, kept, absent]
      | some value => simp [find?, same, kept]
    · cases kept : f head.2 with
      | none => simp [ih tailSorted, find?, same]
      | some value => simp [ih tailSorted, find?, same]

end Entries

variable {K : Type u} {V : Type v} [LinearOrder K] {key other : K} {value found old : V}
  {entries : List (K × V)} {map : OrdMap K V}

instance [DecidableEq V] : DecidableEq (OrdMap K V) := fun first second =>
  decidable_of_iff (first.entries = second.entries) <| by
    cases first
    cases second
    simp

def empty : OrdMap K V :=
  ⟨[], List.Pairwise.nil⟩

/-- The value stored under a key. -/
def get? (map : OrdMap K V) (key : K) : Option V :=
  find? key map.entries

def contains (map : OrdMap K V) (key : K) : Bool :=
  (map.get? key).isSome

/-- Store a value under a key, replacing what the key held. -/
def insert (map : OrdMap K V) (key : K) (value : V) : OrdMap K V :=
  ⟨insertEntry key value map.entries, sorted_insertEntry key value map.sorted⟩

/-- Store every entry of a second map, whose values win. -/
def extend (map other : OrdMap K V) : OrdMap K V :=
  other.entries.foldl (fun stored entry => stored.insert entry.1 entry.2) map

/-- Keep the entries whose key satisfies the test. -/
def retain (map : OrdMap K V) (keep : K → Bool) : OrdMap K V :=
  ⟨map.entries.filter fun entry => keep entry.1, map.sorted.sublist List.filter_sublist⟩

/-- Remove the entry of a key. -/
def erase (map : OrdMap K V) (key : K) : OrdMap K V :=
  map.retain fun other => !decide (other = key)

/-- Keep the values that a function accepts, as it returns them. -/
def filterMap {W : Type*} (map : OrdMap K V) (f : V → Option W) : OrdMap K W where
  entries := map.entries.filterMap fun entry => (f entry.2).map (entry.1, ·)
  sorted := by
    refine List.Pairwise.filterMap _ ?_ map.sorted
    intro first second before kept isKept other isOther
    obtain ⟨_, _, rfl⟩ := Option.map_eq_some_iff.mp isKept
    obtain ⟨_, _, rfl⟩ := Option.map_eq_some_iff.mp isOther
    exact before

/-- The keys in increasing order. -/
def keys (map : OrdMap K V) : List K :=
  map.entries.map Prod.fst

/-- The values in the order of their keys. -/
def values (map : OrdMap K V) : List V :=
  map.entries.map Prod.snd

def size (map : OrdMap K V) : Nat :=
  map.entries.length

@[ext]
theorem ext {first second : OrdMap K V} (same : ∀ key, first.get? key = second.get? key) :
    first = second := by
  have entriesEq : first.entries = second.entries :=
    entries_ext first.sorted second.sorted same
  cases first
  cases second
  simp_all

@[simp]
theorem get?_empty (key : K) : (empty : OrdMap K V).get? key = none :=
  rfl

theorem get?_insert (map : OrdMap K V) (key other : K) (value : V) :
    (map.insert key value).get? other = if key = other then some value else map.get? other :=
  find?_insertEntry key other value map.entries

@[simp]
theorem get?_insert_self (map : OrdMap K V) (key : K) (value : V) :
    (map.insert key value).get? key = some value := by
  rw [get?_insert, if_pos rfl]

theorem get?_insert_eq_some :
    (map.insert key value).get? other = some found ↔
      other = key ∧ found = value ∨ other ≠ key ∧ map.get? other = some found := by
  rw [get?_insert]
  by_cases same : key = other
  · simp [same, eq_comm]
  · simp [same, Ne.symm same]

theorem get?_insert_of_absent (absent : map.get? key = none) (held : map.get? other = some found)
    (value : V) :
    (map.insert key value).get? other = some found := by
  refine get?_insert_eq_some.mpr (Or.inr ⟨?_, held⟩)
  rintro rfl
  rw [absent] at held
  cases held

theorem get?_foldl_insert (entries : List (K × V)) (map : OrdMap K V) (key : K)
    (sorted : entries.Pairwise fun a b => a.1 < b.1) :
    (entries.foldl (fun stored entry => stored.insert entry.1 entry.2) map).get? key =
      (find? key entries).or (map.get? key) := by
  induction entries generalizing map with
  | nil => simp [find?]
  | cons head tail ih =>
    obtain ⟨above, tailSorted⟩ := List.pairwise_cons.mp sorted
    rw [List.foldl_cons, ih (map.insert head.1 head.2) tailSorted, get?_insert]
    by_cases same : head.1 = key
    · rw [find?_eq_none_of_below fun entry member => same ▸ above entry member]
      simp [find?, same]
    · simp [find?, same]

theorem foldl_insert_empty (sorted : entries.Pairwise fun a b => a.1 < b.1) :
    entries.foldl (fun stored entry => stored.insert entry.1 entry.2) empty = ⟨entries, sorted⟩ := by
  ext key
  rw [get?_foldl_insert entries empty key sorted, get?_empty, Option.or_none]
  rfl

theorem get?_extend (map other : OrdMap K V) (key : K) :
    (map.extend other).get? key = (other.get? key).or (map.get? key) :=
  get?_foldl_insert other.entries map key other.sorted

theorem get?_retain (map : OrdMap K V) (keep : K → Bool) (key : K) :
    (map.retain keep).get? key = if keep key then map.get? key else none :=
  find?_filter keep key map.entries

theorem get?_filterMap {W : Type*} (map : OrdMap K V) (f : V → Option W) (key : K) :
    (map.filterMap f).get? key = (map.get? key).bind f :=
  find?_filterMap f key map.sorted

theorem values_filterMap {W : Type*} (map : OrdMap K V) (f : V → Option W) :
    (map.filterMap f).values = map.values.filterMap f := by
  simp only [values, filterMap, List.map_filterMap, List.filterMap_map, Option.map_map]
  exact List.filterMap_congr fun entry _ => by simp [Function.comp_def]

theorem get?_erase (map : OrdMap K V) (key other : K) :
    (map.erase key).get? other = if other = key then none else map.get? other := by
  simp only [erase, get?_retain]
  by_cases same : other = key <;> simp [same]

theorem get?_eq_some_iff :
    map.get? key = some value ↔ (key, value) ∈ map.entries :=
  ⟨mem_of_find?_eq_some, find?_eq_some_of_mem map.sorted⟩

theorem contains_iff :
    map.contains key = true ↔ ∃ value, map.get? key = some value := by
  simp [contains, Option.isSome_iff_exists]

theorem contains_insert :
    (map.insert key value).contains other = true ↔ key = other ∨ map.contains other = true := by
  simp only [contains_iff, get?_insert]
  by_cases same : key = other <;> simp [same]

theorem contains_retain {keep : K → Bool} :
    (map.retain keep).contains key = true ↔ keep key = true ∧ map.contains key = true := by
  simp only [contains_iff, get?_retain]
  by_cases kept : keep key = true <;> simp [kept]

theorem mem_keys_iff :
    key ∈ map.keys ↔ ∃ value, map.get? key = some value := by
  simp only [keys, List.mem_map, Prod.exists, get?_eq_some_iff]
  constructor
  · rintro ⟨found, value, member, rfl⟩
    exact ⟨value, member⟩
  · rintro ⟨value, member⟩
    exact ⟨key, value, member, rfl⟩

theorem mem_values_iff :
    value ∈ map.values ↔ ∃ key, map.get? key = some value := by
  simp only [values, List.mem_map, Prod.exists, get?_eq_some_iff, exists_eq_right]

theorem nodup_keys (map : OrdMap K V) : map.keys.Nodup := by
  unfold keys
  exact List.pairwise_map.mpr (map.sorted.imp fun before => before.ne)

/-! ## Sums over the values -/

section Total

variable {M : Type*} [AddCommMonoid M]

/-- The sum of a quantity over the values of a map. -/
def total (map : OrdMap K V) (amount : V → M) : M :=
  (map.values.map amount).sum

@[simp]
theorem total_empty (amount : V → M) : (empty : OrdMap K V).total amount = 0 :=
  rfl

theorem sum_insertEntry_of_none (value : V) (absent : find? key entries = none) (amount : V → M) :
    ((insertEntry key value entries).map fun entry => amount entry.2).sum =
      amount value + (entries.map fun entry => amount entry.2).sum := by
  induction entries with
  | nil => simp [insertEntry]
  | cons head tail ih =>
    unfold find? at absent
    split at absent
    · cases absent
    · rename_i different
      unfold insertEntry
      split
      · simp
      · rw [List.map_cons, List.sum_cons, ih absent, List.map_cons, List.sum_cons]
        exact add_left_comm _ _ _

theorem sum_insertEntry_of_some (value : V) (sorted : entries.Pairwise fun a b => a.1 < b.1)
    (stored : find? key entries = some old) (amount : V → M) :
    ((insertEntry key value entries).map fun entry => amount entry.2).sum + amount old =
      (entries.map fun entry => amount entry.2).sum + amount value := by
  induction entries with
  | nil => cases stored
  | cons head tail ih =>
    obtain ⟨above, tailSorted⟩ := List.pairwise_cons.mp sorted
    unfold find? at stored
    unfold insertEntry
    split at stored
    · rename_i same
      obtain rfl : head.2 = old := Option.some.inj stored
      rw [if_neg (by simp [same]), if_pos same]
      simp only [List.map_cons, List.sum_cons]
      rw [add_right_comm, add_comm (amount value), add_right_comm]
    · rename_i different
      have after : head.1 < key := above _ (mem_of_find?_eq_some stored)
      rw [if_neg (not_lt.mpr after.le), if_neg different]
      simp only [List.map_cons, List.sum_cons]
      rw [add_assoc, ih tailSorted stored, add_assoc]

theorem total_insert_of_none (value : V) (absent : map.get? key = none) (amount : V → M) :
    (map.insert key value).total amount = amount value + map.total amount := by
  simp only [total, values, insert, List.map_map, Function.comp_def]
  exact sum_insertEntry_of_none value absent amount

/-- Replacing a value replaces its part of the sum. -/
theorem total_insert_of_some (value : V) (stored : map.get? key = some old) (amount : V → M) :
    (map.insert key value).total amount + amount old = map.total amount + amount value := by
  simp only [total, values, insert, List.map_map, Function.comp_def]
  exact sum_insertEntry_of_some value map.sorted stored amount

/-- Removing a value takes its part out of the sum. -/
theorem total_erase (stored : map.get? key = some old) (amount : V → M) :
    amount old + (map.erase key).total amount = map.total amount := by
  have absent : (map.erase key).get? key = none := by rw [get?_erase, if_pos rfl]
  have restored : (map.erase key).insert key old = map := by
    ext other : 1
    rw [get?_insert, get?_erase]
    by_cases same : key = other
    · rw [if_pos same, ← same, stored]
    · rw [if_neg same, if_neg (Ne.symm same)]
  rw [← total_insert_of_none old absent, restored]

end Total

end OrdMap

end StockAnalysis
