import Mathlib.Data.List.Nodup

/-!
# Tables with a primary key

A table keeps its rows in the order of insertion and carries the proof that its keys are distinct.
A row is inserted only under a fresh key, and an update may change the rows it selects but never
their keys, so that a lookup after either is determined by the lookup before it.
-/

namespace StockAnalysis

universe u v

/-- Rows in insertion order, distinct under the key. -/
structure Table {R : Type u} {K : Type v} (key : R → K) where
  rows : List R
  distinct : (rows.map key).Nodup

namespace Table

variable {R : Type u} {K : Type v} {key : R → K} {row first second old other : R} {id : K}
  {change : R → R} {table next : Table key}

theorem eq_of_rows {first second : Table key} (same : first.rows = second.rows) :
    first = second := by
  cases first
  cases second
  cases same
  rfl

def empty : Table key :=
  ⟨[], List.nodup_nil⟩

theorem mem_empty : row ∈ (empty : Table key).rows ↔ False := by
  simp [empty]

/-- Two rows of a table with the same key are the same row. -/
theorem eq_of_key (inFirst : first ∈ table.rows) (inSecond : second ∈ table.rows)
    (same : key first = key second) : first = second :=
  List.inj_on_of_nodup_map table.distinct inFirst inSecond same

/-- Change the selected rows; the change keeps keys. -/
def update (table : Table key) (selects : R → Prop) [DecidablePred selects] (change : R → R)
    (keeps : ∀ row, key (change row) = key row) : Table key :=
  ⟨table.rows.map fun row => if selects row then change row else row, by
    have same : (table.rows.map fun row => if selects row then change row else row).map key =
        table.rows.map key := by
      rw [List.map_map]
      refine List.map_congr_left fun row _ => ?_
      by_cases selected : selects row <;> simp [selected, keeps]
    rw [same]
    exact table.distinct⟩

theorem mem_update {selects : R → Prop} [DecidablePred selects]
    {keeps : ∀ row, key (change row) = key row} :
    row ∈ (table.update selects change keeps).rows ↔
      ∃ old ∈ table.rows, (if selects old then change old else old) = row := by
  simp [update]

theorem update_eq_self {selects : R → Prop} [DecidablePred selects]
    {keeps : ∀ row, key (change row) = key row} (unselected : ∀ row ∈ table.rows, ¬ selects row) :
    table.update selects change keeps = table := by
  apply eq_of_rows
  simp only [update]
  rw [List.map_congr_left fun row listed => if_neg (unselected row listed), List.map_id']

variable [DecidableEq K]

/-- The table with another row in the place of the one under its key. -/
def set (table : Table key) (row : R) : Table key :=
  ⟨table.rows.map fun old => if key old = key row then row else old, by
    have same : (table.rows.map fun old => if key old = key row then row else old).map key =
        table.rows.map key := by
      rw [List.map_map]
      refine List.map_congr_left fun old _ => ?_
      by_cases found : key old = key row <;> simp [found]
    rw [same]
    exact table.distinct⟩

theorem rows_set (table : Table key) (row : R) :
    (table.set row).rows = table.rows.map fun old => if key old = key row then row else old :=
  rfl

theorem update_eq_set {selects : R → Prop} [DecidablePred selects]
    {keeps : ∀ row, key (change row) = key row} (member : row ∈ table.rows) (selected : selects row)
    (only : ∀ other, selects other → key other = key row) :
    table.update selects change keeps = table.set (change row) := by
  apply eq_of_rows
  refine List.map_congr_left fun other listed => ?_
  by_cases picked : selects other
  · obtain rfl := eq_of_key listed member (only other picked)
    simp [picked, keeps]
  · have different : key other ≠ key (change row) := by
      intro equal
      obtain rfl := eq_of_key listed member (equal.trans (keeps row))
      exact picked selected
    simp [picked, different]

theorem update_key_eq_set {keeps : ∀ row, key (change row) = key row} (member : row ∈ table.rows) :
    table.update (fun other => key other = key row) change keeps = table.set (change row) :=
  update_eq_set member rfl fun _ selected => selected

theorem set_set (same : key second = key first) :
    (table.set first).set second = table.set second := by
  apply eq_of_rows
  simp only [rows_set, List.map_map]
  refine List.map_congr_left fun old _ => ?_
  by_cases found : key old = key first <;> simp [found, same]

theorem set_self (member : row ∈ table.rows) :
    table.set row = table := by
  apply eq_of_rows
  rw [rows_set, List.map_congr_left fun old listed => ?_, List.map_id']
  split
  · rename_i found
    exact eq_of_key member listed found.symm
  · rfl

theorem mem_set (member : old ∈ table.rows) (same : key row = key old) :
    other ∈ (table.set row).rows ↔
      other ∈ table.rows ∧ key other ≠ key row ∨ other = row := by
  simp only [rows_set, List.mem_map]
  constructor
  · rintro ⟨item, listed, rfl⟩
    by_cases found : key item = key row
    · simp [found]
    · simp [found, listed]
  · rintro (⟨listed, different⟩ | rfl)
    · exact ⟨other, listed, if_neg different⟩
    · exact ⟨old, member, if_pos same.symm⟩

theorem mem_set_self (member : old ∈ table.rows) (same : key row = key old) :
    row ∈ (table.set row).rows :=
  (mem_set member same).mpr (.inr rfl)

/-- The rows after a set, in a view that shows the key. -/
theorem mem_map_set {V : Type*} {view : R → V} {shown : V → K} {item : V}
    (shows : ∀ row, shown (view row) = key row) (member : old ∈ table.rows)
    (same : key row = key old) :
    item ∈ (table.set row).rows.map view ↔
      item ∈ table.rows.map view ∧ item ≠ view old ∨ item = view row := by
  simp only [List.mem_map, mem_set member same]
  constructor
  · rintro ⟨other, ⟨listed, different⟩ | rfl, rfl⟩
    · refine .inl ⟨⟨other, listed, rfl⟩, fun equal => different ?_⟩
      rw [← shows, equal, shows, same]
    · exact .inr rfl
  · rintro (⟨⟨other, listed, rfl⟩, different⟩ | rfl)
    · refine ⟨other, .inl ⟨listed, fun equal => different ?_⟩, rfl⟩
      rw [eq_of_key listed member (equal.trans same)]
    · exact ⟨row, .inr rfl, rfl⟩

/-- The row under a key. -/
def get? (table : Table key) (id : K) : Option R :=
  table.rows.find? fun row => key row = id

/-- The table with a further row, unless the key is taken. -/
def insert? (table : Table key) (row : R) : Option (Table key) :=
  if fresh : key row ∉ table.rows.map key then
    some ⟨table.rows ++ [row], by
      rw [List.map_append, List.map_singleton]
      exact table.distinct.append (List.nodup_singleton _) (by simpa using fresh)⟩
  else none

theorem get?_eq_some_iff :
    table.get? id = some row ↔ row ∈ table.rows ∧ key row = id := by
  constructor
  · intro found
    exact ⟨List.mem_of_find?_eq_some found, by simpa using List.find?_some found⟩
  · rintro ⟨member, rfl⟩
    have present : (table.get? (key row)).isSome = true :=
      List.find?_isSome.mpr ⟨row, member, by simp⟩
    obtain ⟨other, found⟩ := Option.isSome_iff_exists.mp present
    have isOther : key other = key row := by simpa using List.find?_some found
    rw [found, eq_of_key (List.mem_of_find?_eq_some found) member isOther]

theorem get?_eq_none_iff :
    table.get? id = none ↔ ∀ row ∈ table.rows, key row ≠ id := by
  simp [get?, List.find?_eq_none]

/-- Keep the rows that pass a test. -/
def filter (table : Table key) (keep : R → Bool) : Table key :=
  ⟨table.rows.filter keep, table.distinct.sublist (List.filter_sublist.map key)⟩

@[simp]
theorem get?_empty (id : K) : (empty : Table key).get? id = none :=
  rfl

theorem rows_of_insert (inserted : table.insert? row = some next) :
    next.rows = table.rows ++ [row] ∧ table.get? (key row) = none := by
  unfold insert? at inserted
  split at inserted
  · rename_i fresh
    obtain rfl := Option.some.inj inserted
    refine ⟨rfl, get?_eq_none_iff.mpr fun other member same => fresh ?_⟩
    exact same ▸ List.mem_map_of_mem member
  · cases inserted

theorem insert?_of_fresh (fresh : ∀ old ∈ table.rows, key old ≠ key row) :
    ∃ next, table.insert? row = some next := by
  have absent : key row ∉ table.rows.map key := by
    intro taken
    obtain ⟨old, member, same⟩ := List.mem_map.mp taken
    exact fresh old member same
  exact ⟨_, dif_pos absent⟩

theorem mem_of_insert (inserted : table.insert? row = some next) :
    other ∈ next.rows ↔ other ∈ table.rows ∨ other = row := by
  rw [(rows_of_insert inserted).1, List.mem_append, List.mem_singleton]

theorem get?_of_insert (inserted : table.insert? row = some next) (id : K) :
    next.get? id = if key row = id then some row else table.get? id := by
  obtain ⟨rows, fresh⟩ := rows_of_insert inserted
  unfold get? at fresh ⊢
  rw [rows, List.find?_append]
  by_cases same : key row = id
  · subst same
    rw [fresh]
    simp
  · simp [same]

theorem get?_update (table : Table key) (selects : R → Prop) [DecidablePred selects]
    (change : R → R) (keeps : ∀ row, key (change row) = key row) (id : K) :
    (table.update selects change keeps).get? id =
      (table.get? id).map fun row => if selects row then change row else row := by
  have sameKey : ∀ row, key (if selects row then change row else row) = key row := by
    intro row
    by_cases selected : selects row <;> simp [selected, keeps]
  simp only [get?, update, List.find?_map, Function.comp_def, sameKey]

theorem get?_set (member : old ∈ table.rows) (same : key row = key old) (id : K) :
    (table.set row).get? id = if key row = id then some row else table.get? id := by
  by_cases found : key row = id
  · rw [if_pos found]
    exact get?_eq_some_iff.mpr ⟨(mem_set member same).mpr (.inr rfl), found⟩
  · rw [if_neg found]
    cases there : table.get? id with
    | none =>
      refine get?_eq_none_iff.mpr fun other listed isOther => ?_
      rcases (mem_set member same).mp listed with ⟨listed, _⟩ | rfl
      · exact get?_eq_none_iff.mp there other listed isOther
      · exact found isOther
    | some other =>
      obtain ⟨listed, isOther⟩ := get?_eq_some_iff.mp there
      refine get?_eq_some_iff.mpr ⟨(mem_set member same).mpr (.inl ⟨listed, ?_⟩), isOther⟩
      exact fun equal => found (equal.symm.trans isOther)

theorem set_of_insert (inserted : table.insert? row = some next) (same : key other = key row) :
    table.insert? other = some (next.set other) := by
  obtain ⟨rows, fresh⟩ := rows_of_insert inserted
  have absent : ∀ old ∈ table.rows, key old ≠ key other := by
    rw [same]
    exact get?_eq_none_iff.mp fresh
  obtain ⟨last, appended⟩ := insert?_of_fresh absent
  have equal : last.rows = (next.set other).rows := by
    rw [(rows_of_insert appended).1, rows_set, rows, List.map_append]
    congr 1
    · rw [List.map_congr_left fun old member => if_neg (absent old member), List.map_id']
    · simp [same]
  rw [appended, eq_of_rows equal]

end Table

end StockAnalysis
