import Mathlib.Data.Int.Order.Basic

/-!
# Checked 64-bit integers

Amounts are signed 64-bit integers whose arithmetic is checked: an operation returns nothing
when the exact result does not fit. A value of `I64` carries the proof that it fits, so the
exact result and the machine result never have to be related by a side condition: an
operation returned `c` exactly when `c` is the mathematical result.
-/

namespace StockAnalysis

/-- A signed 64-bit machine integer. -/
structure I64 where
  val : Int
  bounds : -9223372036854775808 ≤ val ∧ val ≤ 9223372036854775807
deriving DecidableEq

namespace I64

@[ext]
theorem ext {a b : I64} (same : a.val = b.val) : a = b := by
  cases a
  cases b
  simp_all

/-- The machine integer with the given mathematical value, when there is one. -/
def ofInt? (value : Int) : Option I64 :=
  if fits : -9223372036854775808 ≤ value ∧ value ≤ 9223372036854775807 then
    some ⟨value, fits⟩
  else
    none

theorem ofInt?_eq_some {value : Int} {result : I64} :
    ofInt? value = some result ↔ result.val = value := by
  unfold ofInt?
  constructor
  · intro found
    split at found
    · simp only [Option.some.injEq] at found
      exact found ▸ rfl
    · simp at found
  · rintro rfl
    simp [result.bounds]

theorem ofInt?_val (value : I64) : ofInt? value.val = some value :=
  ofInt?_eq_some.mpr rfl

/-- A value between two machine integers is one itself. -/
theorem ofInt?_between {value : Int} (low high : I64) (above : low.val ≤ value)
    (below : value ≤ high.val) : ∃ result, ofInt? value = some result ∧ result.val = value := by
  have lowBounds := low.bounds
  have highBounds := high.bounds
  have fits : -9223372036854775808 ≤ value ∧ value ≤ 9223372036854775807 := by omega
  exact ⟨⟨value, fits⟩, by simp [ofInt?, fits], rfl⟩

def checkedAdd (a b : I64) : Option I64 :=
  ofInt? (a.val + b.val)

def checkedSub (a b : I64) : Option I64 :=
  ofInt? (a.val - b.val)

instance : Zero I64 :=
  ⟨⟨0, by decide⟩⟩

@[simp]
theorem val_zero : (0 : I64).val = 0 :=
  rfl

/-- The machine integer written as a literal; a literal that does not fit is read as zero. -/
def lit (value : Int) : I64 :=
  (ofInt? value).getD 0

/-- Machine integers are ordered by their values. -/
instance : LE I64 :=
  ⟨fun a b => a.val ≤ b.val⟩

theorem le_def {a b : I64} : a ≤ b ↔ a.val ≤ b.val :=
  Iff.rfl

instance (a b : I64) : Decidable (a ≤ b) :=
  inferInstanceAs (Decidable (a.val ≤ b.val))

/-- The greater of two machine integers. -/
def max (a b : I64) : I64 :=
  if a ≤ b then b else a

theorem val_max (a b : I64) : (max a b).val = Max.max a.val b.val := by
  unfold max
  split <;> rename_i order <;> rw [le_def] at order <;> omega

end I64

end StockAnalysis
