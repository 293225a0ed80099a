import Mathlib.Algebra.Order.Round
import Mathlib.Data.Rat.Floor
import Mathlib.Tactic.FieldSimp
import Mathlib.Tactic.Linarith
import Mathlib.Tactic.Ring

/-!
# Rounding a quotient of nonnegative integers

Half-up rounding and rounding up, as integer code computes them with truncating division, and
the one comparison that lets a price reserved for parts cover the price of any whole: a quotient
bounded by a whole number rounds to at most that number.
-/

namespace StockAnalysis.Rounding

/-- `amount / denominator`, rounded half up on nonnegative amounts. -/
def halfUp (amount denominator : Int) : Int :=
  (amount + denominator.tdiv 2).tdiv denominator

/-- `amount / denominator`, rounded up on nonnegative amounts. -/
def ceiling (amount denominator : Int) : Int :=
  if amount.tmod denominator = 0 then amount.tdiv denominator else amount.tdiv denominator + 1

variable {amount denominator : Int}

section

variable (amountNonneg : 0 ≤ amount) (positive : 0 < denominator)

include amountNonneg positive

theorem halfUp_eq_ediv : halfUp amount denominator = (amount + denominator / 2) / denominator := by
  have half : denominator.tdiv 2 = denominator / 2 :=
    Int.tdiv_eq_ediv_of_nonneg (by omega)
  rw [halfUp, half, Int.tdiv_eq_ediv_of_nonneg (by omega)]

/-- Over an even denominator, the integer code rounds the quotient to the nearest integer, ties
up. -/
theorem halfUp_eq_round (even : 2 ∣ denominator) :
    halfUp amount denominator = round ((amount : ℚ) / denominator) := by
  rw [halfUp_eq_ediv amountNonneg positive, round_eq]
  obtain ⟨half, rfl⟩ := even
  obtain ⟨n, rfl⟩ := Int.eq_ofNat_of_zero_le (show 0 ≤ half by omega)
  have halved : 2 * (n : Int) / 2 = n := Int.mul_ediv_cancel_left _ (by decide)
  have nonzero : (n : ℚ) ≠ 0 := by
    exact_mod_cast (by omega : n ≠ 0)
  have shifted : (amount : ℚ) / ((2 * n : Int) : ℚ) + 1 / 2 =
      ((amount + n : Int) : ℚ) / ((2 * n : Nat) : ℚ) := by
    push_cast
    field_simp
  rw [halved, shifted, Rat.floor_intCast_div_natCast]
  norm_num

theorem halfUp_nonneg : 0 ≤ halfUp amount denominator := by
  rw [halfUp_eq_ediv amountNonneg positive]
  exact Int.ediv_nonneg (by omega) (by omega)

/-- A quotient of at most a whole number rounds half up to at most that number. -/
theorem halfUp_le {bound : Int} (within : amount ≤ bound * denominator) :
    halfUp amount denominator ≤ bound := by
  rw [halfUp_eq_ediv amountNonneg positive]
  have below : amount + denominator / 2 < (bound + 1) * denominator := by
    have expand : (bound + 1) * denominator = bound * denominator + denominator := by ring
    omega
  have := Int.ediv_lt_of_lt_mul positive below
  omega

/-- Rounding up gives a whole number that bounds the quotient. -/
theorem le_ceiling_mul : amount ≤ ceiling amount denominator * denominator := by
  have remainder := Int.emod_lt_of_pos amount positive
  have truncated : amount.tdiv denominator = amount / denominator :=
    Int.tdiv_eq_ediv_of_nonneg amountNonneg
  have rest : amount.tmod denominator = amount % denominator :=
    Int.tmod_eq_emod_of_nonneg amountNonneg
  have whole : amount / denominator * denominator + amount % denominator = amount :=
    Int.ediv_mul_add_emod amount denominator
  unfold ceiling
  rw [truncated, rest]
  split
  · omega
  · rw [Int.add_mul, Int.one_mul]
    omega

theorem ceiling_nonneg : 0 ≤ ceiling amount denominator := by
  have truncated : 0 ≤ amount.tdiv denominator := Int.tdiv_nonneg amountNonneg positive.le
  unfold ceiling
  split <;> omega

end

end StockAnalysis.Rounding
