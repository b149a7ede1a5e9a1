import Mathlib.Algebra.Order.Group.Nat
import Mathlib.Tactic.Ring

/-!
Long division over the natural numbers, in rounds that each bring any number of digits: what a round
leaves to do is the division of its remainder.
-/

namespace LongDivision

/-- The digits of the quotient behind the point, as one number. -/
def digits (base count rem den : ℕ) : ℕ := rem * base ^ count / den

@[simp] theorem digits_zero_rem (base count den : ℕ) : digits base count 0 den = 0 := by
  rw [digits, Nat.zero_mul, Nat.zero_div]

theorem digits_zero_count (base : ℕ) {rem den : ℕ} (less : rem < den) : digits base 0 rem den = 0 := by
  rw [digits, Nat.pow_zero, Nat.mul_one]
  exact Nat.div_eq_of_lt less

theorem digits_round (base count rem : ℕ) {den : ℕ} (positive : 0 < den) :
    digits base count rem den =
      rem / den * base ^ count + digits base count (rem % den) den := by
  have split : rem * base ^ count = rem % den * base ^ count + den * (rem / den * base ^ count) := by
    calc rem * base ^ count
        = (rem % den + den * (rem / den)) * base ^ count := by rw [Nat.mod_add_div]
      _ = rem % den * base ^ count + den * (rem / den * base ^ count) := by ring
  rw [digits, split, Nat.add_mul_div_left _ _ positive, Nat.add_comm, digits]

theorem digits_shift {base : ℕ} (basePositive : 0 < base) (up down count rem den : ℕ) :
    digits base (up + down + count) rem (den * base ^ down) =
      digits base count (rem * base ^ up) den := by
  have moved : rem * base ^ (up + down + count) =
      rem * base ^ up * base ^ count * base ^ down := by
    rw [Nat.pow_add, Nat.pow_add]
    ring
  rw [digits, moved, Nat.mul_div_mul_right _ _ (Nat.pow_pos basePositive), digits]

end LongDivision
