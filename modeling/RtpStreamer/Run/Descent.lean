import Mathlib.Logic.Function.Iterate
import Mathlib.Tactic.Common

/-!
# Iterations that a rank bounds

A step that lowers a rank until the rank is zero, and then keeps it there, has settled after as many
rounds as the rank it starts from.
-/

universe u

namespace Descent

variable {α : Type u} {f : α → α} {rank : α → ℕ}

/-- The step lowers the rank down to zero. -/
structure Lowers (f : α → α) (rank : α → ℕ) : Prop where
  lower : ∀ a, rank a ≠ 0 → rank (f a) < rank a
  stay : ∀ a, rank a = 0 → rank (f a) = 0

/-- Every round takes one off the rank. -/
theorem Lowers.rank_iterate_le (h : Lowers f rank) (n : ℕ) (a : α) :
    rank (f^[n] a) ≤ rank a - n := by
  induction n generalizing a with
  | zero => exact Nat.le_refl _
  | succ n ih =>
    rw [Function.iterate_succ_apply]
    have hrest := ih (f a)
    by_cases hzero : rank a = 0
    · have hstay := h.stay a hzero
      omega
    · have hlower := h.lower a hzero
      omega

/-- An iteration has settled after `rank a` rounds. -/
theorem Lowers.rank_iterate_eq_zero (h : Lowers f rank) {n : ℕ} {a : α} (hn : rank a ≤ n) :
    rank (f^[n] a) = 0 := by
  have hle := h.rank_iterate_le n a
  omega

end Descent
