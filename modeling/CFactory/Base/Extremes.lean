import Mathlib.Order.MinMax
import Mathlib.Data.List.Basic

/-!
# Running maxima and minima

A fold of `max` or `min` over a list bounds the start and every element, and nothing else.
-/

namespace CFactory.Base

universe u

variable {α : Type u} [LinearOrder α]

/-- Below a running maximum is below its start or below an element. -/
theorem le_foldl_max (xs : List α) (s x : α) :
    x ≤ xs.foldl max s ↔ x ≤ s ∨ ∃ y ∈ xs, x ≤ y := by
  induction xs generalizing s with
  | nil => simp
  | cons y rest ih => rw [List.foldl_cons, ih, le_max_iff, List.exists_mem_cons_iff, or_assoc]

/-- Above a running minimum is above its start or above an element. -/
theorem foldl_min_le (xs : List α) (s x : α) :
    xs.foldl min s ≤ x ↔ s ≤ x ∨ ∃ y ∈ xs, y ≤ x := by
  induction xs generalizing s with
  | nil => simp
  | cons y rest ih => rw [List.foldl_cons, ih, min_le_iff, List.exists_mem_cons_iff, or_assoc]

end CFactory.Base
