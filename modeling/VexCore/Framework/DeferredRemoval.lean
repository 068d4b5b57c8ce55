import Mathlib.Data.List.Lemmas
import Mathlib.Tactic.Common

/-!
# Removing marked positions from the back

A pass over a list that records the positions to drop, followed by removals from the
highest position down, drops exactly the marked elements.
-/

namespace Framework

variable {α : Type}

/-- Remove the recorded positions one by one, the last recorded first. -/
def removeFromBack (positions : List Nat) (xs : List α) : List α :=
  positions.reverse.foldl (fun ys i => ys.eraseIdx i) xs

theorem removeFromBack_eq_foldr (positions : List Nat) (xs : List α) :
    removeFromBack positions xs = positions.foldr (fun i ys => ys.eraseIdx i) xs := by
  rw [removeFromBack, List.foldl_reverse]

@[simp] theorem removeFromBack_nil (xs : List α) : removeFromBack [] xs = xs := rfl

/-- Positions behind the head leave the head in place. -/
theorem removeFromBack_shift (positions : List Nat) (x : α) (xs : List α) :
    removeFromBack (positions.map (· + 1)) (x :: xs) = x :: removeFromBack positions xs := by
  simp only [removeFromBack_eq_foldr]
  induction positions with
  | nil => rfl
  | cons i rest ih => simp [ih]

/-- Marking the head as well drops it after everything behind it. -/
theorem removeFromBack_zero_shift (positions : List Nat) (x : α) (xs : List α) :
    removeFromBack (0 :: positions.map (· + 1)) (x :: xs) = removeFromBack positions xs := by
  have h := removeFromBack_shift positions x xs
  simp only [removeFromBack_eq_foldr] at h ⊢
  rw [List.foldr_cons, h, List.eraseIdx_cons_zero]

end Framework
