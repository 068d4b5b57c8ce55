import Mathlib.Data.List.Basic
import Mathlib.Data.List.Nodup

/-!
# Folds in which one element acts

Where all elements but one leave the accumulator alone, a fold is the step of that element.
-/

namespace Framework

variable {α β : Type}

theorem foldl_of_skips {f : β → α → β} {b : β} {l : List α} (skips : ∀ a ∈ l, f b a = b) :
    l.foldl f b = b := by
  induction l with
  | nil => rfl
  | cons a rest ih =>
    rw [List.foldl_cons, skips a List.mem_cons_self]
    exact ih fun x hx => skips x (List.mem_cons_of_mem a hx)

/-- The others skip both before and after the one that acts. -/
theorem foldl_of_soleActor {f : β → α → β} {b : β} {l : List α} {actor : α} (nodup : l.Nodup)
    (mem : actor ∈ l) (before : ∀ a, a ≠ actor → f b a = b)
    (after : ∀ a, a ≠ actor → f (f b actor) a = f b actor) : l.foldl f b = f b actor := by
  obtain ⟨front, back, rfl⟩ := List.append_of_mem mem
  have hfresh := List.nodup_middle.mp nodup
  rw [List.nodup_cons, List.mem_append, not_or] at hfresh
  have hfront : front.foldl f b = b := by
    apply foldl_of_skips
    intro a ha
    exact before a fun heq => hfresh.1.1 (heq ▸ ha)
  rw [List.foldl_append, List.foldl_cons, hfront]
  apply foldl_of_skips
  intro a ha
  exact after a fun heq => hfresh.1.2 (heq ▸ ha)

end Framework
