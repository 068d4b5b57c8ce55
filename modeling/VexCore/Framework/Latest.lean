import Mathlib.Data.List.Basic
import Mathlib.Tactic.Common

/-!
# The latest entry of a sequence of batches

Readers that keep the last entry only see the last batch that has one.
-/

namespace Framework

variable {β : Type}

/-- A reader of the batch that held `before` holds `after`. -/
def Follows (batch : List β) (before after : β) : Prop :=
  batch.getLast? = some after ∨ batch = [] ∧ after = before

namespace Follows

variable {batch batch' : List β} {a b c : β}

theorem refl (b : β) : Follows [] b b := .inr ⟨rfl, rfl⟩

theorem of_nil (hbatch : batch = []) (h : b = a) : Follows batch a b := .inr ⟨hbatch, h⟩

theorem append (h : Follows batch a b) (h' : Follows batch' b c) : Follows (batch ++ batch') a c := by
  rcases h' with hlast | ⟨rfl, rfl⟩
  · exact .inl (by simp [List.getLast?_append, hlast])
  · rw [List.append_nil]
    exact h

end Follows

/-- The last entry of the first `n` batches. -/
def latest (batch : Nat → List β) : Nat → Option β
  | 0 => none
  | n + 1 => (batch n).getLast?.or (latest batch n)

section Latest

variable {batch batch' : Nat → List β} {m n : Nat}

@[simp] theorem latest_zero (batch : Nat → List β) : latest batch 0 = none := rfl

theorem latest_succ_of_nil (h : batch n = []) : latest batch (n + 1) = latest batch n := by
  simp [latest, h]

theorem latest_succ_of_getLast? {b : β} (h : (batch n).getLast? = some b) :
    latest batch (n + 1) = some b := by
  simp [latest, h]

theorem latest_congr (h : ∀ i < n, batch i = batch' i) : latest batch n = latest batch' n := by
  induction n with
  | zero => rfl
  | succ n ih =>
    rw [latest, latest, h n (Nat.lt_succ_self n), ih fun i hi => h i (Nat.lt_succ_of_lt hi)]

theorem latest_of_nil (hmn : m ≤ n) (h : ∀ i, m ≤ i → i < n → batch i = []) :
    latest batch n = latest batch m := by
  induction n with
  | zero => rw [Nat.le_zero.mp hmn]
  | succ n ih =>
    by_cases hm : m = n + 1
    · rw [hm]
    · have hle : m ≤ n := by omega
      rw [latest_succ_of_nil (h n hle (Nat.lt_succ_self n)),
        ih hle fun i hmi hi => h i hmi (Nat.lt_succ_of_lt hi)]

/-- The last batch that has an entry decides. -/
theorem latest_eq_of_last {b : β} (hmn : m < n) (hlast : (batch m).getLast? = some b)
    (h : ∀ i, m < i → i < n → batch i = []) : latest batch n = some b := by
  rw [latest_of_nil hmn h]
  exact latest_succ_of_getLast? hlast

/-- Batches before one that has an entry do not count. -/
theorem latest_congr_of_later (hm : m < n) (hne : batch m ≠ [])
    (h : ∀ i, m ≤ i → i < n → batch i = batch' i) : latest batch n = latest batch' n := by
  induction n with
  | zero => exact absurd hm (Nat.not_lt_zero m)
  | succ n ih =>
    have hle : m ≤ n := Nat.lt_succ_iff.mp hm
    have hlast := h n hle (Nat.lt_succ_self n)
    cases hbatch : (batch n).getLast? with
    | some b =>
      have hbatch' : (batch' n).getLast? = some b := by rw [← hlast, hbatch]
      rw [latest_succ_of_getLast? hbatch, latest_succ_of_getLast? hbatch']
    | none =>
      have hnil := List.getLast?_eq_none_iff.mp hbatch
      have hlt : m < n := by
        apply Nat.lt_of_le_of_ne hle
        rintro rfl
        exact hne hnil
      rw [latest_succ_of_nil hnil, latest_succ_of_nil (hlast ▸ hnil),
        ih hlt fun i hmi hi => h i hmi (Nat.lt_succ_of_lt hi)]

theorem latest_eq_getLast? (batch : Nat → List β) (n : Nat) :
    latest batch n = ((List.range n).flatMap batch).getLast? := by
  induction n with
  | zero => rfl
  | succ n ih =>
    rw [List.range_succ, List.flatMap_append, List.getLast?_append, ← ih]
    simp [latest]

end Latest

end Framework
