import Mathlib.Algebra.BigOperators.Group.List.Basic
import Mathlib.Algebra.Order.Ring.Nat
import Mathlib.Tactic.Common

/-!
# Greedy allocation of a demand over an ordered list of supplies
-/

namespace Framework

variable {α : Type}

/-- One step of an allocation: `amount` was taken from `source`, `left` is still wanted. -/
structure Fill (α : Type) where
  source : α
  amount : Nat
  left : Nat
deriving DecidableEq

/-- Serve the demand from the supplies in order, each as far as it goes. -/
def allocate (cap : α → Nat) : Nat → List α → List (Fill α)
  | _, [] => []
  | demand, a :: rest =>
      if demand = 0 then []
      else
        let amount := min demand (cap a)
        ⟨a, amount, demand - amount⟩ :: allocate cap (demand - amount) rest

def filled (fills : List (Fill α)) : Nat := (fills.map Fill.amount).sum

@[simp] theorem filled_nil : filled ([] : List (Fill α)) = 0 := rfl

@[simp] theorem filled_cons (f : Fill α) (fs : List (Fill α)) :
    filled (f :: fs) = f.amount + filled fs := rfl

@[simp] theorem allocate_zero (cap : α → Nat) (supply : List α) :
    allocate cap 0 supply = [] := by
  cases supply <;> simp [allocate]

theorem allocate_cons {cap : α → Nat} {demand : Nat} (h : demand ≠ 0) (a : α) (rest : List α) :
    allocate cap demand (a :: rest) =
      ⟨a, min demand (cap a), demand - min demand (cap a)⟩ ::
        allocate cap (demand - min demand (cap a)) rest := by
  simp [allocate, h]

/-- An allocation takes everything there is, up to the demand. -/
theorem filled_allocate (cap : α → Nat) (demand : Nat) (supply : List α) :
    filled (allocate cap demand supply) = min demand (supply.map cap).sum := by
  induction supply generalizing demand with
  | nil => simp [allocate]
  | cons a rest ih =>
    by_cases h : demand = 0
    · simp [h]
    · rw [allocate_cons h, filled_cons, ih]
      simp only [List.map_cons, List.sum_cons]
      omega

theorem filled_allocate_le (cap : α → Nat) (demand : Nat) (supply : List α) :
    filled (allocate cap demand supply) ≤ demand := by
  rw [filled_allocate]
  exact Nat.min_le_left _ _

/-- Supplies can be served in blocks. -/
theorem allocate_append (cap : α → Nat) (demand : Nat) (as bs : List α) :
    allocate cap demand (as ++ bs) =
      allocate cap demand as ++
        allocate cap (demand - filled (allocate cap demand as)) bs := by
  induction as generalizing demand with
  | nil => simp [allocate]
  | cons a rest ih =>
    by_cases h : demand = 0
    · simp [h]
    · rw [List.cons_append, allocate_cons h, allocate_cons h, ih, filled_cons, List.cons_append,
        Nat.sub_sub]

/-- Each supply is used at most once, in the given order. -/
theorem allocate_sources_sublist (cap : α → Nat) (demand : Nat) (supply : List α) :
    ((allocate cap demand supply).map Fill.source).Sublist supply := by
  induction supply generalizing demand with
  | nil => exact List.Sublist.refl _
  | cons a rest ih =>
    by_cases hd : demand = 0
    · rw [hd, allocate_zero]
      exact List.nil_sublist _
    · rw [allocate_cons hd, List.map_cons]
      exact (ih _).cons_cons _

theorem source_mem_of_mem_allocate {cap : α → Nat} {demand : Nat} {supply : List α} {f : Fill α}
    (h : f ∈ allocate cap demand supply) : f.source ∈ supply := by
  induction supply generalizing demand with
  | nil => simp [allocate] at h
  | cons a rest ih =>
    by_cases hd : demand = 0
    · simp [hd] at h
    · rw [allocate_cons hd] at h
      rcases List.mem_cons.mp h with rfl | h
      · exact List.mem_cons_self
      · exact List.mem_cons_of_mem _ (ih h)

theorem amount_le_of_mem_allocate {cap : α → Nat} {demand : Nat} {supply : List α} {f : Fill α}
    (h : f ∈ allocate cap demand supply) : f.amount ≤ cap f.source := by
  induction supply generalizing demand with
  | nil => simp [allocate] at h
  | cons a rest ih =>
    by_cases hd : demand = 0
    · simp [hd] at h
    · rw [allocate_cons hd] at h
      rcases List.mem_cons.mp h with rfl | h
      · exact Nat.min_le_right _ _
      · exact ih h

theorem amount_pos_of_mem_allocate {cap : α → Nat} {demand : Nat} {supply : List α}
    (hcap : ∀ a ∈ supply, 0 < cap a) {f : Fill α} (h : f ∈ allocate cap demand supply) :
    0 < f.amount := by
  induction supply generalizing demand with
  | nil => cases h
  | cons a rest ih =>
    have hrest : ∀ b ∈ rest, 0 < cap b := fun b hb => hcap b (List.mem_cons_of_mem _ hb)
    by_cases hd : demand = 0
    · simp [hd] at h
    · rw [allocate_cons hd] at h
      rcases List.mem_cons.mp h with rfl | h
      · exact Nat.lt_min.mpr ⟨Nat.pos_of_ne_zero hd, hcap a List.mem_cons_self⟩
      · exact ih hrest h

/-- An allocation that falls short of its demand has used up every supply. -/
theorem exhausted_of_filled_lt {cap : α → Nat} {demand : Nat} {supply : List α}
    (hshort : filled (allocate cap demand supply) < demand) {a : α} (ha : a ∈ supply) :
    ∃ f ∈ allocate cap demand supply, f.source = a ∧ f.amount = cap a := by
  induction supply generalizing demand with
  | nil => cases ha
  | cons b rest ih =>
    have hd : demand ≠ 0 := by omega
    rw [allocate_cons hd, filled_cons] at hshort
    rw [allocate_cons hd]
    simp only at hshort
    rcases List.mem_cons.mp ha with rfl | ha
    · refine ⟨_, List.mem_cons_self, rfl, ?_⟩
      simp only
      omega
    · have hrest : filled (allocate cap (demand - min demand (cap b)) rest) <
          demand - min demand (cap b) := by omega
      obtain ⟨f, hf, hsource, hamount⟩ := ih hrest ha
      exact ⟨f, List.mem_cons_of_mem _ hf, hsource, hamount⟩

variable {κ : Type} [DecidableEq κ]

/-- The amount taken from the supplies with key `k`. -/
def taken (key : α → κ) (fills : List (Fill α)) (k : κ) : Nat :=
  filled (fills.filter fun f => key f.source = k)

@[simp] theorem taken_nil (key : α → κ) (k : κ) : taken key [] k = 0 := rfl

theorem taken_cons (key : α → κ) (f : Fill α) (fs : List (Fill α)) (k : κ) :
    taken key (f :: fs) k = (if key f.source = k then f.amount else 0) + taken key fs k := by
  by_cases h : key f.source = k <;> simp [taken, h]

theorem taken_of_not_mem {key : α → κ} {fills : List (Fill α)} {k : κ}
    (h : ∀ f ∈ fills, key f.source ≠ k) : taken key fills k = 0 := by
  have hnil : fills.filter (fun f => key f.source = k) = [] := by
    rw [List.filter_eq_nil_iff]
    intro f hf
    simpa using h f hf
  rw [taken, hnil, filled_nil]

theorem taken_append (key : α → κ) (fs gs : List (Fill α)) (k : κ) :
    taken key (fs ++ gs) k = taken key fs k + taken key gs k := by
  simp [taken, filled]

/-- With distinct keys, what a key gave is its one fill. -/
theorem taken_of_mem {key : α → κ} {fills : List (Fill α)}
    (hnodup : (fills.map fun f => key f.source).Nodup) {f : Fill α} (hf : f ∈ fills) :
    taken key fills (key f.source) = f.amount := by
  induction fills with
  | nil => cases hf
  | cons g rest ih =>
    rw [List.map_cons, List.nodup_cons] at hnodup
    rw [taken_cons]
    rcases List.mem_cons.mp hf with rfl | hf
    · have hrest : taken key rest (key f.source) = 0 := by
        apply taken_of_not_mem
        intro g hg heq
        exact hnodup.1 (List.mem_map.mpr ⟨g, hg, heq⟩)
      rw [if_pos rfl, hrest, Nat.add_zero]
    · have hne : key g.source ≠ key f.source := by
        intro heq
        exact hnodup.1 (List.mem_map.mpr ⟨f, hf, heq.symm⟩)
      rw [if_neg hne, ih hnodup.2 hf, Nat.zero_add]

end Framework
