import Mathlib.Algebra.BigOperators.Intervals
import Mathlib.Algebra.Order.BigOperators.Group.Finset
import Mathlib.Algebra.Order.Ring.Nat

/-!
# Sums over a window of slots

What is in flight between two handlers of a pipeline is summed over the slots that one of them
has passed and the other has not. The window grows at its end and shrinks at its start.
-/

namespace Framework

/-- One summand changes. -/
theorem sum_change {ι : Type} [DecidableEq ι] {s : Finset ι} {i : ι} (hi : i ∈ s) {f g : ι → Nat}
    (h : ∀ j ∈ s, j ≠ i → f j = g j) : ∑ j ∈ s, f j + g i = ∑ j ∈ s, g j + f i := by
  have hrest : ∑ j ∈ s.erase i, f j = ∑ j ∈ s.erase i, g j := by
    apply Finset.sum_congr rfl
    intro j hj
    exact h j (Finset.mem_of_mem_erase hj) (Finset.ne_of_mem_erase hj)
  rw [← Finset.add_sum_erase s f hi, ← Finset.add_sum_erase s g hi, hrest]
  omega

/-- The sum of a measure over the slots from `first` up to `last`. -/
def window (measure : Nat → Nat) (first last : Nat) : Nat :=
  ∑ n ∈ Finset.Ico first last, measure n

section Window

variable {f g : Nat → Nat} {first last n : Nat}

@[simp] theorem window_self (f : Nat → Nat) (n : Nat) : window f n n = 0 := by
  simp [window]

theorem window_succ (f : Nat → Nat) (h : first ≤ last) :
    window f first (last + 1) = window f first last + f last :=
  Finset.sum_Ico_succ_top h f

theorem window_drop (f : Nat → Nat) (h : first < last) :
    window f first last = f first + window f (first + 1) last :=
  Finset.sum_eq_sum_Ico_succ_bot h f

theorem window_append (f : Nat → Nat) {middle : Nat} (hfirst : first ≤ middle)
    (hlast : middle ≤ last) : window f first middle + window f middle last = window f first last :=
  Finset.sum_Ico_consecutive f hfirst hlast

theorem window_congr (h : ∀ i, first ≤ i → i < last → f i = g i) :
    window f first last = window g first last := by
  apply Finset.sum_congr rfl
  intro i hi
  rw [Finset.mem_Ico] at hi
  exact h i hi.1 hi.2

theorem window_le (h : ∀ i, first ≤ i → i < last → f i ≤ g i) :
    window f first last ≤ window g first last := by
  apply Finset.sum_le_sum
  intro i hi
  rw [Finset.mem_Ico] at hi
  exact h i hi.1 hi.2

theorem window_eq_zero (h : ∀ i, first ≤ i → i < last → f i = 0) : window f first last = 0 := by
  apply Finset.sum_eq_zero
  intro i hi
  rw [Finset.mem_Ico] at hi
  exact h i hi.1 hi.2

/-- What one slot has to spare, the window has. -/
theorem window_add_le (hfirst : first ≤ n) (hlast : n < last) {m : Nat}
    (h : ∀ i, first ≤ i → i < last → f i ≤ g i) (hn : f n + m ≤ g n) :
    window f first last + m ≤ window g first last := by
  have hsum := Finset.add_sum_erase (Finset.Ico first last) f (Finset.mem_Ico.mpr ⟨hfirst, hlast⟩)
  have hsum' := Finset.add_sum_erase (Finset.Ico first last) g (Finset.mem_Ico.mpr ⟨hfirst, hlast⟩)
  have hrest : ∑ i ∈ (Finset.Ico first last).erase n, f i ≤
      ∑ i ∈ (Finset.Ico first last).erase n, g i := by
    apply Finset.sum_le_sum
    intro i hi
    have hmem := Finset.mem_Ico.mp (Finset.mem_of_mem_erase hi)
    exact h i hmem.1 hmem.2
  unfold window
  omega

/-- One slot of the window changes. -/
theorem window_change (hfirst : first ≤ n) (hlast : n < last)
    (h : ∀ i, first ≤ i → i < last → i ≠ n → f i = g i) :
    window f first last + g n = window g first last + f n := by
  apply sum_change (Finset.mem_Ico.mpr ⟨hfirst, hlast⟩)
  intro i hi hne
  rw [Finset.mem_Ico] at hi
  exact h i hi.1 hi.2 hne

theorem window_add (f g : Nat → Nat) (first last : Nat) :
    window (fun n => f n + g n) first last = window f first last + window g first last :=
  Finset.sum_add_distrib

/-- A window of sums is a sum of windows. -/
theorem sum_window {ι : Type} (s : Finset ι) (f : ι → Nat → Nat) (first last : Nat) :
    ∑ i ∈ s, window (f i) first last = window (fun n => ∑ i ∈ s, f i n) first last :=
  Finset.sum_comm

end Window

end Framework
