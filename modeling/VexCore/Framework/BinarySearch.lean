import Mathlib.Tactic.Common
import Mathlib.Algebra.Order.Ring.Nat

/-!
# Bisection on a list with strictly increasing keys
-/

namespace Framework

variable {α : Type}

/-- Halve the window `[base, base + size)` until one candidate position is left. -/
def bisect (key : α → Nat) (target : Nat) (xs : List α) : Nat → Nat → Nat → Nat
  | 0, base, _ => base
  | fuel + 1, base, size =>
      if size ≤ 1 then base
      else
        let half := size / 2
        let mid := base + half
        match xs[mid]? with
        | some x => bisect key target xs fuel (if target < key x then base else mid) (size - half)
        | none => base

/-- The position of an element with key `target`, as a binary search finds it. -/
def binarySearchByKey (xs : List α) (target : Nat) (key : α → Nat) : Option Nat :=
  let pos := bisect key target xs xs.length 0 xs.length
  match xs[pos]? with
  | some x => if key x = target then some pos else none
  | none => none

theorem binarySearchByKey_sound {xs : List α} {target : Nat} {key : α → Nat} {pos : Nat}
    (h : binarySearchByKey xs target key = some pos) :
    ∃ x, xs[pos]? = some x ∧ key x = target := by
  unfold binarySearchByKey at h
  simp only at h
  split at h
  · rename_i x hx
    split at h
    · rename_i hk
      obtain rfl := Option.some.inj h
      exact ⟨x, hx, hk⟩
    · cases h
  · cases h

private theorem keys_lt {xs : List α} {key : α → Nat}
    (hs : xs.Pairwise fun a b => key a < key b) {i j : Nat} (hij : i < j) (hj : j < xs.length) :
    key xs[i] < key xs[j] :=
  List.pairwise_iff_getElem.mp hs i j (hij.trans hj) hj hij

private theorem bisect_spec {xs : List α} {key : α → Nat} {target j : Nat}
    (hs : xs.Pairwise fun a b => key a < key b) (hj : j < xs.length)
    (hkey : key xs[j] = target) (fuel base size : Nat)
    (hlo : base ≤ j) (hhi : j < base + size) (hlen : base + size ≤ xs.length)
    (hfuel : size ≤ fuel) :
    bisect key target xs fuel base size = j := by
  induction fuel generalizing base size with
  | zero => omega
  | succ fuel ih =>
    unfold bisect
    by_cases hsize : size ≤ 1
    · rw [if_pos hsize]
      omega
    · rw [if_neg hsize]
      have hmid : base + size / 2 < xs.length := by omega
      simp only [List.getElem?_eq_getElem hmid]
      by_cases hlt : target < key xs[base + size / 2]
      · -- the target lies strictly before the middle
        have hjm : j < base + size / 2 := by
          by_contra hge
          rcases Nat.lt_or_eq_of_le (Nat.le_of_not_lt hge) with h | h
          · have := keys_lt hs h hj
            omega
          · subst h
            omega
        rw [if_pos hlt]
        exact ih base (size - size / 2) hlo (by omega) (by omega) (by omega)
      · have hjm : base + size / 2 ≤ j := by
          by_contra hge
          have := keys_lt hs (Nat.lt_of_not_le hge) hmid
          omega
        rw [if_neg hlt]
        exact ih (base + size / 2) (size - size / 2) hjm (by omega) (by omega) (by omega)

/-- On strictly increasing keys the search finds the one position of a key that is there. -/
theorem binarySearchByKey_complete {xs : List α} {key : α → Nat} {j : Nat}
    (hs : xs.Pairwise fun a b => key a < key b) (hj : j < xs.length) :
    binarySearchByKey xs (key xs[j]) key = some j := by
  unfold binarySearchByKey
  have hpos := bisect_spec hs hj rfl xs.length 0 xs.length (Nat.zero_le _) (by omega)
    (by omega) le_rfl
  simp only [hpos, List.getElem?_eq_getElem hj, if_pos]

theorem binarySearchByKey_eq_none {xs : List α} {key : α → Nat} {target : Nat}
    (h : ∀ x ∈ xs, key x ≠ target) : binarySearchByKey xs target key = none := by
  by_contra hne
  obtain ⟨pos, hpos⟩ := Option.ne_none_iff_exists'.mp hne
  obtain ⟨x, hx, hk⟩ := binarySearchByKey_sound hpos
  exact h x (List.mem_of_getElem? hx) hk

end Framework
