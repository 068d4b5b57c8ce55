import VexCore.Framework.Depletion
import Mathlib.Algebra.Order.BigOperators.Group.List
import Mathlib.Data.List.Nodup
import Mathlib.Data.Nat.Cast.Order.Ring
import Mathlib.Tactic.Ring

/-!
# The cheapest way to serve a demand

Where supplies come in the order of their prices, serving a demand greedily costs no more than
any other way to take as much. Prices may be negative, so that the same holds of the best
proceeds when they come in the opposite order.
-/

namespace Framework

variable {α R : Type} [CommRing R] [PartialOrder R] [IsOrderedRing R]

/-- What the amounts taken cost. -/
def paid (price : α → R) (fills : List (Fill α)) : R :=
  (fills.map fun f => (f.amount : R) * price f.source).sum

/-- What some amount of each supply would cost. -/
def costOf (price : α → R) (choice : α → Nat) (supply : List α) : R :=
  (supply.map fun a => (choice a : R) * price a).sum

section

variable {price : α → R} {choice cap : α → Nat} {a : α} {rest supply : List α}

omit [PartialOrder R] [IsOrderedRing R] in
@[simp] theorem paid_nil : paid price [] = 0 := rfl

omit [PartialOrder R] [IsOrderedRing R] in
@[simp] theorem paid_cons (f : Fill α) (fs : List (Fill α)) :
    paid price (f :: fs) = f.amount * price f.source + paid price fs := by
  simp [paid]

omit [PartialOrder R] [IsOrderedRing R] in
@[simp] theorem costOf_cons :
    costOf price choice (a :: rest) = choice a * price a + costOf price choice rest := by
  simp [costOf]

theorem le_costOf {low : R} (hlow : ∀ a ∈ supply, low ≤ price a) :
    ((supply.map choice).sum : Nat) * low ≤ costOf price choice supply := by
  induction supply with
  | nil => simp [costOf]
  | cons a rest ih =>
    have hrest := ih fun b hb => hlow b (List.mem_cons_of_mem _ hb)
    have hhead : (choice a : R) * low ≤ choice a * price a :=
      mul_le_mul_of_nonneg_left (hlow a List.mem_cons_self) (Nat.cast_nonneg _)
    rw [List.map_cons, List.sum_cons, Nat.cast_add, add_mul, costOf_cons]
    exact add_le_add hhead hrest

/-- Whoever takes more than the greedy allocation pays at least the lowest price for the surplus,
over what the allocation pays. -/
theorem paid_allocate_add_le (hsorted : supply.Pairwise fun a b => price a ≤ price b)
    (hcap : ∀ a ∈ supply, choice a ≤ cap a) {low : R} (hlow : ∀ a ∈ supply, low ≤ price a)
    {demand surplus : Nat}
    (htotal : (supply.map choice).sum = filled (allocate cap demand supply) + surplus) :
    paid price (allocate cap demand supply) + surplus * low ≤ costOf price choice supply := by
  induction supply generalizing demand surplus low with
  | nil =>
    have hzero : surplus = 0 := (Nat.zero_add surplus).symm.trans htotal.symm
    simp [hzero, allocate, costOf]
  | cons a rest ih =>
    obtain ⟨hfirst, hsortedRest⟩ := List.pairwise_cons.mp hsorted
    have hcapRest : ∀ b ∈ rest, choice b ≤ cap b := fun b hb => hcap b (List.mem_cons_of_mem _ hb)
    have hcapHead := hcap a List.mem_cons_self
    have hsurplus : (surplus : R) * low ≤ surplus * price a :=
      mul_le_mul_of_nonneg_left (hlow a List.mem_cons_self) (Nat.cast_nonneg _)
    by_cases hzero : demand = 0
    · have hall : (((a :: rest).map choice).sum : Nat) * low ≤ costOf price choice (a :: rest) :=
        le_costOf hlow
      rw [htotal, hzero, allocate_zero, filled_nil, Nat.zero_add] at hall
      simpa [hzero] using hall
    · rw [List.map_cons, List.sum_cons, allocate_cons hzero, filled_cons] at htotal
      rw [allocate_cons hzero, paid_cons, costOf_cons]
      rcases Nat.le_total demand (cap a) with hle | hle
      · -- the first supply is enough, and nothing is cheaper
        have hrest : ((rest.map choice).sum : Nat) * price a ≤ costOf price choice rest :=
          le_costOf hfirst
        simp only [Nat.min_eq_left hle, Nat.sub_self, allocate_zero, paid_nil, filled_nil,
          add_zero] at htotal ⊢
        have hcast : (choice a : R) + ((rest.map choice).sum : Nat) = demand + surplus := by
          rw [← Nat.cast_add, ← Nat.cast_add, htotal]
        calc (demand : R) * price a + surplus * low
            ≤ demand * price a + surplus * price a := add_le_add_right hsurplus _
          _ = choice a * price a + ((rest.map choice).sum : Nat) * price a := by
              rw [← add_mul, ← add_mul, hcast]
          _ ≤ choice a * price a + costOf price choice rest := add_le_add_right hrest _
      · -- what the choice leaves of the first supply it takes at no lower price
        simp only [Nat.min_eq_right hle] at htotal ⊢
        have hrest := @ih hsortedRest hcapRest _ hfirst (demand - cap a)
          (surplus + (cap a - choice a)) (by omega)
        have hgap : (cap a : R) = choice a + ((cap a - choice a : Nat) : R) := by
          rw [← Nat.cast_add, Nat.add_sub_cancel' hcapHead]
        calc (cap a : R) * price a + paid price (allocate cap (demand - cap a) rest) + surplus * low
            ≤ cap a * price a + paid price (allocate cap (demand - cap a) rest) +
                surplus * price a := add_le_add_right hsurplus _
          _ = choice a * price a + (paid price (allocate cap (demand - cap a) rest) +
                ((surplus + (cap a - choice a) : Nat) : R) * price a) := by
              rw [Nat.cast_add, hgap]
              ring
          _ ≤ choice a * price a + costOf price choice rest := add_le_add_right hrest _

/-- Serving a demand greedily is the cheapest way to take as much. -/
theorem paid_allocate_le (hsorted : supply.Pairwise fun a b => price a ≤ price b)
    (hcap : ∀ a ∈ supply, choice a ≤ cap a) {demand : Nat}
    (htotal : (supply.map choice).sum = filled (allocate cap demand supply)) :
    paid price (allocate cap demand supply) ≤ costOf price choice supply := by
  cases supply with
  | nil => exact le_rfl
  | cons a rest =>
    obtain ⟨hfirst, _⟩ := List.pairwise_cons.mp hsorted
    have hlow : ∀ b ∈ a :: rest, price a ≤ price b := by
      intro b hb
      rcases List.mem_cons.mp hb with rfl | hb
      · exact le_rfl
      · exact hfirst b hb
    have hle := paid_allocate_add_le hsorted hcap hlow (htotal.trans (Nat.add_zero _).symm)
    rwa [Nat.cast_zero, zero_mul, add_zero] at hle

end

section

variable {cap choice : α → Nat} {supply : List α}

/-- No choice within the demand takes more than the allocation. -/
theorem sum_le_filled_allocate (hcap : ∀ a ∈ supply, choice a ≤ cap a) {demand : Nat}
    (hdemand : (supply.map choice).sum ≤ demand) :
    (supply.map choice).sum ≤ filled (allocate cap demand supply) := by
  rw [filled_allocate]
  exact Nat.le_min.mpr ⟨hdemand, List.sum_le_sum hcap⟩

variable {κ : Type} [DecidableEq κ] {key : α → κ}

/-- No supply gives more than it has. -/
theorem taken_le_cap (hnodup : (supply.map key).Nodup) {demand : Nat} {a : α} (ha : a ∈ supply) :
    taken key (allocate cap demand supply) (key a) ≤ cap a := by
  by_cases hgave : ∃ f ∈ allocate cap demand supply, key f.source = key a
  · obtain ⟨f, hf, heq⟩ := hgave
    have hsource : f.source = a :=
      List.inj_on_of_nodup_map hnodup (source_mem_of_mem_allocate hf) ha heq
    have hkeys := ((allocate_sources_sublist cap demand supply).map key).nodup hnodup
    rw [List.map_map] at hkeys
    rw [← hsource, taken_of_mem hkeys hf]
    exact amount_le_of_mem_allocate hf
  · rw [taken_of_not_mem fun f hf heq => hgave ⟨f, hf, heq⟩]
    exact Nat.zero_le _

/-- The allocation is a choice itself: what it takes of each supply adds up to what it takes. -/
theorem sum_taken (hnodup : (supply.map key).Nodup) (w : α → Nat) (demand : Nat) :
    (supply.map fun a => taken key (allocate cap demand supply) (key a) * w a).sum =
      weighed w (allocate cap demand supply) := by
  induction supply generalizing demand with
  | nil => rfl
  | cons a rest ih =>
    obtain ⟨hnew, hrest⟩ := List.nodup_cons.mp hnodup
    by_cases hzero : demand = 0
    · simp [hzero]
    · have hother {f : Fill α} (hf : f ∈ allocate cap (demand - min demand (cap a)) rest) :
          key f.source ≠ key a := by
        intro heq
        exact hnew (List.mem_map.mpr ⟨f.source, source_mem_of_mem_allocate hf, heq⟩)
      have htail : (rest.map fun b => taken key (allocate cap demand (a :: rest)) (key b) * w b) =
          rest.map fun b =>
            taken key (allocate cap (demand - min demand (cap a)) rest) (key b) * w b := by
        apply List.map_congr_left
        intro b hb
        have hne : key a ≠ key b := fun heq => hnew (List.mem_map.mpr ⟨b, hb, heq.symm⟩)
        rw [allocate_cons hzero, taken_cons, if_neg hne, Nat.zero_add]
      rw [List.map_cons, List.sum_cons, htail, ih hrest, allocate_cons hzero, taken_cons,
        if_pos rfl, taken_of_not_mem fun f hf => hother hf, Nat.add_zero, weighed_cons]

end

end Framework
