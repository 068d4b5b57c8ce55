import Mathlib.Tactic.Common

/-!
# Operations local to a key

A state is seen through what it holds at each key. An operation is local to a key if it changes
nothing at other keys, and if its result and the new view at its key depend on the view at that
key only. Local operations may run on any state that agrees on their key.
-/

namespace Framework

variable {σ κ β ρ τ α ε : Type}

structure Local (view : σ → κ → β) (k : κ) (f : σ → σ × ρ) : Prop where
  frame : ∀ s k', k' ≠ k → view (f s).1 k' = view s k'
  result : ∀ s t, view s k = view t k → (f s).2 = (f t).2
  update : ∀ s t, view s k = view t k → view (f s).1 k = view (f t).1 k

/-- Two states look alike at the keys in `own`. -/
def AgreeOn (view : σ → κ → β) (own : κ → Prop) (s t : σ) : Prop :=
  ∀ k, own k → view s k = view t k

namespace Local

variable {view : σ → κ → β} {k : κ} {f : σ → σ × ρ}

theorem pure (view : σ → κ → β) (k : κ) (r : ρ) : Local view k fun s => (s, r) where
  frame _ _ _ := rfl
  result _ _ _ := rfl
  update _ _ h := h

/-- One operation after another, which may depend on the first one's result. -/
theorem bind {g : ρ → σ → σ × τ} (hf : Local view k f) (hg : ∀ r, Local view k (g r)) :
    Local view k fun s => g (f s).2 (f s).1 where
  frame s k' hk := ((hg _).frame _ k' hk).trans (hf.frame s k' hk)
  result s t h := by
    rw [hf.result s t h]
    exact (hg _).result _ _ (hf.update s t h)
  update s t h := by
    rw [hf.result s t h]
    exact (hg _).update _ _ (hf.update s t h)

theorem map (hf : Local view k f) (g : ρ → τ) : Local view k fun s => ((f s).1, g (f s).2) :=
  hf.bind fun r => pure view k (g r)

theorem congr (hf : Local view k f) {f' : σ → σ × ρ} (h : ∀ s, f' s = f s) : Local view k f' := by
  rwa [funext h]

/-- Going on after a success; a failure ends with what `fail` makes of it. -/
theorem bindExcept {f : σ → σ × Except ε α} {g : α → σ → σ × τ} (hf : Local view k f)
    (fail : ε → τ) (hg : ∀ a, Local view k (g a)) :
    Local view k fun s =>
      match f s with
      | (s, .error e) => (s, fail e)
      | (s, .ok a) => g a s := by
  let next (r : Except ε α) (s : σ) : σ × τ :=
    match r with
    | .error e => (s, fail e)
    | .ok a => g a s
  have hnext : ∀ r, Local view k (next r) := by
    intro r
    cases r with
    | error e => exact pure view k (fail e)
    | ok a => exact hg a
  refine (hf.bind hnext).congr fun s => ?_
  rcases f s with ⟨s', _ | a⟩ <;> rfl

/-- Running the operation on both sides keeps the agreement and gives the same result. -/
theorem agree (hf : Local view k f) {own : κ → Prop} (hk : own k) {s t : σ}
    (h : AgreeOn view own s t) : AgreeOn view own (f s).1 (f t).1 ∧ (f s).2 = (f t).2 := by
  refine ⟨?_, hf.result s t (h k hk)⟩
  intro k' hk'
  by_cases hkk : k' = k
  · rw [hkk]
    exact hf.update s t (h k hk)
  · rw [hf.frame s k' hkk, hf.frame t k' hkk]
    exact h k' hk'

/-- Running it on the right alone keeps the agreement on keys that are not its own. -/
theorem agree_right (hf : Local view k f) {own : κ → Prop} (hk : ¬own k) {s t : σ}
    (h : AgreeOn view own s t) : AgreeOn view own s (f t).1 := by
  intro k' hk'
  rw [hf.frame t k' fun heq => hk (heq ▸ hk')]
  exact h k' hk'

end Local

end Framework
