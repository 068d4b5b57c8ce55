import Mathlib.Algebra.BigOperators.Group.List.Basic
import Mathlib.Algebra.Order.Ring.Nat
import Mathlib.Logic.Function.Basic
import Mathlib.Tactic.Common

/-!
# Escrow accounts

An account holds an available and a locked amount. A plan is a list of moves on keyed accounts:
releases give locked amounts back, spends take them away, receipts add to what is available and
name the fee that was cut from them. Where the locked amounts cover a plan's debits, its moves
can be made one after the other, and what they leave does not depend on their order.
-/

namespace Framework

structure Account where
  available : Nat
  locked : Nat

inductive Move
  | release (amount : Nat)
  | spend (amount : Nat)
  | receive (amount fee : Nat)
deriving DecidableEq

namespace Move

def debit : Move → Nat
  | release amount | spend amount => amount
  | receive _ _ => 0

def credit : Move → Nat
  | release amount | receive amount _ => amount
  | spend _ => 0

def spent : Move → Nat
  | spend amount => amount
  | release _ | receive _ _ => 0

def received : Move → Nat
  | receive amount _ => amount
  | release _ | spend _ => 0

def withheld : Move → Nat
  | receive _ fee => fee
  | release _ | spend _ => 0

theorem spent_le_debit (m : Move) : m.spent ≤ m.debit := by
  cases m <;> simp [spent, debit]

theorem debit_add_received (m : Move) : m.debit + m.received = m.credit + m.spent := by
  cases m <;> simp [debit, received, credit, spent]

end Move

variable {κ : Type}

/-- The sum of a measure over the moves of a plan on selected accounts. -/
def tallyAt (measure : Move → Nat) (plan : List (κ × Move)) (here : κ → Bool) : Nat :=
  (plan.map fun e => if here e.1 then measure e.2 else 0).sum

section TallyAt

variable (measure : Move → Nat)

@[simp] theorem tallyAt_nil (here : κ → Bool) : tallyAt measure [] here = 0 := rfl

@[simp] theorem tallyAt_cons (e : κ × Move) (plan : List (κ × Move)) (here : κ → Bool) :
    tallyAt measure (e :: plan) here =
      (if here e.1 then measure e.2 else 0) + tallyAt measure plan here := by
  simp [tallyAt]

@[simp] theorem tallyAt_append (p q : List (κ × Move)) (here : κ → Bool) :
    tallyAt measure (p ++ q) here = tallyAt measure p here + tallyAt measure q here := by
  simp [tallyAt]

theorem tallyAt_flatMap {α : Type} (f : α → List (κ × Move)) (l : List α) (here : κ → Bool) :
    tallyAt measure (l.flatMap f) here = (l.map fun a => tallyAt measure (f a) here).sum := by
  induction l with
  | nil => rfl
  | cons a rest ih => rw [List.flatMap_cons, tallyAt_append, ih, List.map_cons, List.sum_cons]

/-- A plan restricted to some accounts. -/
theorem tallyAt_filter (keep here : κ → Bool) (plan : List (κ × Move)) :
    tallyAt measure (plan.filter fun e => keep e.1) here =
      tallyAt measure plan fun k => keep k && here k := by
  induction plan with
  | nil => rfl
  | cons e rest ih =>
    rw [List.filter_cons, tallyAt_cons, ← ih]
    cases keep e.1 with
    | true => simp
    | false => simp

theorem tallyAt_of_not_mem {plan : List (κ × Move)} {here : κ → Bool}
    (h : ∀ e ∈ plan, here e.1 = false) : tallyAt measure plan here = 0 := by
  induction plan with
  | nil => rfl
  | cons e rest ih =>
    rw [tallyAt_cons, h e List.mem_cons_self,
      ih fun e' he' => h e' (List.mem_cons_of_mem e he')]
    rfl

theorem tallyAt_congr {plan : List (κ × Move)} {here there : κ → Bool}
    (h : ∀ e ∈ plan, here e.1 = there e.1) :
    tallyAt measure plan here = tallyAt measure plan there := by
  induction plan with
  | nil => rfl
  | cons e rest ih =>
    rw [tallyAt_cons, tallyAt_cons, h e List.mem_cons_self,
      ih fun e' he' => h e' (List.mem_cons_of_mem e he')]

theorem tallyAt_le {measure measure' : Move → Nat} (h : ∀ m, measure m ≤ measure' m)
    (plan : List (κ × Move)) (here : κ → Bool) :
    tallyAt measure plan here ≤ tallyAt measure' plan here := by
  induction plan with
  | nil => exact Nat.le_refl _
  | cons e rest ih =>
    rw [tallyAt_cons, tallyAt_cons]
    apply Nat.add_le_add _ ih
    split
    · exact h e.2
    · exact Nat.le_refl _

theorem tallyAt_debit_add_received (plan : List (κ × Move)) (here : κ → Bool) :
    tallyAt Move.debit plan here + tallyAt Move.received plan here =
      tallyAt Move.credit plan here + tallyAt Move.spent plan here := by
  induction plan with
  | nil => rfl
  | cons e rest ih =>
    have hmove := e.2.debit_add_received
    simp only [tallyAt_cons]
    split <;> omega

end TallyAt

/-- On some accounts together, a plan hands on what it spends, fees apart. -/
def Conserves (plan : List (κ × Move)) (here : κ → Bool) : Prop :=
  tallyAt Move.spent plan here =
    tallyAt Move.received plan here + tallyAt Move.withheld plan here

theorem Conserves.nil (here : κ → Bool) : Conserves [] here := rfl

theorem Conserves.append {p q : List (κ × Move)} {here : κ → Bool} (hp : Conserves p here)
    (hq : Conserves q here) : Conserves (p ++ q) here := by
  unfold Conserves at hp hq ⊢
  simp only [tallyAt_append]
  omega

theorem Conserves.flatMap {α : Type} {f : α → List (κ × Move)} {l : List α} {here : κ → Bool}
    (h : ∀ a ∈ l, Conserves (f a) here) : Conserves (l.flatMap f) here := by
  induction l with
  | nil => exact .nil here
  | cons a rest ih =>
    rw [List.flatMap_cons]
    exact (h a List.mem_cons_self).append (ih fun b hb => h b (List.mem_cons_of_mem a hb))

variable [DecidableEq κ]

/-- An amount that counts on one account only. -/
def onKey (here k : κ) (n : Nat) : Nat := if here = k then n else 0

section OnKey

variable {here k : κ}

theorem onKey_of_eq (h : here = k) (n : Nat) : onKey here k n = n := if_pos h

theorem onKey_of_ne (h : here ≠ k) (n : Nat) : onKey here k n = 0 := if_neg h

@[simp] theorem onKey_zero (here k : κ) : onKey here k 0 = 0 := by simp [onKey]

theorem onKey_add (here k : κ) (m n : Nat) :
    onKey here k (m + n) = onKey here k m + onKey here k n := by
  unfold onKey
  split <;> simp

end OnKey

/-- The sum of a measure over the moves of a plan on one account. -/
def tally (measure : Move → Nat) (plan : List (κ × Move)) (k : κ) : Nat :=
  tallyAt measure plan fun k' => decide (k' = k)

section Tally

variable (measure : Move → Nat)

@[simp] theorem tally_nil (k : κ) : tally measure [] k = 0 := rfl

@[simp] theorem tally_cons (e : κ × Move) (plan : List (κ × Move)) (k : κ) :
    tally measure (e :: plan) k = (if e.1 = k then measure e.2 else 0) + tally measure plan k := by
  simp [tally]

theorem tally_cons_onKey (e : κ × Move) (plan : List (κ × Move)) (k : κ) :
    tally measure (e :: plan) k = onKey e.1 k (measure e.2) + tally measure plan k :=
  tally_cons measure e plan k

@[simp] theorem tally_append (p q : List (κ × Move)) (k : κ) :
    tally measure (p ++ q) k = tally measure p k + tally measure q k :=
  tallyAt_append measure p q _

/-- A filter by accounts keeps the tally of an account it keeps. -/
theorem tally_filter {keep : κ → Bool} (plan : List (κ × Move)) {k : κ} (h : keep k = true) :
    tally measure (plan.filter fun e => keep e.1) k = tally measure plan k := by
  rw [tally, tallyAt_filter]
  apply tallyAt_congr
  intro e _
  by_cases hk : e.1 = k
  · rw [hk, h, Bool.true_and]
  · simp [hk]

theorem tally_filter_of_not {keep : κ → Bool} (plan : List (κ × Move)) {k : κ}
    (h : keep k = false) : tally measure (plan.filter fun e => keep e.1) k = 0 := by
  rw [tally, tallyAt_filter]
  apply tallyAt_of_not_mem
  intro e _
  by_cases hk : e.1 = k
  · rw [hk, h, Bool.false_and]
  · simp [hk]

theorem tally_of_not_mem {plan : List (κ × Move)} {k : κ} (h : ∀ e ∈ plan, e.1 ≠ k) :
    tally measure plan k = 0 := by
  apply tallyAt_of_not_mem
  intro e he
  simp [h e he]

end Tally

/-- The accounts after a plan. -/
def settle (accounts : κ → Account) (plan : List (κ × Move)) (k : κ) : Account :=
  { available := (accounts k).available + tally Move.credit plan k
    locked := (accounts k).locked - tally Move.debit plan k }

/-- Every account has locked what the plan takes from it, and no account passes the capacity. -/
def Covers (capacity : Nat) (accounts : κ → Account) (plan : List (κ × Move)) : Prop :=
  ∀ k, tally Move.debit plan k ≤ (accounts k).locked ∧
    (accounts k).available + tally Move.credit plan k < capacity

section Covers

variable {capacity : Nat} {accounts : κ → Account} {p q : List (κ × Move)}

theorem settle_nil (accounts : κ → Account) : settle accounts [] = accounts := rfl

/-- A single move changes its account only. -/
theorem settle_singleton (accounts : κ → Account) (k : κ) (m : Move) :
    settle accounts [(k, m)] = Function.update accounts k
      { available := (accounts k).available + m.credit, locked := (accounts k).locked - m.debit } := by
  funext k'
  by_cases hk : k' = k
  · subst hk
    simp [settle]
  · simp [settle, hk, Ne.symm hk]

theorem settle_append (accounts : κ → Account) (p q : List (κ × Move)) :
    settle (settle accounts p) q = settle accounts (p ++ q) := by
  funext k
  simp only [settle, tally_append, Account.mk.injEq]
  constructor
  · exact Nat.add_assoc _ _ _
  · exact Nat.sub_sub _ _ _

theorem Covers.left (h : Covers capacity accounts (p ++ q)) : Covers capacity accounts p := by
  intro k
  have hk := h k
  rw [tally_append, tally_append] at hk
  constructor <;> omega

theorem Covers.right (h : Covers capacity accounts (p ++ q)) :
    Covers capacity (settle accounts p) q := by
  intro k
  have hk := h k
  rw [tally_append, tally_append] at hk
  simp only [settle]
  constructor <;> omega

end Covers

end Framework
