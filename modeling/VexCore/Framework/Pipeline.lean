import Mathlib.Data.Fintype.Defs
import Mathlib.Logic.Function.Basic
import Mathlib.Logic.Relation
import Mathlib.Tactic.Common
import Mathlib.Algebra.Order.Ring.Nat

/-!
# Staged handlers over a sequence of slots

A producer publishes items into consecutive slots. Each handler visits every slot once and in
order; it may enter a slot only after all handlers of earlier stages have left it. Handlers of
one stage, and handlers on different slots, interleave freely. A visit is atomic: it reads and
writes the shared state and the slot.
-/

namespace Framework

variable {η σ α : Type}

/-- The handlers: their stages and what a visit to slot `n` does. -/
structure Pipeline (η σ α : Type) where
  stage : η → Nat
  handle : η → Nat → σ → α → σ × α

namespace Pipeline

structure State (η σ α : Type) where
  shared : σ
  slots : Nat → α
  published : Nat
  /-- The next slot of each handler. -/
  seq : η → Nat

def State.start (shared : σ) (blank : α) : State η σ α := ⟨shared, fun _ => blank, 0, fun _ => 0⟩

def State.publish (s : State η σ α) (a : α) : State η σ α :=
  { s with slots := Function.update s.slots s.published a, published := s.published + 1 }

section Publish

variable (s : State η σ α) (a : α)

@[simp] theorem State.publish_shared : (s.publish a).shared = s.shared := rfl
@[simp] theorem State.publish_seq : (s.publish a).seq = s.seq := rfl
@[simp] theorem State.publish_published : (s.publish a).published = s.published + 1 := rfl

@[simp] theorem State.publish_slots_self : (s.publish a).slots s.published = a :=
  Function.update_self _ _ _

theorem State.publish_slots_ne {n : Nat} (hn : n ≠ s.published) :
    (s.publish a).slots n = s.slots n :=
  Function.update_of_ne hn _ _

end Publish

/-- No handler is past the producer or past a handler of an earlier stage. -/
structure Ordered (P : Pipeline η σ α) (s : State η σ α) : Prop where
  published : ∀ h, s.seq h ≤ s.published
  staged : ∀ g h, P.stage g < P.stage h → s.seq h ≤ s.seq g

section Order

variable {P : Pipeline η σ α} {s : State η σ α}

theorem Ordered.start (shared : σ) (blank : α) : P.Ordered (State.start shared blank) :=
  ⟨fun _ => le_rfl, fun _ _ _ => le_rfl⟩

theorem Ordered.publish (ho : P.Ordered s) (a : α) : P.Ordered (s.publish a) :=
  ⟨fun h => (ho.published h).trans (Nat.le_succ _), ho.staged⟩

/-- The order speaks about positions only, not about the shared state. -/
theorem Ordered.setShared (ho : P.Ordered s) (shared : σ) : P.Ordered { s with shared } :=
  ⟨ho.published, ho.staged⟩

/-- A slot visited by a later stage has been visited by the earlier ones. -/
theorem Ordered.lt_of_lt (ho : P.Ordered s) {g h : η} (hgh : P.stage g < P.stage h) {n : Nat}
    (hn : n < s.seq h) : n < s.seq g :=
  hn.trans_le (ho.staged g h hgh)

end Order

variable [DecidableEq η] (P : Pipeline η σ α)

/-- `h` may enter its next slot. -/
def Ready (s : State η σ α) (h : η) : Prop :=
  s.seq h < s.published ∧ ∀ g, P.stage g < P.stage h → s.seq h < s.seq g

instance [Fintype η] (s : State η σ α) (h : η) : Decidable (P.Ready s h) :=
  inferInstanceAs (Decidable (_ ∧ _))

/-- What `h` computes on its next slot. -/
def visit (s : State η σ α) (h : η) : σ × α :=
  P.handle h (s.seq h) s.shared (s.slots (s.seq h))

def advance (s : State η σ α) (h : η) : State η σ α :=
  { s with
    shared := (P.visit s h).1
    slots := Function.update s.slots (s.seq h) (P.visit s h).2
    seq := Function.update s.seq h (s.seq h + 1) }

/-- One step: the producer publishes an item it may offer, or a handler that the guard lets
through visits its next slot. -/
inductive Step (offer : Nat → α → Prop) (guard : η → State η σ α → Prop) :
    State η σ α → State η σ α → Prop
  | publish {s : State η σ α} (a : α) (offered : offer s.published a) :
      Step offer guard s (s.publish a)
  | advance {s : State η σ α} (h : η) (ready : P.Ready s h) (admitted : guard h s) :
      Step offer guard s (P.advance s h)

/-- The states a run from `init` can reach. -/
def Reaches (offer : Nat → α → Prop) (guard : η → State η σ α → Prop)
    (init : State η σ α) : State η σ α → Prop :=
  Relation.ReflTransGen (P.Step offer guard) init

/-- A ring of `capacity` slots is full: the next item would overwrite one that some handler has
still to visit. -/
def State.Full (s : State η σ α) (capacity : Nat) : Prop := ∃ h, s.seq h + capacity ≤ s.published

instance [Fintype η] (s : State η σ α) (capacity : Nat) : Decidable (s.Full capacity) :=
  inferInstanceAs (Decidable (∃ h, s.seq h + capacity ≤ s.published))

/-- Publish unless the ring is full. -/
def State.tryPublish [Fintype η] (s : State η σ α) (capacity : Nat) (a : α) :
    Option (State η σ α) :=
  if s.Full capacity then none else some (s.publish a)

/-- Every handler has visited every published slot. -/
def Drained (s : State η σ α) : Prop := ∀ h, s.seq h = s.published

section Changes

variable {P} (s : State η σ α) (h : η)

@[simp] theorem advance_shared : (P.advance s h).shared = (P.visit s h).1 := rfl
@[simp] theorem advance_published : (P.advance s h).published = s.published := rfl

@[simp] theorem advance_slots_self : (P.advance s h).slots (s.seq h) = (P.visit s h).2 :=
  Function.update_self _ _ _

theorem advance_slots_ne {n : Nat} (hn : n ≠ s.seq h) : (P.advance s h).slots n = s.slots n :=
  Function.update_of_ne hn _ _

@[simp] theorem advance_seq_self : (P.advance s h).seq h = s.seq h + 1 :=
  Function.update_self _ _ _

theorem advance_seq_ne {g : η} (hg : g ≠ h) : (P.advance s h).seq g = s.seq g :=
  Function.update_of_ne hg _ _

theorem le_advance_seq (g : η) : s.seq g ≤ (P.advance s h).seq g := by
  by_cases hg : g = h
  · subst hg
    rw [advance_seq_self]
    exact Nat.le_succ _
  · rw [advance_seq_ne s h hg]

end Changes

variable {P}

theorem Ordered.advance {s : State η σ α} (ho : P.Ordered s) {h : η} (ready : P.Ready s h) :
    P.Ordered (P.advance s h) where
  published g := by
    by_cases hg : g = h
    · subst hg
      rw [advance_seq_self]
      exact ready.1
    · rw [advance_seq_ne s h hg]
      exact ho.published g
  staged g k hgk := by
    by_cases hk : k = h
    · subst hk
      have hne : g ≠ k := by
        rintro rfl
        exact Nat.lt_irrefl _ hgk
      rw [advance_seq_self, advance_seq_ne s k hne]
      exact ready.2 g hgk
    · rw [advance_seq_ne s h hk]
      exact (ho.staged g k hgk).trans (le_advance_seq s h g)

variable {offer : Nat → α → Prop} {guard : η → State η σ α → Prop}

/-- Invariants: what holds at the start and survives publishing and every visit that the
stages and the guard allow holds in every state of a run. -/
theorem Reaches.invariant {init s : State η σ α} {I : State η σ α → Prop}
    (run : P.Reaches offer guard init s) (order : P.Ordered init) (start : I init)
    (publish : ∀ s a, P.Ordered s → I s → offer s.published a → I (s.publish a))
    (advance : ∀ s h, P.Ordered s → I s → P.Ready s h → guard h s → I (P.advance s h)) :
    P.Ordered s ∧ I s := by
  induction run with
  | refl => exact ⟨order, start⟩
  | tail _ step ih =>
    obtain ⟨horder, hinv⟩ := ih
    cases step with
    | publish a offered => exact ⟨horder.publish a, publish _ a horder hinv offered⟩
    | advance h ready admitted =>
      exact ⟨horder.advance ready, advance _ h horder hinv ready admitted⟩

theorem Reaches.ordered {shared : σ} {blank : α} {s : State η σ α}
    (run : P.Reaches offer guard (State.start shared blank) s) : P.Ordered s :=
  (run.invariant (I := fun _ => True) (Ordered.start shared blank) trivial
    (fun _ _ _ _ _ => trivial) (fun _ _ _ _ _ _ => trivial)).1

theorem Reaches.mono {offer' : Nat → α → Prop} {guard' : η → State η σ α → Prop}
    {init s : State η σ α} (run : P.Reaches offer guard init s)
    (hoffer : ∀ n a, offer n a → offer' n a) (hguard : ∀ h s, guard h s → guard' h s) :
    P.Reaches offer' guard' init s := by
  induction run with
  | refl => exact .refl
  | tail _ step ih =>
    cases step with
    | publish a offered => exact ih.tail (.publish a (hoffer _ _ offered))
    | advance h ready admitted => exact ih.tail (.advance h ready (hguard _ _ admitted))

/-- A run is let through by a guard that follows, where it is asked, from its own guard and an
invariant. -/
theorem Reaches.guarded {guard' : η → State η σ α → Prop} {init s : State η σ α}
    {I : State η σ α → Prop} (run : P.Reaches offer guard init s) (order : P.Ordered init)
    (start : I init)
    (publish : ∀ s a, P.Ordered s → I s → offer s.published a → I (s.publish a))
    (advance : ∀ s h, P.Ordered s → I s → P.Ready s h → guard h s → I (P.advance s h))
    (admits : ∀ s h, I s → P.Ready s h → guard h s → guard' h s) :
    P.Reaches offer guard' init s := by
  induction run with
  | refl => exact .refl
  | tail run step ih =>
    obtain ⟨_, hinv⟩ := Reaches.invariant run order start publish advance
    cases step with
    | publish a offered => exact ih.tail (.publish a offered)
    | advance h ready admitted => exact ih.tail (.advance h ready (admits _ h hinv ready admitted))

inductive Action (η α : Type)
  | publish (a : α)
  | advance (h : η)

variable (P)

def perform (s : State η σ α) : Action η α → State η σ α
  | .publish a => s.publish a
  | .advance h => P.advance s h

def execute (s : State η σ α) (actions : List (Action η α)) : State η σ α :=
  actions.foldl P.perform s

/-- Every action is possible where it happens. -/
def Possible (offer : Nat → α → Prop) (guard : η → State η σ α → Prop) :
    State η σ α → List (Action η α) → Prop
  | _, [] => True
  | s, .publish a :: rest => offer s.published a ∧ Possible offer guard (s.publish a) rest
  | s, .advance h :: rest =>
      (P.Ready s h ∧ guard h s) ∧ Possible offer guard (P.advance s h) rest

instance Possible.decidable [Fintype η] (offer : Nat → α → Prop) [∀ n a, Decidable (offer n a)]
    (guard : η → State η σ α → Prop) [∀ h s, Decidable (guard h s)] :
    (s : State η σ α) → (actions : List (Action η α)) →
      Decidable (P.Possible offer guard s actions)
  | _, [] => inferInstanceAs (Decidable True)
  | s, .publish a :: rest =>
      have := Possible.decidable offer guard (s.publish a) rest
      inferInstanceAs (Decidable (_ ∧ _))
  | s, .advance h :: rest =>
      have := Possible.decidable offer guard (P.advance s h) rest
      inferInstanceAs (Decidable (_ ∧ _))

variable {P}

/-- A possible schedule is a run. -/
theorem Possible.reaches {s : State η σ α} {actions : List (Action η α)}
    (h : P.Possible offer guard s actions) :
    P.Reaches offer guard s (P.execute s actions) := by
  induction actions generalizing s with
  | nil => exact .refl
  | cons action rest ih =>
    cases action with
    | publish a =>
      obtain ⟨offered, h⟩ := h
      exact Relation.ReflTransGen.head (.publish a offered) (ih h)
    | advance g =>
      obtain ⟨⟨ready, admitted⟩, h⟩ := h
      exact Relation.ReflTransGen.head (.advance g ready admitted) (ih h)

end Pipeline

end Framework
