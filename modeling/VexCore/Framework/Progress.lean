import Mathlib.Data.Finset.Max
import Mathlib.Data.Prod.Lex
import VexCore.Framework.Pipeline
import VexCore.Framework.Window

/-!
# Progress of a pipeline

As long as a slot is still to be visited some handler may go on, and every visit is one less to
come. So however the handlers take turns, they come to the end after as many visits as were
outstanding, and no earlier.
-/

namespace Framework.Pipeline

variable {η σ α : Type}

section Visits

variable [DecidableEq η] (P : Pipeline η σ α)

/-- Some number of visits, by handlers that may go on, with nothing published in between. -/
inductive Visits (s : State η σ α) : Nat → State η σ α → Prop
  | refl : Visits s 0 s
  | tail {k : Nat} {t : State η σ α} (run : Visits s k t) (h : η) (ready : P.Ready t h) :
      Visits s (k + 1) (P.advance t h)

namespace Visits

variable {P} {k : Nat} {s t : State η σ α}

theorem ordered (run : P.Visits s k t) (order : P.Ordered s) : P.Ordered t := by
  induction run with
  | refl => exact order
  | tail _ h ready ih => exact ih.advance ready

theorem published (run : P.Visits s k t) : t.published = s.published := by
  induction run with
  | refl => rfl
  | tail _ h ready ih => simp [ih]

/-- Visits keep what every visit keeps. -/
theorem invariant (run : P.Visits s k t) {I : State η σ α → Prop} (order : P.Ordered s)
    (start : I s) (advance : ∀ s h, P.Ordered s → I s → P.Ready s h → I (P.advance s h)) :
    I t := by
  induction run with
  | refl => exact start
  | tail run h ready ih => exact advance _ h (run.ordered order) ih ready

end Visits

end Visits

variable [Fintype η] {P : Pipeline η σ α} {s t : State η σ α}

/-- The visits that the published slots still ask for. -/
def State.outstanding (s : State η σ α) : Nat := ∑ h, (s.published - s.seq h)

variable [DecidableEq η]

theorem outstanding_advance {h : η} (ready : P.Ready s h) :
    (P.advance s h).outstanding + 1 = s.outstanding := by
  have hchange := sum_change (Finset.mem_univ h)
    (f := fun g => s.published - (P.advance s h).seq g) (g := fun g => s.published - s.seq g)
    fun g _ hg => by rw [advance_seq_ne s h hg]
  have hlt := ready.1
  simp only [advance_seq_self] at hchange
  show ∑ g, (s.published - (P.advance s h).seq g) + 1 = ∑ g, (s.published - s.seq g)
  omega

namespace Visits

variable {k : Nat}

theorem outstanding (run : P.Visits s k t) : t.outstanding + k = s.outstanding := by
  induction run with
  | refl => rfl
  | tail _ h ready ih =>
    have hstep := outstanding_advance ready
    omega

end Visits

end Framework.Pipeline
