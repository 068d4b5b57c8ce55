import Mathlib.Data.Nat.ModEq
import Mathlib.Tactic.Ring
import VexCore.Framework.Word

/-!
# Floored proportional shares

`share m d n` is the floor of `n * m / d`. Splitting `n` into pieces and flooring each
piece separately never gains: the pieces add up to at most the floored whole.
-/

namespace Framework

/-- The floored share of `n` at the rate `m / d`; zero when `d` is zero. -/
def share (m d n : Nat) : Nat := n * m / d

@[simp] theorem share_zero (m d : Nat) : share m d 0 = 0 := by simp [share]

theorem share_mono {m d a b : Nat} (h : a ≤ b) : share m d a ≤ share m d b :=
  Nat.div_le_div_right (Nat.mul_le_mul_right m h)

theorem share_add_le (m d a b : Nat) : share m d a + share m d b ≤ share m d (a + b) := by
  unfold share
  rw [Nat.add_mul]
  exact Nat.div_add_div_le_add_div

/-- What flooring the two pieces of `a + b` separately loses. -/
def splitLoss (m d a b : Nat) : Nat := share m d (a + b) - (share m d a + share m d b)

theorem share_add (m d a b : Nat) :
    share m d (a + b) = share m d a + share m d b + splitLoss m d a b := by
  have h := share_add_le m d a b
  unfold splitLoss
  omega

/-- A split loses at most one. -/
theorem splitLoss_le_one (m d a b : Nat) : splitLoss m d a b ≤ 1 := by
  unfold splitLoss share
  rw [Nat.add_mul]
  rcases Nat.eq_zero_or_pos d with rfl | hd
  · simp
  · rw [Nat.add_div hd]
    split <;> omega

end Framework
