import Mathlib.Algebra.Order.Ring.Nat
import Mathlib.Tactic.Common

/-!
# Logs of frames in blocks

Frames of one length, written one after the other into blocks. A frame never spans two blocks:
where the rest of a block is too short for the next one it is padded.
-/

namespace Framework

section

variable {block frame position start n : Nat}

/-- The position after the next frame. -/
def appendFrame (block frame position : Nat) : Nat :=
  if position % block + frame ≤ block then position + frame
  else (position / block + 1) * block + frame

/-- The position after `n` frames. -/
def logPosition (block frame start : Nat) : Nat → Nat
  | 0 => start
  | n + 1 => appendFrame block frame (logPosition block frame start n)

theorem add_le_appendFrame (hblock : 0 < block) (frame position : Nat) :
    position + frame ≤ appendFrame block frame position := by
  unfold appendFrame
  split_ifs
  · exact Nat.le_refl _
  · have hlt := Nat.lt_mul_div_succ position hblock
    have hcomm := Nat.mul_comm block (position / block + 1)
    omega

/-- Nothing is padded in the first block. -/
theorem logPosition_of_fits (h : n * frame ≤ block) :
    logPosition block frame (block * start) n = block * start + n * frame := by
  induction n with
  | zero => simp [logPosition]
  | succ n ih =>
    rw [Nat.succ_mul] at h
    rw [logPosition, ih (by omega), Nat.succ_mul]
    rcases Nat.eq_zero_or_pos frame with rfl | hframe
    · simp [appendFrame]
    · have hinside : n * frame < block := by omega
      rw [appendFrame, Nat.mul_add_mod, Nat.mod_eq_of_lt hinside, if_pos h]
      omega

/-- Where frames do not fill a block, a log longer than one is longer than its frames. -/
theorem logPosition_gt (hframe : 0 < frame) (hblock : 0 < block) (hrest : ¬frame ∣ block)
    (hn : block / frame < n) :
    block * start + n * frame < logPosition block frame (block * start) n := by
  induction n, hn using Nat.le_induction with
  | base =>
    -- the first frame that does not fit is put behind the padding
    have hfull : block / frame * frame < block := by
      refine Nat.lt_of_le_of_ne (Nat.div_mul_le_self block frame) ?_
      exact fun h => hrest ⟨block / frame, by rw [Nat.mul_comm]; exact h.symm⟩
    have hover := Nat.lt_div_mul_add hframe (a := block)
    rw [logPosition, logPosition_of_fits hfull.le, appendFrame, Nat.mul_add_mod,
      Nat.mod_eq_of_lt hfull, if_neg (by omega), Nat.mul_add_div hblock,
      Nat.div_eq_of_lt hfull, Nat.succ_mul, Nat.add_zero, Nat.succ_mul, Nat.mul_comm start block]
    omega
  | succ n hn ih =>
    have hstep := add_le_appendFrame hblock frame (logPosition block frame (block * start) n)
    rw [logPosition, Nat.succ_mul]
    omega

end

end Framework
