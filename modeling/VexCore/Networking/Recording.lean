import VexCore.Framework.BlockLog
import Mathlib.Data.Nat.Prime.Basic

/-!
# Replaying a recording

The loop that polls a replayed recording counts 96 bytes for every fragment it is handed. The
stream also moves over the padding at the end of a term, which is handed to nobody.
-/

namespace VexCore.Networking

open Framework

/-- Bytes of the stream that a command takes up. -/
def frameSize : Nat := 96

/-- What a turn of the loop sees: the shutdown flag and, if it gets to poll, the fragments that
were handed over, or the error of the poll. -/
structure Turn where
  shutdown : Bool
  poll : Except String Nat

inductive Exit
  | shutdown
  | exhausted
  | failed (error : String)

/-- The loop ended, or the turns ran out while it was polling. -/
inductive Progress
  | ended (exit : Exit)
  | polling (position : Nat)

/-- The poll loop of `start_replay`. -/
def replayLoop (stopPosition : Nat) : Nat → List Turn → Progress
  | position, [] => .polling position
  | position, turn :: turns =>
      if turn.shutdown then .ended .shutdown
      else if position ≥ stopPosition then .ended .exhausted
      else
        match turn.poll with
        | .error error => .ended (.failed error)
        | .ok 0 => replayLoop stopPosition position turns
        | .ok fragmentsRead =>
            replayLoop stopPosition (position + fragmentsRead * frameSize) turns

/-- Turns without shutdown or errors, by the fragments they read. -/
def calm (fragments : List Nat) : List Turn := fragments.map fun read => ⟨false, .ok read⟩

/-- The position after the last of `n` commands recorded from the start of a term. -/
def stopPosition (termLength term n : Nat) : Nat :=
  logPosition termLength frameSize (termLength * term) n

/-- The law: while fragments are missing the loop polls at a position before the stop, and once
all are counted its next turn ends it. -/
structure EndsWhenExhausted (termLength term n : Nat) : Prop where
  polls : ∀ fragments : List Nat, fragments.sum < n →
    ∃ position < stopPosition termLength term n,
      replayLoop (stopPosition termLength term n) (termLength * term) (calm fragments) =
        .polling position
  ends : ∀ fragments : List Nat, fragments.sum = n → ∀ read,
    replayLoop (stopPosition termLength term n) (termLength * term)
      (calm (fragments ++ [read])) = .ended .exhausted

section Loop

variable {stop position : Nat} {fragments : List Nat}

theorem replayLoop_calm_cons {read : Nat} (h : position < stop) :
    replayLoop stop position (calm (read :: fragments)) =
      replayLoop stop (position + read * frameSize) (calm fragments) := by
  cases read with
  | zero => simp [calm, replayLoop, Nat.not_le.mpr h]
  | succ read => simp [calm, replayLoop, Nat.not_le.mpr h]

/-- It polls for as long as what it has counted is below the stop. -/
theorem replayLoop_polls (h : position + fragments.sum * frameSize < stop) :
    replayLoop stop position (calm fragments) =
      .polling (position + fragments.sum * frameSize) := by
  induction fragments generalizing position with
  | nil => simp [calm, replayLoop]
  | cons read fragments ih =>
    rw [List.sum_cons, Nat.add_mul, ← Nat.add_assoc] at h ⊢
    rw [replayLoop_calm_cons (by omega)]
    exact ih h

theorem replayLoop_ends (h : stop ≤ position + fragments.sum * frameSize) (read : Nat) :
    replayLoop stop position (calm (fragments ++ [read])) = .ended .exhausted := by
  induction fragments generalizing position with
  | nil =>
    have hreached : stop ≤ position := by simpa using h
    simp [calm, replayLoop, hreached]
  | cons first fragments ih =>
    rw [List.sum_cons, Nat.add_mul, ← Nat.add_assoc] at h
    by_cases hreached : stop ≤ position
    · simp [calm, replayLoop, hreached]
    · rw [List.cons_append, replayLoop_calm_cons (by omega)]
      exact ih h

end Loop

/-- Three does not divide a power of two, so frames never fill a term. -/
theorem frameSize_not_dvd (k : Nat) : ¬frameSize ∣ 2 ^ k := by
  intro h
  have hthree : 3 ∣ frameSize := by decide
  have htwo : 3 ∣ 2 := Nat.prime_three.dvd_of_dvd_pow (hthree.trans h)
  omega

/-- The loop ends as it should exactly for the recordings that fit the frames of one term. -/
theorem ends_when_exhausted_iff (k term n : Nat) :
    EndsWhenExhausted (2 ^ k) term n ↔ n ≤ 2 ^ k / frameSize := by
  have hterm : 0 < 2 ^ k := Nat.two_pow_pos k
  constructor
  · intro h
    by_contra hn
    have hstop : 2 ^ k * term + n * frameSize < stopPosition (2 ^ k) term n :=
      logPosition_gt (by decide) hterm (frameSize_not_dvd k) (by omega)
    -- all fragments are counted, and the loop goes on polling
    have hsum : [n].sum = n := by simp
    have hends := h.ends [n] hsum 0
    rw [replayLoop_polls (by simpa using hstop)] at hends
    cases hends
  · intro hn
    have hfits : n * frameSize ≤ 2 ^ k := (Nat.le_div_iff_mul_le (by decide)).mp hn
    have hstop : stopPosition (2 ^ k) term n = 2 ^ k * term + n * frameSize :=
      logPosition_of_fits hfits
    refine ⟨?_, ?_⟩
    · intro fragments hsum
      have hbelow : 2 ^ k * term + fragments.sum * frameSize < stopPosition (2 ^ k) term n := by
        rw [hstop]
        unfold frameSize
        omega
      exact ⟨_, hbelow, replayLoop_polls hbelow⟩
    · rintro fragments rfl read
      exact replayLoop_ends hstop.le read

/-- Of the least terms, 64 KiB, one holds 682 commands; with 683 the loop never sees the end. -/
theorem padded_recording_spins : ¬EndsWhenExhausted (2 ^ 16) 0 683 := by
  intro h
  have hstop : 2 ^ 16 * 0 + 683 * frameSize < stopPosition (2 ^ 16) 0 683 :=
    logPosition_gt (by decide) (by decide) (frameSize_not_dvd 16) (by decide)
  have hends := h.ends [683] rfl 0
  rw [replayLoop_polls hstop] at hends
  cases hends

end VexCore.Networking
