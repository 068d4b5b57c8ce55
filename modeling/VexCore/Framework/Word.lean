import Mathlib.Tactic.Common
import Mathlib.Algebra.Order.Ring.Nat

/-!
# Fixed-width unsigned arithmetic on natural numbers

The machine operations of a `w`-bit unsigned word, and when they agree with the
operations on unbounded naturals.
-/

namespace Framework

/-- The value a `w`-bit word keeps of `n`; a narrowing cast. -/
def truncate (w n : Nat) : Nat := n % 2 ^ w

def wrappingAdd (w a b : Nat) : Nat := truncate w (a + b)

def wrappingSub (w a b : Nat) : Nat := truncate w (a + (2 ^ w - b))

def wrappingMul (w a b : Nat) : Nat := truncate w (a * b)

/-- Addition that reports an overflow instead of wrapping. -/
def checkedAdd (w a b : Nat) : Option Nat :=
  if a + b < 2 ^ w then some (a + b) else none

def saturatingAdd (w a b : Nat) : Nat := min (a + b) (2 ^ w - 1)

/-- The largest value of a `w`-bit word. -/
def maxWord (w : Nat) : Nat := 2 ^ w - 1

theorem truncate_of_lt {w n : Nat} (h : n < 2 ^ w) : truncate w n = n :=
  Nat.mod_eq_of_lt h

theorem truncate_lt (w n : Nat) : truncate w n < 2 ^ w :=
  Nat.mod_lt _ (Nat.two_pow_pos w)

theorem wrappingAdd_of_lt {w a b : Nat} (h : a + b < 2 ^ w) : wrappingAdd w a b = a + b :=
  truncate_of_lt h

theorem wrappingMul_of_lt {w a b : Nat} (h : a * b < 2 ^ w) : wrappingMul w a b = a * b :=
  truncate_of_lt h

theorem wrappingSub_of_le {w a b : Nat} (hb : b ≤ a) (ha : a < 2 ^ w) :
    wrappingSub w a b = a - b := by
  unfold wrappingSub truncate
  rw [show a + (2 ^ w - b) = (a - b) + 2 ^ w by omega, Nat.add_mod_right]
  exact Nat.mod_eq_of_lt (by omega)

/-- Subtraction undoes addition, whether or not it wrapped. -/
theorem wrappingSub_wrappingAdd {w a b : Nat} (ha : a < 2 ^ w) (hb : b < 2 ^ w) :
    wrappingSub w (wrappingAdd w a b) b = a := by
  unfold wrappingSub wrappingAdd truncate
  rcases Nat.lt_or_ge (a + b) (2 ^ w) with hlt | hge
  · have hsum : a + b + (2 ^ w - b) = a + 2 ^ w := by omega
    rw [Nat.mod_eq_of_lt hlt, hsum, Nat.add_mod_right, Nat.mod_eq_of_lt ha]
  · have hmod : (a + b) % 2 ^ w = a + b - 2 ^ w := by
      rw [Nat.mod_eq_sub_mod hge, Nat.mod_eq_of_lt (by omega)]
    have hsum : a + b - 2 ^ w + (2 ^ w - b) = a := by omega
    rw [hmod, hsum, Nat.mod_eq_of_lt ha]

/-- A wrapped sum goes on as the sum would. -/
theorem wrappingAdd_truncate (w a b : Nat) :
    wrappingAdd w (truncate w a) b = truncate w (a + b) := by
  simp [wrappingAdd, truncate]

theorem wrappingSub_truncate {w a b : Nat} (hb : b ≤ a) (hword : b ≤ 2 ^ w) :
    wrappingSub w (truncate w a) b = truncate w (a - b) := by
  have hsum : a + (2 ^ w - b) = a - b + 2 ^ w := by omega
  rw [wrappingSub, truncate, truncate, truncate, Nat.mod_add_mod, hsum, Nat.add_mod_right]

theorem checkedAdd_of_lt {w a b : Nat} (h : a + b < 2 ^ w) :
    checkedAdd w a b = some (a + b) := if_pos h

theorem checkedAdd_eq_some {w a b c : Nat} :
    checkedAdd w a b = some c ↔ a + b < 2 ^ w ∧ a + b = c := by
  unfold checkedAdd
  split <;> simp_all

end Framework
