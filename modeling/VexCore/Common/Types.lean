import Mathlib.Data.Finmap

/-!
# Enumerations and hash maps of the common crate
-/

namespace VexCore

/-- The hash maps of the source are used through lookups, insertions and removals only. -/
abbrev HashMap (κ ν : Type) := Finmap fun _ : κ => ν

inductive OrderCommandType
  | placeOrder
  | cancelOrder
  | depositFunds
  | withdrawFunds
deriving DecidableEq, Repr

inductive TimeInForce
  | gtc
  | ioc
  | fok
deriving DecidableEq, Repr

inductive Side
  | ask
  | bid
deriving DecidableEq, Repr

def Side.opSide : Side → Side
  | ask => bid
  | bid => ask

@[simp] theorem Side.opSide_opSide (s : Side) : s.opSide.opSide = s := by
  cases s <;> rfl

theorem Side.eq_ask_or_eq_bid (s : Side) : s = ask ∨ s = bid := by
  cases s <;> decide

theorem Side.opSide_ne (s : Side) : s.opSide ≠ s := by
  cases s <;> decide

inductive Status
  | rejected
  | placed
  | cancelled
  | partiallyFilled
  | filled
  | processing
  | processed
deriving DecidableEq, Repr

end VexCore
