import VexCore.Common.Types
import VexCore.Framework.Word

/-!
# User balances and the balance store
-/

namespace VexCore

open Framework

structure UserBalance where
  available : Nat := 0
  locked : Nat := 0
deriving DecidableEq, Repr

def UserBalance.total (b : UserBalance) : Nat := saturatingAdd 64 b.available b.locked

/-- A user's balance is kept per asset. -/
structure BalanceKey where
  userId : Nat
  assetId : Nat
deriving DecidableEq, Repr

inductive BalanceError
  | insufficientAvailableFunds (available needed : Nat)
  | insufficientLockedFunds (locked needed : Nat)
  | overflow
  | userAssetNotFound (userId assetId : Nat)
deriving DecidableEq, Repr

structure BalanceStore where
  balances : HashMap BalanceKey UserBalance
deriving DecidableEq

namespace BalanceStore

def new : BalanceStore := ⟨∅⟩

def getBalance (store : BalanceStore) (userId assetId : Nat) : UserBalance :=
  (store.balances.lookup ⟨userId, assetId⟩).getD {}

/-- Write `balance` through the reference `get_balance_mut` hands out, which enters a
default balance for an unknown key first. -/
def setBalance (store : BalanceStore) (userId assetId : Nat) (balance : UserBalance) :
    BalanceStore :=
  ⟨store.balances.insert ⟨userId, assetId⟩ balance⟩

@[simp] theorem getBalance_new (userId assetId : Nat) :
    new.getBalance userId assetId = {} := rfl

theorem getBalance_setBalance (store : BalanceStore) (userId assetId u a : Nat)
    (balance : UserBalance) :
    (store.setBalance userId assetId balance).getBalance u a =
      if u = userId ∧ a = assetId then balance else store.getBalance u a := by
  unfold getBalance setBalance
  by_cases h : u = userId ∧ a = assetId
  · obtain ⟨rfl, rfl⟩ := h
    simp [Finmap.lookup_insert]
  · rw [if_neg h, Finmap.lookup_insert_of_ne]
    intro heq
    injection heq with hu ha
    exact h ⟨hu, ha⟩

/-- Rewriting the balance that is there changes no lookup. -/
theorem getBalance_setBalance_self (store : BalanceStore) (userId assetId u a : Nat) :
    (store.setBalance userId assetId (store.getBalance userId assetId)).getBalance u a =
      store.getBalance u a := by
  rw [getBalance_setBalance]
  split
  · rename_i h
    rw [h.1, h.2]
  · rfl

def lockFunds (store : BalanceStore) (userId assetId amount : Nat) :
    BalanceStore × Except BalanceError Unit :=
  let balance := store.getBalance userId assetId
  if balance.available ≥ amount then
    (store.setBalance userId assetId
      { available := balance.available - amount, locked := wrappingAdd 64 balance.locked amount },
      .ok ())
  else
    (store.setBalance userId assetId balance,
      .error (.insufficientAvailableFunds balance.available amount))

def unlockFunds (store : BalanceStore) (userId assetId amount : Nat) :
    BalanceStore × Except BalanceError Unit :=
  let balance := store.getBalance userId assetId
  if balance.locked ≥ amount then
    (store.setBalance userId assetId
      { available := wrappingAdd 64 balance.available amount, locked := balance.locked - amount },
      .ok ())
  else
    (store.setBalance userId assetId balance,
      .error (.insufficientLockedFunds balance.locked amount))

def addFunds (store : BalanceStore) (userId assetId amount : Nat) :
    BalanceStore × Except BalanceError UserBalance :=
  let balance := store.getBalance userId assetId
  match checkedAdd 64 balance.available amount with
  | some available =>
      let balance := { balance with available }
      (store.setBalance userId assetId balance, .ok balance)
  | none => (store.setBalance userId assetId balance, .error .overflow)

def subtractFunds (store : BalanceStore) (userId assetId amount : Nat) :
    BalanceStore × Except BalanceError UserBalance :=
  let balance := store.getBalance userId assetId
  if balance.available ≥ amount then
    let balance := { balance with available := balance.available - amount }
    (store.setBalance userId assetId balance, .ok balance)
  else
    (store.setBalance userId assetId balance,
      .error (.insufficientAvailableFunds balance.available amount))

def subtractLockedFunds (store : BalanceStore) (userId assetId amount : Nat) :
    BalanceStore × Except BalanceError UserBalance :=
  let balance := store.getBalance userId assetId
  if balance.locked ≥ amount then
    let balance := { balance with locked := balance.locked - amount }
    (store.setBalance userId assetId balance, .ok balance)
  else
    (store.setBalance userId assetId balance,
      .error (.insufficientLockedFunds balance.locked amount))

end BalanceStore

end VexCore
