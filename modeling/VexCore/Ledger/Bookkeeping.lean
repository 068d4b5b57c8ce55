import VexCore.Processors.Reservation

/-!
# Runs of balance operations

Any sequence of calls on a store that starts empty. Only `add_funds` checks for overflow, and
only of the available part; the books are exact for as long as it takes no sum of available and
locked past a word.
-/

namespace VexCore.BalanceStore

open Framework

inductive Operation
  | lockFunds
  | unlockFunds
  | addFunds
  | subtractFunds
  | subtractLockedFunds
deriving DecidableEq, Repr

structure Call where
  operation : Operation
  userId : Nat
  assetId : Nat
  amount : Nat
deriving DecidableEq, Repr

/-- The store after a call, and what the call returned. -/
def perform (store : BalanceStore) (call : Call) : BalanceStore × Except BalanceError Unit :=
  match call.operation with
  | .lockFunds => store.lockFunds call.userId call.assetId call.amount
  | .unlockFunds => store.unlockFunds call.userId call.assetId call.amount
  | .addFunds =>
      let (store, result) := store.addFunds call.userId call.assetId call.amount
      (store, result.map fun _ => ())
  | .subtractFunds =>
      let (store, result) := store.subtractFunds call.userId call.assetId call.amount
      (store, result.map fun _ => ())
  | .subtractLockedFunds =>
      let (store, result) := store.subtractLockedFunds call.userId call.assetId call.amount
      (store, result.map fun _ => ())

/-- What an operation adds to available and locked, over unbounded integers. -/
def Operation.delta (operation : Operation) (amount : Int) : Int × Int :=
  match operation with
  | .lockFunds => (-amount, amount)
  | .unlockFunds => (amount, -amount)
  | .addFunds => (amount, 0)
  | .subtractFunds => (-amount, 0)
  | .subtractLockedFunds => (0, -amount)

/-- A balance has moved exactly as an operation says. -/
structure Operation.MovedExactly (operation : Operation) (amount : Nat)
    (before after : UserBalance) : Prop where
  available : (after.available : Int) = before.available + (operation.delta amount).1
  locked : (after.locked : Int) = before.locked + (operation.delta amount).2

/-- The law for one call. -/
structure ExactCall (store : BalanceStore) (call : Call) : Prop where
  refused : ∀ e, (store.perform call).2 = .error e → store.Same (store.perform call).1
  moved : (store.perform call).2 = .ok () →
    call.operation.MovedExactly call.amount (store.getBalance call.userId call.assetId)
      ((store.perform call).1.getBalance call.userId call.assetId)
  frame : ∀ u a, ¬(u = call.userId ∧ a = call.assetId) →
    (store.perform call).1.getBalance u a = store.getBalance u a
  total : ∀ u a, ((store.perform call).1.getBalance u a).total =
    ((store.perform call).1.getBalance u a).available +
      ((store.perform call).1.getBalance u a).locked

/-- The law for every call of a sequence. -/
def ExactRun (store : BalanceStore) : List Call → Prop
  | [] => True
  | call :: calls => ExactCall store call ∧ ExactRun (store.perform call).1 calls

/-- A credit that `add_funds` accepts leaves available and locked with a sum that is a word. -/
def SumFits (store : BalanceStore) (call : Call) : Prop :=
  call.operation = .addFunds →
    (store.getBalance call.userId call.assetId).available + call.amount < 2 ^ 64 →
      (store.getBalance call.userId call.assetId).available + call.amount +
        (store.getBalance call.userId call.assetId).locked < 2 ^ 64

def SumsFit (store : BalanceStore) : List Call → Prop
  | [] => True
  | call :: calls => SumFits store call ∧ SumsFit (store.perform call).1 calls

/-- What an operation makes of a balance, if it accepts the amount. -/
def Operation.machine (operation : Operation) (b : UserBalance) (amount : Nat) :
    Option UserBalance :=
  match operation with
  | .lockFunds =>
      if amount ≤ b.available then
        some ⟨b.available - amount, wrappingAdd 64 b.locked amount⟩ else none
  | .unlockFunds =>
      if amount ≤ b.locked then
        some ⟨wrappingAdd 64 b.available amount, b.locked - amount⟩ else none
  | .addFunds =>
      if b.available + amount < 2 ^ 64 then some ⟨b.available + amount, b.locked⟩ else none
  | .subtractFunds =>
      if amount ≤ b.available then some ⟨b.available - amount, b.locked⟩ else none
  | .subtractLockedFunds =>
      if amount ≤ b.locked then some ⟨b.available, b.locked - amount⟩ else none

theorem perform_cases (store : BalanceStore) (call : Call) :
    (∃ b, call.operation.machine (store.getBalance call.userId call.assetId) call.amount = some b ∧
      store.perform call = (store.setBalance call.userId call.assetId b, .ok ())) ∨
    (call.operation.machine (store.getBalance call.userId call.assetId) call.amount = none ∧
      ∃ e, (store.perform call).2 = .error e ∧ store.Same (store.perform call).1) := by
  have hsame := Same.setBalance store call.userId call.assetId
  unfold perform
  cases call.operation with
  | lockFunds =>
    unfold Operation.machine lockFunds
    by_cases h : call.amount ≤ (store.getBalance call.userId call.assetId).available
    · simp [h]
    · simp [h, hsame]
  | unlockFunds =>
    unfold Operation.machine unlockFunds
    by_cases h : call.amount ≤ (store.getBalance call.userId call.assetId).locked
    · simp [h]
    · simp [h, hsame]
  | addFunds =>
    rcases store.addFunds_cases call.userId call.assetId call.amount with
      ⟨balance, hlt, rfl, heq⟩ | ⟨herror, hle, hkept⟩
    · rw [heq]
      exact .inl ⟨_, if_pos hlt, rfl⟩
    · refine .inr ⟨if_neg (Nat.not_lt.mpr hle), .overflow, ?_, hkept⟩
      simp only [herror]
      rfl
  | subtractFunds =>
    unfold Operation.machine subtractFunds
    by_cases h : call.amount ≤ (store.getBalance call.userId call.assetId).available
    · simp [h, Except.map]
    · simp [h, hsame, Except.map]
  | subtractLockedFunds =>
    unfold Operation.machine subtractLockedFunds
    by_cases h : call.amount ≤ (store.getBalance call.userId call.assetId).locked
    · simp [h, Except.map]
    · simp [h, hsame, Except.map]

/-- Every sum of available and locked is a word. -/
def Bounded (store : BalanceStore) : Prop :=
  ∀ u a, (store.getBalance u a).available + (store.getBalance u a).locked < 2 ^ 64

theorem total_eq_iff (b : UserBalance) :
    b.total = b.available + b.locked ↔ b.available + b.locked < 2 ^ 64 := by
  unfold UserBalance.total saturatingAdd
  omega

theorem machine_exact {operation : Operation} {b after : UserBalance} {amount : Nat}
    (h : operation.machine b amount = some after) (hbounded : b.available + b.locked < 2 ^ 64)
    (hfits : operation = .addFunds → b.available + amount < 2 ^ 64 →
      b.available + amount + b.locked < 2 ^ 64) :
    operation.MovedExactly amount b after ∧ after.available + after.locked < 2 ^ 64 := by
  unfold Operation.machine at h
  cases operation with
  | lockFunds =>
    obtain ⟨hle, hafter⟩ := Option.ite_none_right_eq_some.mp h
    cases hafter
    rw [wrappingAdd_of_lt (by omega)]
    refine ⟨⟨?_, ?_⟩, ?_⟩ <;> simp only [Operation.delta] <;> omega
  | unlockFunds =>
    obtain ⟨hle, hafter⟩ := Option.ite_none_right_eq_some.mp h
    cases hafter
    rw [wrappingAdd_of_lt (by omega)]
    refine ⟨⟨?_, ?_⟩, ?_⟩ <;> simp only [Operation.delta] <;> omega
  | addFunds =>
    obtain ⟨hlt, hafter⟩ := Option.ite_none_right_eq_some.mp h
    cases hafter
    have hsum := hfits rfl hlt
    refine ⟨⟨?_, ?_⟩, ?_⟩ <;> simp only [Operation.delta] <;> omega
  | subtractFunds =>
    obtain ⟨hle, hafter⟩ := Option.ite_none_right_eq_some.mp h
    cases hafter
    refine ⟨⟨?_, ?_⟩, ?_⟩ <;> simp only [Operation.delta] <;> omega
  | subtractLockedFunds =>
    obtain ⟨hle, hafter⟩ := Option.ite_none_right_eq_some.mp h
    cases hafter
    refine ⟨⟨?_, ?_⟩, ?_⟩ <;> simp only [Operation.delta] <;> omega

section Step

variable {store : BalanceStore} {call : Call}

/-- One call keeps the law and the bound. -/
theorem Bounded.perform (h : store.Bounded) (hfits : SumFits store call) :
    ExactCall store call ∧ (store.perform call).1.Bounded := by
  have htotal {after : BalanceStore} (hafter : after.Bounded) (u a : Nat) :
      (after.getBalance u a).total =
        (after.getBalance u a).available + (after.getBalance u a).locked :=
    (total_eq_iff _).mpr (hafter u a)
  rcases perform_cases store call with ⟨b, hmachine, heq⟩ | ⟨-, e, herror, hsame⟩
  · obtain ⟨hmoved, hbound⟩ := machine_exact hmachine (h _ _) hfits
    have hself : (store.setBalance call.userId call.assetId b).getBalance call.userId
        call.assetId = b := by simp [getBalance_setBalance]
    have hother {u a : Nat} (hne : ¬(u = call.userId ∧ a = call.assetId)) :
        (store.setBalance call.userId call.assetId b).getBalance u a = store.getBalance u a := by
      rw [getBalance_setBalance, if_neg hne]
    have hafter : (store.perform call).1.Bounded := by
      rw [heq]
      intro u a
      by_cases hkey : u = call.userId ∧ a = call.assetId
      · obtain ⟨rfl, rfl⟩ := hkey
        rw [hself]
        exact hbound
      · rw [hother hkey]
        exact h u a
    refine ⟨⟨?_, ?_, ?_, htotal hafter⟩, hafter⟩
    · intro e he
      rw [heq] at he
      cases he
    · intro _
      rw [heq, hself]
      exact hmoved
    · intro u a hne
      rw [heq]
      exact hother hne
  · have hafter : (store.perform call).1.Bounded := by
      intro u a
      rw [hsame]
      exact h u a
    refine ⟨⟨fun _ _ => hsame, ?_, fun u a _ => hsame u a, htotal hafter⟩, hafter⟩
    intro hok
    rw [herror] at hok
    cases hok

theorem ExactCall.sumFits (h : ExactCall store call) : SumFits store call := by
  intro hadd hlt
  have hmachine : call.operation.machine (store.getBalance call.userId call.assetId)
      call.amount = some ⟨(store.getBalance call.userId call.assetId).available + call.amount,
        (store.getBalance call.userId call.assetId).locked⟩ := by
    rw [hadd]
    exact if_pos hlt
  have htotal := (total_eq_iff _).mp (h.total call.userId call.assetId)
  rcases perform_cases store call with ⟨b, heq, hout⟩ | ⟨hnone, -⟩
  · rw [hmachine] at heq
    rw [hout, ← Option.some.inj heq] at htotal
    simpa [getBalance_setBalance] using htotal
  · rw [hmachine] at hnone
    cases hnone

end Step

theorem Bounded.exactRun_iff {store : BalanceStore} (h : store.Bounded) (calls : List Call) :
    ExactRun store calls ↔ SumsFit store calls := by
  induction calls generalizing store with
  | nil => exact Iff.rfl
  | cons call calls ih =>
    constructor
    · rintro ⟨hcall, hrest⟩
      exact ⟨hcall.sumFits, (ih (h.perform hcall.sumFits).2).mp hrest⟩
    · rintro ⟨hfits, hrest⟩
      obtain ⟨hcall, hafter⟩ := h.perform hfits
      exact ⟨hcall, (ih hafter).mpr hrest⟩

/-- The books of a run are exact if and only if no accepted credit takes a sum past a word. -/
theorem exact_run_iff (calls : List Call) : ExactRun .new calls ↔ SumsFit .new calls := by
  apply Bounded.exactRun_iff
  intro u a
  rw [getBalance_new]
  decide

/-- Deposit, lock, deposit, lock: the second lock wraps the locked amount to zero. -/
def lockedTwice : List Call :=
  [⟨.addFunds, 1, 2, 2 ^ 63⟩, ⟨.lockFunds, 1, 2, 2 ^ 63⟩, ⟨.addFunds, 1, 2, 2 ^ 63⟩,
    ⟨.lockFunds, 1, 2, 2 ^ 63⟩]

theorem lockedTwice_not_exact :
    getBalance (lockedTwice.foldl (fun store call => (perform store call).1) new) 1 2 = ⟨0, 0⟩ ∧
      ¬ExactRun new lockedTwice := by
  refine ⟨by decide +kernel, ?_⟩
  rintro ⟨-, -, hcredit, -⟩
  have htotal := hcredit.total 1 2
  revert htotal
  decide +kernel

end VexCore.BalanceStore
