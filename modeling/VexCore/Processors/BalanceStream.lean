import VexCore.Processors.Events

/-!
# The stream of balances

What a reader of the balance events of one key sees of a command, in the order of publication.
-/

namespace VexCore

open Framework

/-- The balance an output reports for a key. -/
def Output.balanceOf (k : BalanceKey) : Output → Option UserBalance
  | .balance event =>
      if event.userId = k.userId ∧ event.assetId = k.assetId then
        some ⟨event.available, event.locked⟩
      else none
  | _ => none

def balancesOf (k : BalanceKey) (outputs : List Output) : List UserBalance :=
  outputs.filterMap (Output.balanceOf k)

/-- What the two balances of a user in a market say of a key, base first. -/
def pairOf (k : BalanceKey) (userId marketId : Nat) (balance : UserBalance × UserBalance) :
    List UserBalance :=
  (if userId = k.userId ∧ baseAsset marketId = k.assetId then [balance.1] else []) ++
    if userId = k.userId ∧ quoteAsset marketId = k.assetId then [balance.2] else []

/-- What the makers' balances of the fills say of a key. -/
def makersOf (k : BalanceKey) (marketId : Nat) (events : List MatcherTradeEvent) :
    List UserBalance :=
  events.flatMap fun event => pairOf k event.makerUserId marketId event.makerBalance

/-- What is published of a key for a processed command. -/
def snapshots (k : BalanceKey) (cmd : OrderCommand) : List UserBalance :=
  balancesOf k (publishEvents cmd)

/-- The key names a balance of the user in the market. -/
def Holds (k : BalanceKey) (userId marketId : Nat) : Prop :=
  userId = k.userId ∧ (baseAsset marketId = k.assetId ∨ quoteAsset marketId = k.assetId)

instance (k : BalanceKey) (userId marketId : Nat) : Decidable (Holds k userId marketId) :=
  inferInstanceAs (Decidable (_ ∧ _))

section Balances

variable (k : BalanceKey)

@[simp] theorem balancesOf_nil : balancesOf k [] = [] := rfl

@[simp] theorem balancesOf_append (p q : List Output) :
    balancesOf k (p ++ q) = balancesOf k p ++ balancesOf k q := List.filterMap_append

theorem balancesOf_balanceEvent (userId assetId timestamp : Nat) (balance : UserBalance) :
    balancesOf k [balanceEvent userId assetId timestamp balance] =
      if userId = k.userId ∧ assetId = k.assetId then [balance] else [] := by
  by_cases h : userId = k.userId ∧ assetId = k.assetId <;>
    simp [balancesOf, balanceEvent, Output.balanceOf, h]

@[simp] theorem balancesOf_publishBalanceEvent (userId : Nat) (cmd : OrderCommand)
    (balance : UserBalance × UserBalance) :
    balancesOf k (publishBalanceEvent userId cmd balance) =
      pairOf k userId cmd.marketId balance := by
  have hpair : publishBalanceEvent userId cmd balance =
      [balanceEvent userId (baseAsset cmd.marketId) cmd.timestamp balance.1] ++
        [balanceEvent userId (quoteAsset cmd.marketId) cmd.timestamp balance.2] := rfl
  rw [hpair, balancesOf_append, balancesOf_balanceEvent, balancesOf_balanceEvent]
  rfl

@[simp] theorem balancesOf_publishDepositWithdrawalEvent (cmd : OrderCommand) :
    balancesOf k (publishDepositWithdrawalEvent cmd) =
      if cmd.userId = k.userId ∧ truncate 16 cmd.marketId = k.assetId then [cmd.balance.1]
      else [] :=
  balancesOf_balanceEvent k _ _ _ _

@[simp] theorem balancesOf_publishOrderEvent (cmd : OrderCommand) (size filledSize : Nat) :
    balancesOf k (publishOrderEvent cmd size filledSize) = [] := rfl

@[simp] theorem balancesOf_publishMakerOrderEvent (event : MatcherTradeEvent)
    (cmd : OrderCommand) : balancesOf k (publishMakerOrderEvent event cmd) = [] := rfl

@[simp] theorem balancesOf_publishTradeEvent (event : MatcherTradeEvent) (cmd : OrderCommand) :
    balancesOf k (publishTradeEvent event cmd) = [] := rfl

@[simp] theorem balancesOf_publishCancelOrderEvent (cmd : OrderCommand) :
    balancesOf k (publishCancelOrderEvent cmd) = [] := rfl

@[simp] theorem balancesOf_publishFilledOrder (cmd : OrderCommand) :
    balancesOf k (publishFilledOrder cmd) = [] := rfl

@[simp] theorem balancesOf_publishOrderbookEvent (cmd : OrderCommand) :
    balancesOf k (publishOrderbookEvent cmd) = [] := by
  unfold publishOrderbookEvent
  split <;> rfl

@[simp] theorem balancesOf_publishFills (cmd : OrderCommand) :
    balancesOf k (publishFills cmd) = makersOf k cmd.marketId cmd.events := by
  unfold publishFills makersOf
  induction cmd.events with
  | nil => rfl
  | cons event rest ih =>
    rw [List.flatMap_cons, List.flatMap_cons, balancesOf_append, ih]
    simp

@[simp] theorem balancesOf_publishCancelled (cmd : OrderCommand) :
    balancesOf k (publishCancelled cmd) =
      makersOf k cmd.marketId cmd.events ++ pairOf k cmd.userId cmd.marketId cmd.balance := by
  unfold publishCancelled
  by_cases hevents : cmd.events = []
  · rw [if_neg (not_not.mpr hevents), hevents]
    split <;> simp [makersOf]
  · simp [hevents]

/-- A command tells of a key what its status calls for: a deposit or withdrawal its one balance,
a decided order the makers' balances and then the taker's. -/
theorem snapshots_eq (cmd : OrderCommand) :
    snapshots k cmd =
      if cmd.status = .processed then
        if cmd.userId = k.userId ∧ truncate 16 cmd.marketId = k.assetId then [cmd.balance.1] else []
      else if cmd.command = .depositFunds ∨ cmd.command = .withdrawFunds ∨
          cmd.status = .rejected ∨ cmd.status = .processing then []
      else (if cmd.status = .placed then [] else makersOf k cmd.marketId cmd.events) ++
        pairOf k cmd.userId cmd.marketId cmd.balance := by
  unfold snapshots publishEvents publishByStatus
  have hdeposit (outputs : List Output) :
      balancesOf k (.deposit (fundsEvent cmd) :: outputs) = balancesOf k outputs := rfl
  have hwithdraw (outputs : List Output) :
      balancesOf k (.withdraw (fundsEvent cmd) :: outputs) = balancesOf k outputs := rfl
  cases hcommand : cmd.command <;> cases hstatus : cmd.status <;> simp [hdeposit, hwithdraw]

theorem snapshots_of_processed {cmd : OrderCommand} (h : cmd.status = .processed) :
    snapshots k cmd =
      if cmd.userId = k.userId ∧ truncate 16 cmd.marketId = k.assetId then [cmd.balance.1]
      else [] := by
  rw [snapshots_eq, if_pos h]

theorem snapshots_of_rejected {cmd : OrderCommand} (h : cmd.status = .rejected) :
    snapshots k cmd = [] := by
  rw [snapshots_eq, if_neg (by simp [h]), if_pos (.inr (.inr (.inl h)))]

/-- Commands that agree in what is read of them tell the same. -/
theorem snapshots_congr {cmd cmd' : OrderCommand} (hcommand : cmd'.command = cmd.command)
    (hstatus : cmd'.status = cmd.status) (huser : cmd'.userId = cmd.userId)
    (hmarket : cmd'.marketId = cmd.marketId)
    (hbalance : cmd.userId = k.userId → cmd'.balance = cmd.balance)
    (hmakers : makersOf k cmd.marketId cmd'.events = makersOf k cmd.marketId cmd.events) :
    snapshots k cmd' = snapshots k cmd := by
  rw [snapshots_eq, snapshots_eq, hcommand, hstatus, huser, hmarket, hmakers]
  by_cases h : cmd.userId = k.userId
  · rw [hbalance h]
  · simp [pairOf, h]

end Balances

section Pair

variable {k : BalanceKey} {userId marketId : Nat}

theorem pairOf_of_not (h : ¬Holds k userId marketId) (balance : UserBalance × UserBalance) :
    pairOf k userId marketId balance = [] := by
  unfold Holds at h
  by_cases huser : userId = k.userId
  · simp_all [pairOf]
  · simp [pairOf, huser]

/-- Of two balances of one asset the second counts. -/
theorem pairOf_getLast? (h : Holds k userId marketId) {balance : UserBalance × UserBalance}
    {b : UserBalance} (hquote : quoteAsset marketId = k.assetId → balance.2 = b)
    (hbase : quoteAsset marketId ≠ k.assetId → balance.1 = b) :
    (pairOf k userId marketId balance).getLast? = some b := by
  obtain ⟨huser, hasset⟩ := h
  by_cases hq : quoteAsset marketId = k.assetId
  · simp [pairOf, huser, hq, hquote hq]
  · have hb := hasset.resolve_right hq
    simp [pairOf, huser, hq, hb, hbase hq]

theorem pairOf_ne_nil (h : Holds k userId marketId) (balance : UserBalance × UserBalance) :
    pairOf k userId marketId balance ≠ [] := by
  obtain ⟨huser, hbase | hquote⟩ := h
  · simp [pairOf, huser, hbase]
  · simp [pairOf, huser, hquote]

end Pair

end VexCore
