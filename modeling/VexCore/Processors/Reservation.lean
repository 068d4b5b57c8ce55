import VexCore.Processors.RiskEngine

/-!
# What R1 does

One inversion lemma for `pre_process_command`: a command is rejected without a change of
balance, or exactly one balance of its user moves, or it passes.
-/

namespace VexCore

open Framework

namespace BalanceStore

/-- Two stores that answer every `get_balance` alike. -/
def Same (store store' : BalanceStore) : Prop :=
  ∀ u a, store'.getBalance u a = store.getBalance u a

theorem Same.refl (store : BalanceStore) : store.Same store := fun _ _ => rfl

theorem Same.trans {a b c : BalanceStore} (hab : a.Same b) (hbc : b.Same c) : a.Same c :=
  fun u x => (hbc u x).trans (hab u x)

/-- Entering the balance that is there already. -/
theorem Same.setBalance (store : BalanceStore) (userId assetId : Nat) :
    store.Same (store.setBalance userId assetId (store.getBalance userId assetId)) :=
  store.getBalance_setBalance_self userId assetId

variable (store : BalanceStore) (userId assetId amount : Nat)

theorem lockFunds_cases :
    (amount ≤ (store.getBalance userId assetId).available ∧
      store.lockFunds userId assetId amount =
        (store.setBalance userId assetId
          { available := (store.getBalance userId assetId).available - amount
            locked := wrappingAdd 64 (store.getBalance userId assetId).locked amount }, .ok ())) ∨
    ((store.getBalance userId assetId).available < amount ∧
      ∃ e, (store.lockFunds userId assetId amount).2 = .error e ∧
        store.Same (store.lockFunds userId assetId amount).1) := by
  unfold lockFunds
  by_cases h : amount ≤ (store.getBalance userId assetId).available
  · exact .inl ⟨h, by simp [h]⟩
  · simp only [ge_iff_le, if_neg h]
    exact .inr ⟨Nat.lt_of_not_le h, _, rfl, .setBalance store userId assetId⟩

theorem addFunds_cases :
    (∃ balance, (store.getBalance userId assetId).available + amount < 2 ^ 64 ∧
      balance = { store.getBalance userId assetId with
        available := (store.getBalance userId assetId).available + amount } ∧
      store.addFunds userId assetId amount =
        (store.setBalance userId assetId balance, .ok balance)) ∨
    ((store.addFunds userId assetId amount).2 = .error .overflow ∧
      2 ^ 64 ≤ (store.getBalance userId assetId).available + amount ∧
      store.Same (store.addFunds userId assetId amount).1) := by
  unfold addFunds
  by_cases h : (store.getBalance userId assetId).available + amount < 2 ^ 64
  · simp only [checkedAdd_of_lt h]
    exact .inl ⟨_, h, rfl, rfl⟩
  · have hnone : checkedAdd 64 (store.getBalance userId assetId).available amount = none := by
      rw [checkedAdd, if_neg h]
    simp only [hnone]
    exact .inr ⟨trivial, Nat.le_of_not_lt h, .setBalance store userId assetId⟩

theorem subtractFunds_cases :
    (∃ balance, amount ≤ (store.getBalance userId assetId).available ∧
      balance = { store.getBalance userId assetId with
        available := (store.getBalance userId assetId).available - amount } ∧
      store.subtractFunds userId assetId amount =
        (store.setBalance userId assetId balance, .ok balance)) ∨
    ((store.getBalance userId assetId).available < amount ∧
      ∃ e, (store.subtractFunds userId assetId amount).2 = .error e ∧
        store.Same (store.subtractFunds userId assetId amount).1) := by
  unfold subtractFunds
  by_cases h : amount ≤ (store.getBalance userId assetId).available
  · exact .inl ⟨_, h, rfl, by simp [h]⟩
  · simp only [ge_iff_le, if_neg h]
    exact .inr ⟨Nat.lt_of_not_le h, _, rfl, .setBalance store userId assetId⟩

end BalanceStore

/-- The asset an order on a side is paid in. -/
def escrowAsset (side : Side) (marketId : Nat) : Nat :=
  match side with
  | .bid => quoteAsset marketId
  | .ask => baseAsset marketId

/-- What an order locks, and what its release unlocks. -/
def escrowAmount (spec : CoreMarketSpecification) (side : Side) (price size : Nat) : Nat :=
  match side with
  | .bid => spec.calculateQuoteCost price size
  | .ask => size

namespace RiskEngine

variable (engine : RiskEngine) (cmd : OrderCommand) (cache : PriceCache)

/-- The price an order is reserved at: its own, but for market buys. -/
def ReservedAt (cmd : OrderCommand) (price : Nat) : Prop :=
  price = cmd.price ∨ cmd.side = .bid ∧ cmd.price = u64Max

theorem bidAmount_cases (hside : cmd.side = .bid) {spec : CoreMarketSpecification}
    (hspec : engine.symbolSpecs.lookup cmd.marketId = some spec) :
    (∃ e, engine.bidAmount cmd cache = (cmd, .error e)) ∨
    ∃ price, ReservedAt cmd price ∧ engine.bidAmount cmd cache =
      ({ cmd with price }, .ok (spec.calculateQuoteCost price cmd.size)) := by
  unfold bidAmount
  rw [hspec]
  simp only
  by_cases hmarket : cmd.price = u64Max
  · rw [if_pos hmarket]
    split
    · exact .inl ⟨_, rfl⟩
    · split
      · exact .inl ⟨_, rfl⟩
      · exact .inr ⟨_, .inr ⟨hside, hmarket⟩, rfl⟩
  · rw [if_neg hmarket]
    exact .inr ⟨cmd.price, .inl rfl, rfl⟩

theorem reserveFundsForOrder_ask (hside : cmd.side = .ask) :
    engine.reserveFundsForOrder cmd cache =
      ((engine.balances.lockFunds cmd.userId (baseAsset cmd.marketId) cmd.size).1, cmd,
        (engine.balances.lockFunds cmd.userId (baseAsset cmd.marketId) cmd.size).2.mapError
          .balanceError) := by
  unfold reserveFundsForOrder
  simp only [hside]

theorem reserveFundsForOrder_bid (hside : cmd.side = .bid) {price amount : Nat}
    (hamount : engine.bidAmount cmd cache = ({ cmd with price }, .ok amount)) :
    engine.reserveFundsForOrder cmd cache =
      ((engine.balances.lockFunds cmd.userId (quoteAsset cmd.marketId) amount).1, { cmd with price },
        (engine.balances.lockFunds cmd.userId (quoteAsset cmd.marketId) amount).2.mapError
          .balanceError) := by
  unfold reserveFundsForOrder
  simp only [hside, hamount]

theorem reserveFundsForOrder_bid_error (hside : cmd.side = .bid) {e : RiskEngineError}
    (herror : engine.bidAmount cmd cache = (cmd, .error e)) :
    engine.reserveFundsForOrder cmd cache = (engine.balances, cmd, .error e) := by
  unfold reserveFundsForOrder
  simp only [hside, herror]

theorem reserveFundsForOrder_cases {spec : CoreMarketSpecification}
    (hspec : engine.symbolSpecs.lookup cmd.marketId = some spec) :
    (∃ price e, (engine.reserveFundsForOrder cmd cache).2 = ({ cmd with price }, .error e) ∧
      engine.balances.Same (engine.reserveFundsForOrder cmd cache).1) ∨
    ∃ price amount balance, ReservedAt cmd price ∧
      amount = escrowAmount spec cmd.side price cmd.size ∧
      balance = engine.balances.getBalance cmd.userId (escrowAsset cmd.side cmd.marketId) ∧
      amount ≤ balance.available ∧
      engine.reserveFundsForOrder cmd cache =
        (engine.balances.setBalance cmd.userId (escrowAsset cmd.side cmd.marketId)
          { available := balance.available - amount
            locked := wrappingAdd 64 balance.locked amount }, { cmd with price }, .ok ()) := by
  rcases cmd.side.eq_ask_or_eq_bid with hside | hside
  · have hasset : escrowAsset cmd.side cmd.marketId = baseAsset cmd.marketId := by rw [hside]; rfl
    have hamount : escrowAmount spec cmd.side cmd.price cmd.size = cmd.size := by rw [hside]; rfl
    rw [hasset, reserveFundsForOrder_ask engine cmd cache hside]
    rcases engine.balances.lockFunds_cases cmd.userId (baseAsset cmd.marketId) cmd.size with
      ⟨hle, heq⟩ | ⟨_, e, herror, hsame⟩
    · rw [heq]
      exact .inr ⟨cmd.price, cmd.size, _, .inl rfl, hamount.symm, rfl, hle, rfl⟩
    · rw [herror]
      exact .inl ⟨cmd.price, _, rfl, hsame⟩
  · have hasset : escrowAsset cmd.side cmd.marketId = quoteAsset cmd.marketId := by rw [hside]; rfl
    rw [hasset]
    rcases bidAmount_cases engine cmd cache hside hspec with ⟨e, heq⟩ | ⟨price, hprice, heq⟩
    · rw [reserveFundsForOrder_bid_error engine cmd cache hside heq]
      exact .inl ⟨cmd.price, e, rfl, .refl _⟩
    · have hamount : escrowAmount spec cmd.side price cmd.size =
          spec.calculateQuoteCost price cmd.size := by rw [hside]; rfl
      rw [reserveFundsForOrder_bid engine cmd cache hside heq]
      rcases engine.balances.lockFunds_cases cmd.userId (quoteAsset cmd.marketId)
        (spec.calculateQuoteCost price cmd.size) with ⟨hle, hlock⟩ | ⟨_, e, herror, hsame⟩
      · rw [hlock]
        exact .inr ⟨price, _, _, hprice, hamount.symm, rfl, hle, rfl⟩
      · rw [herror]
        exact .inl ⟨price, _, rfl, hsame⟩

/-- A command that R1 turns down; a market buy may have been given its price before. -/
structure TurnedDown (cmd : OrderCommand) (store : BalanceStore)
    (out : BalanceStore × OrderCommand) : Prop where
  command : cmd.command ≠ .cancelOrder
  cmd : ∃ price, out.2 = { cmd with price, status := .rejected }
  balances : store.Same out.1

/-- An order whose funds R1 has locked. -/
structure Reserved (engine : RiskEngine) (cmd : OrderCommand)
    (out : BalanceStore × OrderCommand) : Prop where
  command : cmd.command = .placeOrder
  locked : ∃ spec price amount balance,
    engine.symbolSpecs.lookup cmd.marketId = some spec ∧ ReservedAt cmd price ∧
    amount = escrowAmount spec cmd.side price cmd.size ∧
    balance = engine.balances.getBalance cmd.userId (escrowAsset cmd.side cmd.marketId) ∧
    amount ≤ balance.available ∧
    out = (engine.balances.setBalance cmd.userId (escrowAsset cmd.side cmd.marketId)
      { available := balance.available - amount
        locked := wrappingAdd 64 balance.locked amount }, { cmd with price })

/-- A deposit or withdrawal that R1 has carried out, leaving `available`. -/
structure Funded (store : BalanceStore) (cmd : OrderCommand) (available : Nat)
    (out : BalanceStore × OrderCommand) : Prop where
  store : out.1 = store.setBalance cmd.userId (truncate 16 cmd.marketId)
    { store.getBalance cmd.userId (truncate 16 cmd.marketId) with available }
  cmd : out.2 = fundsProcessed out.1 cmd

/-- Everything R1 can do on the shard of the command's user. -/
theorem preProcessCommand_cases (howns : engine.userIdForThisHandler cmd.userId = true) :
    TurnedDown cmd engine.balances (engine.preProcessCommand cmd cache) ∨
    Reserved engine cmd (engine.preProcessCommand cmd cache) ∨
    (cmd.command = .depositFunds ∧
      (engine.balances.getBalance cmd.userId (truncate 16 cmd.marketId)).available + cmd.size <
        2 ^ 64 ∧
      Funded engine.balances cmd
        ((engine.balances.getBalance cmd.userId (truncate 16 cmd.marketId)).available + cmd.size)
        (engine.preProcessCommand cmd cache)) ∨
    (cmd.command = .withdrawFunds ∧
      cmd.size ≤ (engine.balances.getBalance cmd.userId (truncate 16 cmd.marketId)).available ∧
      Funded engine.balances cmd
        ((engine.balances.getBalance cmd.userId (truncate 16 cmd.marketId)).available - cmd.size)
        (engine.preProcessCommand cmd cache)) ∨
    (cmd.command = .cancelOrder ∧ engine.preProcessCommand cmd cache = (engine.balances, cmd)) := by
  unfold preProcessCommand
  rw [if_pos howns]
  cases hcommand : cmd.command with
  | placeOrder =>
    cases hspec : engine.symbolSpecs.lookup cmd.marketId with
    | none =>
      refine .inl ⟨?_, ⟨cmd.price, by rw [hcommand]⟩, .refl _⟩
      rw [hcommand]
      exact OrderCommandType.noConfusion
    | some spec =>
      rcases reserveFundsForOrder_cases engine cmd cache hspec with
        ⟨price, e, heq, hsame⟩ | ⟨price, amount, balance, hprice, hamount, hbalance, hle, heq⟩
      · have hpair : engine.reserveFundsForOrder cmd cache =
            ((engine.reserveFundsForOrder cmd cache).1, { cmd with price }, .error e) :=
          Prod.ext rfl heq
        rw [hpair]
        refine .inl ⟨?_, ⟨price, rfl⟩, hsame⟩
        rw [hcommand]
        exact OrderCommandType.noConfusion
      · rw [heq]
        exact .inr (.inl ⟨hcommand, spec, price, amount, balance, hspec, hprice, hamount,
          hbalance, hle, rfl⟩)
  | depositFunds =>
    unfold handleDeposit
    rcases engine.balances.addFunds_cases cmd.userId (truncate 16 cmd.marketId) cmd.size with
      ⟨balance, hlt, hbalance, heq⟩ | ⟨herror, _, hsame⟩
    · rw [heq]
      subst hbalance
      exact .inr (.inr (.inl ⟨rfl, hlt, rfl, rfl⟩))
    · simp only [herror]
      refine .inl ⟨?_, ⟨cmd.price, by rw [hcommand]; rfl⟩, hsame⟩
      rw [hcommand]
      exact OrderCommandType.noConfusion
  | withdrawFunds =>
    unfold handleWithdrawal
    rcases engine.balances.subtractFunds_cases cmd.userId (truncate 16 cmd.marketId) cmd.size with
      ⟨balance, hle, hbalance, heq⟩ | ⟨_, e, herror, hsame⟩
    · rw [heq]
      subst hbalance
      exact .inr (.inr (.inr (.inl ⟨rfl, hle, rfl, rfl⟩)))
    · simp only [herror]
      refine .inl ⟨?_, ⟨cmd.price, by rw [hcommand]; rfl⟩, hsame⟩
      rw [hcommand]
      exact OrderCommandType.noConfusion
  | cancelOrder => exact .inr (.inr (.inr (.inr ⟨rfl, rfl⟩)))

/-- Whatever R1 does to a command, it stays its user's. -/
theorem preProcessCommand_userId (engine : RiskEngine) (cmd : OrderCommand) (cache : PriceCache) :
    (engine.preProcessCommand cmd cache).2.userId = cmd.userId := by
  by_cases howns : engine.userIdForThisHandler cmd.userId = true
  · rcases engine.preProcessCommand_cases cmd cache howns with
      h | h | ⟨_, _, h⟩ | ⟨_, _, h⟩ | ⟨_, h⟩
    · obtain ⟨price, hcmd⟩ := h.cmd
      rw [hcmd]
    · obtain ⟨spec, price, amount, balance, _, _, _, _, _, hout⟩ := h.locked
      rw [hout]
    · rw [h.cmd]
      rfl
    · rw [h.cmd]
      rfl
    · rw [h]
  · rw [preProcessCommand, if_neg howns]

end RiskEngine

end VexCore
