import VexCore.Server.Engine

/-!
# What the handlers leave alone
-/

namespace VexCore

open Framework

/-- The fields of a command that say which command it is. -/
structure SameCommand (cmd cmd' : OrderCommand) : Prop where
  command : cmd'.command = cmd.command
  orderId : cmd'.orderId = cmd.orderId
  marketId : cmd'.marketId = cmd.marketId
  timeInForce : cmd'.timeInForce = cmd.timeInForce
  timestamp : cmd'.timestamp = cmd.timestamp

theorem SameCommand.refl (cmd : OrderCommand) : SameCommand cmd cmd := ⟨rfl, rfl, rfl, rfl, rfl⟩

theorem SameCommand.symm {cmd cmd' : OrderCommand} (h : SameCommand cmd cmd') :
    SameCommand cmd' cmd :=
  ⟨h.command.symm, h.orderId.symm, h.marketId.symm, h.timeInForce.symm, h.timestamp.symm⟩

theorem SameCommand.trans {a b c : OrderCommand} (hab : SameCommand a b) (hbc : SameCommand b c) :
    SameCommand a c :=
  ⟨hbc.command.trans hab.command, hbc.orderId.trans hab.orderId, hbc.marketId.trans hab.marketId,
    hbc.timeInForce.trans hab.timeInForce, hbc.timestamp.trans hab.timestamp⟩

namespace OrderBook

theorem executionPrice_same (cmd : OrderCommand) : SameCommand cmd (executionPrice cmd) := by
  unfold executionPrice
  split
  · split <;> exact ⟨rfl, rfl, rfl, rfl, rfl⟩
  · exact SameCommand.refl cmd

theorem placeByTimeInForce_same (book : OrderBook) (cmd : OrderCommand) :
    SameCommand cmd (book.placeByTimeInForce cmd).2 := by
  unfold placeByTimeInForce
  split
  · simp only
    split
    · exact ⟨rfl, rfl, rfl, rfl, rfl⟩
    · split <;> exact ⟨rfl, rfl, rfl, rfl, rfl⟩
  · simp only
    split <;> exact ⟨rfl, rfl, rfl, rfl, rfl⟩
  · exact ⟨rfl, rfl, rfl, rfl, rfl⟩

theorem placeOrder_same (book : OrderBook) (cmd : OrderCommand) (cache : PriceCache) :
    SameCommand cmd (book.placeOrder cmd cache).cmd := by
  unfold placeOrder
  split
  · exact SameCommand.refl cmd
  · have hplaced := placeByTimeInForce_same book cmd
    have hexec := hplaced.trans (executionPrice_same _)
    exact ⟨hexec.command, hexec.orderId, hexec.marketId, hexec.timeInForce, hexec.timestamp⟩

theorem removeOrder_same (level : PriceLevel) (orderId : Nat) (cmd : OrderCommand) :
    SameCommand cmd (level.removeOrder orderId cmd).2 := by
  unfold PriceLevel.removeOrder
  split
  · split <;> exact ⟨rfl, rfl, rfl, rfl, rfl⟩
  · exact ⟨rfl, rfl, rfl, rfl, rfl⟩

theorem cancelOnSide_same (book : OrderBook) (s : Side) (price : Nat) (level : PriceLevel)
    (cmd : OrderCommand) : SameCommand cmd (book.cancelOnSide s price level cmd).2 := by
  have h := removeOrder_same level cmd.orderId cmd
  exact ⟨h.command, h.orderId, h.marketId, h.timeInForce, h.timestamp⟩

theorem cancelByIndex_same (book : OrderBook) (cmd : OrderCommand) :
    SameCommand cmd (book.cancelByIndex cmd).2 := by
  unfold cancelByIndex
  split
  · simp only
    split
    · exact cancelOnSide_same _ _ _ _ _
    · split
      · exact cancelOnSide_same _ _ _ _ _
      · exact ⟨rfl, rfl, rfl, rfl, rfl⟩
  · exact ⟨rfl, rfl, rfl, rfl, rfl⟩

theorem cancelOrder_same (book : OrderBook) (cmd : OrderCommand) (cache : PriceCache) :
    SameCommand cmd (book.cancelOrder cmd cache).cmd := by
  unfold cancelOrder
  split
  · exact SameCommand.refl cmd
  · exact cancelByIndex_same book cmd

end OrderBook

theorem matchingHandler_same (router : MatchingEngineRouter) (cmd : OrderCommand)
    (cache : PriceCache) : SameCommand cmd (matchingHandler router cmd cache).2.1 := by
  unfold matchingHandler
  split
  · exact SameCommand.refl cmd
  · unfold MatchingEngineRouter.processOrder
    split
    · split
      · split
        · exact OrderBook.placeOrder_same _ _ _
        · exact OrderBook.cancelOrder_same _ _ _
        · exact SameCommand.refl cmd
        · exact SameCommand.refl cmd
      · exact ⟨rfl, rfl, rfl, rfl, rfl⟩
    · exact SameCommand.refl cmd

namespace RiskEngine

theorem bidAmount_same (engine : RiskEngine) (cmd : OrderCommand) (cache : PriceCache) :
    SameCommand cmd (engine.bidAmount cmd cache).1 := by
  unfold bidAmount
  split
  · exact SameCommand.refl cmd
  · split
    · simp only
      split
      · exact SameCommand.refl cmd
      · split <;> exact ⟨rfl, rfl, rfl, rfl, rfl⟩
    · exact SameCommand.refl cmd

theorem reserveFundsForOrder_same (engine : RiskEngine) (cmd : OrderCommand) (cache : PriceCache) :
    SameCommand cmd (engine.reserveFundsForOrder cmd cache).2.1 := by
  have hbid := bidAmount_same engine cmd cache
  unfold reserveFundsForOrder
  cases cmd.side with
  | ask => exact SameCommand.refl cmd
  | bid =>
    simp only
    split
    · exact hbid
    · exact hbid

theorem preProcessCommand_same (engine : RiskEngine) (cmd : OrderCommand) (cache : PriceCache) :
    SameCommand cmd (engine.preProcessCommand cmd cache).2 := by
  have hreserve := reserveFundsForOrder_same engine cmd cache
  unfold preProcessCommand
  split
  · split
    · split
      · exact ⟨rfl, rfl, rfl, rfl, rfl⟩
      · split
        · rename_i h
          rw [h] at hreserve
          exact hreserve
        · rename_i h
          rw [h] at hreserve
          exact ⟨hreserve.command, hreserve.orderId, hreserve.marketId, hreserve.timeInForce,
            hreserve.timestamp⟩
    · split <;> exact ⟨rfl, rfl, rfl, rfl, rfl⟩
    · split <;> exact ⟨rfl, rfl, rfl, rfl, rfl⟩
    · exact SameCommand.refl cmd
  · exact SameCommand.refl cmd

end RiskEngine

/-- The event of a fill, whatever balance of the maker it carries. -/
def Rebalanced (event event' : MatcherTradeEvent) : Prop :=
  ∃ balance, event' = { event with makerBalance := balance }

theorem Rebalanced.refl (event : MatcherTradeEvent) : Rebalanced event event :=
  ⟨event.makerBalance, rfl⟩

theorem Rebalanced.symm {a b : MatcherTradeEvent} (h : Rebalanced a b) : Rebalanced b a := by
  obtain ⟨balance, rfl⟩ := h
  exact ⟨a.makerBalance, rfl⟩

theorem Rebalanced.trans {a b c : MatcherTradeEvent} (hab : Rebalanced a b)
    (hbc : Rebalanced b c) : Rebalanced a c := by
  obtain ⟨x, rfl⟩ := hab
  obtain ⟨y, rfl⟩ := hbc
  exact ⟨y, rfl⟩

theorem recordMakerBalance_rebalanced (isMaker : Bool) (event : MatcherTradeEvent)
    (marketId : Nat) (legs : RiskEngine.TradeLegs) (balanceSub balanceAdd : UserBalance) :
    Rebalanced event
      (if isMaker then RiskEngine.recordMakerBalance event marketId legs balanceSub balanceAdd
        else event) := by
  unfold RiskEngine.recordMakerBalance
  split
  · split <;> exact ⟨_, rfl⟩
  · exact .refl event

theorem settleTrade_rebalanced (store : BalanceStore) (userId marketId : Nat) (userSide : Side)
    (event : MatcherTradeEvent) (spec : CoreMarketSpecification) (takerPrice : Option Nat) :
    Rebalanced event (RiskEngine.settleTrade store userId marketId userSide event spec takerPrice).2.1 := by
  unfold RiskEngine.settleTrade
  simp only
  split
  · exact .refl event
  · split
    · exact .refl event
    · split
      · exact .refl event
      · exact recordMakerBalance_rebalanced _ _ _ _ _ _

theorem handleTradeEvent_event (engine : RiskEngine) (store : BalanceStore)
    (userId marketId : Nat) (userSide : Side) (event : MatcherTradeEvent)
    (takerPrice : Option Nat) :
    Rebalanced event
      (engine.handleTradeEvent store userId marketId userSide event takerPrice).2.1 := by
  unfold RiskEngine.handleTradeEvent
  split
  · exact .refl event
  · next spec _ =>
    have hsettle := settleTrade_rebalanced store userId marketId userSide event spec takerPrice
    split
    · next hok => rw [hok] at hsettle; exact hsettle
    · next herror => rw [herror] at hsettle; exact hsettle

theorem settleEvent_rebalanced (engine : RiskEngine) (cmd : OrderCommand) (store : BalanceStore)
    (event : MatcherTradeEvent) : Rebalanced event (settleEvent engine cmd store event).2.1 := by
  unfold settleEvent
  simp only
  split
  · split
    · exact (handleTradeEvent_event _ _ _ _ _ _ _).trans (handleTradeEvent_event _ _ _ _ _ _ _)
    · exact handleTradeEvent_event _ _ _ _ _ _ _
  · split
    · exact handleTradeEvent_event _ _ _ _ _ _ _
    · exact .refl event

theorem settleEvents_rebalanced (engine : RiskEngine) (cmd : OrderCommand) (store : BalanceStore)
    (events : List MatcherTradeEvent) :
    List.Forall₂ Rebalanced events (settleEvents engine cmd store events).2.1 := by
  induction events generalizing store with
  | nil => exact .nil
  | cons event rest ih => exact .cons (settleEvent_rebalanced engine cmd store event) (ih _)

theorem riskR2Handler_same (engine : RiskEngine) (cmd : OrderCommand) :
    SameCommand cmd (riskR2Handler engine cmd).2.1 := by
  unfold riskR2Handler
  split
  · exact SameCommand.refl cmd
  · simp only
    split <;> exact ⟨rfl, rfl, rfl, rfl, rfl⟩

namespace Core

/-- The state with one shard's store replaced. -/
def setBalances (core : Core) (shard : Fin numRiskEngines) (store : BalanceStore) : Core :=
  { core with balances := Function.update core.balances shard store }

@[simp] theorem setBalances_self (core : Core) (shard : Fin numRiskEngines)
    (store : BalanceStore) : (core.setBalances shard store).balances shard = store :=
  Function.update_self _ _ _

theorem setBalances_ne (core : Core) {shard other : Fin numRiskEngines} (h : other ≠ shard)
    (store : BalanceStore) : (core.setBalances shard store).balances other = core.balances other :=
  Function.update_of_ne h _ _

@[simp] theorem setBalances_balances (core : Core) (shard : Fin numRiskEngines) :
    core.setBalances shard (core.balances shard) = core := by
  unfold setBalances
  rw [Function.update_eq_self]

end Core

namespace Engine

variable {config : Config}

theorem riskHandler_eq (shard : Fin numRiskEngines) (n : Nat) (core : Core) (cmd : OrderCommand) :
    riskHandler config shard n core cmd =
      (core.setBalances shard ((core.riskEngine config shard).preProcessCommand cmd
          (config.view n core.priceCache)).1,
        ((core.riskEngine config shard).preProcessCommand cmd
          (config.view n core.priceCache)).2) := rfl

/-- Only journaling stamps a command. -/
theorem process_same {h : Handler} (hne : h ≠ .journaling) (n : Nat) (core : Core)
    (cmd : OrderCommand) : SameCommand cmd (process config h n core cmd).2 := by
  cases h with
  | journaling => exact absurd rfl hne
  | risk shard => exact RiskEngine.preProcessCommand_same _ _ _
  | matching shard => exact matchingHandler_same _ _ _
  | settlement shard => exact riskR2Handler_same _ _
  | events => exact SameCommand.refl cmd

/-- Only the events handler emits events and sends responses. -/
theorem process_emitted {h : Handler} (hne : h ≠ .events) (n : Nat) (core : Core)
    (cmd : OrderCommand) :
    (process config h n core cmd).1.emitted = core.emitted := by
  cases h with
  | journaling => rfl
  | risk shard => rfl
  | matching shard => rfl
  | settlement shard => rfl
  | events => exact absurd rfl hne

theorem process_responses {h : Handler} (hne : h ≠ .events) (n : Nat) (core : Core)
    (cmd : OrderCommand) : (process config h n core cmd).1.responses = core.responses := by
  cases h with
  | journaling => rfl
  | risk shard => rfl
  | matching shard => rfl
  | settlement shard => rfl
  | events => exact absurd rfl hne

/-- Only journaling archives. -/
theorem process_archive {h : Handler} (hne : h ≠ .journaling) (n : Nat) (core : Core)
    (cmd : OrderCommand) : (process config h n core cmd).1.archive = core.archive := by
  cases h with
  | journaling => exact absurd rfl hne
  | risk shard => rfl
  | matching shard => rfl
  | settlement shard => rfl
  | events => rfl

/-- No handler switches the replay flag. -/
theorem process_replayEnabled (h : Handler) (n : Nat) (core : Core) (cmd : OrderCommand) :
    (process config h n core cmd).1.replayEnabled = core.replayEnabled := by
  cases h <;> rfl

end Engine

end VexCore
