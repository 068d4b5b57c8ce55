import VexCore.Common.Command

/-!
# The risk engine

Reserving funds before matching (R1) and settling trades and releases after it (R2). The store
behind the mutex is passed in and handed back.
-/

namespace VexCore

open Framework

inductive RiskEngineError
  | userNotFound (userId : Nat)
  | marketSpecNotFound (marketId : Nat)
  | invalidArguments (price size : Nat)
  | insufficientFunds (userId required available : Nat)
  | unsupportedCommand (command : OrderCommandType)
  | balanceError (error : BalanceError)
deriving DecidableEq, Repr

/-- What became of one settlement or release, and the fee a settlement withheld. -/
structure Settlement where
  userId : Nat
  result : Except RiskEngineError Unit
  feeAsset : Nat
  fee : Nat

structure RiskEngine where
  balances : BalanceStore
  symbolSpecs : HashMap Nat CoreMarketSpecification
  shardId : Nat
  shardMask : Nat

namespace RiskEngine

def userIdForThisHandler (engine : RiskEngine) (userId : Nat) : Bool :=
  userId &&& engine.shardMask == engine.shardId

def getBalance (engine : RiskEngine) (userId assetId : Nat) : UserBalance :=
  engine.balances.getBalance userId assetId

/-- The price that covers a market buy against the best ask, slippage included. -/
def conservativePrice (spec : CoreMarketSpecification) (bestAsk : Nat) : Option Nat :=
  checkedAdd 64 bestAsk (truncate 64 (bestAsk * spec.slippage / 10000))

/-- The amount a bid locks. A market buy is given the price it was reserved at. -/
def bidAmount (engine : RiskEngine) (cmd : OrderCommand) (priceCache : PriceCache) :
    OrderCommand × Except RiskEngineError Nat :=
  match engine.symbolSpecs.lookup cmd.marketId with
  | none => (cmd, .error (.marketSpecNotFound cmd.marketId))
  | some spec =>
      if cmd.price = u64Max then
        let bestAsk := priceCache.getBestAsk cmd.marketId
        if bestAsk = u64Max then (cmd, .error (.invalidArguments cmd.price cmd.size))
        else
          match conservativePrice spec bestAsk with
          | none => (cmd, .error (.balanceError .overflow))
          | some price => ({ cmd with price }, .ok (spec.calculateQuoteCost price cmd.size))
      else (cmd, .ok (spec.calculateQuoteCost cmd.price cmd.size))

def reserveFundsForOrder (engine : RiskEngine) (cmd : OrderCommand) (priceCache : PriceCache) :
    BalanceStore × OrderCommand × Except RiskEngineError Unit :=
  let (cmd, amount) :=
    match cmd.side with
    | .bid => engine.bidAmount cmd priceCache
    | .ask => (cmd, .ok cmd.size)
  match amount with
  | .error e => (engine.balances, cmd, .error e)
  | .ok amount =>
      let asset :=
        match cmd.side with
        | .bid => quoteAsset cmd.marketId
        | .ask => baseAsset cmd.marketId
      let (store, result) := engine.balances.lockFunds cmd.userId asset amount
      (store, cmd, result.mapError .balanceError)

/-- Deposits name their asset in the market field. -/
def handleDeposit (engine : RiskEngine) (cmd : OrderCommand) :
    BalanceStore × Except RiskEngineError Unit :=
  let (store, result) :=
    engine.balances.addFunds cmd.userId (truncate 16 cmd.marketId) cmd.size
  (store, (result.map fun _ => ()).mapError .balanceError)

def handleWithdrawal (engine : RiskEngine) (cmd : OrderCommand) :
    BalanceStore × Except RiskEngineError Unit :=
  let (store, result) :=
    engine.balances.subtractFunds cmd.userId (truncate 16 cmd.marketId) cmd.size
  (store, (result.map fun _ => ()).mapError .balanceError)

/-- The command after a deposit or withdrawal, with a snapshot of the balance it left. -/
def fundsProcessed (store : BalanceStore) (cmd : OrderCommand) : OrderCommand :=
  { cmd with
    balance := (store.getBalance cmd.userId (truncate 16 cmd.marketId), cmd.balance.2)
    status := .processed }

def preProcessCommand (engine : RiskEngine) (cmd : OrderCommand) (priceCache : PriceCache) :
    BalanceStore × OrderCommand :=
  if engine.userIdForThisHandler cmd.userId then
    match cmd.command with
    | .placeOrder =>
        match engine.symbolSpecs.lookup cmd.marketId with
        | none => (engine.balances, { cmd with status := .rejected })
        | some _ =>
            match engine.reserveFundsForOrder cmd priceCache with
            | (store, cmd, .ok _) => (store, cmd)
            | (store, cmd, .error _) => (store, { cmd with status := .rejected })
    | .depositFunds =>
        match engine.handleDeposit cmd with
        | (store, .ok _) => (store, fundsProcessed store cmd)
        | (store, .error _) => (store, { cmd with status := .rejected })
    | .withdrawFunds =>
        match engine.handleWithdrawal cmd with
        | (store, .ok _) => (store, fundsProcessed store cmd)
        | (store, .error _) => (store, { cmd with status := .rejected })
    | .cancelOrder => (engine.balances, cmd)
  else (engine.balances, cmd)

/-- The fee rate a user pays on an event, in basis points. -/
def feeRate (spec : CoreMarketSpecification) (isMaker : Bool) : Nat :=
  if isMaker then spec.makerFee else spec.takerFee

/-- The fee cut from what a user receives. -/
def feeOn (gross rate : Nat) : Nat := wrappingMul 64 gross rate / 10000

/-- What a user on side `side` gives and gets in a trade; the fee is cut from what is got. -/
structure TradeLegs where
  assetToSubtract : Nat
  amountToSubtract : Nat
  assetToAdd : Nat
  gross : Nat

def tradeLegs (spec : CoreMarketSpecification) (marketId : Nat) (side : Side)
    (event : MatcherTradeEvent) : TradeLegs :=
  match side with
  | .bid =>
      { assetToSubtract := quoteAsset marketId
        amountToSubtract := spec.calculateQuoteCost event.price event.size
        assetToAdd := baseAsset marketId
        gross := event.size }
  | .ask =>
      { assetToSubtract := baseAsset marketId
        amountToSubtract := event.size
        assetToAdd := quoteAsset marketId
        gross := spec.calculateQuoteCost event.price event.size }

/-- What a taker bid that traded below its limit gets back. -/
def priceImprovement (spec : CoreMarketSpecification) (isMaker : Bool) (side : Side)
    (event : MatcherTradeEvent) (takerPrice : Option Nat) : Option Nat :=
  match takerPrice with
  | some limitPrice =>
      if !isMaker && side == .bid && decide (event.price < limitPrice) then
        some (spec.calculateQuoteCost (limitPrice - event.price) event.size)
      else none
  | none => none

/-- The refund of a price improvement, where there is one. -/
def refundImprovement (store : BalanceStore) (userId marketId : Nat) (refund : Option Nat) :
    BalanceStore × Except BalanceError Unit :=
  match refund with
  | some amount => store.unlockFunds userId (quoteAsset marketId) amount
  | none => (store, .ok ())

/-- A maker's balances after its side of a trade, base first. -/
def recordMakerBalance (event : MatcherTradeEvent) (marketId : Nat) (legs : TradeLegs)
    (balanceSub balanceAdd : UserBalance) : MatcherTradeEvent :=
  if legs.assetToSubtract = baseAsset marketId then
    { event with makerBalance := (balanceSub, balanceAdd) }
  else { event with makerBalance := (balanceAdd, balanceSub) }

def settleTrade (store : BalanceStore) (userId marketId : Nat) (userSide : Side)
    (event : MatcherTradeEvent) (spec : CoreMarketSpecification) (takerPrice : Option Nat) :
    BalanceStore × MatcherTradeEvent × Except RiskEngineError Unit :=
  let isMaker := userId == event.makerUserId
  match refundImprovement store userId marketId
      (priceImprovement spec isMaker userSide event takerPrice) with
  | (store, .error e) => (store, event, .error (.balanceError e))
  | (store, .ok _) =>
      let legs := tradeLegs spec marketId userSide event
      match store.subtractLockedFunds userId legs.assetToSubtract legs.amountToSubtract with
      | (store, .error e) => (store, event, .error (.balanceError e))
      | (store, .ok balanceSub) =>
          let net := wrappingSub 64 legs.gross (feeOn legs.gross (feeRate spec isMaker))
          match store.addFunds userId legs.assetToAdd net with
          | (store, .error e) => (store, event, .error (.balanceError e))
          | (store, .ok balanceAdd) =>
              (store, if isMaker then recordMakerBalance event marketId legs balanceSub balanceAdd
                else event, .ok ())

/-- One user's side of an event; without a specification for the market nothing happens. -/
def handleTradeEvent (engine : RiskEngine) (store : BalanceStore) (userId marketId : Nat)
    (userSide : Side) (event : MatcherTradeEvent) (takerPrice : Option Nat) :
    BalanceStore × MatcherTradeEvent × List Settlement :=
  match engine.symbolSpecs.lookup marketId with
  | none => (store, event, [])
  | some spec =>
      let legs := tradeLegs spec marketId userSide event
      let rate := feeRate spec (userId == event.makerUserId)
      match settleTrade store userId marketId userSide event spec takerPrice with
      | (store, event, .ok _) =>
          (store, event, [⟨userId, .ok (), legs.assetToAdd, feeOn legs.gross rate⟩])
      | (store, event, .error e) => (store, event, [⟨userId, .error e, legs.assetToAdd, 0⟩])

def releaseFundsForOrder (engine : RiskEngine) (store : BalanceStore)
    (userId marketId : Nat) (side : Side) (price size : Nat) :
    BalanceStore × Except RiskEngineError Unit :=
  match engine.symbolSpecs.lookup marketId with
  | none => (store, .error (.marketSpecNotFound marketId))
  | some spec =>
      let (asset, amount) :=
        match side with
        | .bid => (quoteAsset marketId, spec.calculateQuoteCost price size)
        | .ask => (baseAsset marketId, size)
      let (store, result) := store.unlockFunds userId asset amount
      (store, result.mapError .balanceError)

def handleCancellation (engine : RiskEngine) (store : BalanceStore) (cmd : OrderCommand) :
    BalanceStore × List Settlement :=
  let (store, result) := engine.releaseFundsForOrder store cmd.userId cmd.marketId cmd.side
    cmd.price cmd.size
  (store, [⟨cmd.userId, result, baseAsset cmd.marketId, 0⟩])

/-- The taker's side of a trade writes nothing into the event. -/
theorem handleTradeEvent_taker (engine : RiskEngine) (store : BalanceStore) {userId : Nat}
    (marketId : Nat) (userSide : Side) {event : MatcherTradeEvent}
    (h : userId ≠ event.makerUserId) (takerPrice : Option Nat) :
    (engine.handleTradeEvent store userId marketId userSide event takerPrice).2.1 = event := by
  have hsettle : ∀ spec, (settleTrade store userId marketId userSide event spec takerPrice).2.1 =
      event := by
    intro spec
    unfold settleTrade
    simp only [beq_eq_false_iff_ne.mpr h, Bool.false_eq_true, if_false]
    split
    · rfl
    · split
      · rfl
      · split <;> rfl
  unfold handleTradeEvent
  split
  · rfl
  · next spec _ =>
    have hevent := hsettle spec
    split
    · next hok => rw [hok] at hevent; exact hevent
    · next herror => rw [herror] at hevent; exact hevent

end RiskEngine

end VexCore
