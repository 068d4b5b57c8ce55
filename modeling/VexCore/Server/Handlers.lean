import VexCore.Processors.MatchingEngine
import VexCore.Processors.RiskEngine

/-!
# The settlement and matching handlers

The closures the engine builds around the processors: which shard settles which side of an
event, when funds are released, and which commands reach the order books.
-/

namespace VexCore

/-- One event on one shard: the maker's side first, then the taker's. -/
def settleEvent (engine : RiskEngine) (cmd : OrderCommand) (store : BalanceStore)
    (event : MatcherTradeEvent) : BalanceStore × MatcherTradeEvent × List Settlement :=
  let (store, event, makerLog) :=
    if engine.userIdForThisHandler event.makerUserId then
      engine.handleTradeEvent store event.makerUserId cmd.marketId cmd.side.opSide event none
    else (store, event, [])
  let (store, event, takerLog) :=
    if engine.userIdForThisHandler cmd.userId then
      engine.handleTradeEvent store cmd.userId cmd.marketId cmd.side event (some cmd.price)
    else (store, event, [])
  (store, event, makerLog ++ takerLog)

def settleEvents (engine : RiskEngine) (cmd : OrderCommand) :
    BalanceStore → List MatcherTradeEvent →
      BalanceStore × List MatcherTradeEvent × List Settlement
  | store, [] => (store, [], [])
  | store, event :: rest =>
      let (store, event, log) := settleEvent engine cmd store event
      let (store, rest, restLog) := settleEvents engine cmd store rest
      (store, event :: rest, log ++ restLog)

/-- Whether what is left of the command is released: a partial fill that does not rest, or
any cancellation. -/
def shouldHandleCancellation (cmd : OrderCommand) : Bool :=
  match cmd.status, cmd.timeInForce with
  | .partiallyFilled, .ioc | .partiallyFilled, .fok => true
  | .cancelled, _ => true
  | _, _ => false

/-- The taker's part after the events: a release where one is due, and the balance snapshot. -/
def finishTaker (engine : RiskEngine) (store : BalanceStore) (cmd : OrderCommand) :
    BalanceStore × OrderCommand × List Settlement :=
  let (store, log) :=
    if shouldHandleCancellation cmd then engine.handleCancellation store cmd else (store, [])
  (store, { cmd with
    balance := (store.getBalance cmd.userId (baseAsset cmd.marketId),
      store.getBalance cmd.userId (quoteAsset cmd.marketId)) }, log)

/-- The R2 handler of one shard. -/
def riskR2Handler (engine : RiskEngine) (cmd : OrderCommand) :
    BalanceStore × OrderCommand × List Settlement :=
  if cmd.status = .rejected ∨ cmd.status = .processed then (engine.balances, cmd, [])
  else
    let (store, events, log) := settleEvents engine cmd engine.balances cmd.events
    if engine.userIdForThisHandler cmd.userId then
      let (store, cmd, released) := finishTaker engine store { cmd with events }
      (store, cmd, log ++ released)
    else (store, { cmd with events }, log)

/-- The matching handler of one shard. -/
def matchingHandler (router : MatchingEngineRouter) (cmd : OrderCommand)
    (priceCache : PriceCache) : HashMap Nat OrderBook × OrderCommand × PriceCache :=
  if cmd.command = .depositFunds ∨ cmd.command = .withdrawFunds ∨ cmd.status = .rejected then
    (router.orderBooks, cmd, priceCache)
  else router.processOrder cmd priceCache

end VexCore
