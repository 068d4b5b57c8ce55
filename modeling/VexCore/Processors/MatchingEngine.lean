import VexCore.Orderbook.Book

/-!
# The matching engine router
-/

namespace VexCore

structure MatchingEngineRouter where
  orderBooks : HashMap Nat OrderBook
  shardId : Nat
  shardMask : Nat

namespace MatchingEngineRouter

def marketForThisHandler (router : MatchingEngineRouter) (marketId : Nat) : Bool :=
  router.shardMask == 0 || marketId &&& router.shardMask == router.shardId

def processOrder (router : MatchingEngineRouter) (cmd : OrderCommand) (priceCache : PriceCache) :
    HashMap Nat OrderBook × OrderCommand × PriceCache :=
  if router.marketForThisHandler cmd.marketId then
    match router.orderBooks.lookup cmd.marketId with
    | some book =>
        match cmd.command with
        | .placeOrder =>
            let out := book.placeOrder cmd priceCache
            (router.orderBooks.insert cmd.marketId out.book, out.cmd, out.cache)
        | .cancelOrder =>
            let out := book.cancelOrder cmd priceCache
            (router.orderBooks.insert cmd.marketId out.book, out.cmd, out.cache)
        | .depositFunds | .withdrawFunds => (router.orderBooks, cmd, priceCache)
    | none => (router.orderBooks, { cmd with status := .rejected }, priceCache)
  else (router.orderBooks, cmd, priceCache)

end MatchingEngineRouter

end VexCore
