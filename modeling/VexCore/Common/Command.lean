import VexCore.Common.Balance
import VexCore.Common.Market

/-!
# Orders, trade events, commands and the price cache
-/

namespace VexCore

open Framework

structure Order where
  orderId : Nat
  userId : Nat
  price : Nat
  size : Nat
  originalSize : Nat
  side : Side
  timeInForce : TimeInForce
  status : Status
  timestamp : Nat
deriving DecidableEq, Repr

/-- One fill of an incoming order; the linked list of the source is a `List` of these. -/
structure MatcherTradeEvent where
  activeOrderCompleted : Bool
  matchedOrderId : Nat
  makerUserId : Nat
  matchedOrderCompleted : Bool
  price : Nat
  size : Nat
  makerBalance : UserBalance × UserBalance := ({}, {})
  makerRemainingSize : Nat
  makerOriginalSize : Nat
deriving DecidableEq, Repr

def calcFilledSize (events : List MatcherTradeEvent) : Nat :=
  (events.map MatcherTradeEvent.size).sum

/-- The depth of a level-two snapshot on each side. -/
def l2Size : Nat := 10

structure L2MarketData where
  askPrices : List Nat
  askVolumes : List Nat
  bidPrices : List Nat
  bidVolumes : List Nat
deriving DecidableEq, Repr

structure OrderCommand where
  command : OrderCommandType := .placeOrder
  clientOrderId : Nat := 0
  orderId : Nat := 0
  userId : Nat := 0
  marketId : Nat := 0
  price : Nat := 0
  size : Nat := 0
  side : Side := .ask
  timeInForce : TimeInForce := .gtc
  timestamp : Nat := 0
  status : Status := .processing
  events : List MatcherTradeEvent := []
  /-- Base currency first, quote currency second. -/
  balance : UserBalance × UserBalance := ({}, {})
  l2Data : Option L2MarketData := none
  routeGatewayId : Nat := 0
  originalSize : Nat := 0
deriving DecidableEq, Repr

/-- A limit order as a gateway submits it. -/
def OrderCommand.limit (side : Side) (timeInForce : TimeInForce)
    (orderId userId price size : Nat) : OrderCommand :=
  { side, timeInForce, orderId, userId, price, size, marketId := 1 }

def OrderCommand.cancelOf (orderId : Nat) : OrderCommand :=
  { command := .cancelOrder, orderId, marketId := 1 }

/-- Deposits and withdrawals carry their asset in the market field. -/
def OrderCommand.funds (command : OrderCommandType) (userId asset size : Nat) : OrderCommand :=
  { command, userId, marketId := asset, size }

/-- A command as a gateway handler publishes it: the decoded fields, marked as processing. -/
structure OrderCommand.Fresh (cmd : OrderCommand) : Prop where
  status : cmd.status = .processing
  events : cmd.events = []
  balance : cmd.balance = ({}, {})
  l2Data : cmd.l2Data = none
  originalSize : cmd.originalSize = 0

instance (cmd : OrderCommand) : Decidable cmd.Fresh :=
  decidable_of_iff (cmd.status = .processing ∧ cmd.events = [] ∧ cmd.balance = ({}, {}) ∧
      cmd.l2Data = none ∧ cmd.originalSize = 0)
    ⟨fun ⟨hs, he, hb, hl, ho⟩ => ⟨hs, he, hb, hl, ho⟩,
      fun h => ⟨h.status, h.events, h.balance, h.l2Data, h.originalSize⟩⟩

/-- The fields of a command that its wire format carries. -/
structure OrderRecord where
  command : OrderCommandType
  clientOrderId : Nat
  orderId : Nat
  marketId : Nat
  userId : Nat
  price : Nat
  size : Nat
  side : Side
  timeInForce : TimeInForce
  timestamp : Nat
  status : Status
deriving DecidableEq, Repr

def encodeOrderCommand (cmd : OrderCommand) : OrderRecord :=
  { command := cmd.command
    clientOrderId := cmd.clientOrderId
    orderId := cmd.orderId
    marketId := cmd.marketId
    userId := cmd.userId
    price := cmd.price
    size := cmd.size
    side := cmd.side
    timeInForce := cmd.timeInForce
    timestamp := cmd.timestamp
    status := cmd.status }

def decodeOrderCommand (record : OrderRecord) : OrderCommand :=
  { command := record.command
    clientOrderId := record.clientOrderId
    orderId := record.orderId
    marketId := record.marketId
    userId := record.userId
    price := record.price
    size := record.size
    side := record.side
    timeInForce := record.timeInForce
    timestamp := record.timestamp
    status := record.status }

structure MarketPrice where
  bestBid : Nat := 0
  bestAsk : Nat := u64Max
deriving DecidableEq, Repr

structure PriceCache where
  prices : HashMap Nat MarketPrice
deriving DecidableEq

namespace PriceCache

def getBestAsk (cache : PriceCache) (symbol : Nat) : Nat :=
  match cache.prices.lookup symbol with
  | some marketPrice => marketPrice.bestAsk
  | none => 0

/-- The source panics on an unknown symbol; the cache holds every market that has a book. -/
def updatePrices (cache : PriceCache) (symbol bestBid bestAsk : Nat) : PriceCache :=
  match cache.prices.lookup symbol with
  | some _ => ⟨cache.prices.insert symbol ⟨bestBid, bestAsk⟩⟩
  | none => cache

end PriceCache

end VexCore
