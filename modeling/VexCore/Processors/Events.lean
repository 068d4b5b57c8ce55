import VexCore.Networking.Publications

/-!
# The events handler

What the handler emits for a processed command, in its order. `publish_proto` hands every event to
a task of its own, which may fail or be overtaken, so what arrives at a topic can be less and in
another order. The response goes to the gateway's publication, if there is one and it takes it.
-/

namespace VexCore

open Framework

structure BalanceEvent where
  userId : Nat
  assetId : Nat
  available : Nat
  locked : Nat
  total : Nat
  timestamp : Nat
deriving DecidableEq, Repr

structure OrderEvent where
  orderId : Nat
  userId : Nat
  price : Nat
  size : Nat
  filledSize : Nat
  side : Side
  timeInForce : TimeInForce
  status : Status
  timestamp : Nat
  marketId : Nat
deriving DecidableEq, Repr

structure TradeEvent where
  makerUserId : Nat
  takerUserId : Nat
  marketId : Nat
  price : Nat
  size : Nat
  makerOrderId : Nat
  takerOrderId : Nat
  takerSide : Side
  timestamp : Nat
deriving DecidableEq, Repr

structure CancelOrderEvent where
  orderId : Nat
  marketId : Nat
  userId : Nat
  timestamp : Nat
deriving DecidableEq, Repr

structure OrderbookEvent where
  marketId : Nat
  bids : List (Nat × Nat)
  asks : List (Nat × Nat)
deriving DecidableEq, Repr

/-- A deposit or a withdrawal. -/
structure FundsEvent where
  userId : Nat
  assetId : Nat
  amount : Nat
  timestamp : Nat
deriving DecidableEq, Repr

inductive Output
  | balance (event : BalanceEvent)
  | order (event : OrderEvent)
  | trade (event : TradeEvent)
  | cancel (event : CancelOrderEvent)
  | orderbook (event : OrderbookEvent)
  | deposit (event : FundsEvent)
  | withdraw (event : FundsEvent)
deriving DecidableEq, Repr

def balanceEvent (userId assetId timestamp : Nat) (balance : UserBalance) : Output :=
  .balance
    { userId
      assetId
      available := balance.available
      locked := balance.locked
      total := balance.total
      timestamp }

/-- Both balances of a user in a market, base first. -/
def publishBalanceEvent (userId : Nat) (cmd : OrderCommand) (balance : UserBalance × UserBalance) :
    List Output :=
  [balanceEvent userId (baseAsset cmd.marketId) cmd.timestamp balance.1,
    balanceEvent userId (quoteAsset cmd.marketId) cmd.timestamp balance.2]

def publishDepositWithdrawalEvent (cmd : OrderCommand) : List Output :=
  [balanceEvent cmd.userId (truncate 16 cmd.marketId) cmd.timestamp cmd.balance.1]

def publishOrderEvent (cmd : OrderCommand) (size filledSize : Nat) : List Output :=
  [.order
    { orderId := cmd.orderId
      userId := cmd.userId
      price := cmd.price
      size
      filledSize
      side := cmd.side
      timeInForce := cmd.timeInForce
      status := cmd.status
      timestamp := cmd.timestamp
      marketId := cmd.marketId }]

def publishMakerOrderEvent (event : MatcherTradeEvent) (cmd : OrderCommand) : List Output :=
  [.order
    { orderId := event.matchedOrderId
      userId := event.makerUserId
      price := event.price
      size := event.makerOriginalSize
      filledSize := wrappingSub 64 event.makerOriginalSize event.makerRemainingSize
      side := cmd.side.opSide
      timeInForce := .gtc
      status := if event.matchedOrderCompleted then .filled else .partiallyFilled
      timestamp := cmd.timestamp
      marketId := cmd.marketId }]

def publishTradeEvent (event : MatcherTradeEvent) (cmd : OrderCommand) : List Output :=
  [.trade
    { makerUserId := event.makerUserId
      takerUserId := cmd.userId
      marketId := cmd.marketId
      price := event.price
      size := event.size
      makerOrderId := event.matchedOrderId
      takerOrderId := cmd.orderId
      takerSide := cmd.side
      timestamp := cmd.timestamp }]

def publishCancelOrderEvent (cmd : OrderCommand) : List Output :=
  [.cancel
    { orderId := cmd.orderId
      marketId := cmd.marketId
      userId := cmd.userId
      timestamp := cmd.timestamp }]

/-- Levels of price zero are left out of a published snapshot. -/
def publishOrderbookEvent (cmd : OrderCommand) : List Output :=
  match cmd.l2Data with
  | some snapshot =>
      [.orderbook
        { marketId := cmd.marketId
          bids := (snapshot.bidPrices.zip snapshot.bidVolumes).filter fun l => decide (l.1 > 0)
          asks := (snapshot.askPrices.zip snapshot.askVolumes).filter fun l => decide (l.1 > 0) }]
  | none => []

def fundsEvent (cmd : OrderCommand) : FundsEvent :=
  { userId := cmd.userId
    assetId := cmd.marketId
    amount := cmd.size
    timestamp := cmd.timestamp }

/-- Trade, maker balance and maker order events of every fill. -/
def publishFills (cmd : OrderCommand) : List Output :=
  cmd.events.flatMap fun event =>
    publishTradeEvent event cmd ++ publishBalanceEvent event.makerUserId cmd event.makerBalance ++
      publishMakerOrderEvent event cmd

/-- The taker's order event after fills. -/
def publishFilledOrder (cmd : OrderCommand) : List Output :=
  publishOrderEvent cmd (wrappingAdd 64 (calcFilledSize cmd.events) cmd.size)
    (calcFilledSize cmd.events)

def publishCancelled (cmd : OrderCommand) : List Output :=
  (if cmd.events ≠ [] then publishFills cmd ++ publishFilledOrder cmd
    else if cmd.command = .cancelOrder then
      publishOrderEvent cmd cmd.originalSize (wrappingSub 64 cmd.originalSize cmd.size)
    else publishOrderEvent cmd cmd.size 0) ++
  publishBalanceEvent cmd.userId cmd cmd.balance ++ publishCancelOrderEvent cmd ++
  publishOrderbookEvent cmd

/-- What a command of the order book publishes for its status. -/
def publishByStatus (cmd : OrderCommand) : List Output :=
  match cmd.status with
  | .rejected => []
  | .placed =>
      publishBalanceEvent cmd.userId cmd cmd.balance ++ publishOrderEvent cmd cmd.size 0 ++
        publishOrderbookEvent cmd
  | .cancelled => publishCancelled cmd
  | .partiallyFilled | .filled =>
      publishFills cmd ++ publishBalanceEvent cmd.userId cmd cmd.balance ++
        publishFilledOrder cmd ++ publishOrderbookEvent cmd
  | .processing => publishOrderbookEvent cmd
  | .processed => publishDepositWithdrawalEvent cmd

/-- The events of a processed command. -/
def publishEvents (cmd : OrderCommand) : List Output :=
  match cmd.command with
  | .depositFunds =>
      if cmd.status = .processed then
        [.deposit (fundsEvent cmd)] ++ publishDepositWithdrawalEvent cmd else []
  | .withdrawFunds =>
      if cmd.status = .processed then
        [.withdraw (fundsEvent cmd)] ++ publishDepositWithdrawalEvent cmd else []
  | .placeOrder | .cancelOrder => publishByStatus cmd

/-- The events, and after them the response. -/
def handleProcessedCommand (replayEnabled : Bool)
    (publications : Networking.Publications Networking.Offer) (cmd : OrderCommand) :
    List Output × Option (Nat × OrderRecord) :=
  if replayEnabled then ([], none) else (publishEvents cmd, publications.publishResponse cmd)

end VexCore
