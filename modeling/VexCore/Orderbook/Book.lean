import VexCore.Orderbook.Tree
import VexCore.Framework.DeferredRemoval

/-!
# The order book

Matching, placing and cancelling as the order book performs them. The loops of
`match_order` are recursions over the price levels and over one level's queue; positions
and levels to drop are collected during the pass and removed afterwards.
-/

namespace VexCore

open Framework

structure OrderBook where
  marketId : Nat
  bids : BookSide .bid
  asks : BookSide .ask
  /-- Price of each order, for cancellations. -/
  orders : HashMap Nat Nat

namespace OrderBook

def new (marketId : Nat) : OrderBook := ⟨marketId, .empty, .empty, ∅⟩

def side (book : OrderBook) : (s : Side) → BookSide s
  | .bid => book.bids
  | .ask => book.asks

def withSide (book : OrderBook) : (s : Side) → BookSide s → OrderBook
  | .bid, side => { book with bids := side }
  | .ask, side => { book with asks := side }

@[simp] theorem side_withSide (book : OrderBook) (s : Side) (side : BookSide s) :
    (book.withSide s side).side s = side := by cases s <;> rfl

@[simp] theorem withSide_side (book : OrderBook) (s : Side) : book.withSide s (book.side s) = book := by
  cases s <;> rfl

theorem side_withSide_ne (book : OrderBook) {s t : Side} (h : t ≠ s) (side : BookSide s) :
    (book.withSide s side).side t = book.side t := by cases s <;> cases t <;> first | rfl | cases h rfl

/-- The id index is no part of either side. -/
@[simp] theorem side_setOrders (book : OrderBook) (orders : HashMap Nat Nat) (s : Side) :
    ({ book with orders } : OrderBook).side s = book.side s := by cases s <;> rfl

@[simp] theorem orders_withSide (book : OrderBook) (s : Side) (side : BookSide s) :
    (book.withSide s side).orders = book.orders := by cases s <;> rfl

@[simp] theorem marketId_withSide (book : OrderBook) (s : Side) (side : BookSide s) :
    (book.withSide s side).marketId = book.marketId := by cases s <;> rfl

/-- What the loops of `match_order` mutate besides the levels. -/
structure MatchState where
  remainingSize : Nat
  events : List MatcherTradeEvent
  orders : HashMap Nat Nat

/-- One pass over a queue: the makers updated in place and the positions to remove. -/
structure QueuePass where
  orders : List Order
  totalVolume : Nat
  ordersToRemove : List Nat
  state : MatchState

/-- The event of a trade of `tradeSize` against `maker`, leaving `remainingSize`. -/
def tradeEvent (price remainingSize tradeSize : Nat) (maker : Order) : MatcherTradeEvent :=
  { activeOrderCompleted := remainingSize == 0
    matchedOrderId := maker.orderId
    makerUserId := maker.userId
    matchedOrderCompleted := maker.size - tradeSize == 0
    price := price
    size := tradeSize
    makerRemainingSize := maker.size - tradeSize
    makerOriginalSize := maker.originalSize }

/-- A trade of `tradeSize` against `maker`, as the inner loop records it. -/
def MatchState.trade (st : MatchState) (price tradeSize : Nat) (maker : Order) : MatchState :=
  { remainingSize := st.remainingSize - tradeSize
    events := st.events ++ [tradeEvent price (st.remainingSize - tradeSize) tradeSize maker]
    orders := if maker.size - tradeSize = 0 then st.orders.erase maker.orderId else st.orders }

/-- The loop over the orders of one price level, first in first out. -/
def matchQueue (takerId price : Nat) : Nat → List Order → Nat → MatchState → QueuePass
  | _, [], totalVolume, st => ⟨[], totalVolume, [], st⟩
  | idx, maker :: rest, totalVolume, st =>
      if st.remainingSize = 0 then ⟨maker :: rest, totalVolume, [], st⟩
      else if maker.userId = takerId then
        -- an own order is passed over and stays where it is
        let pass := matchQueue takerId price (idx + 1) rest totalVolume st
        { pass with orders := maker :: pass.orders }
      else
        let tradeSize := min st.remainingSize maker.size
        let pass := matchQueue takerId price (idx + 1) rest (wrappingSub 64 totalVolume tradeSize)
          (st.trade price tradeSize maker)
        { pass with
          orders := { maker with size := maker.size - tradeSize } :: pass.orders
          ordersToRemove :=
            if maker.size - tradeSize = 0 then idx :: pass.ordersToRemove
            else pass.ordersToRemove }

/-- One price level: the queue loop, then the removal of its filled orders. -/
def matchLevel (takerId price : Nat) (level : PriceLevel) (st : MatchState) :
    PriceLevel × MatchState :=
  let pass := matchQueue takerId price 0 level.orders level.totalVolume st
  ({ totalVolume := pass.totalVolume
     orders := removeFromBack pass.ordersToRemove pass.orders }, pass.state)

/-- Whether a taker on side `s` accepts a maker's price. -/
def priceCheck (s : Side) (takerPrice makerPrice : Nat) : Bool :=
  match s with
  | .bid => decide (takerPrice ≥ makerPrice)
  | .ask => decide (takerPrice ≤ makerPrice)

structure LevelsPass where
  levels : List (Nat × PriceLevel)
  filledPriceLevels : List Nat
  state : MatchState

/-- The loop over the price levels in matching priority. -/
def matchLevels (cmd : OrderCommand) : List (Nat × PriceLevel) → MatchState → LevelsPass
  | [], st => ⟨[], [], st⟩
  | (price, level) :: rest, st =>
      if !priceCheck cmd.side cmd.price price || st.remainingSize == 0 then
        ⟨(price, level) :: rest, [], st⟩
      else
        let matched := matchLevel cmd.userId price level st
        let pass := matchLevels cmd rest matched.2
        { pass with
          levels := (price, matched.1) :: pass.levels
          filledPriceLevels :=
            if matched.1.orders.isEmpty then price :: pass.filledPriceLevels
            else pass.filledPriceLevels }

theorem matchLevels_keys (cmd : OrderCommand) (levels : List (Nat × PriceLevel))
    (st : MatchState) :
    (matchLevels cmd levels st).levels.map Prod.fst = levels.map Prod.fst := by
  induction levels generalizing st with
  | nil => rfl
  | cons e rest ih =>
    obtain ⟨price, level⟩ := e
    rw [matchLevels]
    split
    · rfl
    · simp [ih]

/-- Both loops on one side, followed by the removal of the emptied levels. -/
def matchSide {s : Side} (side : BookSide s) (cmd : OrderCommand) (orders : HashMap Nat Nat) :
    BookSide s × MatchState :=
  let pass := matchLevels cmd side.entries ⟨cmd.size, cmd.events, orders⟩
  (pass.filledPriceLevels.foldl BookSide.removeLevelIfEmpty
    (side.rebuild pass.levels (by rw [matchLevels_keys])), pass.state)

/-- Match an incoming order; the last component is what could not be filled. -/
def matchOrder (book : OrderBook) (cmd : OrderCommand) : OrderBook × OrderCommand × Nat :=
  let matched := matchSide (book.side cmd.side.opSide) cmd book.orders
  ({ book.withSide cmd.side.opSide matched.1 with orders := matched.2.orders },
    { cmd with events := matched.2.events }, matched.2.remainingSize)

def isMarketOrder (cmd : OrderCommand) : Bool :=
  (cmd.price == 0 && cmd.side == .ask) || (cmd.price == u64Max && cmd.side == .bid)

/-- Volume of a level that does not belong to the taker, summed in 64 bits. -/
def availableVolume (takerId : Nat) (level : PriceLevel) : Nat :=
  (level.orders.filter fun order => order.userId ≠ takerId).foldl
    (fun volume order => wrappingAdd 64 volume order.size) 0

def canFillLevels (cmd : OrderCommand) : List (Nat × PriceLevel) → Nat → Bool
  | [], _ => false
  | (price, level) :: rest, remaining =>
      if isMarketOrder cmd || priceCheck cmd.side cmd.price price then
        if availableVolume cmd.userId level ≥ remaining then true
        else canFillLevels cmd rest (remaining - availableVolume cmd.userId level)
      else false

def canFillCompletely (book : OrderBook) (cmd : OrderCommand) : Bool :=
  canFillLevels cmd (book.side cmd.side.opSide).entries cmd.size

/-- The order a command leaves on the book. -/
def restingOrder (cmd : OrderCommand) (remainingSize : Nat) : Order :=
  { orderId := cmd.orderId
    userId := cmd.userId
    price := cmd.price
    size := remainingSize
    originalSize := cmd.size
    side := cmd.side
    timeInForce := cmd.timeInForce
    status := cmd.status
    timestamp := cmd.timestamp }

def addToBook (book : OrderBook) (cmd : OrderCommand) (remainingSize : Nat) : OrderBook :=
  { book.withSide cmd.side ((book.side cmd.side).getOrCreateLevel cmd.price
      fun level => level.addOrder (restingOrder cmd remainingSize)) with
    orders := book.orders.insert cmd.orderId cmd.price }

def l2Snapshot (book : OrderBook) : L2MarketData :=
  { bidPrices := (book.bids.entries.take l2Size).map Prod.fst
    bidVolumes := (book.bids.entries.take l2Size).map fun e => e.2.totalVolume
    askPrices := (book.asks.entries.take l2Size).map Prod.fst
    askVolumes := (book.asks.entries.take l2Size).map fun e => e.2.totalVolume }

def recordSnapshot (book : OrderBook) (cmd : OrderCommand) : OrderCommand :=
  { cmd with l2Data := some book.l2Snapshot }

def updatePriceCache (book : OrderBook) (cache : PriceCache) : PriceCache :=
  cache.updatePrices book.marketId book.bids.bestPrice book.asks.bestPrice

/-- What an operation leaves behind: the book, the command and the shared price cache. -/
structure Outcome where
  book : OrderBook
  cmd : OrderCommand
  cache : PriceCache

/-- The three time-in-force branches of `place_order`. -/
def placeByTimeInForce (book : OrderBook) (cmd : OrderCommand) : OrderBook × OrderCommand :=
  match cmd.timeInForce with
  | .gtc =>
      let (book, cmd, remaining) := book.matchOrder cmd
      if remaining = cmd.size then
        (book.addToBook cmd remaining, { cmd with status := .placed, size := remaining })
      else if remaining > 0 then
        (book.addToBook cmd remaining, { cmd with status := .partiallyFilled, size := remaining })
      else (book, { cmd with status := .filled, size := remaining })
  | .fok =>
      if !book.canFillCompletely cmd then (book, { cmd with status := .cancelled })
      else
        let (book, cmd, remaining) := book.matchOrder cmd
        (book, { cmd with
          status := if remaining = 0 then .filled else .cancelled
          size := remaining })
  | .ioc =>
      let (book, cmd, remaining) := book.matchOrder cmd
      (book, { cmd with
        status :=
          if remaining = 0 then .filled
          else if remaining < cmd.size then .partiallyFilled
          else .cancelled
        size := remaining })

/-- A market sell reports the price of its first trade. -/
def executionPrice (cmd : OrderCommand) : OrderCommand :=
  if cmd.price = 0 ∧ cmd.side = .ask then
    match cmd.events with
    | event :: _ => { cmd with price := event.price }
    | [] => cmd
  else cmd

def placeOrder (book : OrderBook) (cmd : OrderCommand) (cache : PriceCache) : Outcome :=
  if cmd.status = .rejected then ⟨book, cmd, cache⟩
  else
    let (book, cmd) := book.placeByTimeInForce cmd
    ⟨book, book.recordSnapshot (executionPrice cmd), book.updatePriceCache cache⟩

/-- Take the order out of one side, where that side has a level at its price. -/
def cancelOnSide (book : OrderBook) (s : Side) (price : Nat) (level : PriceLevel)
    (cmd : OrderCommand) : OrderBook × OrderCommand :=
  let (level, cmd) := level.removeOrder cmd.orderId cmd
  let book := book.withSide s (((book.side s).setLevel price level).removeLevelIfEmpty price)
  (book, book.recordSnapshot cmd)

/-- The lookups of `cancel_order`: the id index first, then the bids, then the asks. -/
def cancelByIndex (book : OrderBook) (cmd : OrderCommand) : OrderBook × OrderCommand :=
  match book.orders.lookup cmd.orderId with
  | some price =>
      let book := { book with orders := book.orders.erase cmd.orderId }
      match book.bids.getLevel price with
      | some level => book.cancelOnSide .bid price level cmd
      | none =>
          match book.asks.getLevel price with
          | some level => book.cancelOnSide .ask price level cmd
          | none => (book, { cmd with status := .rejected })
  | none => (book, { cmd with status := .rejected })

def cancelOrder (book : OrderBook) (cmd : OrderCommand) (cache : PriceCache) : Outcome :=
  if cmd.status = .rejected then ⟨book, cmd, cache⟩
  else
    let (book, cmd) := book.cancelByIndex cmd
    ⟨book, cmd, book.updatePriceCache cache⟩

end OrderBook

end VexCore
