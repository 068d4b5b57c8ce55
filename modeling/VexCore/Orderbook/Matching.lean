import VexCore.Framework.Greedy
import VexCore.Orderbook.Invariant

/-!
# Matching against the greedy reference

The reference serves the incoming size greedily from the eligible resting orders in price and
time priority. Both loops of `match_order` are shown to compute it: the inner loop through one
equation for each way it treats the head of a queue, the outer one level by level.
-/

namespace VexCore

open Framework

namespace OrderBook

/-- The orders an incoming order may trade with, in price and time priority. -/
def eligible (book : OrderBook) (cmd : OrderCommand) : List Order :=
  (book.side cmd.side.opSide).resting.filter fun maker =>
    priceCheck cmd.side cmd.price maker.price && decide (maker.userId ≠ cmd.userId)

/-- The greedy allocation of the incoming size over the eligible orders. -/
def referenceFills (book : OrderBook) (cmd : OrderCommand) : List (Fill Order) :=
  allocate Order.size cmd.size (book.eligible cmd)

/-- The event that reports one fill. -/
def fillEvent (fill : Fill Order) : MatcherTradeEvent :=
  { activeOrderCompleted := fill.left == 0
    matchedOrderId := fill.source.orderId
    makerUserId := fill.source.userId
    matchedOrderCompleted := fill.source.size - fill.amount == 0
    price := fill.source.price
    size := fill.amount
    makerRemainingSize := fill.source.size - fill.amount
    makerOriginalSize := fill.source.originalSize }

/-- Whether the fills use up the order of the given id. -/
def completes (fills : List (Fill Order)) (orderId : Nat) : Bool :=
  fills.any fun f => f.source.orderId == orderId && f.source.size - f.amount == 0

/-- What the fills leave of a resting order. -/
def afterFills (fills : List (Fill Order)) (order : Order) : Option Order :=
  if completes fills order.orderId then none
  else some { order with size := order.size - taken Order.orderId fills order.orderId }

/-- What the fills leave of a price level's queue; an emptied level disappears. -/
def queueAfterFills (fills : List (Fill Order)) (entry : Nat × PriceLevel) :
    Option (Nat × List Order) :=
  let queue := entry.2.orders.filterMap (afterFills fills)
  if queue.isEmpty then none else some (entry.1, queue)

/-- The index without the orders the fills use up. -/
def indexAfterFills (fills : List (Fill Order)) (orders : HashMap Nat Nat) : HashMap Nat Nat :=
  fills.foldl (fun orders f =>
    if f.source.size - f.amount = 0 then orders.erase f.source.orderId else orders) orders

/-- The loop state after the given fills. -/
def MatchState.settle (st : MatchState) (fills : List (Fill Order)) : MatchState :=
  { remainingSize := st.remainingSize - filled fills
    events := st.events ++ fills.map fillEvent
    orders := indexAfterFills fills st.orders }

@[simp] theorem MatchState.settle_nil (st : MatchState) : st.settle [] = st := by
  simp [settle, indexAfterFills]

theorem MatchState.settle_append (st : MatchState) (fs gs : List (Fill Order)) :
    st.settle (fs ++ gs) = (st.settle fs).settle gs := by
  simp [settle, indexAfterFills, filled, Nat.sub_add_eq]

theorem MatchState.trade_eq_settle (st : MatchState) {price : Nat} {maker : Order}
    (hprice : maker.price = price) :
    st.trade price (min st.remainingSize maker.size) maker =
      st.settle [⟨maker, min st.remainingSize maker.size,
        st.remainingSize - min st.remainingSize maker.size⟩] := by
  subst hprice
  simp [trade, settle, indexAfterFills, filled, fillEvent, tradeEvent]

theorem matchQueue_shift (takerId price idx : Nat) (queue : List Order) (volume : Nat)
    (st : MatchState) :
    matchQueue takerId price (idx + 1) queue volume st =
      { matchQueue takerId price idx queue volume st with
        ordersToRemove :=
          (matchQueue takerId price idx queue volume st).ordersToRemove.map (· + 1) } := by
  induction queue generalizing idx volume st with
  | nil => rfl
  | cons maker rest ih =>
    unfold matchQueue
    by_cases hdone : st.remainingSize = 0
    · simp only [if_pos hdone]
      rfl
    · by_cases hown : maker.userId = takerId
      · simp only [if_neg hdone, if_pos hown, ih (idx + 1)]
      · simp only [if_neg hdone, if_neg hown, ih (idx + 1)]
        split <;> simp

section Level

variable {takerId price : Nat} {st : MatchState}

theorem matchLevel_nil (volume : Nat) :
    matchLevel takerId price ⟨volume, []⟩ st = (⟨volume, []⟩, st) := rfl

theorem matchLevel_done (hdone : st.remainingSize = 0) (level : PriceLevel) :
    matchLevel takerId price level st = (level, st) := by
  obtain ⟨volume, queue⟩ := level
  cases queue with
  | nil => rfl
  | cons maker rest => simp [matchLevel, matchQueue, hdone]

theorem matchLevel_own (hdone : st.remainingSize ≠ 0) {maker : Order}
    (hown : maker.userId = takerId) (volume : Nat) (rest : List Order) :
    matchLevel takerId price ⟨volume, maker :: rest⟩ st =
      let matched := matchLevel takerId price ⟨volume, rest⟩ st
      (⟨matched.1.totalVolume, maker :: matched.1.orders⟩, matched.2) := by
  unfold matchLevel
  rw [matchQueue]
  simp only [if_neg hdone, if_pos hown, matchQueue_shift, removeFromBack_shift]

theorem matchLevel_trade (hdone : st.remainingSize ≠ 0) {maker : Order}
    (hown : maker.userId ≠ takerId) (volume : Nat) (rest : List Order) :
    matchLevel takerId price ⟨volume, maker :: rest⟩ st =
      let tradeSize := min st.remainingSize maker.size
      let matched := matchLevel takerId price ⟨wrappingSub 64 volume tradeSize, rest⟩
        (st.trade price tradeSize maker)
      (⟨matched.1.totalVolume,
        if maker.size - tradeSize = 0 then matched.1.orders
        else { maker with size := maker.size - tradeSize } :: matched.1.orders⟩,
        matched.2) := by
  unfold matchLevel
  rw [matchQueue]
  simp only [if_neg hdone, if_neg hown, matchQueue_shift]
  split
  · rw [removeFromBack_zero_shift]
  · rw [removeFromBack_shift]

/-- The fills of one queue. -/
def queueFills (takerId demand : Nat) (queue : List Order) : List (Fill Order) :=
  allocate Order.size demand (queue.filter fun maker => decide (maker.userId ≠ takerId))

theorem matchLevel_state {level : PriceLevel} (hprice : ∀ o ∈ level.orders, o.price = price) :
    (matchLevel takerId price level st).2 =
      st.settle (queueFills takerId st.remainingSize level.orders) := by
  obtain ⟨volume, queue⟩ := level
  induction queue generalizing volume st with
  | nil => simp [matchLevel_nil, queueFills, allocate]
  | cons maker rest ih =>
    have hrest : ∀ o ∈ rest, o.price = price := fun o ho => hprice o (List.mem_cons_of_mem _ ho)
    by_cases hdone : st.remainingSize = 0
    · rw [matchLevel_done hdone]
      simp [queueFills, hdone]
    · by_cases hown : maker.userId = takerId
      · rw [matchLevel_own hdone hown]
        simp only [queueFills]
        rw [ih volume hrest, List.filter_cons_of_neg (by simpa using hown)]
        rfl
      · rw [matchLevel_trade hdone hown]
        simp only [queueFills]
        rw [List.filter_cons_of_pos (by simpa using hown), allocate_cons hdone,
          ih _ hrest, st.trade_eq_settle (hprice maker List.mem_cons_self),
          ← MatchState.settle_append]
        rfl

theorem afterFills_of_not_mem {fills : List (Fill Order)} {order : Order}
    (h : ∀ f ∈ fills, f.source.orderId ≠ order.orderId) : afterFills fills order = some order := by
  have hcompletes : completes fills order.orderId = false := by
    simp only [completes, List.any_eq_false, Bool.and_eq_true, beq_iff_eq, not_and]
    intro f hf heq
    exact absurd heq (h f hf)
  rw [afterFills, hcompletes, taken_of_not_mem h]
  simp

theorem afterFills_append_left {fs gs : List (Fill Order)} {order : Order}
    (h : ∀ g ∈ gs, g.source.orderId ≠ order.orderId) :
    afterFills (fs ++ gs) order = afterFills fs order := by
  have hcompletes : completes gs order.orderId = false := by
    simp only [completes, List.any_eq_false, Bool.and_eq_true, beq_iff_eq, not_and]
    intro g hg heq
    exact absurd heq (h g hg)
  have happend : completes (fs ++ gs) order.orderId = completes fs order.orderId := by
    simp only [completes, List.any_append] at hcompletes ⊢
    rw [hcompletes, Bool.or_false]
  rw [afterFills, afterFills, happend, taken_append, taken_of_not_mem h, Nat.add_zero]

theorem afterFills_append_right {fs gs : List (Fill Order)} {order : Order}
    (h : ∀ f ∈ fs, f.source.orderId ≠ order.orderId) :
    afterFills (fs ++ gs) order = afterFills gs order := by
  have hcompletes : completes fs order.orderId = false := by
    simp only [completes, List.any_eq_false, Bool.and_eq_true, beq_iff_eq, not_and]
    intro f hf heq
    exact absurd heq (h f hf)
  have happend : completes (fs ++ gs) order.orderId = completes gs order.orderId := by
    simp only [completes, List.any_append] at hcompletes ⊢
    rw [hcompletes, Bool.false_or]
  rw [afterFills, afterFills, happend, taken_append, taken_of_not_mem h, Nat.zero_add]

/-- The first fill of an order that no later fill touches. -/
theorem afterFills_cons_self {fills : List (Fill Order)} {maker : Order} (amount left : Nat)
    (h : ∀ f ∈ fills, f.source.orderId ≠ maker.orderId) :
    afterFills (⟨maker, amount, left⟩ :: fills) maker =
      if maker.size - amount = 0 then none
      else some { maker with size := maker.size - amount } := by
  have hsplit := @afterFills_append_left [⟨maker, amount, left⟩] _ _ h
  rw [List.singleton_append] at hsplit
  rw [hsplit, afterFills]
  by_cases hzero : maker.size - amount = 0
  · simp [completes, hzero]
  · simp [completes, hzero, taken_cons]

theorem queueFills_source {demand : Nat} {queue : List Order} {f : Fill Order}
    (hf : f ∈ queueFills takerId demand queue) : f.source ∈ queue :=
  List.mem_of_mem_filter (source_mem_of_mem_allocate hf)

theorem matchLevel_orders {level : PriceLevel} (hprice : ∀ o ∈ level.orders, o.price = price)
    (hnodup : (level.orders.map Order.orderId).Nodup) :
    (matchLevel takerId price level st).1.orders =
      level.orders.filterMap (afterFills (queueFills takerId st.remainingSize level.orders)) := by
  obtain ⟨volume, queue⟩ := level
  have hkeep (queue : List Order) : queue.filterMap (afterFills []) = queue := by
    have hsome : afterFills [] = some := by
      funext o
      exact afterFills_of_not_mem (by simp)
    rw [hsome, List.filterMap_some]
  induction queue generalizing volume st with
  | nil => rfl
  | cons maker rest ih =>
    have hrest : ∀ o ∈ rest, o.price = price := fun o ho => hprice o (List.mem_cons_of_mem _ ho)
    simp only [List.map_cons, List.nodup_cons] at hnodup
    have hother : ∀ o ∈ rest, o.orderId ≠ maker.orderId := by
      intro o ho heq
      exact hnodup.1 (List.mem_map.mpr ⟨o, ho, heq⟩)
    by_cases hdone : st.remainingSize = 0
    · rw [matchLevel_done hdone]
      simp only [queueFills, hdone, allocate_zero]
      exact (hkeep _).symm
    · by_cases hown : maker.userId = takerId
      · rw [matchLevel_own hdone hown]
        simp only [ih volume hrest hnodup.2]
        have hfills : queueFills takerId st.remainingSize (maker :: rest) =
            queueFills takerId st.remainingSize rest := by
          rw [queueFills, List.filter_cons_of_neg (by simpa using hown)]
          rfl
        rw [hfills, List.filterMap_cons, afterFills_of_not_mem]
        intro f hf
        exact hother _ (queueFills_source hf)
      · rw [matchLevel_trade hdone hown]
        simp only [ih _ hrest hnodup.2]
        have hfills : queueFills takerId st.remainingSize (maker :: rest) =
            ⟨maker, min st.remainingSize maker.size,
              st.remainingSize - min st.remainingSize maker.size⟩ ::
            queueFills takerId (st.remainingSize - min st.remainingSize maker.size) rest := by
          rw [queueFills, List.filter_cons_of_pos (by simpa using hown), allocate_cons hdone]
          rfl
        have htail : rest.filterMap (afterFills (queueFills takerId st.remainingSize
            (maker :: rest))) = rest.filterMap (afterFills
              (queueFills takerId (st.remainingSize - min st.remainingSize maker.size) rest)) := by
          apply List.filterMap_congr
          intro o ho
          rw [hfills, ← List.singleton_append]
          apply afterFills_append_right
          intro f hf
          rw [List.mem_singleton] at hf
          subst hf
          exact (hother o ho).symm
        have hhead : afterFills (queueFills takerId st.remainingSize (maker :: rest)) maker =
            if maker.size - min st.remainingSize maker.size = 0 then none
            else some { maker with size := maker.size - min st.remainingSize maker.size } := by
          rw [hfills]
          apply afterFills_cons_self
          intro f hf
          exact hother _ (queueFills_source hf)
        rw [List.filterMap_cons, htail, hhead]
        split <;> rfl

theorem matchLevel_volume {queue : List Order} {volume extra : Nat}
    (hvolume : volume = extra + (queue.map Order.size).sum) (hfits : volume < 2 ^ 64) :
    (matchLevel takerId price ⟨volume, queue⟩ st).1.totalVolume =
      extra + ((matchLevel takerId price ⟨volume, queue⟩ st).1.orders.map Order.size).sum := by
  induction queue generalizing volume extra st with
  | nil => exact hvolume
  | cons maker rest ih =>
    rw [List.map_cons, List.sum_cons] at hvolume
    by_cases hdone : st.remainingSize = 0
    · rw [matchLevel_done hdone, List.map_cons, List.sum_cons]
      exact hvolume
    · by_cases hown : maker.userId = takerId
      · rw [matchLevel_own hdone hown]
        have h := @ih st volume (extra + maker.size) (by omega) hfits
        simp only [List.map_cons, List.sum_cons, h]
        omega
      · rw [matchLevel_trade hdone hown]
        have htrade : min st.remainingSize maker.size ≤ maker.size := Nat.min_le_right _ _
        have hsub : wrappingSub 64 volume (min st.remainingSize maker.size) =
            volume - min st.remainingSize maker.size := wrappingSub_of_le (by omega) hfits
        have h := @ih (st.trade price (min st.remainingSize maker.size) maker)
          (volume - min st.remainingSize maker.size)
          (extra + (maker.size - min st.remainingSize maker.size)) (by omega) (by omega)
        simp only [hsub, h]
        split
        · omega
        · simp only [List.map_cons, List.sum_cons]
          omega

end Level

/-- The eligible orders among some price levels. -/
def eligibleIn (cmd : OrderCommand) (levels : List (Nat × PriceLevel)) : List Order :=
  (levels.flatMap fun e => e.2.orders).filter fun maker =>
    priceCheck cmd.side cmd.price maker.price && decide (maker.userId ≠ cmd.userId)

theorem eligibleIn_cons (cmd : OrderCommand) (e : Nat × PriceLevel)
    (levels : List (Nat × PriceLevel)) :
    eligibleIn cmd (e :: levels) =
      (e.2.orders.filter fun maker =>
        priceCheck cmd.side cmd.price maker.price && decide (maker.userId ≠ cmd.userId)) ++
      eligibleIn cmd levels := by
  rw [eligibleIn, List.flatMap_cons, List.filter_append]
  rfl

theorem mem_of_mem_eligibleIn {cmd : OrderCommand} {levels : List (Nat × PriceLevel)} {o : Order}
    (h : o ∈ eligibleIn cmd levels) : o ∈ levels.flatMap fun e => e.2.orders :=
  List.mem_of_mem_filter h

theorem priceCheck_of_better {s : Side} {takerPrice p q : Nat} (hbetter : s.opSide.Better p q)
    (hcheck : priceCheck s takerPrice q = true) : priceCheck s takerPrice p = true := by
  cases s with
  | ask =>
    simp only [priceCheck, Side.opSide, Side.Better, decide_eq_true_eq] at *
    omega
  | bid =>
    simp only [priceCheck, Side.opSide, Side.Better, decide_eq_true_eq] at *
    omega

/-- Levels in matching priority whose orders carry their price. -/
structure LevelsPlaced (s : Side) (levels : List (Nat × PriceLevel)) : Prop where
  sorted : (levels.map Prod.fst).Pairwise s.Better
  price : ∀ e ∈ levels, ∀ o ∈ e.2.orders, o.price = e.1

theorem LevelsPlaced.tail {s : Side} {e : Nat × PriceLevel} {levels : List (Nat × PriceLevel)}
    (h : LevelsPlaced s (e :: levels)) : LevelsPlaced s levels where
  sorted := by
    have hs := h.sorted
    rw [List.map_cons, List.pairwise_cons] at hs
    exact hs.2
  price e he := h.price e (List.mem_cons_of_mem _ he)

section Levels

variable {cmd : OrderCommand} {levels : List (Nat × PriceLevel)} {e : Nat × PriceLevel}

theorem eligibleIn_of_refused (h : LevelsPlaced cmd.side.opSide (e :: levels))
    (hcheck : priceCheck cmd.side cmd.price e.1 = false) : eligibleIn cmd (e :: levels) = [] := by
  have hs := h.sorted
  rw [List.map_cons, List.pairwise_cons] at hs
  rw [eligibleIn, List.filter_eq_nil_iff]
  intro o ho hpass
  simp only [Bool.and_eq_true, decide_eq_true_eq] at hpass
  obtain ⟨e', he', hoe⟩ := List.mem_flatMap.mp ho
  have hprice := h.price e' he' o hoe
  rw [hprice] at hpass
  have hfirst : priceCheck cmd.side cmd.price e.1 = true := by
    rcases List.mem_cons.mp he' with rfl | he'
    · exact hpass.1
    · exact priceCheck_of_better (hs.1 e'.1 (List.mem_map_of_mem (f := Prod.fst) he')) hpass.1
  rw [hcheck] at hfirst
  cases hfirst

theorem allocate_eligibleIn_cons (h : LevelsPlaced cmd.side.opSide (e :: levels))
    (hcheck : priceCheck cmd.side cmd.price e.1 = true) (demand : Nat) :
    allocate Order.size demand (eligibleIn cmd (e :: levels)) =
      queueFills cmd.userId demand e.2.orders ++
        allocate Order.size (demand - filled (queueFills cmd.userId demand e.2.orders))
          (eligibleIn cmd levels) := by
  have hhead : (e.2.orders.filter fun maker =>
      priceCheck cmd.side cmd.price maker.price && decide (maker.userId ≠ cmd.userId)) =
      e.2.orders.filter fun maker => decide (maker.userId ≠ cmd.userId) := by
    apply List.filter_congr
    intro o ho
    rw [h.price e List.mem_cons_self o ho, hcheck, Bool.true_and]
  rw [eligibleIn_cons, hhead, allocate_append]
  rfl

theorem matchLevels_stop (levels : List (Nat × PriceLevel)) {st : MatchState}
    (hstop : (!priceCheck cmd.side cmd.price e.1 || st.remainingSize == 0) = true) :
    matchLevels cmd (e :: levels) st = ⟨e :: levels, [], st⟩ := by
  rw [matchLevels, if_pos hstop]

theorem matchLevels_step (levels : List (Nat × PriceLevel)) {st : MatchState}
    (hstep : (!priceCheck cmd.side cmd.price e.1 || st.remainingSize == 0) = false) :
    matchLevels cmd (e :: levels) st =
      let matched := matchLevel cmd.userId e.1 e.2 st
      let pass := matchLevels cmd levels matched.2
      { pass with
        levels := (e.1, matched.1) :: pass.levels
        filledPriceLevels :=
          if matched.1.orders.isEmpty then e.1 :: pass.filledPriceLevels
          else pass.filledPriceLevels } := by
  have hneg : ¬(!priceCheck cmd.side cmd.price e.1 || st.remainingSize == 0) = true := by
    rw [hstep]
    exact Bool.false_ne_true
  rw [matchLevels, if_neg hneg]

theorem allocate_of_stop (h : LevelsPlaced cmd.side.opSide (e :: levels)) {st : MatchState}
    (hstop : (!priceCheck cmd.side cmd.price e.1 || st.remainingSize == 0) = true) :
    allocate Order.size st.remainingSize (eligibleIn cmd (e :: levels)) = [] := by
  simp only [Bool.or_eq_true, Bool.not_eq_true', beq_iff_eq] at hstop
  rcases hstop with hcheck | hdone
  · rw [eligibleIn_of_refused h hcheck]
    rfl
  · rw [hdone, allocate_zero]

theorem priceCheck_of_step {st : MatchState}
    (hstep : (!priceCheck cmd.side cmd.price e.1 || st.remainingSize == 0) = false) :
    priceCheck cmd.side cmd.price e.1 = true := by
  simp only [Bool.or_eq_false_iff, Bool.not_eq_false'] at hstep
  exact hstep.1

theorem matchLevels_state (h : LevelsPlaced cmd.side.opSide levels) (st : MatchState) :
    (matchLevels cmd levels st).state =
      st.settle (allocate Order.size st.remainingSize (eligibleIn cmd levels)) := by
  induction levels generalizing st with
  | nil => simp [matchLevels, eligibleIn, allocate]
  | cons e rest ih =>
    cases hstop : !priceCheck cmd.side cmd.price e.1 || st.remainingSize == 0 with
    | true =>
      rw [matchLevels_stop rest hstop, allocate_of_stop h hstop, MatchState.settle_nil]
    | false =>
      have hcheck := priceCheck_of_step hstop
      have hstate := @matchLevel_state cmd.userId e.1 st _ (h.price e List.mem_cons_self)
      rw [matchLevels_step rest hstop]
      simp only [ih h.tail]
      rw [hstate, allocate_eligibleIn_cons h hcheck, MatchState.settle_append]
      rfl

/-- A level's price and queue, without its cached volume. -/
def queueOf (e : Nat × PriceLevel) : Nat × List Order := (e.1, e.2.orders)

theorem matchLevels_queues (h : LevelsPlaced cmd.side.opSide levels)
    (hnodup : ((levels.flatMap fun e => e.2.orders).map Order.orderId).Nodup) (st : MatchState) :
    (matchLevels cmd levels st).levels.map queueOf =
      levels.map fun e => (e.1, e.2.orders.filterMap (afterFills
        (allocate Order.size st.remainingSize (eligibleIn cmd levels)))) := by
  induction levels generalizing st with
  | nil => rfl
  | cons e rest ih =>
    have hids := hnodup
    rw [List.flatMap_cons, List.map_append, List.nodup_append] at hids
    obtain ⟨hhead, htail, hdisjoint⟩ := hids
    cases hstop : !priceCheck cmd.side cmd.price e.1 || st.remainingSize == 0 with
    | true =>
      rw [matchLevels_stop rest hstop, allocate_of_stop h hstop]
      apply List.map_congr_left
      intro e' _
      have hkeep : e'.2.orders.filterMap (afterFills []) = e'.2.orders := by
        have hsome : afterFills [] = some := by
          funext o
          exact afterFills_of_not_mem (by simp)
        rw [hsome, List.filterMap_some]
      rw [hkeep]
      rfl
    | false =>
      have hcheck := priceCheck_of_step hstop
      have hplaced := h.price e List.mem_cons_self
      have hstate := @matchLevel_state cmd.userId e.1 st _ hplaced
      have horders := @matchLevel_orders cmd.userId e.1 st _ hplaced hhead
      rw [matchLevels_step rest hstop, allocate_eligibleIn_cons h hcheck]
      simp only [List.map_cons]
      rw [ih h.tail htail, hstate]
      -- the fills of this queue and those of the later levels do not meet
      have hlater : ∀ o ∈ e.2.orders, ∀ f ∈ allocate Order.size
          (st.remainingSize - filled (queueFills cmd.userId st.remainingSize e.2.orders))
          (eligibleIn cmd rest), f.source.orderId ≠ o.orderId := by
        intro o ho f hf heq
        have hsource := mem_of_mem_eligibleIn (source_mem_of_mem_allocate hf)
        exact hdisjoint _ (List.mem_map_of_mem (f := Order.orderId) ho) _
          (List.mem_map_of_mem (f := Order.orderId) hsource) heq.symm
      have hearlier : ∀ o ∈ rest.flatMap (fun e => e.2.orders),
          ∀ f ∈ queueFills cmd.userId st.remainingSize e.2.orders,
            f.source.orderId ≠ o.orderId := by
        intro o ho f hf heq
        exact hdisjoint _ (List.mem_map_of_mem (f := Order.orderId) (queueFills_source hf)) _
          (List.mem_map_of_mem (f := Order.orderId) ho) heq
      congr 1
      · simp only [queueOf, horders]
        congr 1
        apply List.filterMap_congr
        intro o ho
        exact (afterFills_append_left (hlater o ho)).symm
      · apply List.map_congr_left
        intro e' he'
        congr 1
        apply List.filterMap_congr
        intro o ho
        exact (afterFills_append_right
          (hearlier o (List.mem_flatMap.mpr ⟨e', he', ho⟩))).symm

/-- Cached volumes stay exact. -/
theorem matchLevels_volume
    (hvolume : ∀ e ∈ levels, e.2.totalVolume = (e.2.orders.map Order.size).sum ∧
      e.2.totalVolume < 2 ^ 64) (st : MatchState) :
    ∀ e ∈ (matchLevels cmd levels st).levels,
      e.2.totalVolume = (e.2.orders.map Order.size).sum := by
  induction levels generalizing st with
  | nil =>
    intro e he
    cases he
  | cons e rest ih =>
    cases hstop : !priceCheck cmd.side cmd.price e.1 || st.remainingSize == 0 with
    | true =>
      rw [matchLevels_stop rest hstop]
      intro e' he'
      exact (hvolume e' he').1
    | false =>
      rw [matchLevels_step rest hstop]
      intro e' he'
      rcases List.mem_cons.mp he' with rfl | he'
      · obtain ⟨hsum, hfits⟩ := hvolume e List.mem_cons_self
        have h := @matchLevel_volume cmd.userId e.1 st e.2.orders _ 0
          (by rw [Nat.zero_add]; exact hsum) hfits
        rw [Nat.zero_add] at h
        exact h
      · exact ih (fun e he => hvolume e (List.mem_cons_of_mem _ he)) _ e' he'

/-- Every level the loop empties is recorded for removal. -/
theorem mem_filledPriceLevels (hne : ∀ e ∈ levels, e.2.orders ≠ []) (st : MatchState) :
    ∀ e ∈ (matchLevels cmd levels st).levels, e.2.orders = [] →
      e.1 ∈ (matchLevels cmd levels st).filledPriceLevels := by
  induction levels generalizing st with
  | nil =>
    intro e he
    cases he
  | cons e rest ih =>
    cases hstop : !priceCheck cmd.side cmd.price e.1 || st.remainingSize == 0 with
    | true =>
      rw [matchLevels_stop rest hstop]
      intro e' he' hempty
      exact absurd hempty (hne e' he')
    | false =>
      rw [matchLevels_step rest hstop]
      intro e' he' hempty
      have htail := ih (fun e he => hne e (List.mem_cons_of_mem _ he))
        (matchLevel cmd.userId e.1 e.2 st).2
      rcases List.mem_cons.mp he' with rfl | he'
      · simp only at hempty ⊢
        rw [hempty, List.isEmpty_nil, if_pos rfl]
        exact List.mem_cons_self
      · simp only
        split
        · exact List.mem_cons_of_mem _ (htail e' he' hempty)
        · exact htail e' he' hempty

end Levels

theorem removeLevels_entries {s : Side} (side : BookSide s) (prices : List Nat) :
    (prices.foldl BookSide.removeLevelIfEmpty side).entries =
      side.entries.filter fun e => !(decide (e.1 ∈ prices) && e.2.orders.isEmpty) := by
  induction prices generalizing side with
  | nil =>
    rw [List.foldl_nil]
    symm
    apply List.filter_eq_self.mpr
    simp
  | cons price rest ih =>
    rw [List.foldl_cons, ih, BookSide.removeLevelIfEmpty, SortedMap.eraseIf_entries,
      List.filter_filter]
    apply List.filter_congr
    intro e _
    by_cases hp : e.1 = price
    · subst hp
      cases hempty : e.2.orders.isEmpty <;> simp
    · simp [hp]

section Side

variable {s : Side} {side : BookSide s} {cmd : OrderCommand}

theorem matchSide_entries (hne : ∀ e ∈ side.entries, e.2.orders ≠ []) (orders : HashMap Nat Nat) :
    (matchSide side cmd orders).1.entries =
      (matchLevels cmd side.entries ⟨cmd.size, cmd.events, orders⟩).levels.filter
        fun e => !e.2.orders.isEmpty := by
  have hfilled := @mem_filledPriceLevels cmd _ hne ⟨cmd.size, cmd.events, orders⟩
  unfold matchSide
  simp only [removeLevels_entries]
  apply List.filter_congr
  intro e he
  cases hempty : e.2.orders.isEmpty with
  | false => simp
  | true => simp [hfilled e he (by simpa using hempty)]

end Side

theorem matchOrder_side (book : OrderBook) (cmd : OrderCommand) :
    (book.matchOrder cmd).1.side cmd.side.opSide =
      (matchSide (book.side cmd.side.opSide) cmd book.orders).1 := by
  rw [matchOrder, side_setOrders, side_withSide]

theorem matchOrder_side_ne {book : OrderBook} {cmd : OrderCommand} {s : Side}
    (hs : s ≠ cmd.side.opSide) : (book.matchOrder cmd).1.side s = book.side s := by
  rw [matchOrder, side_setOrders, side_withSide_ne _ hs]

theorem Shape.levelsPlaced {book : OrderBook} (h : book.Shape) (s : Side) :
    LevelsPlaced s (book.side s).entries where
  sorted := (book.side s).sorted
  price e he o ho := ((h.level s e.1 e.2 (SortedMap.find?_eq_some.mpr he)).placed o ho).1

theorem Shape.level_nonempty {book : OrderBook} (h : book.Shape) (s : Side) :
    ∀ e ∈ (book.side s).entries, e.2.orders ≠ [] :=
  fun e he => (h.level s e.1 e.2 (SortedMap.find?_eq_some.mpr he)).nonempty

theorem matchOrder_state {book : OrderBook} (h : book.Shape) (cmd : OrderCommand) :
    (matchSide (book.side cmd.side.opSide) cmd book.orders).2 =
      MatchState.settle ⟨cmd.size, cmd.events, book.orders⟩ (book.referenceFills cmd) :=
  matchLevels_state (h.levelsPlaced _) _

theorem matchOrder_state_orders (book : OrderBook) (cmd : OrderCommand) :
    (book.matchOrder cmd).1.orders =
      (matchSide (book.side cmd.side.opSide) cmd book.orders).2.orders := rfl

theorem matchOrder_cmd {book : OrderBook} (h : book.Shape) (cmd : OrderCommand) :
    (book.matchOrder cmd).2.1 =
      { cmd with events := cmd.events ++ (book.referenceFills cmd).map fillEvent } := by
  rw [matchOrder, matchOrder_state h]
  rfl

theorem matchOrder_remaining {book : OrderBook} (h : book.Shape) (cmd : OrderCommand) :
    (book.matchOrder cmd).2.2 = cmd.size - filled (book.referenceFills cmd) := by
  rw [matchOrder, matchOrder_state h]
  rfl

theorem matchOrder_orders {book : OrderBook} (h : book.Shape) (cmd : OrderCommand) :
    (book.matchOrder cmd).1.orders = indexAfterFills (book.referenceFills cmd) book.orders := by
  rw [matchOrder, matchOrder_state h]
  rfl

private theorem filter_nonempty_queues (fills : List (Fill Order))
    (entries : List (Nat × PriceLevel)) :
    (entries.map fun e => (e.1, e.2.orders.filterMap (afterFills fills))).filter
        (fun q => !q.2.isEmpty) = entries.filterMap (queueAfterFills fills) := by
  induction entries with
  | nil => rfl
  | cons e rest ih =>
    cases hempty : (e.2.orders.filterMap (afterFills fills)).isEmpty with
    | true => simp only [List.map_cons, List.filter_cons, hempty, List.filterMap_cons,
        queueAfterFills, ih, Bool.not_true, Bool.false_eq_true, if_false, if_true]
    | false => simp only [List.map_cons, List.filter_cons, hempty, List.filterMap_cons,
        queueAfterFills, ih, Bool.not_false, Bool.false_eq_true, if_false, if_true]

/-- The queues the incoming order meets, after its fills. -/
theorem matchOrder_queues {book : OrderBook} (h : book.Shape) (cmd : OrderCommand) :
    ((book.matchOrder cmd).1.side cmd.side.opSide).entries.map queueOf =
      (book.side cmd.side.opSide).entries.filterMap
        (queueAfterFills (book.referenceFills cmd)) := by
  have hqueues := @matchLevels_queues cmd _ (h.levelsPlaced cmd.side.opSide)
    (h.nodup cmd.side.opSide) ⟨cmd.size, cmd.events, book.orders⟩
  rw [matchOrder_side, matchSide_entries (h.level_nonempty _)]
  have hfilter (l : List (Nat × PriceLevel)) :
      (l.filter fun e => !e.2.orders.isEmpty).map queueOf =
        (l.map queueOf).filter fun q => !q.2.isEmpty := by
    rw [List.filter_map]
    rfl
  rw [hfilter, hqueues]
  exact filter_nonempty_queues _ _

theorem matchOrder_volume {book : OrderBook} (h : book.Shape) (cmd : OrderCommand)
    (hvolume : ∀ e ∈ (book.side cmd.side.opSide).entries,
      e.2.totalVolume = (e.2.orders.map Order.size).sum ∧ e.2.totalVolume < 2 ^ 64) :
    ∀ e ∈ ((book.matchOrder cmd).1.side cmd.side.opSide).entries,
      e.2.totalVolume = (e.2.orders.map Order.size).sum := by
  rw [matchOrder_side, matchSide_entries (h.level_nonempty _)]
  intro e he
  exact matchLevels_volume hvolume _ e (List.mem_of_mem_filter he)

theorem afterFills_eq_some {fills : List (Fill Order)} {o o' : Order}
    (h : afterFills fills o = some o') :
    completes fills o.orderId = false ∧
      o' = { o with size := o.size - taken Order.orderId fills o.orderId } := by
  unfold afterFills at h
  cases hcompletes : completes fills o.orderId with
  | true =>
    rw [hcompletes] at h
    cases h
  | false =>
    rw [hcompletes] at h
    simp only [Bool.false_eq_true, if_false, Option.some.injEq] at h
    exact ⟨rfl, h.symm⟩

theorem afterFills_of_not_completes {fills : List (Fill Order)} {o : Order}
    (h : completes fills o.orderId = false) :
    afterFills fills o =
      some { o with size := o.size - taken Order.orderId fills o.orderId } := by
  rw [afterFills, h]
  rfl

theorem lookup_indexAfterFills (fills : List (Fill Order)) (orders : HashMap Nat Nat) (id : Nat) :
    (indexAfterFills fills orders).lookup id =
      if completes fills id then none else orders.lookup id := by
  induction fills generalizing orders with
  | nil => rfl
  | cons f rest ih =>
    have hstep : indexAfterFills (f :: rest) orders = indexAfterFills rest
        (if f.source.size - f.amount = 0 then orders.erase f.source.orderId else orders) := rfl
    have hcompletes : completes (f :: rest) id =
        ((f.source.orderId == id && f.source.size - f.amount == 0) || completes rest id) := rfl
    rw [hstep, ih, hcompletes]
    by_cases hzero : f.source.size - f.amount = 0
    · by_cases hid : f.source.orderId = id
      · subst hid
        simp [hzero]
      · rw [if_pos hzero, Finmap.lookup_erase_ne (Ne.symm hid)]
        simp [hid]
    · simp [hzero]

theorem resting_queues (entries : List (Nat × PriceLevel)) :
    ((entries.map queueOf).flatMap Prod.snd) = entries.flatMap fun e => e.2.orders := by
  rw [List.flatMap_map]
  rfl

theorem flatMap_queueAfterFills (fills : List (Fill Order)) (entries : List (Nat × PriceLevel)) :
    (entries.filterMap (queueAfterFills fills)).flatMap Prod.snd =
      (entries.flatMap fun e => e.2.orders).filterMap (afterFills fills) := by
  induction entries with
  | nil => rfl
  | cons e rest ih =>
    rw [List.flatMap_cons, List.filterMap_append, ← ih, List.filterMap_cons]
    cases hempty : (e.2.orders.filterMap (afterFills fills)).isEmpty with
    | true =>
      have hnil := List.isEmpty_iff.mp hempty
      simp only [queueAfterFills, hempty, if_true]
      rw [hnil, List.nil_append]
    | false =>
      simp only [queueAfterFills, hempty, Bool.false_eq_true, if_false, List.flatMap_cons]

/-- The opposite side's orders after matching, each with its fill taken off. -/
theorem matchOrder_resting {book : OrderBook} (h : book.Shape) (cmd : OrderCommand) :
    ((book.matchOrder cmd).1.side cmd.side.opSide).resting =
      (book.side cmd.side.opSide).resting.filterMap (afterFills (book.referenceFills cmd)) := by
  rw [BookSide.resting, BookSide.resting, ← resting_queues, matchOrder_queues h,
    flatMap_queueAfterFills]

theorem map_orderId_filterMap_sublist (fills : List (Fill Order)) (orders : List Order) :
    ((orders.filterMap (afterFills fills)).map Order.orderId).Sublist
      (orders.map Order.orderId) := by
  induction orders with
  | nil => exact List.Sublist.refl _
  | cons o rest ih =>
    rw [List.filterMap_cons, List.map_cons]
    cases hafter : afterFills fills o with
    | none => exact ih.cons _
    | some o' =>
      obtain ⟨_, rfl⟩ := afterFills_eq_some hafter
      exact ih.cons_cons _

/-- A level after matching is a level before it with its fills taken off. -/
theorem matchOrder_level {book : OrderBook} (h : book.Shape) {cmd : OrderCommand} {price : Nat}
    {level : PriceLevel}
    (hlevel : ((book.matchOrder cmd).1.side cmd.side.opSide).getLevel price = some level) :
    level.orders ≠ [] ∧ ∃ old, (book.side cmd.side.opSide).getLevel price = some old ∧
      level.orders = old.orders.filterMap (afterFills (book.referenceFills cmd)) := by
  have hmem := List.mem_map_of_mem (f := queueOf) (SortedMap.find?_eq_some.mp hlevel)
  rw [matchOrder_queues h] at hmem
  obtain ⟨e, he, hafter⟩ := List.mem_filterMap.mp hmem
  unfold queueAfterFills at hafter
  simp only at hafter
  split at hafter
  · cases hafter
  · rename_i hne
    simp only [queueOf, Option.some.injEq, Prod.mk.injEq] at hafter
    obtain ⟨hprice, horders⟩ := hafter
    subst hprice
    refine ⟨?_, e.2, SortedMap.find?_eq_some.mpr he, horders.symm⟩
    rw [← horders]
    simpa using hne

theorem matchOrder_shape {book : OrderBook} (h : book.Shape) (cmd : OrderCommand) :
    (book.matchOrder cmd).1.Shape := by
  have hresting := matchOrder_resting h cmd
  have horders := matchOrder_orders h cmd
  have hsub : ((book.matchOrder cmd).1.side cmd.side.opSide).ids.Sublist
      (book.side cmd.side.opSide).ids := by
    rw [BookSide.ids, hresting]
    exact map_orderId_filterMap_sublist _ _
  rw [matchOrder_side] at hsub hresting
  apply h.shrink (s := cmd.side.opSide)
  · intro price level hlevel
    rw [← matchOrder_side] at hlevel
    obtain ⟨hne, old, hold, hqueue⟩ := matchOrder_level h hlevel
    have hshape := h.level _ _ _ hold
    refine ⟨hne, ?_, ?_⟩
    · have hincreasing := List.pairwise_map.mpr hshape.increasing
      rw [hqueue]
      exact List.pairwise_map.mp
        (hincreasing.sublist (map_orderId_filterMap_sublist _ old.orders))
    · intro o ho
      rw [hqueue] at ho
      obtain ⟨o₀, ho₀, hafter⟩ := List.mem_filterMap.mp ho
      obtain ⟨_, rfl⟩ := afterFills_eq_some hafter
      exact hshape.placed o₀ ho₀
  · exact (h.nodup _).sublist hsub
  · exact hsub.subset
  · intro id price hid
    rw [← matchOrder_state_orders book cmd, horders, lookup_indexAfterFills] at hid
    cases hcompletes : completes (book.referenceFills cmd) id with
    | true =>
      rw [hcompletes] at hid
      cases hid
    | false =>
      rw [hcompletes] at hid
      refine ⟨hid, ?_⟩
      intro o ho hoid
      subst hoid
      rw [hresting]
      exact ⟨_, List.mem_filterMap.mpr ⟨o, ho, afterFills_of_not_completes hcompletes⟩, rfl, rfl⟩

end OrderBook

end VexCore
