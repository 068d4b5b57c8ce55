import VexCore.Framework.Keyed
import VexCore.Ledger.Reserves
import VexCore.Orderbook.Priority
import VexCore.Server.EventRuns

/-!
# What one command does to the floor

Every command that goes through matching and the events handler changes no order and reports
none, fills resting orders and perhaps rests a remainder, or takes one resting order out. Each
case says which order and trade events are published and what rests afterwards.
-/

namespace VexCore

open Framework OrderBook

/-- The order events of a log. -/
def orderEvents (log : List Output) : List OrderEvent :=
  log.filterMap fun
    | .order event => some event
    | _ => none

/-- The trade events of a log. -/
def tradeEvents (log : List Output) : List TradeEvent :=
  log.filterMap fun
    | .trade event => some event
    | _ => none

section Events

variable {log more : List Output}

@[simp] theorem orderEvents_nil : orderEvents [] = [] := rfl
@[simp] theorem tradeEvents_nil : tradeEvents [] = [] := rfl

@[simp] theorem orderEvents_append :
    orderEvents (log ++ more) = orderEvents log ++ orderEvents more := List.filterMap_append ..

@[simp] theorem tradeEvents_append :
    tradeEvents (log ++ more) = tradeEvents log ++ tradeEvents more := List.filterMap_append ..

@[simp] theorem orderEvents_order (event : OrderEvent) :
    orderEvents (.order event :: log) = event :: orderEvents log := rfl

@[simp] theorem tradeEvents_order (event : OrderEvent) :
    tradeEvents (.order event :: log) = tradeEvents log := rfl

theorem mem_orderEvents {event : OrderEvent} : event ∈ orderEvents log ↔ .order event ∈ log := by
  rw [orderEvents, List.mem_filterMap]
  refine ⟨?_, fun h => ⟨_, h, rfl⟩⟩
  rintro ⟨output, hmem, hsome⟩
  cases output <;> cases hsome
  exact hmem

theorem mem_tradeEvents {event : TradeEvent} : event ∈ tradeEvents log ↔ .trade event ∈ log := by
  rw [tradeEvents, List.mem_filterMap]
  refine ⟨?_, fun h => ⟨_, h, rfl⟩⟩
  rintro ⟨output, hmem, hsome⟩
  cases output <;> cases hsome
  exact hmem

theorem orderEvents_quiet (h : ∀ output ∈ log, output.quiet) : orderEvents log = [] := by
  rw [orderEvents, List.filterMap_eq_nil_iff]
  intro output hmem
  have hquiet := h output hmem
  cases output <;> first | rfl | exact False.elim hquiet

theorem tradeEvents_quiet (h : ∀ output ∈ log, output.quiet) : tradeEvents log = [] := by
  rw [tradeEvents, List.filterMap_eq_nil_iff]
  intro output hmem
  have hquiet := h output hmem
  cases output <;> first | rfl | exact False.elim hquiet

end Events

/-- The order event of a maker. -/
def makerEvent (cmd : OrderCommand) (f : Fill Order) : OrderEvent :=
  { orderId := f.source.orderId
    userId := f.source.userId
    price := f.source.price
    size := f.source.originalSize
    filledSize := wrappingSub 64 f.source.originalSize (f.source.size - f.amount)
    side := cmd.side.opSide
    timeInForce := .gtc
    status := if f.source.size - f.amount == 0 then .filled else .partiallyFilled
    timestamp := cmd.timestamp
    marketId := cmd.marketId }

/-- The trade event of a fill. -/
def tradeOf (cmd : OrderCommand) (f : Fill Order) : TradeEvent :=
  { makerUserId := f.source.userId
    takerUserId := cmd.userId
    marketId := cmd.marketId
    price := f.source.price
    size := f.amount
    makerOrderId := f.source.orderId
    takerOrderId := cmd.orderId
    takerSide := cmd.side
    timestamp := cmd.timestamp }

theorem events_publishFills (cmd : OrderCommand) {fills : List (Fill Order)}
    {events : List MatcherTradeEvent} (h : List.Forall₂ Rebalanced (fills.map fillEvent) events) :
    orderEvents (events.flatMap (publishFill cmd)) = fills.map (makerEvent cmd) ∧
      tradeEvents (events.flatMap (publishFill cmd)) = fills.map (tradeOf cmd) := by
  induction fills generalizing events with
  | nil =>
    cases h
    exact ⟨rfl, rfl⟩
  | cons f rest ih =>
    rw [List.map_cons] at h
    cases h with
    | cons hevent hrest =>
      obtain ⟨balance, rfl⟩ := hevent
      obtain ⟨horders, htrades⟩ := ih hrest
      rw [List.flatMap_cons, orderEvents_append, tradeEvents_append, horders, htrades]
      constructor
      · rfl
      · simp [publishFill, publishTradeEvent, publishBalanceEvent, balanceEvent,
          publishMakerOrderEvent, tradeEvents, tradeOf, fillEvent]

namespace OrderBook

variable {book : OrderBook} {cmd : OrderCommand} {s : Side} {o' : Order}

theorem mem_resting_matched (h : book.Shape) :
    o' ∈ ((book.matchOrder cmd).1.side s).resting ↔
      ∃ o ∈ (book.side s).resting, afterFills (book.referenceFills cmd) o = some o' := by
  refine ⟨resting_matchOrder h, ?_⟩
  rintro ⟨o, ho, hafter⟩
  by_cases hs : s = cmd.side.opSide
  · subst hs
    rw [matchOrder_resting h]
    exact List.mem_filterMap.mpr ⟨o, ho, hafter⟩
  · have hkept : afterFills (book.referenceFills cmd) o = some o := by
      apply afterFills_of_not_mem
      intro f hf heq
      exact h.disjoint_of_ne hs ho (referenceFills_source_mem hf) heq
    obtain rfl := Option.some.inj (hkept.symm.trans hafter)
    rw [matchOrder_side_ne hs]
    exact ho

theorem afterFills_nil (o : Order) : afterFills [] o = some o :=
  afterFills_of_not_mem fun f hf => by cases hf

theorem mem_resting_placed (h : book.Shape) (hstatus : cmd.status ≠ .rejected)
    (hpos : 0 < cmd.size) (cache : PriceCache) :
    o' ∈ ((book.placeOrder cmd cache).book.side s).resting ↔
      (∃ o ∈ (book.side s).resting, afterFills (book.executed cmd) o = some o') ∨
      (s = cmd.side ∧ o' = restingOrder cmd (book.unexecuted cmd) ∧ cmd.timeInForce = .gtc ∧
        0 < book.unexecuted cmd) := by
  by_cases hfok : cmd.timeInForce = .fok
  · have hbook := placeOrder_book hstatus book cache
    rw [placeByTimeInForce, hfok] at hbook
    cases hfill : book.canFillCompletely cmd with
    | false =>
      have hnone : book.executed cmd = [] := if_pos ⟨hfok, hfill⟩
      simp only [hfill, Bool.not_false, if_true] at hbook
      simp [hbook, hnone, hfok, afterFills_nil]
    | true =>
      have hmatched : book.executed cmd = book.referenceFills cmd :=
        executed_of_matched (by simp [hfill])
      simp only [hfill, Bool.not_true, Bool.false_eq_true, if_false] at hbook
      simp [hbook, hmatched, hfok, mem_resting_matched h]
  · have hmatched : book.executed cmd = book.referenceFills cmd :=
      executed_of_matched (by simp [hfok])
    have hremaining : (book.matchOrder cmd).2.2 = book.unexecuted cmd := by
      rw [matchOrder_remaining h, unexecuted, hmatched]
    rw [placeOrder_book_eq hstatus hfok hpos, hremaining, hmatched]
    by_cases hrests : cmd.timeInForce = .gtc ∧ 0 < book.unexecuted cmd
    · rw [if_pos hrests, mem_resting_addToBook, mem_resting_matched h]
      simp only [hrests, and_true]
      exact or_comm
    · rw [if_neg hrests, mem_resting_matched h]
      simp [hrests]

theorem placeOrder_not_cancelled (hstatus : cmd.status ≠ .rejected)
    (hgtc : cmd.timeInForce = .gtc) (cache : PriceCache) :
    (book.placeOrder cmd cache).cmd.status ≠ .cancelled := by
  obtain ⟨price, hcmd⟩ := placeOrder_cmd_eq hstatus book cache
  rw [hcmd, placeByTimeInForce, hgtc]
  simp only
  split
  · simp
  · split <;> simp

theorem gtc_of_placed (hstatus : cmd.status ≠ .rejected) {cache : PriceCache}
    (hplaced : (book.placeOrder cmd cache).cmd.status = .placed) : cmd.timeInForce = .gtc := by
  obtain ⟨price, hcmd⟩ := placeOrder_cmd_eq hstatus book cache
  rw [hcmd, placeByTimeInForce] at hplaced
  cases htif : cmd.timeInForce with
  | gtc => rfl
  | fok =>
    rw [htif] at hplaced
    simp only at hplaced
    split at hplaced
    · cases hplaced
    · simp only at hplaced
      split at hplaced <;> cases hplaced
  | ioc =>
    rw [htif] at hplaced
    simp only at hplaced
    split at hplaced
    · cases hplaced
    · split at hplaced <;> cases hplaced

theorem placeOrder_price (hstatus : cmd.status ≠ .rejected)
    (hlimit : ¬(cmd.price = 0 ∧ cmd.side = .ask)) (cache : PriceCache) :
    (book.placeOrder cmd cache).cmd.price = cmd.price := by
  obtain ⟨-, hside, hprice, -⟩ := placeByTimeInForce_fields book cmd
  have hkept : executionPrice (book.placeByTimeInForce cmd).2 = (book.placeByTimeInForce cmd).2 := by
    rw [executionPrice, if_neg]
    rwa [hside, hprice]
  rw [placeOrder, if_neg hstatus]
  show (executionPrice (book.placeByTimeInForce cmd).2).price = cmd.price
  rw [hkept, hprice]

theorem placement_executed (h : book.Shape) (hpositive : book.Positive)
    (hstatus : cmd.status ≠ .rejected) (hevents : cmd.events = []) (hpos : 0 < cmd.size)
    (cache : PriceCache) :
    PlacementOutcome book cmd (book.placeOrder cmd cache) (book.executed cmd) := by
  have hplaced := placeOrder_placed h hstatus hevents cache
  obtain ⟨fills, houtcome⟩ := placement_outcome h hpositive hstatus hevents hpos cache
  have hle := filled_executed_le book cmd
  have hfilled : filled fills = filled (book.executed cmd) := by
    have hsize := houtcome.size.symm.trans hplaced.size
    have hle' := houtcome.filled_le
    rw [unexecuted] at hsize
    omega
  have hmem {f : Fill Order} (hf : f ∈ book.executed cmd) : f ∈ book.referenceFills cmd :=
    mem_executed hf
  have hnone : filled (book.executed cmd) = 0 → book.executed cmd = [] := by
    intro hzero
    rcases executed_eq book cmd with heq | heq
    · exact heq
    · rw [heq] at hzero ⊢
      exact fills_eq_nil hpositive hzero
  refine ⟨?_, ?_, hle, hplaced.events, hplaced.size, ?_, ?_⟩
  · have hsub := (executed_sources book cmd).map Order.orderId
    rw [List.map_map] at hsub
    exact (h.nodup cmd.side.opSide).sublist hsub
  · intro f hf
    exact ⟨referenceFills_source_mem (hmem hf),
      amount_pos_of_mem_referenceFills hpositive (hmem hf), amount_le_of_mem_allocate (hmem hf)⟩
  · rw [← hfilled]
    refine houtcome.status.imp_left fun hplaced => ⟨hplaced.1, hnone ?_⟩
    rw [← hfilled, hplaced.2, filled_nil]
  · intro s o' ho'
    rcases (mem_resting_placed h hstatus hpos cache).mp ho' with hafter | ⟨hs, hnew, hgtc, hrest⟩
    · exact .inl hafter
    · have hlt : filled (book.executed cmd) < cmd.size := by
        rw [unexecuted] at hrest
        omega
      have hlive := @placeOrder_not_cancelled book _ hstatus hgtc cache
      refine .inr ⟨hs, hnew, hlt, ?_⟩
      rcases houtcome.status with ⟨hplaced, _⟩ | ⟨hpartly, _⟩ | ⟨_, hall⟩ | ⟨hcancelled, _⟩
      · exact .inl hplaced
      · exact .inr hpartly
      · omega
      · exact absurd hcancelled hlive

end OrderBook

namespace Floor

/-- An order rests in the book of a market. -/
def Rests (floor : Floor) (m : Nat) (s : Side) (o : Order) : Prop :=
  ∃ book, floor.router.orderBooks.lookup m = some book ∧ o ∈ (book.side s).resting

/-- A command that changes no order and reports none. -/
structure Passes (floor : Floor) (cmd settled : OrderCommand) : Prop where
  orders : orderEvents (publishEvents settled) = []
  trades : tradeEvents (publishEvents settled) = []
  rests : ∀ m s o, (floor.step cmd settled).Rests m s o ↔ floor.Rests m s o

/-- A placement that takes `fills` and leaves its remainder if it is good till cancelled. -/
structure Trades (floor : Floor) (cmd settled : OrderCommand) (fills : List (Fill Order)) : Prop where
  command : cmd.command = .placeOrder
  nodup : (fills.map fun f => f.source.orderId).Nodup
  makers : ∀ f ∈ fills, floor.Rests cmd.marketId cmd.side.opSide f.source ∧ 0 < f.amount ∧
    f.amount ≤ f.source.size
  prices : ∀ f ∈ fills, priceCheck cmd.side cmd.price f.source.price = true ∧
    f.source.userId ≠ cmd.userId
  filled_le : filled fills ≤ cmd.size
  status : (settled.status = .placed ∧ fills = [] ∧ cmd.timeInForce = .gtc) ∨
    (settled.status = .partiallyFilled ∧ 0 < filled fills ∧ filled fills < cmd.size) ∨
    (settled.status = .filled ∧ filled fills = cmd.size) ∨
    (settled.status = .cancelled ∧ filled fills < cmd.size ∧ cmd.timeInForce ≠ .gtc)
  same : SameCommand cmd settled
  userId : settled.userId = cmd.userId
  side : settled.side = cmd.side
  price : ¬(cmd.price = 0 ∧ cmd.side = .ask) → settled.price = cmd.price
  orders : orderEvents (publishEvents settled) =
    fills.map (makerEvent settled) ++ [takerEvent settled cmd.size (filled fills)]
  trades : tradeEvents (publishEvents settled) = fills.map (tradeOf settled)
  rests : ∀ m s o', (floor.step cmd settled).Rests m s o' ↔
    (∃ o, floor.Rests m s o ∧ afterFills fills o = some o') ∨
    (m = cmd.marketId ∧ s = cmd.side ∧ o' = restingOrder cmd (cmd.size - filled fills) ∧
      cmd.timeInForce = .gtc ∧ filled fills < cmd.size)

/-- The order event of a cancellation. -/
def cancelledEvent (cmd : OrderCommand) (o : Order) : OrderEvent :=
  { orderId := o.orderId
    userId := o.userId
    price := o.price
    size := o.originalSize
    filledSize := o.originalSize - o.size
    side := o.side
    timeInForce := cmd.timeInForce
    status := .cancelled
    timestamp := cmd.timestamp
    marketId := cmd.marketId }

/-- A cancellation that takes `o` out. -/
structure Cancels (floor : Floor) (cmd settled : OrderCommand) (s : Side) (o : Order) : Prop where
  command : cmd.command = .cancelOrder
  resting : floor.Rests cmd.marketId s o
  orderId : o.orderId = cmd.orderId
  orders : orderEvents (publishEvents settled) = [cancelledEvent cmd o]
  trades : tradeEvents (publishEvents settled) = []
  rests : ∀ m t o', (floor.step cmd settled).Rests m t o' ↔
    floor.Rests m t o' ∧ o'.orderId ≠ o.orderId

/-- Everything a step can do to orders. -/
inductive Happens (floor : Floor) (cmd settled : OrderCommand) : Prop
  | passes (h : floor.Passes cmd settled)
  | trades (fills : List (Fill Order)) (h : floor.Trades cmd settled fills)
  | cancels (s : Side) (o : Order) (h : floor.Cancels cmd settled s o)

section Happens

variable {floor : Floor} {cmd settled : OrderCommand}

theorem rests_insert {m : Nat} {after : OrderBook}
    (hbooks : (floor.step cmd settled).router.orderBooks =
      floor.router.orderBooks.insert m after) (m' : Nat) (s : Side) (o : Order) :
    (floor.step cmd settled).Rests m' s o ↔
      if m' = m then o ∈ (after.side s).resting else floor.Rests m' s o := by
  unfold Rests
  rw [hbooks]
  by_cases hm : m' = m
  · subst hm
    simp [Finmap.lookup_insert]
  · simp [Finmap.lookup_insert_of_ne _ hm, hm]

theorem Invariant.positive (h : floor.Invariant) {m : Nat} {book : OrderBook}
    (hbook : floor.router.orderBooks.lookup m = some book) : book.Positive :=
  fun s o ho => (h.resting _ _ hbook s o ho).1.positive

/-- Orders of one id are one order. -/
theorem Invariant.rests_unique (h : floor.Invariant) {m m' : Nat} {s s' : Side} {o o' : Order}
    (ho : floor.Rests m s o) (ho' : floor.Rests m' s' o') (hid : o.orderId = o'.orderId) :
    m = m' ∧ s = s' ∧ o = o' := by
  obtain ⟨book, hbook, hmem⟩ := ho
  obtain ⟨book', hbook', hmem'⟩ := ho'
  obtain rfl := h.market_eq hbook hbook' hmem hmem' hid
  obtain rfl : book = book' := Option.some.inj (hbook.symm.trans hbook')
  have hshape := h.shape _ _ hbook
  by_cases hs : s = s'
  · subst hs
    exact ⟨rfl, rfl, hshape.eq_of_orderId hmem hmem' hid⟩
  · exact absurd (hshape.disjoint_of_ne hs hmem hmem' hid.symm) not_false

theorem step_log (floor : Floor) (cmd settled : OrderCommand) :
    (floor.step cmd settled).log = floor.log ++ publishEvents settled := rfl

theorem Invariant.rests_side (h : floor.Invariant) {m : Nat} {s : Side} {o : Order}
    (ho : floor.Rests m s o) : o.side = s := by
  obtain ⟨book, hbook, hmem⟩ := ho
  obtain ⟨level, hlevel, hqueued⟩ := (h.shape _ _ hbook).level_of_resting hmem
  exact (((h.shape _ _ hbook).level _ _ _ hlevel).placed o hqueued).2.1

theorem Invariant.rests_accounted (h : floor.Invariant) {m : Nat} {s : Side} {o : Order}
    (ho : floor.Rests m s o) : Accounted floor.placed floor.log o := by
  obtain ⟨book, hbook, hmem⟩ := ho
  exact (h.resting _ _ hbook _ _ hmem).1

theorem Invariant.rests_lt (h : floor.Invariant) (arrives : floor.Arrives cmd)
    (hplace : cmd.command = .placeOrder) {m : Nat} {s : Side} {o : Order}
    (ho : floor.Rests m s o) : o.orderId < cmd.orderId := by
  obtain ⟨book, hbook, hmem⟩ := ho
  exact h.id_lt arrives hplace hbook hmem

theorem placement_kind {fills : List (Fill Order)} (hstatus : cmd.status ≠ .rejected)
    {book : OrderBook} {cache : PriceCache}
    (houtcome : PlacementOutcome book cmd (book.placeOrder cmd cache) fills) :
    let status := (book.placeOrder cmd cache).cmd.status
    (status = .placed ∧ fills = [] ∧ cmd.timeInForce = .gtc) ∨
      (status = .partiallyFilled ∧ 0 < filled fills ∧ filled fills < cmd.size) ∨
      (status = .filled ∧ filled fills = cmd.size) ∨
      (status = .cancelled ∧ filled fills < cmd.size ∧ cmd.timeInForce ≠ .gtc) := by
  intro status
  have hlive := @placeOrder_not_cancelled book _ hstatus
  rcases houtcome.status with ⟨heq, hnil⟩ | hpartly | hfilled | ⟨heq, hlt⟩
  · exact .inl ⟨heq, hnil, gtc_of_placed hstatus heq⟩
  · exact .inr (.inl hpartly)
  · exact .inr (.inr (.inl hfilled))
  · exact .inr (.inr (.inr ⟨heq, hlt, fun hgtc => hlive hgtc cache heq⟩))

theorem Invariant.rests_placed (h : floor.Invariant) (hstatus : cmd.status ≠ .rejected)
    (hpos : 0 < cmd.size) {book : OrderBook}
    (hbook : floor.router.orderBooks.lookup cmd.marketId = some book)
    (hrouter : (floor.step cmd settled).router.orderBooks =
      floor.router.orderBooks.insert cmd.marketId (book.placeOrder cmd floor.cache).book)
    (hmakers : ∀ f ∈ book.executed cmd, floor.Rests cmd.marketId cmd.side.opSide f.source)
    (m : Nat) (s : Side) (o' : Order) :
    (floor.step cmd settled).Rests m s o' ↔
      (∃ o, floor.Rests m s o ∧ afterFills (book.executed cmd) o = some o') ∨
      (m = cmd.marketId ∧ s = cmd.side ∧
        o' = restingOrder cmd (cmd.size - filled (book.executed cmd)) ∧
        cmd.timeInForce = .gtc ∧ filled (book.executed cmd) < cmd.size) := by
  rw [rests_insert hrouter]
  by_cases hm : m = cmd.marketId
  · subst hm
    rw [if_pos rfl, mem_resting_placed (h.shape _ _ hbook) hstatus hpos]
    have hrests : (∃ o, floor.Rests cmd.marketId s o ∧
        afterFills (book.executed cmd) o = some o') ↔
        ∃ o ∈ (book.side s).resting, afterFills (book.executed cmd) o = some o' := by
      simp [Rests, hbook]
    have hpositive : 0 < book.unexecuted cmd ↔ filled (book.executed cmd) < cmd.size :=
      Nat.sub_pos_iff_lt
    rw [hrests, ← hpositive]
    simp [unexecuted]
  · rw [if_neg hm]
    -- no fill is in another market's book
    have hkept {o : Order} (ho : floor.Rests m s o) :
        afterFills (book.executed cmd) o = some o := by
      apply afterFills_of_not_mem
      intro f hf heq
      exact hm (h.rests_unique ho (hmakers f hf) heq.symm).1
    constructor
    · exact fun ho => .inl ⟨o', ho, hkept ho⟩
    · rintro (⟨o, ho, hafter⟩ | ⟨hmarket, _⟩)
      · rw [hkept ho, Option.some.injEq] at hafter
        rwa [← hafter]
      · exact absurd hmarket hm

theorem Invariant.place_trades (h : floor.Invariant) (arrives : floor.Arrives cmd)
    (hplace : cmd.command = .placeOrder) (hstatus : cmd.status ≠ .rejected) {book : OrderBook}
    (hbook : floor.router.orderBooks.lookup cmd.marketId = some book)
    (hmatched : matchingHandler floor.router cmd floor.cache =
      (floor.router.orderBooks.insert cmd.marketId (book.placeOrder cmd floor.cache).book,
        (book.placeOrder cmd floor.cache).cmd, (book.placeOrder cmd floor.cache).cache))
    (settles : Settles (book.placeOrder cmd floor.cache).cmd settled) :
    floor.Trades cmd settled (book.executed cmd) := by
  have hshape := h.shape _ _ hbook
  have hpos := arrives.positive hplace
  have houtcome := placement_executed hshape (h.positive hbook) hstatus arrives.events hpos
    floor.cache
  have hplaced := placeOrder_placed hshape hstatus arrives.events floor.cache
  have hsame := (placeOrder_same book cmd floor.cache).trans settles.same
  have hfields := settles.fields
  have hstatusEq : settled.status = (book.placeOrder cmd floor.cache).cmd.status := by rw [hfields]
  have hkind := placement_kind hstatus houtcome
  rw [← hstatusEq] at hkind
  -- what is published
  have hevents := settles.events
  rw [houtcome.events] at hevents
  have hcalc := calcFilledSize_eq hevents
  have hsize : settled.size = cmd.size - filled (book.executed cmd) := by
    rw [hfields]
    exact houtcome.size
  have htotal : calcFilledSize settled.events + settled.size = cmd.size := by
    have hle := houtcome.filled_le
    omega
  have hquiet : (settled.status = .placed ∧ settled.events = []) ∨
      settled.status = .partiallyFilled ∨ settled.status = .filled ∨
      settled.status = .cancelled := by
    rcases hkind with ⟨heq, hnil, _⟩ | ⟨heq, _⟩ | ⟨heq, _⟩ | ⟨heq, _⟩
    · rw [hnil] at hevents
      exact .inl ⟨heq, List.forall₂_nil_left_iff.mp hevents⟩
    · exact .inr (.inl heq)
    · exact .inr (.inr (.inl heq))
    · exact .inr (.inr (.inr heq))
  obtain ⟨before, later, hbefore, hlater, houtputs⟩ :=
    placement_outputs (hsame.command.trans hplace) (by rw [htotal]; exact arrives.fits) hquiet
  rw [htotal, hcalc] at houtputs
  obtain ⟨horders, htrades⟩ := events_publishFills settled hevents
  have hrouter : (floor.step cmd settled).router.orderBooks =
      floor.router.orderBooks.insert cmd.marketId (book.placeOrder cmd floor.cache).book :=
    congrArg Prod.fst hmatched
  have hmakers (f : Fill Order) (hf : f ∈ book.executed cmd) :
      floor.Rests cmd.marketId cmd.side.opSide f.source := ⟨book, hbook, (houtcome.makers f hf).1⟩
  refine ⟨hplace, houtcome.nodup, fun f hf => ⟨hmakers f hf, (houtcome.makers f hf).2⟩,
    fun f hf => executed_maker hf, houtcome.filled_le, hkind, hsame, ?_, ?_, ?_, ?_, ?_,
    h.rests_placed hstatus hpos hbook hrouter hmakers⟩
  · rw [hfields]
    exact hplaced.userId
  · rw [hfields]
    exact hplaced.side
  · intro hlimit
    rw [hfields]
    exact placeOrder_price hstatus hlimit floor.cache
  · simp [houtputs, horders, orderEvents_quiet hbefore, orderEvents_quiet hlater]
  · simp [houtputs, htrades, tradeEvents_quiet hbefore, tradeEvents_quiet hlater]

/-- A step that publishes nothing about orders and keeps what rests. -/
theorem Passes.of_quiet
    (hquiet : ∀ output ∈ publishEvents settled, output.quiet)
    (hrests : ∀ m s o, (floor.step cmd settled).Rests m s o ↔ floor.Rests m s o) :
    floor.Passes cmd settled :=
  ⟨orderEvents_quiet hquiet, tradeEvents_quiet hquiet, hrests⟩

theorem missed_passes {book after : OrderBook}
    (hbook : floor.router.orderBooks.lookup cmd.marketId = some book)
    (hbooks : (floor.step cmd settled).router.orderBooks =
      floor.router.orderBooks.insert cmd.marketId after)
    (hsides : ∀ s, after.side s = book.side s) (hrejected : settled.status = .rejected) :
    floor.Passes cmd settled := by
  apply Passes.of_quiet (publishEvents_quiet (.inr (.inr (.inr hrejected))))
  intro m s o
  rw [rests_insert hbooks]
  by_cases hm : m = cmd.marketId
  · subst hm
    simp [Rests, hbook, hsides]
  · simp [hm]

theorem Invariant.found_cancels (h : floor.Invariant) (arrives : floor.Arrives cmd)
    (hcommand : cmd.command = .cancelOrder) {book : OrderBook}
    (hbook : floor.router.orderBooks.lookup cmd.marketId = some book) {t : Side}
    {level : PriceLevel} {order : Order}
    (hlevel : (book.side t).getLevel order.price = some level) (hmem : order ∈ level.orders)
    (hid : order.orderId = cmd.orderId)
    (hbooks : (floor.step cmd settled).router.orderBooks =
      floor.router.orderBooks.insert cmd.marketId (book.removeResting t level order))
    (settles : Settles ((book.removeResting t level order).recordSnapshot
      (PriceLevel.reportCancelled cmd order)) settled) : floor.Cancels cmd settled t order := by
  have hshape := h.shape _ _ hbook
  have horder : order ∈ (book.side t).resting := BookSide.mem_resting.mpr ⟨_, _, hlevel, hmem⟩
  have haccount := (h.resting _ _ hbook t order horder).1
  have hfields := settles.fields
  have hnoEvents : settled.events = [] := by
    have hevents := settles.events
    change List.Forall₂ Rebalanced cmd.events _ at hevents
    rw [arrives.events] at hevents
    exact List.forall₂_nil_left_iff.mp hevents
  obtain ⟨later, hlater, houtputs⟩ := @cancellation_outputs settled
    (by rw [hfields]; exact hcommand) (by rw [hfields]; rfl) hnoEvents
  have hevent : takerEvent settled settled.originalSize
      (wrappingSub 64 settled.originalSize settled.size) = cancelledEvent cmd order := by
    have hsum := haccount.traded
    have hdifference : wrappingSub 64 order.originalSize order.size =
        order.originalSize - order.size := wrappingSub_of_le (by omega) haccount.fits
    rw [hfields, cancelledEvent, hid, ← hdifference]
    rfl
  rw [hevent] at houtputs
  refine ⟨hcommand, ⟨book, hbook, horder⟩, hid, ?_, ?_, ?_⟩
  · simp [houtputs, orderEvents_quiet hlater]
  · simp [houtputs, tradeEvents_quiet hlater]
  · intro m s o
    rw [rests_insert hbooks]
    by_cases hm : m = cmd.marketId
    · subst hm
      rw [if_pos rfl]
      have hrests : floor.Rests cmd.marketId s o ↔ o ∈ (book.side s).resting := by
        simp [Rests, hbook]
      rw [hrests]
      refine ⟨fun ho => mem_removeResting hshape hlevel hmem ho, fun ⟨ho, hne⟩ => ?_⟩
      by_cases hs : s = t
      · subst hs
        rcases List.mem_cons.mp ((removeResting_perm hshape hlevel hmem).mem_iff.mp ho) with
          rfl | ho
        · exact absurd rfl hne
        · exact ho
      · rwa [side_removeResting_ne _ _ hs]
    · rw [if_neg hm]
      refine ⟨fun ho => ⟨ho, fun heq => ?_⟩, And.left⟩
      exact hm (h.rests_unique ho ⟨book, hbook, horder⟩ heq).1

theorem pass_passes (arrives : floor.Arrives cmd)
    (hbooks : (matchingHandler floor.router cmd floor.cache).1 = floor.router.orderBooks)
    (hmatched : (matchingHandler floor.router cmd floor.cache).2.1 = cmd ∨
      (matchingHandler floor.router cmd floor.cache).2.1 = { cmd with status := .rejected })
    (settles : Settles (matchingHandler floor.router cmd floor.cache).2.1 settled) :
    floor.Passes cmd settled := by
  have hfields := settles.fields
  have hcommand : settled.command = cmd.command :=
    settles.same.command.trans (matchingHandler_same _ _ _).command
  have hstatus : settled.status = cmd.status ∨ settled.status = .rejected := by
    rw [hfields]
    rcases hmatched with heq | heq <;> simp [heq]
  have hkind : settled.command = .depositFunds ∨ settled.command = .withdrawFunds ∨
      settled.status = .processing ∨ settled.status = .rejected := by
    rw [hcommand]
    cases hcases : cmd.command with
    | depositFunds => simp
    | withdrawFunds => simp
    | placeOrder =>
      have hundecided := arrives.status (.inl hcases)
      rcases hstatus with heq | heq <;> simp [heq, hundecided]
    | cancelOrder =>
      have hundecided := arrives.status (.inr hcases)
      rcases hstatus with heq | heq <;> simp [heq, hundecided]
  apply Passes.of_quiet (publishEvents_quiet hkind)
  intro m s o
  show (∃ book, (matchingHandler floor.router cmd floor.cache).1.lookup m = some book ∧ _) ↔ _
  rw [hbooks]
  rfl

/-- What any command does. -/
theorem Invariant.happens (h : floor.Invariant) (arrives : floor.Arrives cmd)
    (settles : Settles (matchingHandler floor.router cmd floor.cache).2.1 settled) :
    floor.Happens cmd settled := by
  rcases matchingHandler_cases floor.router cmd floor.cache with ⟨hbooks, _, hmatched⟩ |
    ⟨book, hbook, hstatus, ⟨hcommand, hmatched⟩ | ⟨hcommand, hmatched⟩⟩
  · exact .passes (pass_passes arrives hbooks (hmatched.imp_right fun hrejected =>
      hrejected.2.2.2) settles)
  · rw [hmatched] at settles
    exact .trades _ (h.place_trades arrives hcommand hstatus hbook hmatched settles)
  · rw [hmatched, cancelOrder, if_neg hstatus] at settles
    have hbooks := congrArg Prod.fst hmatched
    rw [cancelOrder, if_neg hstatus] at hbooks
    have hfields := settles.fields
    rcases cancelByIndex_cases (h.shape _ _ hbook) cmd with ⟨_, heq⟩ | ⟨_, heq⟩ |
      ⟨t, level, order, hlevel, hmem, hid, _, heq⟩
    · rw [heq] at hbooks hfields
      exact .passes (missed_passes hbook hbooks (fun _ => rfl) (by rw [hfields]))
    · rw [heq] at hbooks hfields
      exact .passes (missed_passes hbook hbooks (fun s => side_setOrders book _ s)
        (by rw [hfields]; rfl))
    · rw [heq] at hbooks settles
      exact .cancels t order (h.found_cancels arrives hcommand hbook hlevel hmem hid hbooks settles)

end Happens

end Floor

end VexCore
