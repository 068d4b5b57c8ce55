import VexCore.Stream.Serial
import VexCore.Stream.Steps

/-!
# What a reader of the order events knows

A reader keeps the last order event of each id and takes an order to rest while that event says
placed, or partially filled and good till cancelled. Nothing else rests, and everything that the
reader knows about it is so.
-/

namespace VexCore

open Framework OrderBook

/-- A resting order as a reader of the order events knows it. -/
structure LiveOrder where
  marketId : Nat
  orderId : Nat
  userId : Nat
  side : Side
  price : Nat
  size : Nat
  filledSize : Nat
deriving DecidableEq, Repr

def Order.known (marketId : Nat) (o : Order) : LiveOrder :=
  { marketId
    orderId := o.orderId
    userId := o.userId
    side := o.side
    price := o.price
    size := o.originalSize
    filledSize := o.originalSize - o.size }

/-- An event after which its order rests. -/
def OrderEvent.Live (event : OrderEvent) : Prop :=
  event.status = .placed ∨ (event.status = .partiallyFilled ∧ event.timeInForce = .gtc)

instance (event : OrderEvent) : Decidable event.Live := inferInstanceAs (Decidable (_ ∨ _))

def OrderEvent.known (event : OrderEvent) : LiveOrder :=
  { marketId := event.marketId
    orderId := event.orderId
    userId := event.userId
    side := event.side
    price := event.price
    size := event.size
    filledSize := event.filledSize }

/-- The first event of an order: it rests untouched, or tells how far its placement came. -/
def OrderEvent.Opens (event : OrderEvent) : Prop :=
  match event.status with
  | .placed => event.timeInForce = .gtc ∧ event.filledSize = 0
  | .partiallyFilled => 0 < event.filledSize ∧ event.filledSize < event.size
  | .filled => event.filledSize = event.size
  | .cancelled => event.timeInForce ≠ .gtc ∧ event.filledSize < event.size
  | _ => False

/-- A later event of an order: until then it rested, and now more of it is filled, or what is left
of it cancelled. -/
structure OrderEvent.Succeeds (event last : OrderEvent) : Prop where
  live : last.Live
  same : { event.known with filledSize := last.filledSize } = last.known
  progress : match event.status with
    | .partiallyFilled => last.filledSize < event.filledSize ∧ event.filledSize < event.size
    | .filled => last.filledSize < event.filledSize ∧ event.filledSize = event.size
    | .cancelled => event.filledSize = last.filledSize
    | _ => False

/-- How an event continues the history of its order. -/
def OrderEvent.Continues (history : List OrderEvent) (event : OrderEvent) : Prop :=
  match history.getLast? with
  | none => event.Opens
  | some last => event.Succeeds last

/-- The order that a reader of the log takes to rest under an id. -/
def liveOrder (orderId : Nat) (log : List Output) : Option LiveOrder :=
  (currentOf OrderEvent.orderId orderId (orderEvents log)).bind fun event =>
    if event.Live then some event.known else none

section Reader

variable {log more : List Output} {id : Nat} {known : LiveOrder}

theorem liveOrder_eq_some : liveOrder id log = some known ↔
    ∃ event, currentOf OrderEvent.orderId id (orderEvents log) = some event ∧ event.Live ∧
      event.known = known := by
  simp [liveOrder, Option.bind_eq_some_iff]

theorem liveOrder_append_of_mem
    (hnodup : ((orderEvents more).map OrderEvent.orderId).Nodup) {event : OrderEvent}
    (hmem : event ∈ orderEvents more) :
    liveOrder event.orderId (log ++ more) = if event.Live then some event.known else none := by
  simp [liveOrder, currentOf_append_of_mem hnodup hmem]

theorem liveOrder_append_of_not_mem (h : ∀ event ∈ orderEvents more, event.orderId ≠ id) :
    liveOrder id (log ++ more) = liveOrder id log := by
  simp [liveOrder, currentOf_append_of_not_mem h]

end Reader

namespace Floor

/-- No market sell is good till cancelled, as `place_order` documents. -/
def Limited (floor : Floor) : Prop :=
  ∀ cmd ∈ floor.placed, cmd.timeInForce = .gtc → ¬(cmd.price = 0 ∧ cmd.side = .ask)

/-- The reader knows the resting orders. -/
def Tracked (floor : Floor) : Prop :=
  ∀ id known, liveOrder id floor.log = some known ↔
    ∃ m s o, floor.Rests m s o ∧ o.orderId = id ∧ o.known m = known

section Step

variable {floor : Floor} {cmd settled : OrderCommand} {fills : List (Fill Order)}

theorem Trades.orders_nodup (t : floor.Trades cmd settled fills) (h : floor.Invariant)
    (arrives : floor.Arrives cmd) :
    ((orderEvents (publishEvents settled)).map OrderEvent.orderId).Nodup := by
  rw [t.orders, List.map_append, List.map_map]
  refine List.nodup_append.mpr ⟨t.nodup, List.nodup_singleton _, ?_⟩
  intro id hid other hother
  obtain ⟨f, hf, rfl⟩ := List.mem_map.mp hid
  rw [List.map_singleton, List.mem_singleton] at hother
  rw [hother]
  exact Nat.ne_of_lt ((h.rests_lt arrives t.command (t.makers f hf).1).trans_eq
    t.same.orderId.symm)

theorem Trades.afterFills_source (t : floor.Trades cmd settled fills) {f : Fill Order}
    (hf : f ∈ fills) : afterFills fills f.source =
      if f.source.size - f.amount = 0 then none
      else some { f.source with size := f.source.size - f.amount } := by
  have hcompletes : completes fills f.source.orderId = true ↔ f.source.size - f.amount = 0 := by
    simp only [completes, List.any_eq_true, Bool.and_eq_true, beq_iff_eq]
    constructor
    · rintro ⟨g, hg, hid, hzero⟩
      rwa [List.inj_on_of_nodup_map t.nodup hg hf hid] at hzero
    · exact fun hzero => ⟨f, hf, rfl, hzero⟩
  rw [afterFills, taken_of_mem t.nodup hf]
  simp [hcompletes]

theorem Trades.makerEvent_live (t : floor.Trades cmd settled fills) (h : floor.Invariant)
    {f : Fill Order} (hf : f ∈ fills) :
    (if (makerEvent settled f).Live then some (makerEvent settled f).known else none) =
      (afterFills fills f.source).map (Order.known cmd.marketId) := by
  have haccount := h.rests_accounted (t.makers f hf).1
  have hsum := haccount.traded
  have hsize : wrappingSub 64 f.source.originalSize (f.source.size - f.amount) =
      f.source.originalSize - (f.source.size - f.amount) :=
    wrappingSub_of_le (by omega) haccount.fits
  rw [t.afterFills_source hf]
  by_cases hzero : f.source.size - f.amount = 0
  · simp [OrderEvent.Live, makerEvent, hzero]
  · simp [OrderEvent.Live, OrderEvent.known, Order.known, makerEvent, hzero, hsize, t.side,
      t.same.marketId, h.rests_side (t.makers f hf).1]

theorem Trades.takerEvent_live (t : floor.Trades cmd settled fills) 
    (hlimit : cmd.timeInForce = .gtc → ¬(cmd.price = 0 ∧ cmd.side = .ask)) (hpos : 0 < cmd.size) :
    (if (takerEvent settled cmd.size (filled fills)).Live then
        some (takerEvent settled cmd.size (filled fills)).known else none) =
      if cmd.timeInForce = .gtc ∧ filled fills < cmd.size then
        some ((restingOrder cmd (cmd.size - filled fills)).known cmd.marketId) else none := by
  have hlive : (takerEvent settled cmd.size (filled fills)).Live ↔
      cmd.timeInForce = .gtc ∧ filled fills < cmd.size := by
    have hzero : filled ([] : List (Fill Order)) = 0 := rfl
    simp only [OrderEvent.Live, takerEvent, t.same.timeInForce]
    rcases t.status with ⟨heq, rfl, hgtc⟩ | ⟨heq, _, hlt⟩ | ⟨heq, hall⟩ | ⟨heq, hlt, hgtc⟩
    · simp [heq, hgtc, hzero, hpos]
    · simp [heq, hlt]
    · simp [heq, hall]
    · simp [heq, hgtc]
  by_cases hrests : cmd.timeInForce = .gtc ∧ filled fills < cmd.size
  · have hle := t.filled_le
    rw [if_pos hrests, if_pos (hlive.mpr hrests)]
    simp [OrderEvent.known, takerEvent, Order.known, restingOrder, t.same.orderId, t.same.marketId,
      t.userId, t.side, t.price (hlimit hrests.1), Nat.sub_sub_self hle]
  · rw [if_neg hrests, if_neg fun h => hrests (hlive.mp h)]

theorem Trades.rests_taker (t : floor.Trades cmd settled fills) (h : floor.Invariant)
    (arrives : floor.Arrives cmd) {known : LiveOrder} :
    (∃ m s o, (floor.step cmd settled).Rests m s o ∧ o.orderId = cmd.orderId ∧
        o.known m = known) ↔
      (cmd.timeInForce = .gtc ∧ filled fills < cmd.size) ∧
        (restingOrder cmd (cmd.size - filled fills)).known cmd.marketId = known := by
  simp only [t.rests]
  constructor
  · rintro ⟨m, s, o', ⟨o, ho, hafter⟩ | ⟨rfl, rfl, rfl, hrests⟩, hid, hknown⟩
    · have hlt := h.rests_lt arrives t.command ho
      rw [(afterFills_eq_some hafter).2] at hid
      exact absurd hid (Nat.ne_of_lt hlt)
    · exact ⟨hrests, hknown⟩
  · rintro ⟨hrests, hknown⟩
    exact ⟨_, _, _, .inr ⟨rfl, rfl, rfl, hrests⟩, rfl, hknown⟩

theorem Trades.rests_other (t : floor.Trades cmd settled fills) {id : Nat}
    (hid : id ≠ cmd.orderId) {known : LiveOrder} :
    (∃ m s o, (floor.step cmd settled).Rests m s o ∧ o.orderId = id ∧ o.known m = known) ↔
      ∃ m s o, floor.Rests m s o ∧ o.orderId = id ∧
        (afterFills fills o).map (Order.known m) = some known := by
  simp only [t.rests, Option.map_eq_some_iff]
  constructor
  · rintro ⟨m, s, o', ⟨o, ho, hafter⟩ | ⟨_, _, rfl, _⟩, rfl, hknown⟩
    · refine ⟨m, s, o, ho, ?_, o', hafter, hknown⟩
      rw [(afterFills_eq_some hafter).2]
    · exact absurd rfl hid
  · rintro ⟨m, s, o, ho, rfl, o', hafter, hknown⟩
    refine ⟨m, s, o', .inl ⟨o, ho, hafter⟩, ?_, hknown⟩
    rw [(afterFills_eq_some hafter).2]

theorem Tracked.trades (tracked : floor.Tracked) (h : floor.Invariant)
    (arrives : floor.Arrives cmd) (t : floor.Trades cmd settled fills)
    (hlimit : cmd.timeInForce = .gtc → ¬(cmd.price = 0 ∧ cmd.side = .ask)) :
    (floor.step cmd settled).Tracked := by
  have hnodup := t.orders_nodup h arrives
  intro id known
  by_cases htaker : id = cmd.orderId
  · have hmem : takerEvent settled cmd.size (filled fills) ∈
        orderEvents (publishEvents settled) := by simp [t.orders]
    have hread := @liveOrder_append_of_mem floor.log _ hnodup _ hmem
    rw [t.takerEvent_live hlimit (arrives.positive t.command)] at hread
    rw [htaker, t.rests_taker h arrives, step_log, ← t.same.orderId]
    exact (Eq.congr_left hread).trans (by simp)
  · rw [t.rests_other htaker]
    by_cases hmaker : ∃ f ∈ fills, f.source.orderId = id
    · obtain ⟨f, hf, rfl⟩ := hmaker
      have hmem : makerEvent settled f ∈ orderEvents (publishEvents settled) := by
        rw [t.orders]
        exact List.mem_append_left _ (List.mem_map_of_mem hf)
      have hread := @liveOrder_append_of_mem floor.log _ hnodup _ hmem
      rw [t.makerEvent_live h hf] at hread
      refine (Eq.congr_left hread).trans ⟨?_, ?_⟩
      · exact fun hknown => ⟨_, _, _, (t.makers f hf).1, rfl, hknown⟩
      · rintro ⟨m, s, o, ho, hid, hknown⟩
        obtain ⟨rfl, -, rfl⟩ := h.rests_unique ho (t.makers f hf).1 hid
        exact hknown
    · -- no event of the batch is about this id
      have hother : ∀ event ∈ orderEvents (publishEvents settled),
          event.orderId ≠ id := by
        rw [t.orders]
        intro event hevent heq
        rcases List.mem_append.mp hevent with hevent | hevent
        · obtain ⟨f, hf, rfl⟩ := List.mem_map.mp hevent
          exact hmaker ⟨f, hf, heq⟩
        · rw [List.mem_singleton.mp hevent] at heq
          exact htaker (heq.symm.trans t.same.orderId)
      rw [step_log, liveOrder_append_of_not_mem hother, tracked]
      have hkept {o : Order} (hid : o.orderId = id) : afterFills fills o = some o :=
        afterFills_of_not_mem fun f hf heq => hmaker ⟨f, hf, heq.trans hid⟩
      constructor
      · rintro ⟨m, s, o, ho, hid, hknown⟩
        exact ⟨m, s, o, ho, hid, by simp [hkept hid, hknown]⟩
      · rintro ⟨m, s, o, ho, hid, hknown⟩
        exact ⟨m, s, o, ho, hid, by simpa [hkept hid] using hknown⟩

theorem Tracked.cancels (tracked : floor.Tracked) {s : Side} {o : Order}
    (c : floor.Cancels cmd settled s o) : (floor.step cmd settled).Tracked := by
  intro id known
  simp only [step_log, c.rests]
  by_cases hid : id = o.orderId
  · have hmem : cancelledEvent cmd o ∈ orderEvents (publishEvents settled) := by
      simp [c.orders]
    have hread := @liveOrder_append_of_mem floor.log _ (by simp [c.orders]) _ hmem
    have hdead : ¬(cancelledEvent cmd o).Live := by simp [OrderEvent.Live, cancelledEvent]
    rw [if_neg hdead] at hread
    rw [hid]
    refine (Eq.congr_left hread).trans (iff_of_false (Option.some_ne_none known).symm ?_)
    rintro ⟨m, t, o', ⟨_, hne⟩, heq, _⟩
    exact hne heq
  · have hother : ∀ event ∈ orderEvents (publishEvents settled),
        event.orderId ≠ id := by
      rw [c.orders]
      intro event hevent heq
      rw [List.mem_singleton.mp hevent] at heq
      exact hid heq.symm
    rw [liveOrder_append_of_not_mem hother, tracked]
    constructor
    · rintro ⟨m, t, o', ho', rfl, hknown⟩
      exact ⟨m, t, o', ⟨ho', hid⟩, rfl, hknown⟩
    · rintro ⟨m, t, o', ⟨ho', _⟩, hrest⟩
      exact ⟨m, t, o', ho', hrest⟩

theorem Tracked.passes (tracked : floor.Tracked) (p : floor.Passes cmd settled) :
    (floor.step cmd settled).Tracked := by
  intro id known
  rw [step_log, liveOrder_append_of_not_mem (by simp [p.orders]), tracked]
  simp only [p.rests]

/-- Every order goes through its states. -/
def Orderly (floor : Floor) : Prop :=
  EachHistory OrderEvent.orderId OrderEvent.Continues (orderEvents floor.log)

theorem Invariant.history_nil (h : floor.Invariant) (arrives : floor.Arrives cmd)
    (hplace : cmd.command = .placeOrder) :
    historyOf OrderEvent.orderId cmd.orderId (orderEvents floor.log) = [] := by
  apply historyOf_of_not_mem
  intro event hevent heq
  obtain ⟨_, hagrees⟩ := h.lawful.of_mem (mem_orderEvents.mp hevent)
  obtain ⟨earlier, hearlier, hid, _⟩ := hagrees.submitted
  exact Nat.ne_of_lt (arrives.increasing hplace earlier hearlier) (hid.trans heq)

/-- The last event about a resting order. -/
theorem Tracked.last (tracked : floor.Tracked) {m : Nat} {s : Side} {o : Order}
    (ho : floor.Rests m s o) :
    ∃ last, (historyOf OrderEvent.orderId o.orderId (orderEvents floor.log)).getLast? = some last ∧
      last.Live ∧ last.known = o.known m :=
  liveOrder_eq_some.mp ((tracked _ _).mpr ⟨m, s, o, ho, rfl, rfl⟩)

theorem Orderly.trades (orderly : floor.Orderly) (tracked : floor.Tracked) (h : floor.Invariant)
    (arrives : floor.Arrives cmd) (t : floor.Trades cmd settled fills) :
    (floor.step cmd settled).Orderly := by
  unfold Orderly
  rw [step_log, orderEvents_append]
  apply orderly.append (t.orders_nodup h arrives)
  intro event hevent
  rw [t.orders] at hevent
  rcases List.mem_append.mp hevent with hevent | hevent
  · obtain ⟨f, hf, rfl⟩ := List.mem_map.mp hevent
    obtain ⟨hrests, hpos, hle⟩ := t.makers f hf
    obtain ⟨last, hlast, hlive, hknown⟩ := tracked.last hrests
    have haccount := h.rests_accounted hrests
    have hsum := haccount.traded
    have hsize : wrappingSub 64 f.source.originalSize (f.source.size - f.amount) =
        f.source.originalSize - (f.source.size - f.amount) :=
      wrappingSub_of_le (by omega) haccount.fits
    have hfilled : last.filledSize = f.source.originalSize - f.source.size :=
      congrArg LiveOrder.filledSize hknown
    unfold OrderEvent.Continues
    rw [show (makerEvent settled f).orderId = f.source.orderId from rfl, hlast]
    refine ⟨hlive, ?_, ?_⟩
    · rw [hknown, hfilled]
      simp [OrderEvent.known, Order.known, makerEvent, t.side, t.same.marketId,
        h.rests_side hrests]
    · by_cases hzero : f.source.size - f.amount = 0
      · rw [hzero] at hsize
        simp only [makerEvent, hzero, beq_self_eq_true, if_true, hsize, hfilled]
        omega
      · simp only [makerEvent, beq_iff_eq, hzero, if_false, hsize, hfilled]
        omega
  · rw [List.mem_singleton.mp hevent]
    unfold OrderEvent.Continues
    rw [show (takerEvent settled cmd.size (filled fills)).orderId = cmd.orderId from
      t.same.orderId, h.history_nil arrives t.command]
    show OrderEvent.Opens _
    unfold OrderEvent.Opens
    have hzero : filled ([] : List (Fill Order)) = 0 := rfl
    rcases t.status with ⟨heq, rfl, hgtc⟩ | ⟨heq, hrange⟩ | ⟨heq, hall⟩ | ⟨heq, hlt, hgtc⟩
    · simp [takerEvent, heq, t.same.timeInForce, hgtc, hzero]
    · simpa [takerEvent, heq] using hrange
    · simpa [takerEvent, heq] using hall
    · simp [takerEvent, heq, t.same.timeInForce, hgtc, hlt]

theorem Orderly.cancels (orderly : floor.Orderly) (tracked : floor.Tracked) {s : Side} {o : Order}
    (c : floor.Cancels cmd settled s o) : (floor.step cmd settled).Orderly := by
  unfold Orderly
  rw [step_log, orderEvents_append]
  apply orderly.append (by simp [c.orders])
  intro event hevent
  rw [c.orders, List.mem_singleton] at hevent
  obtain ⟨last, hlast, hlive, hknown⟩ := tracked.last c.resting
  have hfilled : last.filledSize = o.originalSize - o.size :=
    congrArg LiveOrder.filledSize hknown
  rw [hevent]
  unfold OrderEvent.Continues
  rw [show (cancelledEvent cmd o).orderId = o.orderId from rfl, hlast]
  refine ⟨hlive, ?_, hfilled.symm⟩
  rw [hknown, hfilled]
  rfl

theorem Orderly.passes (orderly : floor.Orderly) (p : floor.Passes cmd settled) :
    (floor.step cmd settled).Orderly := by
  unfold Orderly
  rwa [step_log, orderEvents_append, p.orders, List.append_nil]

end Step

theorem Limited.of_step {floor : Floor} {cmd settled : OrderCommand}
    (limited : (floor.step cmd settled).Limited) : floor.Limited :=
  fun earlier hearlier => limited earlier (placed_subset_step floor cmd settled hearlier)

theorem Run.tracked {floor : Floor} (run : Run floor) (limited : floor.Limited) :
    floor.Tracked ∧ floor.Orderly := by
  induction run with
  | start router cache opened =>
    refine ⟨fun id known => iff_of_false (Option.some_ne_none known).symm ?_, .nil⟩
    rintro ⟨m, s, o, ⟨book, hbook, ho⟩, _⟩
    rw [opened m book hbook] at ho
    cases s <;> cases ho
  | command cmd settled run arrives settles ih =>
    obtain ⟨tracked, orderly⟩ := ih limited.of_step
    have h := run.invariant
    cases h.happens arrives settles with
    | passes p => exact ⟨tracked.passes p, orderly.passes p⟩
    | cancels s o c => exact ⟨tracked.cancels c, orderly.cancels tracked c⟩
    | trades fills t =>
      have hlimit : cmd.timeInForce = .gtc → ¬(cmd.price = 0 ∧ cmd.side = .ask) := by
        apply limited cmd
        rw [placed_step_place _ t.command]
        exact List.mem_append_right _ (List.mem_singleton_self cmd)
      exact ⟨tracked.trades h arrives t hlimit, orderly.trades tracked h arrives t⟩

end Floor

namespace Engine

variable {config : Config} {s : State}

/-- No market sell of a run is good till cancelled, as `place_order` documents. -/
def Limited (s : State) : Prop :=
  ∀ n < s.published, (s.slots n).ingested.command = .placeOrder →
    (s.slots n).ingested.timeInForce = .gtc →
      ¬((s.slots n).ingested.price = 0 ∧ (s.slots n).ingested.side = .ask)

instance (s : State) : Decidable (Limited s) :=
  inferInstanceAs (Decidable (∀ n < s.published, _ → _ → ¬_))

theorem Floors.limited {arrived : Nat → OrderCommand} (h : Floors config arrived s)
    (limited : Limited s) {n : Nat} (hn : n ≤ s.published) :
    (floorAt config arrived (fun i => (s.slots i).cmd) n).Limited := by
  intro cmd hcmd hgtc hmarket
  obtain ⟨i, hi, rfl, hplace⟩ := mem_floorAt_placed.mp hcmd
  have hadmits := h.admitted i (hi.trans_le hn)
  rw [hadmits.fields] at hplace hgtc
  have hside : (s.slots i).ingested.side = .ask := by
    have hask := hmarket.2
    rwa [hadmits.fields] at hask
  have hprice := hadmits.price fun hbid => by simp [hbid.1] at hside
  exact limited i (hi.trans_le hn) hplace hgtc ⟨hprice.symm.trans hmarket.1, hside⟩

theorem Floors.tracked {arrived : Nat → OrderCommand} (h : Floors config arrived s)
    (limited : Limited s) :
    (floorAt config arrived (fun i => (s.slots i).cmd) (s.seq .events)).Tracked ∧
      (floorAt config arrived (fun i => (s.slots i).cmd) (s.seq .events)).Orderly :=
  (h.run _ h.passed).tracked (h.limited limited h.ordered)

/-- Where the shard of a market is not ahead of the events handler, the emitted order events
tell exactly which orders rest in that market, and everything about them. -/
theorem order_events_rebuild_books {guard : Handler → State → Prop}
    (run : Reaches config guard false s) (increase : ∀ h s, guard h s → IdsIncrease h s)
    (sized : Sized s) (limited : Limited s) {m : Nat}
    (caught : s.seq (.matching (marketShard m)) = s.seq .events) (id : Nat) (known : LiveOrder)
    (hm : known.marketId = m) :
    liveOrder id (s.shared.emitted.map Prod.snd) = some known ↔
      ∃ book, (s.shared.orderBooks (marketShard m)).lookup m = some book ∧
        ∃ side, ∃ o ∈ (book.side side).resting, o.orderId = id ∧ o.known m = known := by
  obtain ⟨arrived, h⟩ := run.floors increase sized
  rw [h.log, h.books, caught, (h.tracked limited).1 id known]
  constructor
  · rintro ⟨m', side, o, ⟨book, hbook, ho⟩, hid, hknown⟩
    obtain rfl : m' = m := (congrArg LiveOrder.marketId hknown).trans hm
    exact ⟨book, hbook, side, o, ho, hid, hknown⟩
  · rintro ⟨book, hbook, side, o, ho, hid, hknown⟩
    exact ⟨m, side, o, ⟨book, hbook, ho⟩, hid, hknown⟩

/-- After the session user 3's bid rests. -/
theorem order_events_rebuild_books_session :
    liveOrder 5 (session.shared.emitted.map Prod.snd) = some ⟨1, 5, 3, .bid, 2, 7, 0⟩ ↔
      ∃ book, (session.shared.orderBooks (marketShard 1)).lookup 1 = some book ∧
        ∃ side, ∃ o ∈ (book.side side).resting, o.orderId = 5 ∧
          o.known 1 = ⟨1, 5, 3, .bid, 2, 7, 0⟩ :=
  order_events_rebuild_books session_reaches (fun _ _ h => h) session_sized (by decide +kernel)
    (by decide +kernel) 5 ⟨1, 5, 3, .bid, 2, 7, 0⟩ rfl

/-- In the emitted events every order goes through its states: it is opened once, and until it
is filled or cancelled each event fills more of it. -/
theorem order_events_are_orderly {guard : Handler → State → Prop}
    (run : Reaches config guard false s) (increase : ∀ h s, guard h s → IdsIncrease h s)
    (sized : Sized s) (limited : Limited s) :
    EachHistory OrderEvent.orderId OrderEvent.Continues
      (orderEvents (s.shared.emitted.map Prod.snd)) := by
  obtain ⟨arrived, h⟩ := run.floors increase sized
  rw [h.log]
  exact (h.tracked limited).2

theorem order_events_are_orderly_session :
    EachHistory OrderEvent.orderId OrderEvent.Continues
      (orderEvents (session.shared.emitted.map Prod.snd)) :=
  order_events_are_orderly session_reaches (fun _ _ h => h) session_sized (by decide +kernel)

end Engine

end VexCore
