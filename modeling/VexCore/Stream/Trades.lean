import VexCore.Stream.Serial
import VexCore.Stream.Steps

/-!
# Trades and the orders they are between

Every emitted trade is between two submissions that allow it, and no submission trades more
than its size.
-/

namespace VexCore

open Framework OrderBook

/-- A resting order is left of a submission. -/
structure LeftOf (cmd : OrderCommand) (m : Nat) (s : Side) (o : Order) : Prop where
  orderId : cmd.orderId = o.orderId
  userId : cmd.userId = o.userId
  marketId : cmd.marketId = m
  side : cmd.side = s
  price : cmd.price = o.price
  size : cmd.size = o.originalSize
  timeInForce : cmd.timeInForce = .gtc

/-- A trade of an older order that was left to rest with a newer one that accepts its price. -/
structure Between (maker taker : OrderCommand) (trade : TradeEvent) : Prop where
  makerOrderId : trade.makerOrderId = maker.orderId
  takerOrderId : trade.takerOrderId = taker.orderId
  older : maker.orderId < taker.orderId
  makerUserId : trade.makerUserId = maker.userId
  takerUserId : trade.takerUserId = taker.userId
  users : maker.userId ≠ taker.userId
  makerMarket : trade.marketId = maker.marketId
  takerMarket : trade.marketId = taker.marketId
  takerSide : trade.takerSide = taker.side
  sides : maker.side = taker.side.opSide
  rested : maker.timeInForce = .gtc
  price : trade.price = maker.price
  accepted : priceCheck taker.side taker.price trade.price = true
  positive : 0 < trade.size

/-- What a log has traded for an order, from its trade events. -/
theorem traded_eq (log : List Output) (id : Nat) :
    traded log id = ((tradeEvents log).map fun trade =>
      if trade.makerOrderId = id ∨ trade.takerOrderId = id then trade.size else 0).sum := by
  induction log with
  | nil => rfl
  | cons output log ih =>
    rw [show output :: log = [output] ++ log from rfl, traded_append, tradeEvents_append, ih]
    cases output <;> simp [traded, Output.tradedSize, tradeEvents]

namespace Floor

/-- Resting orders and trades go back to submissions, and no submission has traded too much. -/
structure Sourced (floor : Floor) : Prop where
  rests : ∀ m s o, floor.Rests m s o → ∃ cmd ∈ floor.placed, LeftOf cmd m s o
  trades : ∀ trade ∈ tradeEvents floor.log, ∃ maker ∈ floor.placed, ∃ taker ∈ floor.placed,
    Between maker taker trade
  bounded : ∀ cmd ∈ floor.placed, traded floor.log cmd.orderId ≤ cmd.size

section Step

variable {floor : Floor} {cmd settled : OrderCommand} {fills : List (Fill Order)}

/-- What a placement trades for each order. -/
theorem Trades.traded (t : floor.Trades cmd settled fills) (id : Nat) :
    VexCore.traded (publishEvents settled) id =
      if cmd.orderId = id then filled fills else taken Order.orderId fills id := by
  rw [traded_eq, t.trades, List.map_map, ← t.same.orderId]
  clear t
  induction fills with
  | nil => simp
  | cons f rest ih =>
    rw [List.map_cons, List.sum_cons, ih, filled_cons, taken_cons]
    simp only [Function.comp_apply, tradeOf]
    by_cases htaker : settled.orderId = id
    · simp [htaker]
    · simp [htaker]

/-- A step that trades nothing and rests nothing new. -/
theorem Sourced.still (sourced : floor.Sourced) (h : floor.Invariant)
    (arrives : floor.Arrives cmd)
    (htrades : tradeEvents (publishEvents settled) = [])
    (hrests : ∀ m s o, (floor.step cmd settled).Rests m s o → floor.Rests m s o) :
    (floor.step cmd settled).Sourced := by
  have hsub := placed_subset_step floor cmd settled
  refine ⟨?_, ?_, ?_⟩
  · intro m s o ho
    obtain ⟨earlier, hearlier, hleft⟩ := sourced.rests m s o (hrests m s o ho)
    exact ⟨earlier, hsub hearlier, hleft⟩
  · intro trade htrade
    rw [step_log, tradeEvents_append, htrades, List.append_nil] at htrade
    obtain ⟨maker, hmaker, taker, htaker, hbetween⟩ := sourced.trades trade htrade
    exact ⟨maker, hsub hmaker, taker, hsub htaker, hbetween⟩
  · intro submission hsubmission
    rw [step_log, traded_append, traded_eq (publishEvents settled), htrades,
      List.map_nil, List.sum_nil, Nat.add_zero]
    by_cases hplace : cmd.command = .placeOrder
    · rw [placed_step_place floor hplace, List.mem_append, List.mem_singleton] at hsubmission
      rcases hsubmission with hearlier | rfl
      · exact sourced.bounded submission hearlier
      · rw [(h.fresh _ fun earlier hearlier =>
          Nat.ne_of_lt (arrives.increasing hplace earlier hearlier)).1]
        exact Nat.zero_le _
    · rw [placed_step_other floor hplace] at hsubmission
      exact sourced.bounded submission hsubmission

theorem Sourced.trade (sourced : floor.Sourced) (h : floor.Invariant)
    (arrives : floor.Arrives cmd) (t : floor.Trades cmd settled fills) :
    (floor.step cmd settled).Sourced := by
  have hplaced := placed_step_place floor t.command settled
  have hcmd : cmd ∈ (floor.step cmd settled).placed := by simp [hplaced]
  have hsub := placed_subset_step floor cmd settled
  refine ⟨?_, ?_, ?_⟩
  · intro m s o' ho'
    rcases (t.rests m s o').mp ho' with ⟨o, ho, hafter⟩ | ⟨rfl, rfl, rfl, hgtc, _⟩
    · obtain ⟨earlier, hearlier, hleft⟩ := sourced.rests m s o ho
      rw [(afterFills_eq_some hafter).2]
      exact ⟨earlier, hsub hearlier, ⟨hleft.orderId, hleft.userId, hleft.marketId, hleft.side,
        hleft.price, hleft.size, hleft.timeInForce⟩⟩
    · exact ⟨cmd, hcmd, ⟨rfl, rfl, rfl, rfl, rfl, rfl, hgtc⟩⟩
  · intro trade htrade
    rw [step_log, tradeEvents_append, t.trades] at htrade
    rcases List.mem_append.mp htrade with htrade | htrade
    · obtain ⟨maker, hmaker, taker, htaker, hbetween⟩ := sourced.trades trade htrade
      exact ⟨maker, hsub hmaker, taker, hsub htaker, hbetween⟩
    · obtain ⟨f, hf, rfl⟩ := List.mem_map.mp htrade
      obtain ⟨hrests, hpos, _⟩ := t.makers f hf
      obtain ⟨haccepted, husers⟩ := t.prices f hf
      obtain ⟨maker, hmaker, hleft⟩ := sourced.rests _ _ _ hrests
      refine ⟨maker, hsub hmaker, cmd, hcmd, ?_⟩
      exact {
        makerOrderId := hleft.orderId.symm
        takerOrderId := t.same.orderId
        older := arrives.increasing t.command maker hmaker
        makerUserId := hleft.userId.symm
        takerUserId := t.userId
        users := fun heq => husers (hleft.userId.symm.trans heq)
        makerMarket := t.same.marketId.trans hleft.marketId.symm
        takerMarket := t.same.marketId
        takerSide := t.side
        sides := hleft.side
        rested := hleft.timeInForce
        price := hleft.price.symm
        accepted := haccepted
        positive := hpos }
  · intro submission hsubmission
    rw [hplaced, List.mem_append, List.mem_singleton] at hsubmission
    rw [step_log, traded_append, t.traded]
    rcases hsubmission with hearlier | rfl
    · have hne := Nat.ne_of_gt (arrives.increasing t.command submission hearlier)
      have hbounded := sourced.bounded submission hearlier
      rw [if_neg hne]
      by_cases hmaker : ∃ f ∈ fills, f.source.orderId = submission.orderId
      · obtain ⟨f, hf, hid⟩ := hmaker
        obtain ⟨hrests, _, hle⟩ := t.makers f hf
        have haccount := (h.rests_accounted hrests).traded
        obtain ⟨c, hc, hleft⟩ := sourced.rests _ _ _ hrests
        obtain rfl := h.eq_of_orderId hc hearlier (hleft.orderId.trans hid)
        rw [← hid, taken_of_mem t.nodup hf, hleft.size]
        omega
      · rw [taken_of_not_mem fun f hf heq => hmaker ⟨f, hf, heq⟩]
        exact hbounded
    · rw [if_pos rfl, (h.fresh _ fun earlier hearlier =>
        Nat.ne_of_lt (arrives.increasing t.command earlier hearlier)).1, Nat.zero_add]
      exact t.filled_le

end Step

theorem Run.sourced {floor : Floor} (run : Run floor) : floor.Sourced := by
  induction run with
  | start router cache opened =>
    refine ⟨?_, by simp, by simp [placed]⟩
    rintro m s o ⟨book, hbook, ho⟩
    rw [opened m book hbook] at ho
    cases s <;> cases ho
  | command cmd settled run arrives settles ih =>
    have h := run.invariant
    cases h.happens arrives settles with
    | passes p => exact ih.still h arrives p.trades fun m s o ho => (p.rests m s o).mp ho
    | cancels s o c => exact ih.still h arrives c.trades fun m s o ho => ((c.rests _ _ _).mp ho).1
    | trades fills t => exact ih.trade h arrives t

end Floor

namespace Engine

variable {config : Config} {s : State}

/-- The placement of a slot as R1 admitted it. -/
structure Placement (s : State) (n : Nat) (cmd : OrderCommand) : Prop where
  admitted : Admits (s.slots n).ingested cmd
  orderId : cmd.orderId = (s.slots n).cmd.orderId
  command : (s.slots n).ingested.command = .placeOrder

theorem Floors.placement {arrived : Nat → OrderCommand} (h : Floors config arrived s) {n : Nat}
    (hn : n ≤ s.published) {cmd : OrderCommand}
    (hcmd : cmd ∈ (floorAt config arrived (fun i => (s.slots i).cmd) n).placed) :
    ∃ i < n, Placement s i cmd := by
  obtain ⟨i, hi, rfl, hplace⟩ := mem_floorAt_placed.mp hcmd
  have hadmits := h.admitted i (hi.trans_le hn)
  refine ⟨i, hi, hadmits, (h.same i).orderId.symm, ?_⟩
  rwa [hadmits.fields] at hplace

/-- Every trade that a live run has published is between two of its placements that allow it, and
no placement has traded more than its size. -/
theorem trades_are_between_placements {guard : Handler → State → Prop}
    (run : Reaches config guard false s) (increase : ∀ h s, guard h s → IdsIncrease h s)
    (sized : Sized s) :
    (∀ trade, .trade trade ∈ s.shared.emitted.map Prod.snd →
      ∃ i < s.seq .events, ∃ j < s.seq .events, ∃ maker taker,
        Placement s i maker ∧ Placement s j taker ∧ Between maker taker trade) ∧
    ∀ n < s.seq .events, (s.slots n).ingested.command = .placeOrder →
      VexCore.traded (s.shared.emitted.map Prod.snd) (s.slots n).cmd.orderId ≤
        (s.slots n).ingested.size := by
  obtain ⟨arrived, h⟩ := run.floors increase sized
  have hsourced := (h.run _ h.passed).sourced
  rw [h.log]
  constructor
  · intro trade htrade
    obtain ⟨maker, hmaker, taker, htaker, hbetween⟩ :=
      hsourced.trades trade (mem_tradeEvents.mpr htrade)
    obtain ⟨i, hi, hmaker⟩ := h.placement h.ordered hmaker
    obtain ⟨j, hj, htaker⟩ := h.placement h.ordered htaker
    exact ⟨i, hi, j, hj, maker, taker, hmaker, htaker, hbetween⟩
  · intro n hn hplace
    have hadmits := h.admitted n (hn.trans_le h.ordered)
    have hmem : arrived n ∈
        (floorAt config arrived (fun i => (s.slots i).cmd) (s.seq .events)).placed := by
      refine mem_floorAt_placed.mpr ⟨n, hn, rfl, ?_⟩
      rw [hadmits.fields]
      exact hplace
    have hbounded := hsourced.bounded _ hmem
    have hsize : (arrived n).size = (s.slots n).ingested.size := by rw [hadmits.fields]
    rwa [← (h.same n).orderId, hsize] at hbounded

theorem trades_are_between_placements_session :
    (∀ trade, .trade trade ∈ session.shared.emitted.map Prod.snd →
      ∃ i < session.seq .events, ∃ j < session.seq .events, ∃ maker taker,
        Placement session i maker ∧ Placement session j taker ∧ Between maker taker trade) ∧
    ∀ n < session.seq .events, (session.slots n).ingested.command = .placeOrder →
      VexCore.traded (session.shared.emitted.map Prod.snd) (session.slots n).cmd.orderId ≤
        (session.slots n).ingested.size :=
  trades_are_between_placements session_reaches (fun _ _ h => h) session_sized

end Engine

end VexCore
