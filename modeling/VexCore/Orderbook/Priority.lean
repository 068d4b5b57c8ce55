import VexCore.Orderbook.Sizes

/-!
# Price-time priority

On every book of a run, matching an incoming order is the greedy allocation of its size over
the eligible resting orders, and the book afterwards is the book before with the fills taken off.
-/

namespace VexCore

open Framework

namespace OrderBook

/-- `a` is served before `b`: a better price, or the same price and an older order. -/
def ServedBefore (s : Side) (a b : Order) : Prop :=
  s.Better a.price b.price ∨ (a.price = b.price ∧ a.orderId < b.orderId)

/-- A maker reduced by its fill; a completely filled one is gone. -/
def makerAfter (fills : List (Fill Order)) (maker : Order) : Option Order :=
  let size := maker.size - taken Order.orderId fills maker.orderId
  if size = 0 then none else some { maker with size }

/-- A level with its makers reduced; an emptied one is gone. -/
def levelAfter (fills : List (Fill Order)) (e : Nat × PriceLevel) : Option (Nat × PriceLevel) :=
  let orders := e.2.orders.filterMap (makerAfter fills)
  if orders = [] then none else some (e.1, ⟨(orders.map Order.size).sum, orders⟩)

theorem queue_servedBefore {s : Side} {e : Nat × PriceLevel} (h : e.2.Shape s e.1) :
    e.2.orders.Pairwise (ServedBefore s) := by
  apply h.increasing.imp_of_mem
  intro a b ha hb hlt
  exact .inr ⟨(h.placed a ha).1.trans (h.placed b hb).1.symm, hlt⟩

theorem entries_servedBefore {s : Side} {entries : List (Nat × PriceLevel)}
    (hsorted : (entries.map Prod.fst).Pairwise s.Better)
    (hshape : ∀ e ∈ entries, e.2.Shape s e.1) :
    (entries.flatMap fun e => e.2.orders).Pairwise (ServedBefore s) := by
  induction entries with
  | nil => exact List.Pairwise.nil
  | cons e rest ih =>
    rw [List.map_cons, List.pairwise_cons] at hsorted
    have hrest : ∀ e ∈ rest, e.2.Shape s e.1 := fun e he => hshape e (List.mem_cons_of_mem _ he)
    have hhead := hshape e List.mem_cons_self
    rw [List.flatMap_cons, List.pairwise_append]
    refine ⟨queue_servedBefore hhead, ih hsorted.2 hrest, ?_⟩
    intro a ha b hb
    obtain ⟨e', he', hb⟩ := List.mem_flatMap.mp hb
    have hbetter := hsorted.1 e'.1 (List.mem_map_of_mem (f := Prod.fst) he')
    rw [← (hhead.placed a ha).1, ← ((hrest e' he').placed b hb).1] at hbetter
    exact .inl hbetter

theorem eligible_servedBefore {book : OrderBook} (h : book.Shape) (cmd : OrderCommand) :
    (book.eligible cmd).Pairwise (ServedBefore cmd.side.opSide) := by
  have hall := entries_servedBefore (book.side cmd.side.opSide).sorted
    (fun e he => h.level _ e.1 e.2 (SortedMap.find?_eq_some.mpr he))
  exact hall.sublist List.filter_sublist

theorem mem_eligible {book : OrderBook} {cmd : OrderCommand} {o : Order} :
    o ∈ book.eligible cmd ↔ o ∈ (book.side cmd.side.opSide).resting ∧
      priceCheck cmd.side cmd.price o.price = true ∧ o.userId ≠ cmd.userId := by
  simp [eligible, List.mem_filter]

theorem makerAfter_eq_afterFills {book : OrderBook} (h : book.Shape) (hsized : book.Sized)
    {cmd : OrderCommand} {o : Order} (ho : o ∈ (book.side cmd.side.opSide).resting) :
    makerAfter (book.referenceFills cmd) o = afterFills (book.referenceFills cmd) o := by
  have hpos := (hsized.resting ho).1
  unfold makerAfter afterFills
  cases hcompletes : completes (book.referenceFills cmd) o.orderId with
  | false =>
    have hlt := taken_lt_size h ho hpos hcompletes
    have hne : o.size - taken Order.orderId (book.referenceFills cmd) o.orderId ≠ 0 := by omega
    simp only [if_neg hne, Bool.false_eq_true, if_false]
  | true =>
    simp only [completes, List.any_eq_true, Bool.and_eq_true, beq_iff_eq] at hcompletes
    obtain ⟨f, hf, hid, hzero⟩ := hcompletes
    have hsource : f.source = o := h.eq_of_orderId (referenceFills_source_mem hf) ho hid
    have htaken := taken_eq_amount h hf
    rw [hsource] at htaken hzero
    simp only [htaken, hzero, if_true]

theorem entries_eq_of_queues {entries : List (Nat × PriceLevel)}
    (hvolume : ∀ e ∈ entries, e.2.totalVolume = (e.2.orders.map Order.size).sum) :
    entries = (entries.map queueOf).map fun q => (q.1, ⟨(q.2.map Order.size).sum, q.2⟩) := by
  induction entries with
  | nil => rfl
  | cons e rest ih =>
    rw [List.map_cons, List.map_cons, ← ih fun e he => hvolume e (List.mem_cons_of_mem _ he)]
    have hhead := hvolume e List.mem_cons_self
    obtain ⟨price, volume, orders⟩ := e
    simp only at hhead
    rw [hhead]
    rfl

theorem matchOrder_entries {book : OrderBook} (h : book.Shape) (hsized : book.Sized)
    (hfits : book.VolumesFit) (cmd : OrderCommand) :
    ((book.matchOrder cmd).1.side cmd.side.opSide).entries =
      (book.side cmd.side.opSide).entries.filterMap (levelAfter (book.referenceFills cmd)) := by
  have hvolume := matchOrder_volume h cmd (hfits.entries hsized cmd.side.opSide)
  rw [entries_eq_of_queues hvolume, matchOrder_queues h, List.map_filterMap]
  apply List.filterMap_congr
  intro e he
  have hmakers : e.2.orders.filterMap (afterFills (book.referenceFills cmd)) =
      e.2.orders.filterMap (makerAfter (book.referenceFills cmd)) := by
    apply List.filterMap_congr
    intro o ho
    exact (makerAfter_eq_afterFills h hsized (List.mem_flatMap.mpr ⟨e, he, ho⟩)).symm
  simp only [queueAfterFills, levelAfter, hmakers, List.isEmpty_iff]
  split <;> rfl

theorem matchOrder_lookup {book : OrderBook} (h : book.Shape) (cmd : OrderCommand) (id : Nat) :
    (book.matchOrder cmd).1.orders.lookup id =
      if ∃ f ∈ book.referenceFills cmd, f.source.orderId = id ∧ f.source.size = f.amount
      then none else book.orders.lookup id := by
  have hiff : completes (book.referenceFills cmd) id = true ↔
      ∃ f ∈ book.referenceFills cmd, f.source.orderId = id ∧ f.source.size = f.amount := by
    simp only [completes, List.any_eq_true, Bool.and_eq_true, beq_iff_eq]
    constructor
    · rintro ⟨f, hf, hid, hzero⟩
      have hle := amount_le_of_mem_allocate hf
      exact ⟨f, hf, hid, by omega⟩
    · rintro ⟨f, hf, hid, hsize⟩
      exact ⟨f, hf, hid, by omega⟩
  rw [matchOrder_orders h, lookup_indexAfterFills]
  by_cases hcompletes : completes (book.referenceFills cmd) id = true
  · rw [if_pos hcompletes, if_pos (hiff.mp hcompletes)]
  · rw [if_neg hcompletes, if_neg (fun hex => hcompletes (hiff.mpr hex))]

/-- A remainder rests exactly for a good-till-cancelled order. -/
theorem placeOrder_book_eq {cmd : OrderCommand} (hstatus : cmd.status ≠ .rejected)
    (htif : cmd.timeInForce ≠ .fok) (hpos : 0 < cmd.size) (book : OrderBook) (cache : PriceCache) :
    (book.placeOrder cmd cache).book =
      if cmd.timeInForce = .gtc ∧ 0 < (book.matchOrder cmd).2.2 then
        (book.matchOrder cmd).1.addToBook cmd (book.matchOrder cmd).2.2
      else (book.matchOrder cmd).1 := by
  rw [placeOrder_book hstatus]
  unfold placeByTimeInForce
  cases h : cmd.timeInForce with
  | fok => exact absurd h htif
  | ioc => rfl
  | gtc =>
    simp only [true_and]
    by_cases hall : (book.matchOrder cmd).2.2 = (book.matchOrder cmd).2.1.size
    · have hremaining : 0 < (book.matchOrder cmd).2.2 := by
        rw [hall]
        exact hpos
      rw [if_pos hall, if_pos hremaining]
      rfl
    · rw [if_neg hall]
      split <;> rfl

/-- The command a placement returns carries the events of its matching. -/
theorem placeOrder_cmd_events {cmd : OrderCommand} (hstatus : cmd.status ≠ .rejected)
    (htif : cmd.timeInForce ≠ .fok) (book : OrderBook) (cache : PriceCache) :
    (book.placeOrder cmd cache).cmd.events = (book.matchOrder cmd).2.1.events ∧
      (book.placeOrder cmd cache).cmd.size = (book.matchOrder cmd).2.2 := by
  have hexec (c : OrderCommand) :
      (executionPrice c).events = c.events ∧ (executionPrice c).size = c.size := by
    unfold executionPrice
    split
    · split <;> exact ⟨rfl, rfl⟩
    · exact ⟨rfl, rfl⟩
  have hplaced : (book.placeByTimeInForce cmd).2.events = (book.matchOrder cmd).2.1.events ∧
      (book.placeByTimeInForce cmd).2.size = (book.matchOrder cmd).2.2 := by
    unfold placeByTimeInForce
    cases h : cmd.timeInForce with
    | fok => exact absurd h htif
    | ioc => exact ⟨rfl, rfl⟩
    | gtc =>
      simp only
      split
      · exact ⟨rfl, rfl⟩
      · split <;> exact ⟨rfl, rfl⟩
  rw [placeOrder, if_neg hstatus]
  change (executionPrice (book.placeByTimeInForce cmd).2).events = _ ∧
    (executionPrice (book.placeByTimeInForce cmd).2).size = _
  rw [(hexec _).1, (hexec _).2]
  exact hplaced

/-- On every book of a run, a placement trades exactly as the price-time-priority reference
with self-trade prevention. -/
theorem placement_matches_reference {marketId : Nat} {calls : List Call} {book : OrderBook}
    (run : Run marketId VolumesFit calls book) {cmd : OrderCommand}
    (htif : cmd.timeInForce = .gtc ∨ cmd.timeInForce = .ioc) (hpos : 0 < cmd.size) :
    let fills := allocate Order.size cmd.size (book.eligible cmd)
    let matched := book.matchOrder cmd
    (∀ o, o ∈ book.eligible cmd ↔ o ∈ (book.side cmd.side.opSide).resting ∧
      priceCheck cmd.side cmd.price o.price = true ∧ o.userId ≠ cmd.userId) ∧
    (book.eligible cmd).Pairwise (ServedBefore cmd.side.opSide) ∧
    matched.2.1 = { cmd with events := cmd.events ++ fills.map fillEvent } ∧
    filled fills ≤ cmd.size ∧ matched.2.2 = cmd.size - filled fills ∧
    (matched.1.side cmd.side.opSide).entries =
      (book.side cmd.side.opSide).entries.filterMap (levelAfter fills) ∧
    (∀ id, matched.1.orders.lookup id =
      if ∃ f ∈ fills, f.source.orderId = id ∧ f.source.size = f.amount then none
      else book.orders.lookup id) ∧
    matched.1.side cmd.side = book.side cmd.side ∧ matched.1.marketId = book.marketId ∧
    (cmd.status ≠ .rejected → ∀ cache,
      (book.placeOrder cmd cache).cmd.events = matched.2.1.events ∧
      (book.placeOrder cmd cache).cmd.size = matched.2.2 ∧
      (book.placeOrder cmd cache).book =
        if cmd.timeInForce = .gtc ∧ 0 < matched.2.2 then matched.1.addToBook cmd matched.2.2
        else matched.1) := by
  have hshape := run.invariant.shape
  have hfok : cmd.timeInForce ≠ .fok := by
    rcases htif with h | h <;> rw [h] <;> decide
  refine ⟨fun o => mem_eligible, eligible_servedBefore hshape cmd, matchOrder_cmd hshape cmd,
    filled_allocate_le _ _ _, matchOrder_remaining hshape cmd,
    matchOrder_entries hshape run.sized run.fits cmd, matchOrder_lookup hshape cmd,
    matchOrder_side_ne (Side.opSide_ne cmd.side).symm,
    marketId_withSide book cmd.side.opSide _, ?_⟩
  intro hstatus cache
  have hcmd := placeOrder_cmd_events hstatus hfok book cache
  exact ⟨hcmd.1, hcmd.2, placeOrder_book_eq hstatus hfok hpos book cache⟩

/-- An ask of ten meets the six that are left of a bid. -/
theorem placement_matches_reference_partialFill :
    let book := (((new 1).placeOrder (.limit .bid .gtc 1 7 100 10) ⟨∅⟩).book.placeOrder
      (.limit .ask .ioc 2 8 100 4) ⟨∅⟩).book
    let matched := book.matchOrder (.limit .ask .gtc 3 9 90 10)
    matched.2.2 = 4 ∧
      matched.2.1.events =
        [{ activeOrderCompleted := false
           matchedOrderId := 1
           makerUserId := 7
           matchedOrderCompleted := true
           price := 100
           size := 6
           makerRemainingSize := 0
           makerOriginalSize := 10 }] ∧
      matched.1.orders.lookup 1 = none := by
  intro book matched
  have h := @placement_matches_reference _ _ _ partialFill_run (.limit .ask .gtc 3 9 90 10)
    (.inl rfl) (by decide)
  obtain ⟨_, _, hcmd, _, hremaining, _, hindex, _⟩ := h
  refine ⟨hremaining.trans (by decide), ?_, ?_⟩
  · exact (congrArg OrderCommand.events hcmd).trans (by decide)
  · exact (hindex 1).trans (by decide)

end OrderBook

end VexCore
