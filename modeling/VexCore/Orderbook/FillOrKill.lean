import VexCore.Orderbook.Placement

/-!
# Fill or kill

The pre-check of a fill-or-kill order sums the crossing levels, the matcher consumes them order
by order. Both come down to one comparison: the size against what the eligible orders total.
-/

namespace VexCore

open Framework

namespace OrderBook

def totalSize (orders : List Order) : Nat := (orders.map Order.size).sum

@[simp] theorem totalSize_nil : totalSize [] = 0 := rfl

@[simp] theorem totalSize_cons (o : Order) (orders : List Order) :
    totalSize (o :: orders) = o.size + totalSize orders := rfl

@[simp] theorem totalSize_append (as bs : List Order) :
    totalSize (as ++ bs) = totalSize as + totalSize bs := by
  simp [totalSize]

theorem totalSize_filter_le (p : Order → Bool) (orders : List Order) :
    totalSize (orders.filter p) ≤ totalSize orders := by
  induction orders with
  | nil => exact Nat.le_refl _
  | cons o rest ih =>
    cases hp : p o with
    | true => simp [hp, ih]
    | false => simp only [hp, List.filter_cons, totalSize_cons, Bool.false_eq_true, if_false]; omega

theorem foldl_volume {orders : List Order} {volume : Nat}
    (hfits : volume + totalSize orders < 2 ^ 64) :
    orders.foldl (fun volume order => wrappingAdd 64 volume order.size) volume =
      volume + totalSize orders := by
  induction orders generalizing volume with
  | nil => rfl
  | cons o rest ih =>
    rw [totalSize_cons] at hfits
    have hadd : wrappingAdd 64 volume o.size = volume + o.size :=
      wrappingAdd_of_lt (by omega)
    rw [List.foldl_cons, hadd, ih (by omega), totalSize_cons]
    omega

/-- Where a level's volume fits, its available part is summed exactly. -/
theorem availableVolume_eq (takerId : Nat) {level : PriceLevel}
    (hfits : totalSize level.orders < 2 ^ 64) :
    availableVolume takerId level =
      totalSize (level.orders.filter fun order => order.userId ≠ takerId) := by
  have hle := totalSize_filter_le (fun order => decide (order.userId ≠ takerId)) level.orders
  have hsum : 0 + totalSize (level.orders.filter fun order => decide (order.userId ≠ takerId)) <
      2 ^ 64 := by omega
  rw [availableVolume, foldl_volume hsum, Nat.zero_add]

theorem priceCheck_of_isMarketOrder {cmd : OrderCommand} (hmarket : isMarketOrder cmd = true)
    {price : Nat} (hprice : price < 2 ^ 64) : priceCheck cmd.side cmd.price price = true := by
  simp only [isMarketOrder, Bool.or_eq_true, Bool.and_eq_true, beq_iff_eq] at hmarket
  rcases hmarket with ⟨hzero, hside⟩ | ⟨hmax, hside⟩
  · rw [hside, hzero]
    simp [priceCheck]
  · rw [hside, hmax]
    simp only [priceCheck, ge_iff_le, decide_eq_true_eq]
    exact Nat.le_pred_of_lt hprice

theorem accepts_eq_priceCheck (cmd : OrderCommand) {price : Nat} (hprice : price < 2 ^ 64) :
    (isMarketOrder cmd || priceCheck cmd.side cmd.price price) =
      priceCheck cmd.side cmd.price price := by
  cases hmarket : isMarketOrder cmd with
  | false => exact Bool.false_or _
  | true => rw [priceCheck_of_isMarketOrder hmarket hprice, Bool.true_or]

section Levels

variable {cmd : OrderCommand} {levels : List (Nat × PriceLevel)} {e : Nat × PriceLevel}

theorem totalSize_eligibleIn_cons (h : LevelsPlaced cmd.side.opSide (e :: levels))
    (hcheck : priceCheck cmd.side cmd.price e.1 = true)
    (hfits : totalSize e.2.orders < 2 ^ 64) :
    totalSize (eligibleIn cmd (e :: levels)) =
      availableVolume cmd.userId e.2 + totalSize (eligibleIn cmd levels) := by
  have hhead : (e.2.orders.filter fun maker =>
      priceCheck cmd.side cmd.price maker.price && decide (maker.userId ≠ cmd.userId)) =
      e.2.orders.filter fun maker => decide (maker.userId ≠ cmd.userId) := by
    apply List.filter_congr
    intro o ho
    rw [h.price e List.mem_cons_self o ho, hcheck, Bool.true_and]
  rw [eligibleIn_cons, hhead, totalSize_append, availableVolume_eq _ hfits]

/-- The loop of the pre-check, at any level, compares what is still wanted with what the
remaining levels have for the taker. -/
theorem canFillLevels_iff (h : LevelsPlaced cmd.side.opSide levels)
    (hfits : ∀ e ∈ levels, totalSize e.2.orders < 2 ^ 64) (hprices : ∀ e ∈ levels, e.1 < 2 ^ 64)
    {remaining : Nat} (hpos : 0 < remaining) :
    canFillLevels cmd levels remaining = true ↔
      remaining ≤ totalSize (eligibleIn cmd levels) := by
  induction levels generalizing remaining with
  | nil =>
    simp only [canFillLevels, eligibleIn, Bool.false_eq_true, false_iff, List.flatMap_nil,
      List.filter_nil, totalSize_nil]
    omega
  | cons e rest ih =>
    have hrestFits : ∀ e ∈ rest, totalSize e.2.orders < 2 ^ 64 :=
      fun e he => hfits e (List.mem_cons_of_mem _ he)
    have hrestPrices : ∀ e ∈ rest, e.1 < 2 ^ 64 :=
      fun e he => hprices e (List.mem_cons_of_mem _ he)
    rw [canFillLevels, accepts_eq_priceCheck cmd (hprices e List.mem_cons_self)]
    cases hcheck : priceCheck cmd.side cmd.price e.1 with
    | false =>
      -- the first refused level ends the loop, and no later one is eligible
      rw [eligibleIn_of_refused h hcheck]
      simp only [Bool.false_eq_true, if_false, totalSize_nil, false_iff]
      omega
    | true =>
      rw [if_pos rfl, totalSize_eligibleIn_cons h hcheck (hfits e List.mem_cons_self)]
      by_cases henough : availableVolume cmd.userId e.2 ≥ remaining
      · rw [if_pos henough]
        simp only [true_iff]
        omega
      · rw [if_neg henough, ih h.tail hrestFits hrestPrices (by omega)]
        omega

end Levels

variable {book : OrderBook} {cmd : OrderCommand}

theorem canFillCompletely_iff (h : book.Shape) (hfits : book.VolumesFit)
    (hprices : ∀ s, ∀ o ∈ (book.side s).resting, o.price < 2 ^ 64) (hpos : 0 < cmd.size) :
    book.canFillCompletely cmd = true ↔ cmd.size ≤ totalSize (book.eligible cmd) := by
  apply canFillLevels_iff (h.levelsPlaced _) ?_ ?_ hpos
  · intro e he
    exact hfits _ e.1 e.2 (SortedMap.find?_eq_some.mpr he)
  · intro e he
    have hshape := h.level _ e.1 e.2 (SortedMap.find?_eq_some.mpr he)
    obtain ⟨o, ho⟩ := List.exists_mem_of_ne_nil _ hshape.nonempty
    rw [← (hshape.placed o ho).1]
    exact hprices _ o (List.mem_flatMap.mpr ⟨e, he, ho⟩)

/-- The matcher leaves what the eligible orders do not cover. -/
theorem matchOrder_remaining_eligible (h : book.Shape) :
    (book.matchOrder cmd).2.2 = cmd.size - totalSize (book.eligible cmd) := by
  rw [matchOrder_remaining h, referenceFills, filled_allocate]
  simp only [totalSize]
  omega

theorem matchOrder_remaining_eq_zero (h : book.Shape) :
    (book.matchOrder cmd).2.2 = 0 ↔ cmd.size ≤ totalSize (book.eligible cmd) := by
  rw [matchOrder_remaining_eligible h, Nat.sub_eq_zero_iff_le]

theorem calcFilledSize_fillEvents (fills : List (Fill Order)) :
    calcFilledSize (fills.map fillEvent) = filled fills := by
  rw [calcFilledSize, List.map_map]
  rfl

/-- A fill-or-kill order that the pre-check lets through is filled. -/
theorem placeOrder_fok_filled (h : book.Shape) (htif : cmd.timeInForce = .fok)
    (hstatus : cmd.status ≠ .rejected) (hcan : book.canFillCompletely cmd = true)
    (hzero : (book.matchOrder cmd).2.2 = 0) (cache : PriceCache) :
    let out := (book.placeOrder cmd cache).cmd
    out.status = .filled ∧ out.size = 0 ∧
      out.events = cmd.events ++ (book.referenceFills cmd).map fillEvent := by
  intro out
  obtain ⟨price, hcmd⟩ := placeOrder_cmd_eq hstatus book cache
  rw [placeByTimeInForce, htif] at hcmd
  simp only [hcan, Bool.not_true, Bool.false_eq_true, if_false, hzero, if_true,
    matchOrder_cmd h] at hcmd
  simp only [out, hcmd, and_self]

/-- A fill-or-kill order that the pre-check stops leaves everything as it was. -/
theorem placeOrder_fok_killed (htif : cmd.timeInForce = .fok)
    (hstatus : cmd.status ≠ .rejected) (hcannot : book.canFillCompletely cmd = false)
    (cache : PriceCache) :
    let out := book.placeOrder cmd cache
    out.cmd.status = .cancelled ∧ out.cmd.size = cmd.size ∧ out.cmd.events = cmd.events ∧
      out.book = book := by
  intro out
  obtain ⟨price, hcmd⟩ := placeOrder_cmd_eq hstatus book cache
  have hbook := placeOrder_book hstatus book cache
  rw [placeByTimeInForce, htif] at hcmd hbook
  simp only [hcannot, Bool.not_false, if_true] at hcmd hbook
  simp only [out, hcmd, hbook, and_self]

/-- The resting orders of a run have the prices of its placements. -/
theorem RunInvariant.prices {calls : List Call} (h : RunInvariant calls book)
    (hwords : ∀ earlier ∈ placements calls, earlier.price < 2 ^ 64) (s : Side) :
    ∀ o ∈ (book.side s).resting, o.price < 2 ^ 64 := by
  intro o ho
  obtain ⟨earlier, hearlier, _, _, hprice, _⟩ := h.submitted s o ho
  rw [← hprice]
  exact hwords earlier hearlier

/-- On every book of a run a fill-or-kill order is all or nothing: the pre-check, the matcher and
the total of the crossing orders of other users agree. -/
theorem fillOrKill_allOrNothing {marketId : Nat} {calls : List Call}
    (run : Run marketId VolumesFit calls book)
    (hwords : ∀ earlier ∈ placements calls, earlier.price < 2 ^ 64)
    (htif : cmd.timeInForce = .fok) (hpos : 0 < cmd.size) (hstatus : cmd.status ≠ .rejected)
    (cache : PriceCache) :
    let crossing := totalSize ((book.side cmd.side.opSide).resting.filter fun maker =>
      priceCheck cmd.side cmd.price maker.price && decide (maker.userId ≠ cmd.userId))
    let out := book.placeOrder cmd cache
    (book.canFillCompletely cmd = true ↔ (book.matchOrder cmd).2.2 = 0) ∧
    ((book.matchOrder cmd).2.2 = 0 ↔ cmd.size ≤ crossing) ∧
    ((cmd.size ≤ crossing ∧ out.cmd.status = .filled ∧ out.cmd.size = 0 ∧
        ∃ trades, out.cmd.events = cmd.events ++ trades ∧ calcFilledSize trades = cmd.size) ∨
      (crossing < cmd.size ∧ out.cmd.status = .cancelled ∧ out.cmd.size = cmd.size ∧
        out.cmd.events = cmd.events ∧ (∀ s, out.book.side s = book.side s) ∧
        out.book.orders = book.orders)) := by
  intro crossing out
  have hshape := run.invariant.shape
  have hcan := canFillCompletely_iff hshape run.fits (run.invariant.prices hwords) hpos
  have hzero := @matchOrder_remaining_eq_zero book cmd hshape
  refine ⟨hcan.trans hzero.symm, hzero, ?_⟩
  by_cases henough : cmd.size ≤ crossing
  · obtain ⟨hfilled, hsize, hevents⟩ :=
      placeOrder_fok_filled hshape htif hstatus (hcan.mpr henough) (hzero.mpr henough) cache
    have htotal : filled (book.referenceFills cmd) = cmd.size := by
      rw [referenceFills, filled_allocate]
      exact Nat.min_eq_left henough
    exact .inl ⟨henough, hfilled, hsize, _, hevents, (calcFilledSize_fillEvents _).trans htotal⟩
  · have hcannot : book.canFillCompletely cmd = false := by
      rw [← Bool.not_eq_true]
      exact fun hcan' => henough (hcan.mp hcan')
    obtain ⟨hcancelled, hsize, hevents, hbook⟩ :=
      placeOrder_fok_killed htif hstatus hcannot cache
    refine .inr ⟨by omega, hcancelled, hsize, hevents, fun s => ?_, ?_⟩
    · exact congrArg (fun book => book.side s) hbook
    · exact congrArg OrderBook.orders hbook

/-- A market sell of seven finds six left of a bid and is killed; one of six is filled. -/
theorem fillOrKill_allOrNothing_partialFill :
    let book := (((new 1).placeOrder (.limit .bid .gtc 1 7 100 10) ⟨∅⟩).book.placeOrder
      (.limit .ask .ioc 2 8 100 4) ⟨∅⟩).book
    (book.placeOrder (.limit .ask .fok 3 9 0 7) ⟨∅⟩).cmd.events = [] ∧
      (book.placeOrder (.limit .ask .fok 3 9 0 6) ⟨∅⟩).cmd.size = 0 := by
  intro book
  have hkilled := @fillOrKill_allOrNothing book (.limit .ask .fok 3 9 0 7) _ _ partialFill_run
    (by decide) rfl (by decide) (by decide) ⟨∅⟩
  have hfilled := @fillOrKill_allOrNothing book (.limit .ask .fok 3 9 0 6) _ _ partialFill_run
    (by decide) rfl (by decide) (by decide) ⟨∅⟩
  constructor
  · rcases hkilled.2.2 with ⟨henough, _⟩ | ⟨_, _, _, hevents, _⟩
    · exact absurd henough (by decide)
    · exact hevents
  · rcases hfilled.2.2 with ⟨_, _, hsize, _⟩ | ⟨hshort, _⟩
    · exact hsize
    · exact absurd hshort (by decide)

end OrderBook

end VexCore
