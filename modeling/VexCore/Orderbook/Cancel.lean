import VexCore.Orderbook.Invariant

/-!
# What a cancellation does

The index yields a price but no side, and the bids are tried first. With a well-shaped book
a cancellation therefore ends in one of three ways: the id is unknown, the order is found and
taken out, or the lookup is led to a bid level that does not hold the order.
-/

namespace VexCore

open Framework

namespace BookSide

variable {s : Side}

theorem resting_remove_perm {side : BookSide s} {price : Nat} {level : PriceLevel} {order : Order}
    (hlevel : side.getLevel price = some level)
    (hs : level.orders.Pairwise fun a b => a.orderId < b.orderId) (hmem : order ∈ level.orders) :
    side.resting.Perm (order :: (side.replaceLevel price (level.without order)).resting) := by
  have hold := resting_perm_erase hlevel
  have hnew := resting_replaceLevel_perm hlevel (level.without order)
  have hqueue := PriceLevel.perm_without hs hmem
  exact hold.trans ((hqueue.append_right _).trans (hnew.symm.cons order))

end BookSide

namespace OrderBook

theorem Shape.level_of_resting {book : OrderBook} (h : book.Shape) {s : Side} {o : Order}
    (ho : o ∈ (book.side s).resting) :
    ∃ level, (book.side s).getLevel o.price = some level ∧ o ∈ level.orders := by
  obtain ⟨price, level, hlevel, hmem⟩ := BookSide.mem_resting.mp ho
  obtain ⟨hprice, _⟩ := (h.level _ _ _ hlevel).placed o hmem
  subst hprice
  exact ⟨level, hlevel, hmem⟩

/-- The book without one order of a level. -/
def removeResting (book : OrderBook) (s : Side) (level : PriceLevel) (order : Order) : OrderBook :=
  { book.withSide s ((book.side s).replaceLevel order.price (level.without order)) with
    orders := book.orders.erase order.orderId }

/-- A cancellation that the index sends to a bid level not holding the order. -/
def Misdirected (book : OrderBook) (orderId : Nat) : Prop :=
  ∃ price level, book.orders.lookup orderId = some price ∧
    book.bids.getLevel price = some level ∧ ∀ o ∈ level.orders, o.orderId ≠ orderId

theorem cancelOnSide_hit {book : OrderBook} {s : Side} {level : PriceLevel} {order : Order}
    (h : level.Shape s order.price) (hmem : order ∈ level.orders) (cmd : OrderCommand)
    (hid : order.orderId = cmd.orderId) :
    ({ book with orders := book.orders.erase cmd.orderId } : OrderBook).cancelOnSide
        s order.price level cmd =
      (book.removeResting s level order,
        (book.removeResting s level order).recordSnapshot
          (PriceLevel.reportCancelled cmd order)) := by
  unfold cancelOnSide
  rw [← hid, PriceLevel.removeOrder_of_mem cmd h.increasing hmem]
  cases s <;> rfl

theorem cancelOnSide_miss {book : OrderBook} {s : Side} {price : Nat} {level : PriceLevel}
    {cmd : OrderCommand} (hlevel : (book.side s).getLevel price = some level)
    (hne : level.orders ≠ []) (h : ∀ o ∈ level.orders, o.orderId ≠ cmd.orderId) :
    book.cancelOnSide s price level cmd =
      (book, book.recordSnapshot { cmd with status := .rejected }) := by
  have hself := BookSide.replaceLevel_self hlevel hne
  unfold cancelOnSide
  rw [PriceLevel.removeOrder_of_not_mem cmd h]
  change (book.withSide s ((book.side s).replaceLevel price level),
    (book.withSide s ((book.side s).replaceLevel price level)).recordSnapshot _) = _
  rw [hself, withSide_side]

theorem cancelByIndex_unknown {book : OrderBook} {cmd : OrderCommand}
    (h : book.orders.lookup cmd.orderId = none) :
    book.cancelByIndex cmd = (book, { cmd with status := .rejected }) := by
  unfold cancelByIndex
  rw [h]

theorem cancelByIndex_misdirected {book : OrderBook} (h : book.Shape) {cmd : OrderCommand}
    (hmis : book.Misdirected cmd.orderId) :
    book.cancelByIndex cmd =
      ({ book with orders := book.orders.erase cmd.orderId },
        book.recordSnapshot { cmd with status := .rejected }) := by
  obtain ⟨price, level, hindex, hlevel, hmiss⟩ := hmis
  have hshape := h.level .bid price level hlevel
  unfold cancelByIndex
  rw [hindex]
  simp only [hlevel]
  exact @cancelOnSide_miss { book with orders := book.orders.erase cmd.orderId } .bid _ _ _ hlevel
    hshape.nonempty hmiss

/-- An indexed order is taken out unless the lookup is misdirected. -/
theorem cancelByIndex_found {book : OrderBook} (h : book.Shape) {cmd : OrderCommand} {price : Nat}
    (hindex : book.orders.lookup cmd.orderId = some price)
    (hmis : ¬book.Misdirected cmd.orderId) :
    ∃ s level order, (book.side s).getLevel order.price = some level ∧ order ∈ level.orders ∧
      order.orderId = cmd.orderId ∧ order.price = price ∧
      book.cancelByIndex cmd =
        (book.removeResting s level order,
          (book.removeResting s level order).recordSnapshot
            (PriceLevel.reportCancelled cmd order)) := by
  obtain ⟨s, o, ho, hoid, hprice⟩ := h.indexed _ _ hindex
  obtain ⟨level, hlevel, hmem⟩ := h.level_of_resting ho
  subst hprice
  cases hbid : book.bids.getLevel o.price with
  | some bidLevel =>
    have hfound : ∃ order ∈ bidLevel.orders, order.orderId = cmd.orderId := by
      by_contra hnone
      apply hmis
      refine ⟨o.price, bidLevel, hindex, hbid, ?_⟩
      intro order horder heq
      exact hnone ⟨order, horder, heq⟩
    obtain ⟨order, horder, hid⟩ := hfound
    have hshape := h.level .bid _ _ hbid
    obtain ⟨hprice, _⟩ := hshape.placed order horder
    rw [← hprice] at hbid hshape
    refine ⟨.bid, bidLevel, order, hbid, horder, hid, hprice, ?_⟩
    unfold cancelByIndex
    rw [hindex, ← hprice]
    simp only [hbid]
    exact cancelOnSide_hit hshape horder cmd hid
  | none =>
    -- no bid level at this price, so the order can only be an ask
    have hask : s = .ask := by
      cases s with
      | ask => rfl
      | bid =>
        change book.bids.getLevel o.price = some level at hlevel
        rw [hbid] at hlevel
        cases hlevel
    subst hask
    refine ⟨.ask, level, o, hlevel, hmem, hoid, rfl, ?_⟩
    change book.asks.getLevel o.price = some level at hlevel
    unfold cancelByIndex
    rw [hindex]
    simp only [hbid, hlevel]
    exact cancelOnSide_hit (h.level .ask _ _ hlevel) hmem cmd hoid

theorem side_removeResting (book : OrderBook) (s : Side) (level : PriceLevel) (order : Order) :
    (book.removeResting s level order).side s =
      (book.side s).replaceLevel order.price (level.without order) := by
  rw [removeResting, side_setOrders, side_withSide]

theorem side_removeResting_ne {book : OrderBook} {s t : Side} (level : PriceLevel) (order : Order)
    (ht : t ≠ s) : (book.removeResting s level order).side t = book.side t := by
  rw [removeResting, side_setOrders, side_withSide_ne _ ht]

theorem removeResting_perm {book : OrderBook} (h : book.Shape) {s : Side} {level : PriceLevel}
    {order : Order} (hlevel : (book.side s).getLevel order.price = some level)
    (hmem : order ∈ level.orders) :
    (book.side s).resting.Perm
      (order :: ((book.removeResting s level order).side s).resting) := by
  rw [side_removeResting]
  exact BookSide.resting_remove_perm hlevel (h.level _ _ _ hlevel).increasing hmem

theorem removeResting_shape {book : OrderBook} (h : book.Shape) {s : Side} {level : PriceLevel}
    {order : Order} (hlevel : (book.side s).getLevel order.price = some level)
    (hmem : order ∈ level.orders) : (book.removeResting s level order).Shape := by
  have hshape := h.level _ _ _ hlevel
  have hperm := removeResting_perm h hlevel hmem
  rw [side_removeResting] at hperm
  have hids := hperm.map Order.orderId
  have hnodup := hids.nodup_iff.mp (h.nodup s)
  rw [List.map_cons, List.nodup_cons] at hnodup
  apply h.shrink
  · intro price l hl
    rw [BookSide.getLevel_replaceLevel hlevel] at hl
    by_cases hp : price = order.price
    · subst hp
      rw [if_pos rfl] at hl
      by_cases hempty : (level.without order).orders.isEmpty
      · rw [if_pos hempty] at hl
        cases hl
      · rw [if_neg hempty, Option.some.injEq] at hl
        subst hl
        refine ⟨by simpa using hempty, ?_, ?_⟩
        · exact hshape.increasing.sublist List.filter_sublist
        · intro o ho
          exact hshape.placed o (List.mem_of_mem_filter ho)
    · rw [if_neg hp] at hl
      exact h.level _ _ _ hl
  · exact hnodup.2
  · intro id hid
    exact hids.mem_iff.mpr (List.mem_cons_of_mem _ hid)
  · intro id price hid
    have hne : id ≠ order.orderId := by
      rintro rfl
      rw [Finmap.lookup_erase] at hid
      cases hid
    rw [Finmap.lookup_erase_ne hne] at hid
    refine ⟨hid, ?_⟩
    intro o ho hoid
    rcases List.mem_cons.mp (hperm.mem_iff.mp ho) with rfl | ho
    · exact absurd hoid.symm hne
    · exact ⟨o, ho, hoid, rfl⟩

/-- Dropping index entries alone keeps the shape. -/
theorem erase_index_shape {book : OrderBook} (h : book.Shape) (orderId : Nat) :
    ({ book with orders := book.orders.erase orderId } : OrderBook).Shape := by
  have hshrink := @Shape.shrink book h .bid book.bids (book.orders.erase orderId) (h.level .bid)
    (h.nodup .bid) (List.Subset.refl _) (by
      intro id price hid
      have hne : id ≠ orderId := by
        rintro rfl
        rw [Finmap.lookup_erase] at hid
        cases hid
      rw [Finmap.lookup_erase_ne hne] at hid
      exact ⟨hid, fun o ho hoid => ⟨o, ho, hoid, rfl⟩⟩)
  exact hshrink

/-- The three ways a cancellation can end. -/
theorem cancelByIndex_cases {book : OrderBook} (h : book.Shape) (cmd : OrderCommand) :
    (book.orders.lookup cmd.orderId = none ∧
      book.cancelByIndex cmd = (book, { cmd with status := .rejected })) ∨
    (book.Misdirected cmd.orderId ∧
      book.cancelByIndex cmd = ({ book with orders := book.orders.erase cmd.orderId },
        book.recordSnapshot { cmd with status := .rejected })) ∨
    ∃ s level order, (book.side s).getLevel order.price = some level ∧ order ∈ level.orders ∧
      order.orderId = cmd.orderId ∧ book.orders.lookup cmd.orderId = some order.price ∧
      book.cancelByIndex cmd = (book.removeResting s level order,
        (book.removeResting s level order).recordSnapshot
          (PriceLevel.reportCancelled cmd order)) := by
  cases hindex : book.orders.lookup cmd.orderId with
  | none => exact .inl ⟨rfl, cancelByIndex_unknown hindex⟩
  | some price =>
    by_cases hmis : book.Misdirected cmd.orderId
    · exact .inr (.inl ⟨hmis, cancelByIndex_misdirected h hmis⟩)
    · obtain ⟨s, level, order, hlevel, hmem, hid, hprice, heq⟩ := cancelByIndex_found h hindex hmis
      exact .inr (.inr ⟨s, level, order, hlevel, hmem, hid, by rw [hprice], heq⟩)

theorem cancelByIndex_shape {book : OrderBook} (h : book.Shape) (cmd : OrderCommand) :
    (book.cancelByIndex cmd).1.Shape := by
  rcases cancelByIndex_cases h cmd with ⟨_, heq⟩ | ⟨_, heq⟩ | ⟨s, level, order, hlevel, hmem, _, _, heq⟩
  · rw [heq]
    exact h
  · rw [heq]
    exact erase_index_shape h _
  · rw [heq]
    exact removeResting_shape h hlevel hmem

end OrderBook

end VexCore
