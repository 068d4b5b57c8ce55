import VexCore.Orderbook.FillOrKill

/-!
# Volumes in range

While the sizes at every price fit a word, the cached volumes are their true sums. Only a
placement that rests can break this, and only at its own price.
-/

namespace VexCore

open Framework

namespace OrderBook

/-- What rests on a side at a price. -/
def restingAt (book : OrderBook) (s : Side) (price : Nat) : Nat :=
  ((book.side s).getLevel price).elim 0 fun level => totalSize level.orders

/-- No volume of a level has overflowed: the cached one is the sum of the sizes, and so is what
the pre-check sums for any taker. -/
structure ExactVolume (level : PriceLevel) : Prop where
  fits : totalSize level.orders < 2 ^ 64
  total : level.totalVolume = totalSize level.orders
  available : ∀ takerId, availableVolume takerId level =
    totalSize (level.orders.filter fun order => order.userId ≠ takerId)

def VolumesExact (book : OrderBook) : Prop :=
  ∀ s price level, (book.side s).getLevel price = some level → ExactVolume level

theorem ExactVolume.of_total {level : PriceLevel} (hfits : totalSize level.orders < 2 ^ 64)
    (htotal : level.totalVolume = totalSize level.orders) : ExactVolume level :=
  ⟨hfits, htotal, fun takerId => availableVolume_eq takerId hfits⟩

theorem new_volumesExact (marketId : Nat) : (new marketId).VolumesExact := by
  intro s price level h
  cases s <;> cases h

theorem totalSize_afterFills_le (fills : List (Fill Order)) (orders : List Order) :
    totalSize (orders.filterMap (afterFills fills)) ≤ totalSize orders := by
  induction orders with
  | nil => exact Nat.le_refl _
  | cons o rest ih =>
    cases hafter : afterFills fills o with
    | none =>
      rw [List.filterMap_cons_none hafter, totalSize_cons]
      exact ih.trans (Nat.le_add_left _ _)
    | some o' =>
      obtain ⟨-, rfl⟩ := afterFills_eq_some hafter
      rw [List.filterMap_cons_some hafter, totalSize_cons, totalSize_cons]
      exact Nat.add_le_add (Nat.sub_le _ _) ih

section Operations

variable {book : OrderBook} {cmd : OrderCommand}

theorem VolumesExact.matchOrder (hv : book.VolumesExact) (h : book.Shape) (cmd : OrderCommand) :
    (book.matchOrder cmd).1.VolumesExact := by
  intro s price level hlevel
  by_cases hs : s = cmd.side.opSide
  · subst hs
    have hentries : ∀ e ∈ (book.side cmd.side.opSide).entries,
        e.2.totalVolume = (e.2.orders.map Order.size).sum ∧ e.2.totalVolume < 2 ^ 64 := by
      intro e he
      have hexact := hv _ e.1 e.2 (SortedMap.find?_eq_some.mpr he)
      exact ⟨hexact.total, by rw [hexact.total]; exact hexact.fits⟩
    obtain ⟨-, old, hold, hqueue⟩ := matchOrder_level h hlevel
    refine .of_total ?_ (matchOrder_volume h cmd hentries _ (SortedMap.find?_eq_some.mp hlevel))
    rw [hqueue]
    exact (totalSize_afterFills_le _ _).trans_lt (hv _ _ _ hold).fits
  · rw [matchOrder_side_ne hs] at hlevel
    exact hv s price level hlevel

theorem VolumesExact.addToBook (hv : book.VolumesExact) {remaining : Nat}
    (hfits : book.restingAt cmd.side cmd.price + remaining < 2 ^ 64) :
    (book.addToBook cmd remaining).VolumesExact := by
  intro s price level hlevel
  by_cases hs : s = cmd.side
  · subst hs
    rw [side_addToBook, BookSide.getLevel_getOrCreateLevel] at hlevel
    by_cases hp : price = cmd.price
    · rw [if_pos hp, Option.some.injEq] at hlevel
      subst hp
      obtain ⟨old, hget, htotal, hsum⟩ : ∃ old,
          ((book.side cmd.side).getLevel cmd.price).getD .new = old ∧
          old.totalVolume = totalSize old.orders ∧
          book.restingAt cmd.side cmd.price = totalSize old.orders := by
        unfold restingAt
        cases hget : (book.side cmd.side).getLevel cmd.price with
        | none => exact ⟨_, rfl, rfl, rfl⟩
        | some old => exact ⟨old, rfl, (hv _ _ _ hget).total, rfl⟩
      rw [hget] at hlevel
      rw [hsum] at hfits
      have hsize : totalSize (old.addOrder (restingOrder cmd remaining)).orders =
          totalSize old.orders + remaining := by
        simp [PriceLevel.addOrder, restingOrder]
      subst hlevel
      refine .of_total (by rw [hsize]; exact hfits) ?_
      rw [hsize]
      simp only [PriceLevel.addOrder, restingOrder]
      rw [htotal]
      exact wrappingAdd_of_lt hfits
    · rw [if_neg hp] at hlevel
      exact hv _ _ _ hlevel
  · rw [side_addToBook_ne remaining hs] at hlevel
    exact hv _ _ _ hlevel

/-- A placement keeps the volumes exact unless what it rests does not fit its level. -/
theorem VolumesExact.placeOrder (hv : book.VolumesExact) (h : book.Shape) (cache : PriceCache)
    (hfits : cmd.timeInForce = .gtc →
      book.restingAt cmd.side cmd.price + (book.matchOrder cmd).2.2 < 2 ^ 64) :
    (book.placeOrder cmd cache).book.VolumesExact := by
  rcases placeOrder_book_cases book cmd cache with heq | heq | ⟨htif, -, heq⟩
  · rw [heq]
    exact hv
  · rw [heq]
    exact hv.matchOrder h cmd
  · rw [heq]
    apply (hv.matchOrder h cmd).addToBook
    unfold restingAt at hfits ⊢
    rw [matchOrder_side_ne cmd.side.opSide_ne.symm]
    exact hfits htif

/-- What a placement rests fits its level if the volumes stay exact. -/
theorem VolumesExact.rest_fits (hv : book.VolumesExact) {cache : PriceCache}
    (hafter : (book.placeOrder cmd cache).book.VolumesExact) (hstatus : cmd.status ≠ .rejected)
    (htif : cmd.timeInForce = .gtc) :
    book.restingAt cmd.side cmd.price + (book.matchOrder cmd).2.2 < 2 ^ 64 := by
  by_cases hrest : (book.matchOrder cmd).2.2 = 0
  · rw [hrest, Nat.add_zero]
    unfold restingAt
    cases hlevel : (book.side cmd.side).getLevel cmd.price with
    | none => exact Nat.two_pow_pos 64
    | some level => exact (hv _ _ _ hlevel).fits
  · have hbook : (book.placeOrder cmd cache).book =
        (book.matchOrder cmd).1.addToBook cmd (book.matchOrder cmd).2.2 := by
      rw [placeOrder_book hstatus]
      simp only [placeByTimeInForce, htif]
      split
      · rfl
      · rw [if_pos (Nat.pos_of_ne_zero hrest)]
        rfl
    have hlevel : ((book.placeOrder cmd cache).book.side cmd.side).getLevel cmd.price =
        some ((((book.side cmd.side).getLevel cmd.price).getD .new).addOrder
          (restingOrder cmd (book.matchOrder cmd).2.2)) := by
      rw [hbook, side_addToBook, BookSide.getLevel_getOrCreateLevel, if_pos rfl,
        matchOrder_side_ne cmd.side.opSide_ne.symm]
    have hfits := (hafter _ _ _ hlevel).fits
    have hsum : totalSize (((book.side cmd.side).getLevel cmd.price).getD .new).orders =
        book.restingAt cmd.side cmd.price := by
      unfold restingAt
      cases (book.side cmd.side).getLevel cmd.price <;> rfl
    rw [← hsum]
    simpa [PriceLevel.addOrder, restingOrder] using hfits

theorem VolumesExact.removeResting (hv : book.VolumesExact) (h : book.Shape) {s : Side}
    {level : PriceLevel} {order : Order}
    (hlevel : (book.side s).getLevel order.price = some level) (hmem : order ∈ level.orders) :
    (book.removeResting s level order).VolumesExact := by
  intro t price l hl
  by_cases ht : t = s
  · subst ht
    rw [side_removeResting, BookSide.getLevel_replaceLevel hlevel] at hl
    by_cases hp : price = order.price
    · rw [if_pos hp] at hl
      by_cases hempty : (level.without order).orders.isEmpty
      · rw [if_pos hempty] at hl
        cases hl
      · rw [if_neg hempty, Option.some.injEq] at hl
        subst hl
        have hexact := hv _ _ _ hlevel
        have hperm := PriceLevel.perm_without (h.level _ _ _ hlevel).increasing hmem
        have hsum : totalSize level.orders =
            order.size + totalSize (level.without order).orders := (hperm.map Order.size).sum_eq
        have hfits := hexact.fits
        have hsub : (level.without order).totalVolume = level.totalVolume - order.size := by
          apply wrappingSub_of_le
          · rw [hexact.total]
            omega
          · rw [hexact.total]
            exact hfits
        apply ExactVolume.of_total
        · omega
        · rw [hsub, hexact.total]
          omega
    · rw [if_neg hp] at hl
      exact hv _ _ _ hl
  · rw [side_removeResting_ne _ _ ht] at hl
    exact hv _ _ _ hl

theorem VolumesExact.cancelOrder (hv : book.VolumesExact) (h : book.Shape) (cmd : OrderCommand)
    (cache : PriceCache) : (book.cancelOrder cmd cache).book.VolumesExact := by
  rcases cancelOrder_book book cmd cache with heq | heq
  · rw [heq]
    exact hv
  · rw [heq]
    rcases cancelByIndex_cases h cmd with ⟨_, hout⟩ | ⟨_, hout⟩ |
      ⟨s, level, order, hlevel, hmem, _, _, hout⟩
    · rw [hout]
      exact hv
    · rw [hout]
      intro s price level hlevel
      rw [side_setOrders] at hlevel
      exact hv s price level hlevel
    · rw [hout]
      exact hv.removeResting h hlevel hmem

end Operations

end OrderBook

end VexCore
