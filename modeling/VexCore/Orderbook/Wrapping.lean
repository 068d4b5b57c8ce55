import VexCore.Orderbook.Views
import VexCore.Orderbook.Volumes

/-!
# Volumes that wrap

A level's cached volume is always the sum of its queue as a 64-bit word, whether or not the sum
ever outgrew the word. So it is exact again as soon as the sum fits.
-/

namespace VexCore

open Framework

/-- The cached volume is what a word keeps of the sum. -/
def PriceLevel.Wraps (level : PriceLevel) : Prop :=
  level.totalVolume = truncate 64 (OrderBook.totalSize level.orders)

namespace OrderBook

def VolumesWrap (book : OrderBook) : Prop :=
  ∀ s price level, (book.side s).getLevel price = some level → level.Wraps

/-- Every resting size is a word. -/
def Words (book : OrderBook) : Prop := ∀ s, ∀ o ∈ (book.side s).resting, o.size < 2 ^ 64

theorem new_volumesWrap (marketId : Nat) : (new marketId).VolumesWrap := by
  intro s price level h
  cases s <;> cases h

section Matching

variable {takerId price : Nat} {cmd : OrderCommand}

theorem matchLevel_wraps {queue : List Order} {volume extra : Nat} {st : MatchState}
    (hvolume : volume = truncate 64 (extra + totalSize queue))
    (hwords : ∀ o ∈ queue, o.size < 2 ^ 64) :
    (matchLevel takerId price ⟨volume, queue⟩ st).1.totalVolume =
      truncate 64 (extra + totalSize (matchLevel takerId price ⟨volume, queue⟩ st).1.orders) := by
  induction queue generalizing volume extra st with
  | nil => exact hvolume
  | cons maker rest ih =>
    have hrest : ∀ o ∈ rest, o.size < 2 ^ 64 := fun o ho => hwords o (List.mem_cons_of_mem _ ho)
    rw [totalSize_cons] at hvolume
    by_cases hdone : st.remainingSize = 0
    · rw [matchLevel_done hdone]
      exact hvolume
    · by_cases hown : maker.userId = takerId
      · rw [matchLevel_own hdone hown]
        have h := @ih volume (extra + maker.size) st (by rw [hvolume, Nat.add_assoc]) hrest
        simp only [totalSize_cons, h, Nat.add_assoc]
      · rw [matchLevel_trade hdone hown]
        have htrade : min st.remainingSize maker.size ≤ maker.size := Nat.min_le_right _ _
        have hword := hwords maker List.mem_cons_self
        have hsub : wrappingSub 64 volume (min st.remainingSize maker.size) =
            truncate 64 (extra + (maker.size - min st.remainingSize maker.size) +
              totalSize rest) := by
          rw [hvolume, wrappingSub_truncate (by omega) (by omega)]
          congr 1
          omega
        have h := @ih _ (extra + (maker.size - min st.remainingSize maker.size))
          (st.trade price (min st.remainingSize maker.size) maker) rfl hrest
        simp only [hsub, h]
        split
        · congr 1
          omega
        · rw [totalSize_cons, Nat.add_assoc]

theorem matchLevels_wraps {levels : List (Nat × PriceLevel)}
    (hwraps : ∀ e ∈ levels, e.2.Wraps) (hwords : ∀ e ∈ levels, ∀ o ∈ e.2.orders, o.size < 2 ^ 64)
    (st : MatchState) : ∀ e ∈ (matchLevels cmd levels st).levels, e.2.Wraps := by
  induction levels generalizing st with
  | nil =>
    intro e he
    cases he
  | cons e rest ih =>
    cases hstop : !priceCheck cmd.side cmd.price e.1 || st.remainingSize == 0 with
    | true =>
      rw [matchLevels_stop rest hstop]
      exact hwraps
    | false =>
      rw [matchLevels_step rest hstop]
      intro e' he'
      rcases List.mem_cons.mp he' with rfl | he'
      · have hhead := hwraps e List.mem_cons_self
        have h := @matchLevel_wraps cmd.userId e.1 e.2.orders e.2.totalVolume 0 st
          (by rw [Nat.zero_add]; exact hhead) (hwords e List.mem_cons_self)
        rw [Nat.zero_add] at h
        exact h
      · exact ih (fun e he => hwraps e (List.mem_cons_of_mem _ he))
          (fun e he => hwords e (List.mem_cons_of_mem _ he)) _ e' he'

end Matching

section Operations

variable {book : OrderBook} {cmd : OrderCommand}

theorem VolumesWrap.matchOrder (hv : book.VolumesWrap) (h : book.Shape) (hwords : book.Words)
    (cmd : OrderCommand) : (book.matchOrder cmd).1.VolumesWrap := by
  intro s price level hlevel
  by_cases hs : s = cmd.side.opSide
  · subst hs
    have hmem := SortedMap.find?_eq_some.mp hlevel
    rw [matchOrder_side, matchSide_entries (h.level_nonempty _)] at hmem
    refine matchLevels_wraps ?_ ?_ _ _ (List.mem_of_mem_filter hmem)
    · intro e he
      exact hv _ e.1 e.2 (SortedMap.find?_eq_some.mpr he)
    · intro e he o ho
      exact hwords _ o (List.mem_flatMap.mpr ⟨e, he, ho⟩)
  · rw [matchOrder_side_ne hs] at hlevel
    exact hv s price level hlevel

theorem VolumesWrap.addToBook (hv : book.VolumesWrap) (remaining : Nat) :
    (book.addToBook cmd remaining).VolumesWrap := by
  intro s price level hlevel
  by_cases hs : s = cmd.side
  · subst hs
    rw [side_addToBook, BookSide.getLevel_getOrCreateLevel] at hlevel
    by_cases hp : price = cmd.price
    · rw [if_pos hp, Option.some.injEq] at hlevel
      have hold : (((book.side cmd.side).getLevel price).getD .new).Wraps := by
        cases hget : (book.side cmd.side).getLevel price with
        | none => rfl
        | some old => exact hv _ _ _ hget
      subst hlevel
      unfold PriceLevel.Wraps at hold ⊢
      simp only [PriceLevel.addOrder, restingOrder]
      rw [hold, wrappingAdd_truncate, totalSize_append]
      rfl
    · rw [if_neg hp] at hlevel
      exact hv _ _ _ hlevel
  · rw [side_addToBook_ne remaining hs] at hlevel
    exact hv _ _ _ hlevel

theorem VolumesWrap.placeOrder (hv : book.VolumesWrap) (h : book.Shape) (hwords : book.Words)
    (cache : PriceCache) : (book.placeOrder cmd cache).book.VolumesWrap := by
  rcases placeOrder_book_cases book cmd cache with heq | heq | ⟨-, -, heq⟩
  · rw [heq]
    exact hv
  · rw [heq]
    exact hv.matchOrder h hwords cmd
  · rw [heq]
    exact (hv.matchOrder h hwords cmd).addToBook _

theorem VolumesWrap.removeResting (hv : book.VolumesWrap) (h : book.Shape) (hwords : book.Words)
    {s : Side} {level : PriceLevel} {order : Order}
    (hlevel : (book.side s).getLevel order.price = some level) (hmem : order ∈ level.orders) :
    (book.removeResting s level order).VolumesWrap := by
  intro t price l hl
  by_cases ht : t = s
  · subst ht
    rw [side_removeResting, BookSide.getLevel_replaceLevel hlevel] at hl
    by_cases hp : price = order.price
    · rw [if_pos hp] at hl
      by_cases hempty : (level.without order).orders.isEmpty
      · rw [if_pos hempty] at hl
        cases hl
      · rw [if_neg hempty, Option.some.injEq] at hl
        subst hl
        have hperm := PriceLevel.perm_without (h.level _ _ _ hlevel).increasing hmem
        have hsum : totalSize level.orders =
            order.size + totalSize (level.without order).orders := (hperm.map Order.size).sum_eq
        have hword := hwords t order (BookSide.mem_resting.mpr ⟨_, _, hlevel, hmem⟩)
        have hwraps := hv _ _ _ hlevel
        unfold PriceLevel.Wraps at hwraps ⊢
        change wrappingSub 64 level.totalVolume order.size = _
        rw [hwraps, wrappingSub_truncate (by omega) hword.le, hsum, Nat.add_sub_cancel_left]
    · rw [if_neg hp] at hl
      exact hv _ _ _ hl
  · rw [side_removeResting_ne _ _ ht] at hl
    exact hv _ _ _ hl

theorem VolumesWrap.cancelOrder (hv : book.VolumesWrap) (h : book.Shape) (hwords : book.Words)
    (cache : PriceCache) : (book.cancelOrder cmd cache).book.VolumesWrap := by
  rcases cancelOrder_book book cmd cache with heq | heq
  · rw [heq]
    exact hv
  · rw [heq]
    rcases cancelByIndex_cases h cmd with ⟨_, hout⟩ | ⟨_, hout⟩ |
      ⟨s, level, order, hlevel, hmem, _, _, hout⟩
    · rw [hout]
      exact hv
    · rw [hout]
      intro s price level hlevel
      rw [side_setOrders] at hlevel
      exact hv s price level hlevel
    · rw [hout]
      exact hv.removeResting h hwords hlevel hmem

/-- Sums that fit are exact, whatever they were before. -/
theorem VolumesWrap.tidy (hv : book.VolumesWrap) (h : book.Shape) (hfits : book.VolumesFit) :
    book.Tidy := by
  intro s price level hlevel
  have hshape := h.level s price level hlevel
  refine ⟨hshape.nonempty, fun o ho => (hshape.placed o ho).1, ?_⟩
  have hwraps := hv s price level hlevel
  rw [PriceLevel.Wraps, totalSize, truncate_of_lt (hfits s price level hlevel)] at hwraps
  exact hwraps

end Operations

end OrderBook

end VexCore
