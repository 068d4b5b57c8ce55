import VexCore.Orderbook.Run

/-!
# Sizes and volumes

With positive sizes and level volumes within 64 bits, every resting order keeps a positive size
of at most its original one, and every level's cached volume is the sum of its queue.
-/

namespace VexCore

open Framework

namespace OrderBook

def Sized (book : OrderBook) : Prop :=
  ∀ s price level, (book.side s).getLevel price = some level → level.Sized

theorem Sized.resting {book : OrderBook} (h : book.Sized) {s : Side} {o : Order}
    (ho : o ∈ (book.side s).resting) : 0 < o.size ∧ o.size ≤ o.originalSize := by
  obtain ⟨price, level, hlevel, hmem⟩ := BookSide.mem_resting.mp ho
  exact (h s price level hlevel).sizes o hmem

theorem new_sized (marketId : Nat) : (new marketId).Sized := by
  intro s price level h
  cases s <;> cases h

theorem referenceFills_nodup {book : OrderBook} (h : book.Shape) (cmd : OrderCommand) :
    ((book.referenceFills cmd).map fun f => f.source.orderId).Nodup := by
  have hsources := allocate_sources_sublist Order.size cmd.size (book.eligible cmd)
  have heligible : (book.eligible cmd).Sublist (book.side cmd.side.opSide).resting :=
    List.filter_sublist
  have hids := ((hsources.trans heligible).map Order.orderId)
  rw [List.map_map] at hids
  exact (h.nodup _).sublist hids

theorem referenceFills_source_mem {book : OrderBook} {cmd : OrderCommand} {f : Fill Order}
    (hf : f ∈ book.referenceFills cmd) : f.source ∈ (book.side cmd.side.opSide).resting :=
  List.mem_of_mem_filter (source_mem_of_mem_allocate hf)

theorem Shape.eq_of_orderId {book : OrderBook} (h : book.Shape) {s : Side} {a b : Order}
    (ha : a ∈ (book.side s).resting) (hb : b ∈ (book.side s).resting)
    (hid : a.orderId = b.orderId) : a = b :=
  List.inj_on_of_nodup_map (h.nodup s) ha hb hid

/-- A fill takes from its maker what the event says, no more than is there. -/
theorem taken_eq_amount {book : OrderBook} (h : book.Shape) {cmd : OrderCommand} {f : Fill Order}
    (hf : f ∈ book.referenceFills cmd) :
    taken Order.orderId (book.referenceFills cmd) f.source.orderId = f.amount :=
  taken_of_mem (referenceFills_nodup h cmd) hf

/-- A resting order that is not completed keeps a positive size. -/
theorem taken_lt_size {book : OrderBook} (h : book.Shape) {cmd : OrderCommand} {o : Order}
    (ho : o ∈ (book.side cmd.side.opSide).resting) (hpos : 0 < o.size)
    (hcompletes : completes (book.referenceFills cmd) o.orderId = false) :
    taken Order.orderId (book.referenceFills cmd) o.orderId < o.size := by
  by_cases hfill : ∃ f ∈ book.referenceFills cmd, f.source.orderId = o.orderId
  · obtain ⟨f, hf, hid⟩ := hfill
    have hsource : f.source = o := h.eq_of_orderId (referenceFills_source_mem hf) ho hid
    have htaken := taken_eq_amount h hf
    rw [hsource] at htaken
    have hleft : f.source.size - f.amount ≠ 0 := by
      intro hzero
      simp only [completes, List.any_eq_false] at hcompletes
      exact hcompletes f hf (by simp [hid, hzero])
    rw [hsource] at hleft
    omega
  · have hnone : taken Order.orderId (book.referenceFills cmd) o.orderId = 0 := by
      apply taken_of_not_mem
      intro f hf heq
      exact hfill ⟨f, hf, heq⟩
    omega

theorem VolumesFit.entries {book : OrderBook} (hfits : book.VolumesFit) (hsized : book.Sized)
    (s : Side) : ∀ e ∈ (book.side s).entries,
      e.2.totalVolume = (e.2.orders.map Order.size).sum ∧ e.2.totalVolume < 2 ^ 64 := by
  intro e he
  have hlevel := SortedMap.find?_eq_some.mpr he
  have hvolume := (hsized s e.1 e.2 hlevel).volume
  exact ⟨hvolume, by rw [hvolume]; exact hfits s e.1 e.2 hlevel⟩

theorem matchOrder_sized {book : OrderBook} (h : book.Shape) (hsized : book.Sized)
    (hfits : book.VolumesFit) (cmd : OrderCommand) : (book.matchOrder cmd).1.Sized := by
  intro s price level hlevel
  by_cases hs : s = cmd.side.opSide
  · subst hs
    obtain ⟨_, old, hold, hqueue⟩ := matchOrder_level h hlevel
    refine ⟨?_, ?_⟩
    · have hvolume := matchOrder_volume h cmd (hfits.entries hsized cmd.side.opSide)
      exact hvolume _ (SortedMap.find?_eq_some.mp hlevel)
    · intro o' ho'
      rw [hqueue] at ho'
      obtain ⟨o, ho, hafter⟩ := List.mem_filterMap.mp ho'
      obtain ⟨hcompletes, rfl⟩ := afterFills_eq_some hafter
      obtain ⟨hpos, hle⟩ := (hsized _ _ _ hold).sizes o ho
      have hrest := BookSide.mem_resting.mpr ⟨_, _, hold, ho⟩
      have htaken := taken_lt_size h hrest hpos hcompletes
      refine ⟨?_, ?_⟩ <;> simp only <;> omega
  · rw [matchOrder_side_ne hs] at hlevel
    exact hsized s price level hlevel

theorem addToBook_sized {book : OrderBook} {cmd : OrderCommand} {remaining : Nat}
    (hsized : book.Sized) (hpos : 0 < remaining) (hle : remaining ≤ cmd.size)
    (hfits : (book.addToBook cmd remaining).VolumesFit) :
    (book.addToBook cmd remaining).Sized := by
  intro s price level hlevel
  by_cases hs : s = cmd.side
  · subst hs
    have hsum := hfits _ _ _ hlevel
    rw [side_addToBook, BookSide.getLevel_getOrCreateLevel] at hlevel
    by_cases hp : price = cmd.price
    · rw [if_pos hp, Option.some.injEq] at hlevel
      have hold : (((book.side cmd.side).getLevel price).getD .new).Sized := by
        cases hget : (book.side cmd.side).getLevel price with
        | none => exact ⟨rfl, by simp [PriceLevel.new]⟩
        | some old => exact hsized _ _ _ hget
      subst hlevel
      simp only [PriceLevel.addOrder, List.map_append, List.map_cons, List.map_nil,
        List.sum_append, List.sum_cons, List.sum_nil, Nat.add_zero] at hsum
      rw [← hold.volume] at hsum
      refine ⟨?_, ?_⟩
      · simp only [PriceLevel.addOrder, List.map_append, List.map_cons, List.map_nil,
          List.sum_append, List.sum_cons, List.sum_nil, Nat.add_zero]
        rw [wrappingAdd_of_lt hsum, hold.volume]
      · intro o ho
        rcases List.mem_append.mp ho with ho | ho
        · exact hold.sizes o ho
        · rw [List.mem_singleton] at ho
          subst ho
          exact ⟨hpos, hle⟩
    · rw [if_neg hp] at hlevel
      exact hsized _ _ _ hlevel
  · rw [side_addToBook_ne remaining hs] at hlevel
    exact hsized _ _ _ hlevel

theorem placeOrder_sized {book : OrderBook} (h : book.Shape) (hsized : book.Sized)
    (hfits : book.VolumesFit) {cmd : OrderCommand} (hpos : 0 < cmd.size) {cache : PriceCache}
    (hafter : (book.placeOrder cmd cache).book.VolumesFit) :
    (book.placeOrder cmd cache).book.Sized := by
  rcases placeOrder_book_cases book cmd cache with heq | heq | ⟨_, hrest, heq⟩
  · rw [heq]
    exact hsized
  · rw [heq]
    exact matchOrder_sized h hsized hfits cmd
  · rw [heq] at hafter ⊢
    have hpositive : 0 < (book.matchOrder cmd).2.2 := by omega
    exact addToBook_sized (matchOrder_sized h hsized hfits cmd) hpositive
      (matchOrder_remaining_le book h cmd) hafter

theorem without_sized {level : PriceLevel} {s : Side} {order : Order}
    (hshape : level.Shape s order.price) (hsized : level.Sized)
    (hfits : (level.orders.map Order.size).sum < 2 ^ 64) (hmem : order ∈ level.orders) :
    (level.without order).Sized := by
  have hperm := (PriceLevel.perm_without hshape.increasing hmem).map Order.size
  have hsum := hperm.sum_eq
  rw [List.map_cons, List.sum_cons] at hsum
  have hvolume := hsized.volume
  have hsub : (level.without order).totalVolume = level.totalVolume - order.size :=
    wrappingSub_of_le (by omega) (by omega)
  refine ⟨?_, ?_⟩
  · rw [hsub]
    omega
  · intro o ho
    exact hsized.sizes o (List.mem_of_mem_filter ho)

theorem cancelOrder_sized {book : OrderBook} (h : book.Shape) (hsized : book.Sized)
    (hfits : book.VolumesFit) (cmd : OrderCommand) (cache : PriceCache) :
    (book.cancelOrder cmd cache).book.Sized := by
  rcases cancelOrder_book book cmd cache with heq | heq
  · rw [heq]
    exact hsized
  · rw [heq]
    rcases cancelByIndex_cases h cmd with ⟨_, hout⟩ | ⟨_, hout⟩ |
      ⟨t, level, order, hlevel, hmem, _, _, hout⟩
    · rw [hout]
      exact hsized
    · rw [hout]
      intro s price l hl
      rw [side_setOrders] at hl
      exact hsized s price l hl
    · rw [hout]
      intro s price l hl
      by_cases hs : s = t
      · subst hs
        rw [side_removeResting, BookSide.getLevel_replaceLevel hlevel] at hl
        by_cases hp : price = order.price
        · rw [if_pos hp] at hl
          by_cases hempty : (level.without order).orders.isEmpty
          · rw [if_pos hempty] at hl
            cases hl
          · rw [if_neg hempty, Option.some.injEq] at hl
            subst hl
            exact without_sized (h.level _ _ _ hlevel) (hsized _ _ _ hlevel)
              (hfits _ _ _ hlevel) hmem
        · rw [if_neg hp] at hl
          exact hsized _ _ _ hl
      · rw [side_removeResting_ne _ _ hs] at hl
        exact hsized _ _ _ hl

theorem new_volumesFit (marketId : Nat) : (new marketId).VolumesFit := by
  intro s price level h
  cases s <;> cases h

theorem Run.fits {marketId : Nat} {calls : List Call} {book : OrderBook}
    (run : Run marketId VolumesFit calls book) : book.VolumesFit := by
  cases run with
  | start => exact new_volumesFit marketId
  | place _ _ _ _ _ fits => exact fits
  | cancel _ _ _ fits => exact fits

theorem Run.sized {marketId : Nat} {calls : List Call} {book : OrderBook}
    (run : Run marketId VolumesFit calls book) : book.Sized := by
  induction run with
  | start => exact new_sized marketId
  | place cmd cache run _ hpos fits ih =>
    exact placeOrder_sized run.invariant.shape ih run.fits hpos fits
  | cancel cmd cache run _ ih => exact cancelOrder_sized run.invariant.shape ih run.fits cmd cache

/-- The documented invariant of one price level, given the placements so far. -/
structure WellFormedLevel (placed : List OrderCommand) (s : Side) (price : Nat)
    (level : PriceLevel) : Prop where
  nonempty : level.orders ≠ []
  order : ∀ o ∈ level.orders, o.price = price ∧ o.side = s ∧ o.timeInForce = .gtc ∧
    0 < o.size ∧ o.size ≤ o.originalSize ∧
    ∃ cmd ∈ placed, cmd.orderId = o.orderId ∧ cmd.size = o.originalSize
  increasing : level.orders.Pairwise fun a b => a.orderId < b.orderId
  searchable : ∀ o ∈ level.orders, ∃ pos,
    binarySearchByKey level.orders o.orderId Order.orderId = some pos ∧
      level.orders[pos]? = some o
  volume : level.totalVolume = (level.orders.map Order.size).sum

/-- Every book of a run satisfies the representation invariant, whatever the placements,
fills and cancellations were. -/
theorem run_wellFormed {marketId : Nat} {calls : List Call} {book : OrderBook}
    (run : Run marketId VolumesFit calls book) :
    (∀ s price level, (book.side s).getLevel price = some level →
      WellFormedLevel (placements calls) s price level) ∧
    (book.bids.ids ++ book.asks.ids).Nodup := by
  have hinv := run.invariant
  have hsized := run.sized
  constructor
  · intro s price level hlevel
    have hshape := hinv.shape.level s price level hlevel
    refine ⟨hshape.nonempty, ?_, hshape.increasing, ?_, (hsized s price level hlevel).volume⟩
    · intro o ho
      obtain ⟨hprice, hside, htif⟩ := hshape.placed o ho
      obtain ⟨hpos, hle⟩ := (hsized s price level hlevel).sizes o ho
      have hrest := BookSide.mem_resting.mpr ⟨_, _, hlevel, ho⟩
      obtain ⟨cmd, hcmd, hid, _, _, _, hsize⟩ := hinv.submitted s o hrest
      exact ⟨hprice, hside, htif, hpos, hle, cmd, hcmd, hid, hsize⟩
    · intro o ho
      obtain ⟨pos, hlt, rfl⟩ := List.mem_iff_getElem.mp ho
      exact ⟨pos, binarySearchByKey_complete hshape.increasing hlt,
        List.getElem?_eq_getElem hlt⟩
  · apply List.nodup_append.mpr
    refine ⟨hinv.shape.nodup .bid, hinv.shape.nodup .ask, ?_⟩
    intro a ha b hb heq
    subst heq
    exact hinv.shape.disjoint .bid ha hb

theorem volumesFit_of_entries {book : OrderBook}
    (hbids : ∀ e ∈ book.bids.entries, (e.2.orders.map Order.size).sum < 2 ^ 64)
    (hasks : ∀ e ∈ book.asks.entries, (e.2.orders.map Order.size).sum < 2 ^ 64) :
    book.VolumesFit := by
  intro s price level hlevel
  have hmem := SortedMap.find?_eq_some.mp hlevel
  cases s with
  | bid => exact hbids (price, level) hmem
  | ask => exact hasks (price, level) hmem

/-- A bid of ten that loses four of them to an ask. -/
theorem partialFill_run :
    Run 1 VolumesFit
      [.place (.limit .bid .gtc 1 7 100 10), .place (.limit .ask .ioc 2 8 100 4)]
      (((new 1).placeOrder (.limit .bid .gtc 1 7 100 10) ⟨∅⟩).book.placeOrder
        (.limit .ask .ioc 2 8 100 4) ⟨∅⟩).book := by
  have first : Run 1 VolumesFit [] (new 1) := .start
  have second := Run.place (.limit .bid .gtc 1 7 100 10) ⟨∅⟩ first (by decide) (by decide)
    (volumesFit_of_entries (by decide) (by decide))
  exact Run.place (.limit .ask .ioc 2 8 100 4) ⟨∅⟩ second (by decide) (by decide)
    (volumesFit_of_entries (by decide) (by decide))

theorem partialFill_wellFormed :
    let book := (((new 1).placeOrder (.limit .bid .gtc 1 7 100 10) ⟨∅⟩).book.placeOrder
      (.limit .ask .ioc 2 8 100 4) ⟨∅⟩).book
    (∀ s price level, (book.side s).getLevel price = some level →
      WellFormedLevel [.limit .bid .gtc 1 7 100 10, .limit .ask .ioc 2 8 100 4] s price level) ∧
    (book.bids.ids ++ book.asks.ids).Nodup :=
  run_wellFormed partialFill_run

end OrderBook

end VexCore
