import Mathlib.Data.Finset.Sort
import VexCore.Orderbook.Sizes

/-!
# Top-of-book views

The price cache and the snapshot of a command are read off the levels of a side. They show the
orders that rest because no level is ever left empty, every order lies at its level's price and
the cached volumes are exact; none of this depends on the ids of the orders.
-/

namespace VexCore

open Framework

/-- A level that shows what rests at its price. -/
structure PriceLevel.Tidy (level : PriceLevel) (price : Nat) : Prop where
  nonempty : level.orders ≠ []
  priced : ∀ o ∈ level.orders, o.price = price
  volume : level.totalVolume = (level.orders.map Order.size).sum

namespace OrderBook

def Tidy (book : OrderBook) : Prop :=
  ∀ s price level, (book.side s).getLevel price = some level → level.Tidy price

theorem new_tidy (marketId : Nat) : (new marketId).Tidy := by
  intro s price level h
  cases s <;> cases h

theorem matchLevel_priced {takerId price p : Nat} {st : MatchState} {level : PriceLevel}
    (h : ∀ o ∈ level.orders, o.price = p) :
    ∀ o ∈ (matchLevel takerId price level st).1.orders, o.price = p := by
  obtain ⟨volume, queue⟩ := level
  induction queue generalizing volume st with
  | nil => exact h
  | cons maker rest ih =>
    have hmaker : maker.price = p := h maker List.mem_cons_self
    have hrest : ∀ o ∈ rest, o.price = p := fun o ho => h o (List.mem_cons_of_mem _ ho)
    by_cases hdone : st.remainingSize = 0
    · rw [matchLevel_done hdone]
      exact h
    · by_cases hown : maker.userId = takerId
      · rw [matchLevel_own hdone hown]
        intro o ho
        rcases List.mem_cons.mp ho with rfl | ho
        · exact hmaker
        · exact ih volume hrest o ho
      · rw [matchLevel_trade hdone hown]
        simp only
        intro o ho
        split at ho
        · exact ih _ hrest o ho
        · rcases List.mem_cons.mp ho with rfl | ho
          · exact hmaker
          · exact ih _ hrest o ho

theorem matchLevels_priced {cmd : OrderCommand} {levels : List (Nat × PriceLevel)}
    (h : ∀ e ∈ levels, ∀ o ∈ e.2.orders, o.price = e.1) (st : MatchState) :
    ∀ e ∈ (matchLevels cmd levels st).levels, ∀ o ∈ e.2.orders, o.price = e.1 := by
  induction levels generalizing st with
  | nil =>
    intro e he
    cases he
  | cons e rest ih =>
    cases hstop : !priceCheck cmd.side cmd.price e.1 || st.remainingSize == 0 with
    | true =>
      rw [matchLevels_stop rest hstop]
      exact h
    | false =>
      rw [matchLevels_step rest hstop]
      intro e' he'
      rcases List.mem_cons.mp he' with rfl | he'
      · exact matchLevel_priced (h e List.mem_cons_self)
      · exact ih (fun e he => h e (List.mem_cons_of_mem _ he)) _ e' he'

theorem Tidy.entries {book : OrderBook} (h : book.Tidy) (s : Side) :
    ∀ e ∈ (book.side s).entries, e.2.Tidy e.1 :=
  fun e he => h s e.1 e.2 (SortedMap.find?_eq_some.mpr he)

theorem matchOrder_tidy {book : OrderBook} (h : book.Tidy) (hfits : book.VolumesFit)
    (cmd : OrderCommand) : (book.matchOrder cmd).1.Tidy := by
  intro s price level hlevel
  by_cases hs : s = cmd.side.opSide
  · subst hs
    have hmem := SortedMap.find?_eq_some.mp hlevel
    rw [matchOrder_side, matchSide_entries fun e he => (h.entries _ e he).nonempty,
      List.mem_filter] at hmem
    obtain ⟨hmem, hne⟩ := hmem
    refine ⟨by simpa using hne, ?_, ?_⟩
    · exact matchLevels_priced (fun e he => (h.entries _ e he).priced) _ _ hmem
    · have hvolume : ∀ e ∈ (book.side cmd.side.opSide).entries,
          e.2.totalVolume = (e.2.orders.map Order.size).sum ∧ e.2.totalVolume < 2 ^ 64 := by
        intro e he
        have hsum := (h.entries _ e he).volume
        refine ⟨hsum, ?_⟩
        rw [hsum]
        exact hfits _ e.1 e.2 (SortedMap.find?_eq_some.mpr he)
      exact matchLevels_volume hvolume _ _ hmem
  · rw [matchOrder_side_ne hs] at hlevel
    exact h s price level hlevel

theorem addToBook_tidy {book : OrderBook} {cmd : OrderCommand} {remaining : Nat} (h : book.Tidy)
    (hfits : (book.addToBook cmd remaining).VolumesFit) : (book.addToBook cmd remaining).Tidy := by
  intro s price level hlevel
  by_cases hs : s = cmd.side
  · subst hs
    have hsum := hfits _ _ _ hlevel
    rw [side_addToBook, BookSide.getLevel_getOrCreateLevel] at hlevel
    by_cases hp : price = cmd.price
    · subst hp
      rw [if_pos rfl, Option.some.injEq] at hlevel
      have hold : (∀ o ∈ (((book.side cmd.side).getLevel cmd.price).getD .new).orders,
          o.price = cmd.price) ∧ (((book.side cmd.side).getLevel cmd.price).getD .new).totalVolume =
          ((((book.side cmd.side).getLevel cmd.price).getD .new).orders.map Order.size).sum := by
        cases hget : (book.side cmd.side).getLevel cmd.price with
        | none => exact ⟨by simp [PriceLevel.new], rfl⟩
        | some old =>
          have hlevel := h _ _ _ hget
          exact ⟨hlevel.priced, hlevel.volume⟩
      subst hlevel
      simp only [PriceLevel.addOrder, List.map_append, List.sum_append, List.map_singleton,
        List.sum_singleton] at hsum ⊢
      rw [← hold.2] at hsum
      refine ⟨by simp, ?_, ?_⟩
      · intro o ho
        rcases List.mem_append.mp ho with ho | ho
        · exact hold.1 o ho
        · rw [List.mem_singleton.mp ho]
          rfl
      · simp only [List.map_append, List.sum_append, List.map_singleton, List.sum_singleton]
        rw [wrappingAdd_of_lt hsum, hold.2]
    · rw [if_neg hp] at hlevel
      exact h _ _ _ hlevel
  · rw [side_addToBook_ne remaining hs] at hlevel
    exact h _ _ _ hlevel

theorem placeOrder_tidy {book : OrderBook} (h : book.Tidy) (hfits : book.VolumesFit)
    {cmd : OrderCommand} {cache : PriceCache}
    (hafter : (book.placeOrder cmd cache).book.VolumesFit) :
    (book.placeOrder cmd cache).book.Tidy := by
  rcases placeOrder_book_cases book cmd cache with heq | heq | ⟨_, _, heq⟩
  · rw [heq]
    exact h
  · rw [heq]
    exact matchOrder_tidy h hfits cmd
  · rw [heq] at hafter ⊢
    exact addToBook_tidy (matchOrder_tidy h hfits cmd) hafter

theorem removeOrder_level {level : PriceLevel} {price : Nat} (h : level.Tidy price)
    (hfits : (level.orders.map Order.size).sum < 2 ^ 64) (orderId : Nat) (cmd : OrderCommand) :
    (∀ o ∈ (level.removeOrder orderId cmd).1.orders, o.price = price) ∧
      (level.removeOrder orderId cmd).1.totalVolume =
        ((level.removeOrder orderId cmd).1.orders.map Order.size).sum := by
  have hself := And.intro h.priced h.volume
  unfold PriceLevel.removeOrder
  split
  · rename_i pos _
    split
    · rename_i removed hget
      obtain ⟨hlt, rfl⟩ := List.getElem?_eq_some_iff.mp hget
      have hperm := (List.getElem_cons_eraseIdx_perm hlt).map Order.size
      have hsum := hperm.sum_eq
      rw [List.map_cons, List.sum_cons] at hsum
      have hvolume := h.volume
      constructor
      · intro o ho
        exact h.priced o (List.mem_of_mem_eraseIdx ho)
      · simp only
        rw [wrappingSub_of_le (by omega) (by omega)]
        omega
    · exact hself
  · exact hself

theorem cancelOnSide_tidy {book : OrderBook} (h : book.Tidy) (hfits : book.VolumesFit) {s : Side}
    {price : Nat} {level : PriceLevel} (hlevel : (book.side s).getLevel price = some level)
    (cmd : OrderCommand) : (book.cancelOnSide s price level cmd).1.Tidy := by
  obtain ⟨hpriced, hvolume⟩ := removeOrder_level (h _ _ _ hlevel) (hfits _ _ _ hlevel) cmd.orderId
    cmd
  intro t q l hl
  by_cases ht : t = s
  · subst ht
    rw [cancelOnSide, side_withSide] at hl
    have hget := BookSide.getLevel_replaceLevel hlevel (level.removeOrder cmd.orderId cmd).1 q
    rw [BookSide.replaceLevel, hl] at hget
    by_cases hq : q = price
    · subst hq
      rw [if_pos rfl] at hget
      split at hget
      · cases hget
      · rename_i hne
        cases hget
        exact ⟨by simpa using hne, hpriced, hvolume⟩
    · rw [if_neg hq] at hget
      exact h _ _ _ hget.symm
  · rw [cancelOnSide, side_withSide_ne _ ht] at hl
    exact h _ _ _ hl

theorem cancelByIndex_split (book : OrderBook) (cmd : OrderCommand) :
    ∃ orders : HashMap Nat Nat,
      (book.cancelByIndex cmd = ({ book with orders }, { cmd with status := .rejected })) ∨
      ∃ s price level, (book.side s).getLevel price = some level ∧
        book.cancelByIndex cmd =
          ({ book with orders } : OrderBook).cancelOnSide s price level cmd := by
  unfold cancelByIndex
  split
  · rename_i price _
    refine ⟨book.orders.erase cmd.orderId, ?_⟩
    simp only
    split
    · rename_i level hbid
      exact .inr ⟨.bid, price, level, hbid, rfl⟩
    · split
      · rename_i level hask
        exact .inr ⟨.ask, price, level, hask, rfl⟩
      · exact .inl rfl
  · exact ⟨book.orders, .inl rfl⟩

theorem cancelOrder_tidy {book : OrderBook} (h : book.Tidy) (hfits : book.VolumesFit)
    (cmd : OrderCommand) (cache : PriceCache) : (book.cancelOrder cmd cache).book.Tidy := by
  have hindex (orders : HashMap Nat Nat) : ({ book with orders } : OrderBook).Tidy := by
    intro s price level hlevel
    rw [side_setOrders] at hlevel
    exact h s price level hlevel
  have hindexFits (orders : HashMap Nat Nat) : ({ book with orders } : OrderBook).VolumesFit := by
    intro s price level hlevel
    rw [side_setOrders] at hlevel
    exact hfits s price level hlevel
  rcases cancelOrder_book book cmd cache with heq | heq
  · rw [heq]
    exact h
  · rw [heq]
    obtain ⟨orders, hsplit | ⟨s, price, level, hlevel, hsplit⟩⟩ := cancelByIndex_split book cmd
    · rw [hsplit]
      exact hindex orders
    · rw [hsplit]
      refine cancelOnSide_tidy (hindex orders) (hindexFits orders) ?_ cmd
      rw [side_setOrders]
      exact hlevel

theorem placeOrder_snapshot {cmd : OrderCommand} (h : cmd.status ≠ .rejected) (book : OrderBook)
    (cache : PriceCache) :
    (book.placeOrder cmd cache).cmd.l2Data = some (book.placeOrder cmd cache).book.l2Snapshot := by
  rw [placeOrder, if_neg h]
  rfl

theorem cancelOrder_snapshot (book : OrderBook) (cmd : OrderCommand) (cache : PriceCache) :
    (book.cancelOrder cmd cache).cmd.l2Data = cmd.l2Data ∨
      (book.cancelOrder cmd cache).cmd.l2Data =
        some (book.cancelOrder cmd cache).book.l2Snapshot := by
  unfold cancelOrder
  split
  · exact .inl rfl
  · obtain ⟨orders, hsplit | ⟨s, price, level, _, hsplit⟩⟩ := cancelByIndex_split book cmd
    · rw [hsplit]
      exact .inl rfl
    · rw [hsplit]
      exact .inr rfl

theorem matchOrder_marketId (book : OrderBook) (cmd : OrderCommand) :
    (book.matchOrder cmd).1.marketId = book.marketId :=
  marketId_withSide book cmd.side.opSide _

theorem placeOrder_marketId (book : OrderBook) (cmd : OrderCommand) (cache : PriceCache) :
    (book.placeOrder cmd cache).book.marketId = book.marketId := by
  rcases placeOrder_book_cases book cmd cache with heq | heq | ⟨_, _, heq⟩
  · rw [heq]
  · rw [heq, matchOrder_marketId]
  · rw [heq]
    exact (marketId_withSide _ _ _).trans (matchOrder_marketId book cmd)

theorem cancelOrder_marketId (book : OrderBook) (cmd : OrderCommand) (cache : PriceCache) :
    (book.cancelOrder cmd cache).book.marketId = book.marketId := by
  rcases cancelOrder_book book cmd cache with heq | heq
  · rw [heq]
  · rw [heq]
    unfold cancelByIndex
    split
    · simp only
      split
      · exact marketId_withSide _ _ _
      · split
        · exact marketId_withSide _ _ _
        · rfl
    · rfl

theorem placeOrder_cache {cmd : OrderCommand} (h : cmd.status ≠ .rejected) (book : OrderBook)
    (cache : PriceCache) : (book.placeOrder cmd cache).cache =
      (book.placeOrder cmd cache).book.updatePriceCache cache := by
  rw [placeOrder, if_neg h]

theorem cancelOrder_cache {cmd : OrderCommand} (h : cmd.status ≠ .rejected) (book : OrderBook)
    (cache : PriceCache) : (book.cancelOrder cmd cache).cache =
      (book.cancelOrder cmd cache).book.updatePriceCache cache := by
  rw [cancelOrder, if_neg h]

/-- The entry of the price cache that fits a book. -/
def Cached (book : OrderBook) (cache : PriceCache) : Prop :=
  cache.prices.lookup book.marketId = some ⟨book.bids.bestPrice, book.asks.bestPrice⟩

theorem updatePriceCache_cached {book : OrderBook} {cache : PriceCache} {entry : MarketPrice}
    (h : cache.prices.lookup book.marketId = some entry) :
    book.Cached (book.updatePriceCache cache) := by
  unfold Cached updatePriceCache PriceCache.updatePrices
  rw [h]
  exact Finmap.lookup_insert _

/-- The prices at which bids rest, highest first. -/
def bidPrices (book : OrderBook) : List Nat :=
  (book.bids.resting.map Order.price).toFinset.sort (· ≥ ·)

/-- The prices at which asks rest, lowest first. -/
def askPrices (book : OrderBook) : List Nat :=
  (book.asks.resting.map Order.price).toFinset.sort (· ≤ ·)

/-- The total size of the orders that rest on a side at a price. -/
def volumeAt (book : OrderBook) (s : Side) (price : Nat) : Nat :=
  (((book.side s).resting.filter fun o => o.price = price).map Order.size).sum

/-- The best ten prices of each side, with what rests there. -/
def topLevels (book : OrderBook) : L2MarketData :=
  { bidPrices := book.bidPrices.take l2Size
    bidVolumes := (book.bidPrices.take l2Size).map (book.volumeAt .bid)
    askPrices := book.askPrices.take l2Size
    askVolumes := (book.askPrices.take l2Size).map (book.volumeAt .ask) }

theorem keys_nodup {s : Side} (side : BookSide s) : (side.entries.map Prod.fst).Nodup := by
  refine List.Pairwise.imp ?_ side.sorted
  intro p q hbetter heq
  subst heq
  exact irrefl (r := s.Better) p hbetter

theorem sort_prices {book : OrderBook} (h : book.Tidy) (s : Side) (r : Nat → Nat → Prop)
    [DecidableRel r] [IsTrans Nat r] [Std.Antisymm r] [Std.Total r]
    (hbetter : ∀ p q, s.Better p q → r p q) :
    ((book.side s).resting.map Order.price).toFinset.sort r =
      (book.side s).entries.map Prod.fst := by
  have hset : ((book.side s).resting.map Order.price).toFinset =
      ((book.side s).entries.map Prod.fst).toFinset := by
    ext p
    simp only [List.mem_toFinset, List.mem_map]
    constructor
    · intro ⟨o, ho, hp⟩
      obtain ⟨e, he, hmem⟩ := List.mem_flatMap.mp ho
      exact ⟨e, he, ((h.entries s e he).priced o hmem).symm.trans hp⟩
    · intro ⟨e, he, hp⟩
      obtain ⟨o, ho⟩ := List.exists_mem_of_ne_nil _ (h.entries s e he).nonempty
      exact ⟨o, List.mem_flatMap.mpr ⟨e, he, ho⟩, ((h.entries s e he).priced o ho).trans hp⟩
  rw [hset, List.toFinset_sort r (keys_nodup _)]
  exact (book.side s).sorted.imp (hbetter _ _)

theorem volumeAt_entry {book : OrderBook} (h : book.Tidy) {s : Side} {e : Nat × PriceLevel}
    (he : e ∈ (book.side s).entries) : book.volumeAt s e.1 = e.2.totalVolume := by
  have hlevel : (book.side s).getLevel e.1 = some e.2 := SortedMap.find?_eq_some.mpr he
  have hperm := (BookSide.resting_perm_erase hlevel).filter fun o => decide (o.price = e.1)
  have htidy := h.entries s e he
  have hown : e.2.orders.filter (fun o => decide (o.price = e.1)) = e.2.orders := by
    apply List.filter_eq_self.mpr
    intro o ho
    simp [htidy.priced o ho]
  have hothers : (BookSide.resting (SortedMap.erase (book.side s) e.1)).filter
      (fun o => decide (o.price = e.1)) = [] := by
    apply List.filter_eq_nil_iff.mpr
    intro o ho hprice
    obtain ⟨e', he', hmem⟩ := List.mem_flatMap.mp ho
    obtain ⟨he', hne⟩ := List.mem_filter.mp he'
    have hprice' := (h.entries s e' he').priced o hmem
    simp only [decide_eq_true_eq] at hprice hne
    exact hne (hprice'.symm.trans hprice)
  rw [List.filter_append, hown, hothers, List.append_nil] at hperm
  rw [volumeAt, (hperm.map Order.size).sum_eq, htidy.volume]

theorem Tidy.bidPrices {book : OrderBook} (h : book.Tidy) :
    book.bidPrices = book.bids.entries.map Prod.fst :=
  sort_prices h .bid (· ≥ ·) fun _ _ hlt => Nat.le_of_lt hlt

theorem Tidy.askPrices {book : OrderBook} (h : book.Tidy) :
    book.askPrices = book.asks.entries.map Prod.fst :=
  sort_prices h .ask (· ≤ ·) fun _ _ hlt => Nat.le_of_lt hlt

theorem volumes_eq {book : OrderBook} (h : book.Tidy) (s : Side) (n : Nat) :
    (((book.side s).entries.map Prod.fst).take n).map (book.volumeAt s) =
      ((book.side s).entries.take n).map fun e => e.2.totalVolume := by
  rw [← List.map_take, List.map_map]
  apply List.map_congr_left
  intro e he
  exact volumeAt_entry h (List.mem_of_mem_take he)

theorem Tidy.l2Snapshot {book : OrderBook} (h : book.Tidy) : book.l2Snapshot = book.topLevels := by
  have hbids : ((book.bids.entries.map Prod.fst).take l2Size).map (book.volumeAt .bid) = _ :=
    volumes_eq h .bid l2Size
  have hasks : ((book.asks.entries.map Prod.fst).take l2Size).map (book.volumeAt .ask) = _ :=
    volumes_eq h .ask l2Size
  rw [topLevels, h.bidPrices, h.askPrices, hbids, hasks, ← List.map_take, ← List.map_take]
  rfl

theorem bestPrice_bid (side : BookSide .bid) :
    side.bestPrice = (side.entries.map Prod.fst).headD 0 := by
  unfold BookSide.bestPrice
  cases side.entries <;> rfl

theorem bestPrice_ask (side : BookSide .ask) :
    side.bestPrice = (side.entries.map Prod.fst).headD u64Max := by
  unfold BookSide.bestPrice
  cases side.entries <;> rfl

/-- The cache entry of the market shows the best resting prices, and a command that carries a
snapshot shows the best levels. -/
structure ViewsMatch (marketId : Nat) (out : Outcome) : Prop where
  cache : out.cache.prices.lookup marketId =
    some ⟨out.book.bidPrices.headD 0, out.book.askPrices.headD u64Max⟩
  snapshot : ∀ snapshot, out.cmd.l2Data = some snapshot → snapshot = out.book.topLevels

/-- Commands on a market, with what each left. Commands arrive without a snapshot; in between,
the other markets write their own entries of the cache. -/
inductive MarketRun (marketId : Nat) : Outcome → Prop
  | start (cache : PriceCache) (opened : cache.prices.lookup marketId = some {}) :
      MarketRun marketId ⟨new marketId, {}, cache⟩
  | place {out : Outcome} (cmd : OrderCommand) (run : MarketRun marketId out)
      (positive : 0 < cmd.size) (arrived : cmd.l2Data = none)
      (fits : (out.book.placeOrder cmd out.cache).book.VolumesFit) :
      MarketRun marketId (out.book.placeOrder cmd out.cache)
  | cancel {out : Outcome} (cmd : OrderCommand) (run : MarketRun marketId out)
      (arrived : cmd.l2Data = none)
      (fits : (out.book.cancelOrder cmd out.cache).book.VolumesFit) :
      MarketRun marketId (out.book.cancelOrder cmd out.cache)
  | others {out : Outcome} (cache : PriceCache) (run : MarketRun marketId out)
      (kept : cache.prices.lookup marketId = out.cache.prices.lookup marketId) :
      MarketRun marketId { out with cache }

/-- What every outcome of a market satisfies. -/
structure MarketInvariant (marketId : Nat) (out : Outcome) : Prop where
  market : out.book.marketId = marketId
  tidy : out.book.Tidy
  fits : out.book.VolumesFit
  cached : out.book.Cached out.cache
  shown : ∀ snapshot, out.cmd.l2Data = some snapshot → snapshot = out.book.l2Snapshot

theorem MarketInvariant.place {marketId : Nat} {out : Outcome} (h : MarketInvariant marketId out)
    {cmd : OrderCommand} (arrived : cmd.l2Data = none)
    (fits : (out.book.placeOrder cmd out.cache).book.VolumesFit) :
    MarketInvariant marketId (out.book.placeOrder cmd out.cache) := by
  have hmarket := placeOrder_marketId out.book cmd out.cache
  refine ⟨hmarket.trans h.market, placeOrder_tidy h.tidy h.fits fits, fits, ?_, ?_⟩
  · by_cases hrejected : cmd.status = .rejected
    · rw [rejected_placeOrder hrejected]
      exact h.cached
    · rw [placeOrder_cache hrejected]
      apply updatePriceCache_cached
      rw [hmarket]
      exact h.cached
  · intro snapshot hsnapshot
    by_cases hrejected : cmd.status = .rejected
    · rw [rejected_placeOrder hrejected, arrived] at hsnapshot
      cases hsnapshot
    · rw [placeOrder_snapshot hrejected] at hsnapshot
      exact (Option.some.inj hsnapshot).symm

theorem MarketInvariant.cancel {marketId : Nat} {out : Outcome} (h : MarketInvariant marketId out)
    {cmd : OrderCommand} (arrived : cmd.l2Data = none)
    (fits : (out.book.cancelOrder cmd out.cache).book.VolumesFit) :
    MarketInvariant marketId (out.book.cancelOrder cmd out.cache) := by
  have hmarket := cancelOrder_marketId out.book cmd out.cache
  refine ⟨hmarket.trans h.market, cancelOrder_tidy h.tidy h.fits cmd out.cache, fits, ?_, ?_⟩
  · by_cases hrejected : cmd.status = .rejected
    · rw [cancelOrder, if_pos hrejected]
      exact h.cached
    · rw [cancelOrder_cache hrejected]
      apply updatePriceCache_cached
      rw [hmarket]
      exact h.cached
  · intro snapshot hsnapshot
    rcases cancelOrder_snapshot out.book cmd out.cache with heq | heq
    · rw [heq, arrived] at hsnapshot
      cases hsnapshot
    · rw [heq] at hsnapshot
      exact (Option.some.inj hsnapshot).symm

theorem MarketRun.invariant {marketId : Nat} {out : Outcome} (run : MarketRun marketId out) :
    MarketInvariant marketId out := by
  induction run with
  | start cache opened =>
    exact ⟨rfl, new_tidy marketId, new_volumesFit marketId, opened, fun _ h => by cases h⟩
  | place cmd _ _ arrived fits ih => exact ih.place arrived fits
  | cancel cmd _ arrived fits ih => exact ih.cancel arrived fits
  | others cache _ kept ih =>
    refine ⟨ih.market, ih.tidy, ih.fits, ?_, ih.shown⟩
    rw [← ih.market] at kept
    exact kept.trans ih.cached

/-- After every command on a market, cache and snapshot show what rests. -/
theorem run_viewsMatch {marketId : Nat} {out : Outcome} (run : MarketRun marketId out) :
    ViewsMatch marketId out := by
  have h := run.invariant
  constructor
  · rw [h.tidy.bidPrices, h.tidy.askPrices, ← bestPrice_bid, ← bestPrice_ask, ← h.market]
    exact h.cached
  · intro snapshot hsnapshot
    rw [h.shown snapshot hsnapshot, h.tidy.l2Snapshot]

/-- A bid of ten, four of which an ask takes. -/
theorem run_viewsMatch_partialFill :
    let placed := (new 1).placeOrder (.limit .bid .gtc 1 7 100 10) ⟨Finmap.singleton 1 {}⟩
    ViewsMatch 1 (placed.book.placeOrder (.limit .ask .ioc 2 8 100 4) placed.cache) := by
  intro placed
  have first : MarketRun 1 ⟨new 1, {}, ⟨Finmap.singleton 1 {}⟩⟩ :=
    .start _ Finmap.lookup_singleton_eq
  have second := first.place (.limit .bid .gtc 1 7 100 10) (by decide) rfl
    (volumesFit_of_entries (by decide) (by decide))
  have third := second.place (.limit .ask .ioc 2 8 100 4) (by decide) rfl
    (volumesFit_of_entries (by decide) (by decide))
  exact run_viewsMatch third

end OrderBook

end VexCore
