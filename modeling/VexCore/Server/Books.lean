import VexCore.Orderbook.Views
import VexCore.Server.Frames

/-!
# The order books inside the engine

In every state of a run each shard holds the books of its markets, every book is well shaped,
and the price cache shows its best prices.
-/

namespace VexCore

open Framework

namespace OrderBook

theorem updatePriceCache_ne {book : OrderBook} (cache : PriceCache) {marketId : Nat}
    (h : marketId ≠ book.marketId) :
    (book.updatePriceCache cache).prices.lookup marketId = cache.prices.lookup marketId := by
  unfold updatePriceCache PriceCache.updatePrices
  split
  · exact Finmap.lookup_insert_of_ne _ h
  · rfl

/-- Refreshing an entry that fits changes no lookup. -/
theorem updatePriceCache_of_cached {book : OrderBook} {cache : PriceCache} (h : book.Cached cache)
    (marketId : Nat) :
    (book.updatePriceCache cache).prices.lookup marketId = cache.prices.lookup marketId := by
  by_cases hm : marketId = book.marketId
  · subst hm
    exact (updatePriceCache_cached h).trans h.symm
  · exact updatePriceCache_ne cache hm

end OrderBook

/-- What a matching shard can do: leave books and cache alone, or run one operation on the book
of the command's market. -/
theorem matchingHandler_cases (router : MatchingEngineRouter) (cmd : OrderCommand)
    (cache : PriceCache) :
    ((matchingHandler router cmd cache).1 = router.orderBooks ∧
      (matchingHandler router cmd cache).2.2 = cache ∧
      ((matchingHandler router cmd cache).2.1 = cmd ∨
        (cmd.status ≠ .rejected ∧ router.orderBooks.lookup cmd.marketId = none ∧
          router.marketForThisHandler cmd.marketId = true ∧
          (matchingHandler router cmd cache).2.1 = { cmd with status := .rejected }))) ∨
    ∃ book, router.orderBooks.lookup cmd.marketId = some book ∧ cmd.status ≠ .rejected ∧
      ((cmd.command = .placeOrder ∧ matchingHandler router cmd cache =
          (router.orderBooks.insert cmd.marketId (book.placeOrder cmd cache).book,
            (book.placeOrder cmd cache).cmd, (book.placeOrder cmd cache).cache)) ∨
        (cmd.command = .cancelOrder ∧ matchingHandler router cmd cache =
          (router.orderBooks.insert cmd.marketId (book.cancelOrder cmd cache).book,
            (book.cancelOrder cmd cache).cmd, (book.cancelOrder cmd cache).cache))) := by
  by_cases hskip : cmd.command = .depositFunds ∨ cmd.command = .withdrawFunds ∨
      cmd.status = .rejected
  · rw [matchingHandler, if_pos hskip]
    exact .inl ⟨rfl, rfl, .inl rfl⟩
  · have hstatus : cmd.status ≠ .rejected := fun h => hskip (.inr (.inr h))
    rw [matchingHandler, if_neg hskip]
    unfold MatchingEngineRouter.processOrder
    cases hhome : router.marketForThisHandler cmd.marketId with
    | false => exact .inl ⟨rfl, rfl, .inl rfl⟩
    | true =>
      simp only [if_true]
      cases hbook : router.orderBooks.lookup cmd.marketId with
      | none => exact .inl ⟨rfl, rfl, .inr ⟨hstatus, rfl, trivial, rfl⟩⟩
      | some book =>
        cases hcommand : cmd.command with
        | placeOrder => exact .inr ⟨book, rfl, hstatus, .inl ⟨rfl, rfl⟩⟩
        | cancelOrder => exact .inr ⟨book, rfl, hstatus, .inr ⟨rfl, rfl⟩⟩
        | depositFunds => exact absurd (.inl hcommand) hskip
        | withdrawFunds => exact absurd (.inr (.inl hcommand)) hskip

namespace Engine

variable {config : Config}

/-- Placements reach matching with increasing order ids, as `place_order` documents. -/
def IdsIncrease (h : Handler) (s : State) : Prop :=
  ∀ shard, h = .matching shard → (s.slots (s.seq h)).ingested.command = .placeOrder →
    ∀ i < s.seq h, (s.slots i).ingested.command = .placeOrder →
      (s.slots i).cmd.orderId < (s.slots (s.seq h)).cmd.orderId

instance (h : Handler) (s : State) : Decidable (IdsIncrease h s) :=
  inferInstanceAs (Decidable (∀ shard, h = .matching shard →
    (s.slots (s.seq h)).ingested.command = .placeOrder →
      ∀ i < s.seq h, (s.slots i).ingested.command = .placeOrder →
        (s.slots i).cmd.orderId < (s.slots (s.seq h)).cmd.orderId))

/-- The market a shard is at home in. -/
def homeShard (marketId : Nat) (shard : Fin numMatchingEngines) : Prop :=
  marketId &&& (numMatchingEngines - 1) = shard

/-- The books of a state, and what is known of each. -/
structure BooksInvariant (config : Config) (s : State) : Prop where
  command : ∀ n, (s.slots n).cmd.command = (s.slots n).ingested.command
  home : ∀ shard m book, (s.shared.orderBooks shard).lookup m = some book →
    homeShard m shard ∧ book.marketId = m
  shape : ∀ shard m book, (s.shared.orderBooks shard).lookup m = some book → book.Shape
  cached : ∀ shard m book, (s.shared.orderBooks shard).lookup m = some book →
    book.Cached s.shared.priceCache
  origin : ∀ shard m book, (s.shared.orderBooks shard).lookup m = some book →
    ∀ t, ∀ o ∈ (book.side t).resting, ∃ i < s.seq (.matching shard),
      (s.slots i).ingested.command = .placeOrder ∧ (s.slots i).cmd.orderId = o.orderId
  opened : ∀ m spec, config.symbolSpecs.lookup m = some spec → ∀ shard, homeShard m shard →
    ∃ book, (s.shared.orderBooks shard).lookup m = some book

theorem lookup_openBooks {shard : Fin numMatchingEngines} {m : Nat} {book : OrderBook}
    (h : (config.openBooks shard).lookup m = some book) :
    homeShard m shard ∧ book = OrderBook.new m ∧ ∃ spec, (m, spec) ∈ config.markets := by
  unfold Config.openBooks at h
  rw [Finmap.dlookup_list_toFinmap] at h
  have hmem := List.of_mem_dlookup (Option.mem_def.mpr h)
  obtain ⟨entry, hentry, heq⟩ := List.mem_map.mp hmem
  obtain ⟨hmarket, hhome⟩ := List.mem_filter.mp hentry
  cases heq
  exact ⟨by simpa [homeShard] using hhome, rfl, entry.2, hmarket⟩

theorem openBooks_of_spec {shard : Fin numMatchingEngines} {m : Nat}
    {spec : CoreMarketSpecification} (h : config.symbolSpecs.lookup m = some spec)
    (hhome : homeShard m shard) :
    ∃ book, (config.openBooks shard).lookup m = some book := by
  unfold Config.symbolSpecs at h
  rw [Finmap.dlookup_list_toFinmap] at h
  have hmem := List.of_mem_dlookup (Option.mem_def.mpr h)
  obtain ⟨entry, hentry, heq⟩ := List.mem_map.mp hmem
  cases heq
  apply Option.isSome_iff_exists.mp
  unfold Config.openBooks
  rw [Finmap.dlookup_list_toFinmap, List.dlookup_isSome]
  apply List.mem_map.mpr
  refine ⟨⟨entry.1, .new entry.1⟩, ?_, rfl⟩
  exact List.mem_map.mpr ⟨entry, List.mem_filter.mpr ⟨hentry, by simpa [homeShard] using hhome⟩, rfl⟩

theorem lookup_openPriceCache {m : Nat} {spec : CoreMarketSpecification}
    (h : (m, spec) ∈ config.markets) : config.openPriceCache.prices.lookup m = some {} := by
  unfold Config.openPriceCache
  rw [Finmap.dlookup_list_toFinmap]
  have hsome : (List.dlookup m (config.markets.map fun m =>
      (⟨m.1, {}⟩ : Sigma fun _ : Nat => MarketPrice))).isSome := by
    rw [List.dlookup_isSome]
    exact List.mem_map.mpr ⟨⟨m, {}⟩, List.mem_map.mpr ⟨(m, spec), h, rfl⟩, rfl⟩
  obtain ⟨price, hprice⟩ := Option.isSome_iff_exists.mp hsome
  obtain ⟨entry, _, heq⟩ := List.mem_map.mp (List.of_mem_dlookup (Option.mem_def.mpr hprice))
  cases heq
  exact hprice

theorem BooksInvariant.start (replayEnabled : Bool) :
    BooksInvariant config (start config replayEnabled) where
  command n := rfl
  home shard m book h := by
    obtain ⟨hhome, rfl, _⟩ := lookup_openBooks h
    exact ⟨hhome, rfl⟩
  shape shard m book h := by
    obtain ⟨_, rfl, _⟩ := lookup_openBooks h
    exact OrderBook.new_shape m
  cached shard m book h := by
    obtain ⟨_, rfl, spec, hmem⟩ := lookup_openBooks h
    exact lookup_openPriceCache hmem
  origin shard m book h t o ho := by
    obtain ⟨_, rfl, _⟩ := lookup_openBooks h
    cases t <;> cases ho
  opened m spec h shard hhome := openBooks_of_spec h hhome

theorem BooksInvariant.publish {s : State} (ho : (pipeline config).Ordered s)
    (h : BooksInvariant config s) (cmd : OrderCommand) :
    BooksInvariant config (s.publish (Slot.of cmd)) := by
  refine ⟨?_, h.home, h.shape, h.cached, ?_, h.opened⟩
  · intro n
    by_cases hn : n = s.published
    · subst hn
      rw [Pipeline.State.publish_slots_self]
      rfl
    · rw [Pipeline.State.publish_slots_ne _ _ hn]
      exact h.command n
  · intro shard m book hbook t o hmem
    obtain ⟨i, hi, horigin⟩ := h.origin shard m book hbook t o hmem
    have hle := ho.published (.matching shard)
    refine ⟨i, hi, ?_⟩
    rw [Pipeline.State.publish_slots_ne _ _ (by omega)]
    exact horigin

/-- Every handler keeps the kind of a command. -/
theorem process_command (h : Handler) (n : Nat) (core : Core) (cmd : OrderCommand) :
    (process config h n core cmd).2.command = cmd.command := by
  by_cases hj : h = .journaling
  · subst hj
    change (journalCommand _ _ _ cmd).1.command = cmd.command
    unfold journalCommand Stamp.apply
    split
    · rfl
    · simp only
      split <;> rfl
  · exact (process_same hj n core cmd).command

theorem advance_orderId {s : State} {h : Handler} {n : Nat} (hn : n < s.seq .journaling) :
    (((pipeline config).advance s h).slots n).cmd.orderId = (s.slots n).cmd.orderId := by
  by_cases hslot : n = s.seq h
  · have hj : h ≠ .journaling := by
      rintro rfl
      omega
    subst hslot
    rw [advance_cmd_self]
    exact (process_same hj _ _ _).orderId
  · rw [Pipeline.advance_slots_ne _ _ hslot]

theorem advance_command {s : State} (hcommand : ∀ n, (s.slots n).cmd.command =
    (s.slots n).ingested.command) (h : Handler) (n : Nat) :
    (((pipeline config).advance s h).slots n).cmd.command =
      (((pipeline config).advance s h).slots n).ingested.command := by
  rw [advance_ingested]
  by_cases hslot : n = s.seq h
  · subst hslot
    rw [advance_cmd_self, process_command]
    exact hcommand _
  · rw [Pipeline.advance_slots_ne _ _ hslot]
    exact hcommand n

theorem BooksInvariant.advance_frame {s : State} (ho : (pipeline config).Ordered s)
    (h : BooksInvariant config s) (g : Handler)
    (hbooks : ((pipeline config).advance s g).shared.orderBooks = s.shared.orderBooks)
    (hcache : ((pipeline config).advance s g).shared.priceCache = s.shared.priceCache) :
    BooksInvariant config ((pipeline config).advance s g) := by
  refine ⟨advance_command h.command g, ?_, ?_, ?_, ?_, ?_⟩
  · rw [hbooks]
    exact h.home
  · rw [hbooks]
    exact h.shape
  · rw [hbooks, hcache]
    exact h.cached
  · rw [hbooks]
    intro shard m book hbook t o hmem
    obtain ⟨i, hi, hcommand, hid⟩ := h.origin shard m book hbook t o hmem
    have hjournaled := ho.lt_of_lt (g := .journaling) (h := .matching shard) Nat.zero_lt_one hi
    refine ⟨i, hi.trans_le (Pipeline.le_advance_seq _ _ _), ?_, ?_⟩
    · rw [advance_ingested]
      exact hcommand
    · rw [advance_orderId hjournaled]
      exact hid
  · rw [hbooks]
    exact h.opened

theorem BooksInvariant.advance_book {s : State} (ho : (pipeline config).Ordered s)
    (h : BooksInvariant config s) (shard : Fin numMatchingEngines) {m : Nat}
    {book : OrderBook} (hbook : (s.shared.orderBooks shard).lookup m = some book)
    (after : OrderBook)
    (hbooks : ((pipeline config).advance s (.matching shard)).shared.orderBooks =
      Function.update s.shared.orderBooks shard ((s.shared.orderBooks shard).insert m after))
    (hcache : ((pipeline config).advance s (.matching shard)).shared.priceCache =
      after.updatePriceCache s.shared.priceCache)
    (hmarket : after.marketId = book.marketId) (hshape : after.Shape)
    (horigin : ∀ t, ∀ o ∈ (after.side t).resting, ∃ i ≤ s.seq (.matching shard),
      (s.slots i).ingested.command = .placeOrder ∧ (s.slots i).cmd.orderId = o.orderId)
    (ready : (pipeline config).Ready s (.matching shard)) :
    BooksInvariant config ((pipeline config).advance s (.matching shard)) := by
  obtain ⟨hhome, hid⟩ := h.home shard m book hbook
  have hjournaling : s.seq (.matching shard) < s.seq .journaling :=
    ready.2 .journaling Nat.zero_lt_one
  have hentry : s.shared.priceCache.prices.lookup after.marketId =
      some ⟨book.bids.bestPrice, book.asks.bestPrice⟩ := by
    rw [hmarket]
    exact h.cached shard m book hbook
  -- every lookup finds the new book, or an old one of another market
  have hlookup {t : Fin numMatchingEngines} {m' : Nat} {b : OrderBook}
      (hb : (((pipeline config).advance s (.matching shard)).shared.orderBooks t).lookup m' =
        some b) : (t = shard ∧ m' = m ∧ b = after) ∨
          ((s.shared.orderBooks t).lookup m' = some b ∧ m' ≠ m) := by
    rw [hbooks] at hb
    by_cases ht : t = shard
    · subst ht
      rw [Function.update_self] at hb
      by_cases hm : m' = m
      · subst hm
        rw [Finmap.lookup_insert] at hb
        exact .inl ⟨rfl, rfl, (Option.some.inj hb).symm⟩
      · rw [Finmap.lookup_insert_of_ne _ hm] at hb
        exact .inr ⟨hb, hm⟩
    · rw [Function.update_of_ne ht] at hb
      refine .inr ⟨hb, ?_⟩
      rintro rfl
      have hother := (h.home t _ b hb).1
      exact ht (Fin.ext (hother.symm.trans hhome))
  refine ⟨advance_command h.command _, ?_, ?_, ?_, ?_, ?_⟩
  · intro t m' b hb
    rcases hlookup hb with ⟨rfl, rfl, rfl⟩ | ⟨hold, _⟩
    · exact ⟨hhome, hmarket.trans hid⟩
    · exact h.home t m' b hold
  · intro t m' b hb
    rcases hlookup hb with ⟨rfl, rfl, rfl⟩ | ⟨hold, _⟩
    · exact hshape
    · exact h.shape t m' b hold
  · intro t m' b hb
    rw [hcache]
    rcases hlookup hb with ⟨rfl, rfl, rfl⟩ | ⟨hold, hne⟩
    · exact OrderBook.updatePriceCache_cached hentry
    · have hmarket' := (h.home t m' b hold).2
      have hdistinct : b.marketId ≠ after.marketId := by
        rw [hmarket', hmarket, hid]
        exact hne
      exact (OrderBook.updatePriceCache_ne _ hdistinct).trans (h.cached t m' b hold)
  · intro t m' b hb u o hmem
    rcases hlookup hb with ⟨rfl, rfl, rfl⟩ | ⟨hold, _⟩
    · obtain ⟨i, hi, hcommand, hoid⟩ := horigin u o hmem
      rw [Pipeline.advance_seq_self]
      refine ⟨i, by omega, ?_, ?_⟩
      · rw [advance_ingested]
        exact hcommand
      · rw [advance_orderId (by omega)]
        exact hoid
    · obtain ⟨i, hi, hcommand, hoid⟩ := h.origin t m' b hold u o hmem
      have hjournaled := ho.lt_of_lt (g := .journaling) (h := .matching t) Nat.zero_lt_one hi
      refine ⟨i, hi.trans_le (Pipeline.le_advance_seq _ _ _), ?_, ?_⟩
      · rw [advance_ingested]
        exact hcommand
      · rw [advance_orderId hjournaled]
        exact hoid
  · intro m' spec hspec t ht
    obtain ⟨b, hb⟩ := h.opened m' spec hspec t ht
    rw [hbooks]
    by_cases heq : t = shard
    · subst heq
      rw [Function.update_self]
      by_cases hm : m' = m
      · subst hm
        exact ⟨after, Finmap.lookup_insert _⟩
      · exact ⟨b, (Finmap.lookup_insert_of_ne _ hm).trans hb⟩
    · rw [Function.update_of_ne heq]
      exact ⟨b, hb⟩

/-- Ids on a book of the shard are below that of the placement it is about to match. -/
theorem BooksInvariant.idsBelow {s : State} (h : BooksInvariant config s)
    {shard : Fin numMatchingEngines} {m : Nat} {book : OrderBook}
    (hbook : (s.shared.orderBooks shard).lookup m = some book)
    (increase : IdsIncrease (.matching shard) s)
    (hplace : (s.slots (s.seq (.matching shard))).cmd.command = .placeOrder) :
    book.IdsBelow (s.slots (s.seq (.matching shard))).cmd.orderId := by
  intro t id hid
  obtain ⟨o, ho, rfl⟩ := BookSide.mem_ids.mp hid
  obtain ⟨i, hi, hcommand, hoid⟩ := h.origin shard m book hbook t o ho
  rw [← hoid]
  rw [h.command] at hplace
  exact increase shard rfl hplace i hi hcommand

theorem BooksInvariant.advance_matching {s : State} (ho : (pipeline config).Ordered s)
    (h : BooksInvariant config s) (shard : Fin numMatchingEngines)
    (ready : (pipeline config).Ready s (.matching shard))
    (increase : IdsIncrease (.matching shard) s) :
    BooksInvariant config ((pipeline config).advance s (.matching shard)) := by
  have hshared : ((pipeline config).advance s (.matching shard)).shared =
      (routerHandler shard s.shared (s.slots (s.seq (.matching shard))).cmd).1 := rfl
  rcases matchingHandler_cases (s.shared.router shard) (s.slots (s.seq (.matching shard))).cmd
      s.shared.priceCache with ⟨hbooks, hcache, _⟩ |
        ⟨book, hbook, hstatus, ⟨hcommand, hrun⟩ | ⟨hcommand, hrun⟩⟩
  · apply h.advance_frame ho
    · rw [hshared]
      unfold routerHandler
      simp only [hbooks]
      exact Function.update_eq_self shard s.shared.orderBooks
    · rw [hshared]
      exact hcache
  · have hshape := h.shape shard _ book hbook
    have hbelow := h.idsBelow hbook increase hcommand
    apply h.advance_book ho shard hbook (book.placeOrder
      (s.slots (s.seq (.matching shard))).cmd s.shared.priceCache).book
    · rw [hshared]
      unfold routerHandler
      rw [hrun]
      rfl
    · rw [hshared]
      unfold routerHandler
      rw [hrun]
      exact OrderBook.placeOrder_cache hstatus book _
    · exact OrderBook.placeOrder_marketId book _ _
    · exact OrderBook.placeOrder_shape hshape hbelow _
    · intro t o hmem
      rcases OrderBook.mem_resting_placeOrder hshape hmem with
        ⟨_, size, _, rfl⟩ | ⟨old, hold, size, _, rfl⟩
      · exact ⟨_, le_rfl, (h.command _).symm.trans hcommand, rfl⟩
      · obtain ⟨i, hi, horigin⟩ := h.origin shard _ book hbook t old hold
        exact ⟨i, Nat.le_of_lt hi, horigin⟩
    · exact ready
  · have hshape := h.shape shard _ book hbook
    apply h.advance_book ho shard hbook (book.cancelOrder
      (s.slots (s.seq (.matching shard))).cmd s.shared.priceCache).book
    · rw [hshared]
      unfold routerHandler
      rw [hrun]
      rfl
    · rw [hshared]
      unfold routerHandler
      rw [hrun]
      exact OrderBook.cancelOrder_cache hstatus book _
    · exact OrderBook.cancelOrder_marketId book _ _
    · exact OrderBook.cancelOrder_shape hshape _ _
    · intro t o hmem
      have hold := OrderBook.mem_resting_cancelOrder hshape hmem
      obtain ⟨i, hi, horigin⟩ := h.origin shard _ book hbook t o hold
      exact ⟨i, Nat.le_of_lt hi, horigin⟩
    · exact ready

theorem BooksInvariant.advance {s : State} (ho : (pipeline config).Ordered s)
    (h : BooksInvariant config s) {g : Handler} (ready : (pipeline config).Ready s g)
    (increase : IdsIncrease g s) : BooksInvariant config ((pipeline config).advance s g) := by
  cases g with
  | journaling => exact h.advance_frame ho _ rfl rfl
  | risk shard => exact h.advance_frame ho _ rfl rfl
  | matching shard => exact h.advance_matching ho shard ready increase
  | settlement shard => exact h.advance_frame ho _ rfl rfl
  | events => exact h.advance_frame ho _ rfl rfl

theorem Reaches.books {guard : Handler → State → Prop} {replayEnabled : Bool} {s : State}
    (run : Reaches config guard replayEnabled s)
    (increase : ∀ h s, guard h s → IdsIncrease h s) : BooksInvariant config s := by
  refine (run.invariant (Pipeline.Ordered.start _ _) (.start replayEnabled) ?_ ?_).2
  · intro s slot ho hinv offered
    obtain ⟨cmd, _, rfl⟩ := offered
    exact hinv.publish ho cmd
  · intro s h ho hinv ready admitted
    exact hinv.advance ho ready (increase h s admitted)

end Engine

end VexCore
