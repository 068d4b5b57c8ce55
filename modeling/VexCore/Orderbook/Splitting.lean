import VexCore.Framework.Depletion
import VexCore.Orderbook.Extent
import VexCore.Orderbook.Views

/-!
# Trading in parts

An immediate-or-cancel order may be sent whole or as two orders one after the other. The book
that is left, the traded amounts with every maker and the money that changes hands are the same.
-/

namespace VexCore

open Framework

namespace OrderBook

/-- Whether a command may trade with a resting order. -/
def mayTrade (cmd : OrderCommand) (o : Order) : Bool :=
  priceCheck cmd.side cmd.price o.price && decide (o.userId ≠ cmd.userId)

def drawn (o : Order) (amount : Nat) : Order := { o with size := o.size - amount }

theorem draws (cmd : OrderCommand) : Draws Order.size drawn (mayTrade cmd) where
  draw_zero _ := rfl
  draw_draw o m n := by simp [drawn, Nat.sub_sub]
  cap_draw _ _ := rfl
  usable_draw _ _ := rfl

theorem filterMap_afterFills_of_not_mem {fills : List (Fill Order)} {orders : List Order}
    (h : ∀ o ∈ orders, ∀ f ∈ fills, f.source.orderId ≠ o.orderId) :
    orders.filterMap (afterFills fills) = orders := by
  induction orders with
  | nil => rfl
  | cons o rest ih =>
    rw [List.filterMap_cons_some (afterFills_of_not_mem (h o List.mem_cons_self)),
      ih fun b hb => h b (List.mem_cons_of_mem _ hb)]

theorem source_of_lt {o : Order} {others : List Order} {demand : Nat} (hlt : demand < o.size)
    {f : Fill Order} (hf : f ∈ allocate Order.size demand (o :: others)) : f.source = o := by
  by_cases hzero : demand = 0
  · rw [hzero, allocate_zero] at hf
    cases hf
  · rw [allocate_cons hzero, Nat.min_eq_left hlt.le, Nat.sub_self, allocate_zero] at hf
    rw [List.mem_singleton.mp hf]

theorem afterFills_of_lt {o : Order} {others : List Order} {demand : Nat} (hlt : demand < o.size) :
    afterFills (allocate Order.size demand (o :: others)) o = some (drawn o demand) := by
  by_cases hzero : demand = 0
  · rw [hzero, allocate_zero]
    rfl
  · have hleft : o.size - demand ≠ 0 := by omega
    rw [allocate_cons hzero, Nat.min_eq_left hlt.le, Nat.sub_self, allocate_zero,
      afterFills_cons_self _ _ (fun f hf => by cases hf), if_neg hleft]
    rfl

theorem filterMap_afterFills_cons {f : Fill Order} {fills : List (Fill Order)}
    {orders : List Order} (hother : ∀ b ∈ orders, b.orderId ≠ f.source.orderId) :
    orders.filterMap (afterFills (f :: fills)) = orders.filterMap (afterFills fills) := by
  apply List.filterMap_congr
  intro b hb
  apply @afterFills_append_right [f]
  intro f' hf' heq
  rw [List.mem_singleton.mp hf'] at heq
  exact hother b hb heq.symm

theorem filterMap_afterFills_allocate {cmd : OrderCommand} {orders : List Order}
    (hnodup : (orders.map Order.orderId).Nodup) (hpos : ∀ o ∈ orders, 0 < o.size)
    (demand : Nat) :
    orders.filterMap (afterFills (allocate Order.size demand (orders.filter (mayTrade cmd)))) =
      deplete Order.size drawn (mayTrade cmd) demand orders := by
  induction orders generalizing demand with
  | nil => rfl
  | cons o rest ih =>
    rw [List.map_cons, List.nodup_cons] at hnodup
    have hrest : ∀ b ∈ rest, 0 < b.size := fun b hb => hpos b (List.mem_cons_of_mem _ hb)
    have hfresh : ∀ b ∈ rest, b.orderId ≠ o.orderId :=
      fun b hb heq => hnodup.1 (List.mem_map.mpr ⟨b, hb, heq⟩)
    -- the fills against the others are none of this order's
    have hother (d : Nat) : ∀ f ∈ allocate Order.size d (rest.filter (mayTrade cmd)),
        f.source.orderId ≠ o.orderId :=
      fun f hf => hfresh _ (List.mem_of_mem_filter (source_mem_of_mem_allocate hf))
    cases hu : mayTrade cmd o with
    | false =>
      rw [List.filter_cons_of_neg (by simp [hu]),
        List.filterMap_cons_some (afterFills_of_not_mem (hother demand)), ih hnodup.2 hrest,
        deplete_unusable hu]
    | true =>
      rw [List.filter_cons_of_pos hu]
      rcases Nat.lt_or_ge demand o.size with hlt | hge
      · have hkept : rest.filterMap (afterFills
            (allocate Order.size demand (o :: rest.filter (mayTrade cmd)))) = rest := by
          apply filterMap_afterFills_of_not_mem
          intro b hb f hf heq
          rw [source_of_lt hlt hf] at heq
          exact hfresh b hb heq.symm
        rw [List.filterMap_cons_some (afterFills_of_lt hlt), hkept, deplete_part hu hlt,
          deplete_zero (draws cmd) hrest]
      · have hzero : demand ≠ 0 := Nat.ne_of_gt ((hpos o List.mem_cons_self).trans_le hge)
        have hgone : afterFills (⟨o, o.size, demand - o.size⟩ ::
            allocate Order.size (demand - o.size) (rest.filter (mayTrade cmd))) o = none := by
          rw [afterFills_cons_self _ _ (hother _), Nat.sub_self, if_pos rfl]
        rw [allocate_cons hzero, Nat.min_eq_right hge, List.filterMap_cons_none hgone,
          filterMap_afterFills_cons hfresh, ih hnodup.2 hrest, deplete_whole hu hge]

section

variable {book : OrderBook} {cmd : OrderCommand}

theorem eligible_eq (book : OrderBook) (cmd : OrderCommand) :
    book.eligible cmd = (book.side cmd.side.opSide).resting.filter (mayTrade cmd) := rfl

theorem matchOrder_depletes (h : book.Shape) (hpositive : book.Positive) (cmd : OrderCommand) :
    ((book.matchOrder cmd).1.side cmd.side.opSide).resting =
      deplete Order.size drawn (mayTrade cmd) cmd.size (book.side cmd.side.opSide).resting := by
  rw [matchOrder_resting h, referenceFills, eligible_eq,
    filterMap_afterFills_allocate (h.nodup _) (hpositive _)]

theorem completes_iff (h : book.Shape) (cmd : OrderCommand) (id : Nat) :
    completes (book.referenceFills cmd) id = true ↔
      id ∈ (book.side cmd.side.opSide).ids ∧
        id ∉ ((book.matchOrder cmd).1.side cmd.side.opSide).ids := by
  have hresting := matchOrder_resting h cmd
  constructor
  · intro hcompletes
    constructor
    · obtain ⟨f, hf, hdone⟩ := List.any_eq_true.mp hcompletes
      simp only [Bool.and_eq_true, beq_iff_eq] at hdone
      exact BookSide.mem_ids.mpr ⟨f.source, referenceFills_source_mem hf, hdone.1⟩
    · intro hid
      obtain ⟨o', ho', rfl⟩ := BookSide.mem_ids.mp hid
      rw [hresting] at ho'
      obtain ⟨o, _, hafter⟩ := List.mem_filterMap.mp ho'
      obtain ⟨hnot, rfl⟩ := afterFills_eq_some hafter
      rw [hnot] at hcompletes
      cases hcompletes
  · intro ⟨hid, hgone⟩
    by_contra hnot
    rw [Bool.not_eq_true] at hnot
    obtain ⟨o, ho, rfl⟩ := BookSide.mem_ids.mp hid
    have hkept := List.mem_filterMap.mpr ⟨o, ho, afterFills_of_not_completes hnot⟩
    rw [← hresting] at hkept
    exact hgone (BookSide.mem_ids.mpr ⟨_, hkept, rfl⟩)

theorem matchOrder_ids_subset (h : book.Shape) (cmd : OrderCommand) :
    ((book.matchOrder cmd).1.side cmd.side.opSide).ids ⊆ (book.side cmd.side.opSide).ids := by
  rw [BookSide.ids, matchOrder_resting h]
  exact (map_orderId_filterMap_sublist _ _).subset

/-- An immediate-or-cancel order as it comes to the book. -/
structure Immediate (cmd : OrderCommand) : Prop where
  ioc : cmd.timeInForce = .ioc
  live : cmd.status ≠ .rejected
  fresh : cmd.events = []

/-- Two orders of one user, on one side and with one price. -/
structure SameTerms (part whole : OrderCommand) : Prop where
  side : part.side = whole.side
  price : part.price = whole.price
  user : part.userId = whole.userId

/-- An immediate-or-cancel order and two that make it up. -/
structure Split (whole first second : OrderCommand) : Prop where
  immediate : Immediate whole
  immediate_first : Immediate first
  immediate_second : Immediate second
  first_terms : SameTerms first whole
  second_terms : SameTerms second whole
  size : first.size + second.size = whole.size

/-- What the trades took from one resting order. -/
def tradedWith (events : List MatcherTradeEvent) (orderId : Nat) : Nat :=
  (events.map fun event => if event.matchedOrderId = orderId then event.size else 0).sum

/-- What changes hands in some trades, in units of price times size. -/
def turnover (events : List MatcherTradeEvent) : Nat :=
  (events.map fun event => event.price * event.size).sum

theorem tradedWith_fillEvents (fills : List (Fill Order)) (orderId : Nat) :
    tradedWith (fills.map fillEvent) orderId =
      weighed (fun o => if o.orderId = orderId then 1 else 0) fills := by
  induction fills with
  | nil => rfl
  | cons f rest ih =>
    simp only [tradedWith, List.map_cons, List.sum_cons] at ih ⊢
    rw [ih, weighed_cons, mul_ite, Nat.mul_one, Nat.mul_zero]
    rfl

theorem turnover_fillEvents (fills : List (Fill Order)) :
    turnover (fills.map fillEvent) = weighed Order.price fills := by
  simp [turnover, weighed, fillEvent, Function.comp_def, Nat.mul_comm]

/-- An immediate-or-cancel order matches and leaves nothing of its own behind. -/
theorem placeOrder_immediate (h : book.Shape) (hcmd : Immediate cmd) (cache : PriceCache) :
    (book.placeOrder cmd cache).book = (book.matchOrder cmd).1 ∧
    (book.placeOrder cmd cache).cmd.events = (book.referenceFills cmd).map fillEvent ∧
    (book.placeOrder cmd cache).cmd.size = cmd.size - filled (book.referenceFills cmd) := by
  obtain ⟨price, hout⟩ := placeOrder_cmd_eq hcmd.live book cache
  have hbook := placeOrder_book hcmd.live book cache
  have hmatched := matchOrder_cmd h cmd
  rw [hcmd.fresh, List.nil_append] at hmatched
  rw [placeByTimeInForce, hcmd.ioc] at hout hbook
  simp only [hmatched, matchOrder_remaining h cmd] at hout hbook
  exact ⟨hbook, by rw [hout], by rw [hout]⟩

theorem SameTerms.mayTrade_eq {part whole : OrderCommand} (terms : SameTerms part whole) :
    mayTrade part = mayTrade whole := by
  funext o
  rw [mayTrade, mayTrade, terms.side, terms.price, terms.user]

namespace Split

variable {whole first second : OrderCommand}

/-- What the parts leave on the other side is what the whole leaves. -/
theorem resting (split : Split whole first second) (h : book.Shape) (hpositive : book.Positive)
    (hafter : (book.matchOrder first).1.Positive) (s : Side) :
    (((book.matchOrder first).1.matchOrder second).1.side s).resting =
      ((book.matchOrder whole).1.side s).resting := by
  have hside := split.first_terms.side
  have hside' := split.second_terms.side
  by_cases hs : s = whole.side.opSide
  · subst hs
    have hwhole := matchOrder_depletes h hpositive whole
    have hfirst := matchOrder_depletes h hpositive first
    have hsecond := matchOrder_depletes (matchOrder_shape h first) hafter second
    rw [split.first_terms.mayTrade_eq, hside] at hfirst
    rw [split.second_terms.mayTrade_eq, hside', hfirst, deplete_add (draws whole), split.size,
      ← hwhole] at hsecond
    exact hsecond
  · rw [matchOrder_side_ne (by rw [hside']; exact hs), matchOrder_side_ne (by rw [hside]; exact hs),
      matchOrder_side_ne hs]

/-- The parts complete the orders that the whole completes. -/
theorem orders (split : Split whole first second) (h : book.Shape) (hpositive : book.Positive)
    (hafter : (book.matchOrder first).1.Positive) :
    ((book.matchOrder first).1.matchOrder second).1.orders = (book.matchOrder whole).1.orders := by
  have hside := split.first_terms.side
  have hside' := split.second_terms.side
  have hshape := matchOrder_shape h first
  have hresting := split.resting h hpositive hafter whole.side.opSide
  have hids : (((book.matchOrder first).1.matchOrder second).1.side whole.side.opSide).ids =
      ((book.matchOrder whole).1.side whole.side.opSide).ids := by
    rw [BookSide.ids, hresting, BookSide.ids]
  apply Finmap.ext_lookup
  intro id
  have hfirst := completes_iff h first id
  have hsecond := completes_iff hshape second id
  have hwhole := completes_iff h whole id
  have hsub := @matchOrder_ids_subset _ h first
  have hsub' := @matchOrder_ids_subset _ hshape second
  rw [hside] at hfirst hsub
  rw [hside', hids] at hsecond hsub'
  rw [matchOrder_orders hshape, matchOrder_orders h, matchOrder_orders h, lookup_indexAfterFills,
    lookup_indexAfterFills, lookup_indexAfterFills, if_congr hsecond rfl rfl,
    if_congr hfirst rfl rfl, if_congr hwhole rfl rfl]
  have hone := @hsub id
  have htwo := @hsub' id
  by_cases hout : id ∈ ((book.matchOrder whole).1.side whole.side.opSide).ids
  · -- still there after both parts
    have hmid := htwo hout
    rw [if_neg fun h => h.2 hout, if_neg fun h => h.2 hmid, if_neg fun h => h.2 hout]
  · by_cases hin : id ∈ (book.side whole.side.opSide).ids
    · rw [if_pos (And.intro hin hout)]
      by_cases hmid : id ∈ ((book.matchOrder first).1.side whole.side.opSide).ids
      · rw [if_pos (And.intro hmid hout)]
      · rw [if_neg fun h => hmid h.1, if_pos (And.intro hin hmid)]
    · have hmid := mt (@hone) hin
      rw [if_neg fun h => hmid h.1, if_neg fun h => hin h.1, if_neg fun h => hin h.1]

theorem weighed_fills (split : Split whole first second) (h : book.Shape)
    (hpositive : book.Positive) {w : Order → Nat} (hw : ∀ o n, w (drawn o n) = w o) :
    weighed w (book.referenceFills first) +
        weighed w ((book.matchOrder first).1.referenceFills second) =
      weighed w (book.referenceFills whole) := by
  have hside := split.first_terms.side
  have hside' := split.second_terms.side
  have hdepletes := matchOrder_depletes h hpositive first
  rw [split.first_terms.mayTrade_eq, hside] at hdepletes
  have hadd := weighed_allocate_add (draws whole) hw first.size second.size
    (book.side whole.side.opSide).resting
  rw [split.size] at hadd
  rw [referenceFills, referenceFills, referenceFills, eligible_eq, eligible_eq, eligible_eq,
    split.first_terms.mayTrade_eq, split.second_terms.mayTrade_eq, hside, hside', hdepletes]
  exact hadd

/-- What stays unfilled of the parts is what stays unfilled of the whole. -/
theorem unfilled (split : Split whole first second) (h : book.Shape) (hpositive : book.Positive) :
    first.size - filled (book.referenceFills first) +
        (second.size - filled ((book.matchOrder first).1.referenceFills second)) =
      whole.size - filled (book.referenceFills whole) := by
  have hfilled := @weighed_fills _ _ _ _ split h hpositive (fun _ => 1) fun _ _ => rfl
  rw [← filled_eq_weighed, ← filled_eq_weighed, ← filled_eq_weighed] at hfilled
  have hsize := split.size
  have hfirst : filled (book.referenceFills first) ≤ first.size := filled_allocate_le _ _ _
  have hlast : filled ((book.matchOrder first).1.referenceFills second) ≤ second.size :=
    filled_allocate_le _ _ _
  omega

end Split

theorem updatePriceCache_twice {before after : OrderBook}
    (hmarket : before.marketId = after.marketId) (cache : PriceCache) :
    after.updatePriceCache (before.updatePriceCache cache) = after.updatePriceCache cache := by
  unfold updatePriceCache PriceCache.updatePrices
  rw [hmarket]
  cases hlookup : cache.prices.lookup after.marketId with
  | none => simp only [hlookup]
  | some entry => simp only [Finmap.lookup_insert, Finmap.insert_insert]

/-- Two commands that end in the book of a third also leave the cached prices that it leaves. -/
theorem cache_of_same {first second direct : Outcome} {cache : PriceCache}
    (hfirst : first.cache = first.book.updatePriceCache cache)
    (hsecond : second.cache = second.book.updatePriceCache first.cache)
    (hdirect : direct.cache = direct.book.updatePriceCache cache)
    (hmarket : second.book.marketId = first.book.marketId) (hsame : second.book = direct.book) :
    second.cache = direct.cache := by
  rw [hsecond, hfirst, hdirect, ← hsame, updatePriceCache_twice hmarket.symm]

/-- Sending an immediate-or-cancel order in two parts changes nothing: not the book, the cached
prices or the published depth, not what is left unfilled, not what each maker trades and not the
money that changes hands. -/
theorem parts_trade_as_whole {marketId : Nat} {calls : List Call}
    (run : Run marketId VolumesFit calls book) {whole first second : OrderCommand}
    (split : Split whole first second) (cache : PriceCache) :
    let one := book.placeOrder whole cache
    let a := book.placeOrder first cache
    let b := a.book.placeOrder second a.cache
    b.book = one.book ∧ b.cache = one.cache ∧ b.cmd.l2Data = one.cmd.l2Data ∧
      a.cmd.size + b.cmd.size = one.cmd.size ∧
      (∀ orderId, tradedWith a.cmd.events orderId + tradedWith b.cmd.events orderId =
        tradedWith one.cmd.events orderId) ∧
      turnover a.cmd.events + turnover b.cmd.events = turnover one.cmd.events := by
  intro one a b
  have h := run.invariant.shape
  have hshape := matchOrder_shape h first
  have hexact := run.volumesExact.matchOrder h first
  have hpositive : (book.matchOrder first).1.Positive := by
    intro s o ho
    exact ((matchOrder_sized h run.sized run.fits first).resting ho).1
  obtain ⟨hone, htrades, hleft⟩ := placeOrder_immediate h split.immediate cache
  obtain ⟨ha, htradesA, hleftA⟩ := placeOrder_immediate h split.immediate_first cache
  have hb : b = (book.matchOrder first).1.placeOrder second a.cache := by
    change (book.placeOrder first cache).book.placeOrder second a.cache = _
    rw [ha]
  obtain ⟨hsecond, htradesB, hleftB⟩ := placeOrder_immediate hshape split.immediate_second a.cache
  rw [← hb] at hsecond htradesB hleftB
  have hsame : b.book = one.book := by
    rw [hsecond, hone]
    exact eq_of_resting (matchOrder_shape hshape second) (matchOrder_shape h whole)
      (hexact.matchOrder hshape second) (run.volumesExact.matchOrder h whole)
      (by rw [matchOrder_marketId, matchOrder_marketId, matchOrder_marketId])
      (split.resting h run.positive hpositive) (split.orders h run.positive hpositive)
  have hcache : b.cache = one.cache :=
    cache_of_same (placeOrder_cache split.immediate_first.live book cache)
      (placeOrder_cache split.immediate_second.live a.book a.cache)
      (placeOrder_cache split.immediate.live book cache)
      (placeOrder_marketId a.book second a.cache) hsame
  have hdepth : b.cmd.l2Data = one.cmd.l2Data := by
    have hdepthB : b.cmd.l2Data = some b.book.l2Snapshot :=
      placeOrder_snapshot split.immediate_second.live a.book a.cache
    have hdepthOne : one.cmd.l2Data = some one.book.l2Snapshot :=
      placeOrder_snapshot split.immediate.live book cache
    rw [hdepthB, hdepthOne, hsame]
  refine ⟨hsame, hcache, hdepth, ?_, ?_, ?_⟩
  · change (book.placeOrder first cache).cmd.size + b.cmd.size =
      (book.placeOrder whole cache).cmd.size
    rw [hleft, hleftA, hleftB]
    exact split.unfilled h run.positive
  · intro orderId
    change tradedWith (book.placeOrder first cache).cmd.events orderId + _ =
      tradedWith (book.placeOrder whole cache).cmd.events orderId
    rw [htrades, htradesA, htradesB, tradedWith_fillEvents, tradedWith_fillEvents,
      tradedWith_fillEvents]
    exact split.weighed_fills h run.positive fun _ _ => rfl
  · change turnover (book.placeOrder first cache).cmd.events + _ =
      turnover (book.placeOrder whole cache).cmd.events
    rw [htrades, htradesA, htradesB, turnover_fillEvents, turnover_fillEvents,
      turnover_fillEvents]
    exact split.weighed_fills h run.positive fun _ _ => rfl

/-- A market sell of seven against six that rest, whole and as three and four. -/
theorem parts_trade_as_whole_partialFill :
    let book := (((new 1).placeOrder (.limit .bid .gtc 1 7 100 10) ⟨∅⟩).book.placeOrder
      (.limit .ask .ioc 2 8 100 4) ⟨∅⟩).book
    let first := book.placeOrder (.limit .ask .ioc 4 9 0 3) ⟨∅⟩
    let second := first.book.placeOrder (.limit .ask .ioc 5 9 0 4) first.cache
    second.book = (book.placeOrder (.limit .ask .ioc 3 9 0 7) ⟨∅⟩).book ∧
      turnover first.cmd.events + turnover second.cmd.events = 600 := by
  intro book first second
  have split : Split (.limit .ask .ioc 3 9 0 7) (.limit .ask .ioc 4 9 0 3)
      (.limit .ask .ioc 5 9 0 4) :=
    ⟨⟨rfl, by decide, rfl⟩, ⟨rfl, by decide, rfl⟩, ⟨rfl, by decide, rfl⟩, ⟨rfl, rfl, rfl⟩,
      ⟨rfl, rfl, rfl⟩, rfl⟩
  obtain ⟨hbook, _, _, _, _, hturnover⟩ := parts_trade_as_whole partialFill_run split ⟨∅⟩
  exact ⟨hbook, hturnover.trans (by decide)⟩

end

end OrderBook

end VexCore
