import VexCore.Orderbook.Run

/-!
# When every resting order can be cancelled

The index stores a price without a side. Cancellation keeps its promise over a run exactly when
no state of the run has a bid level and an ask level at one price; self-trade prevention can
bring such a state about.
-/

namespace VexCore

open Framework

namespace OrderBook

/-- What cancelling the resting order `o` should do. -/
structure CancelsExactly (book : OrderBook) (s : Side) (o : Order) (out : Outcome) : Prop where
  status : out.cmd.status = .cancelled
  reported : out.cmd.price = o.price ∧ out.cmd.size = o.size ∧ out.cmd.userId = o.userId ∧
    out.cmd.side = o.side ∧ out.cmd.originalSize = o.originalSize
  removed : (book.side s).resting.Perm (o :: (out.book.side s).resting)
  level : ∃ level, (book.side s).getLevel o.price = some level ∧ o ∈ level.orders ∧
    (out.book.side s).getLevel o.price =
      if (level.without o).orders.isEmpty then none else some (level.without o)
  otherLevels : ∀ price, price ≠ o.price →
    (out.book.side s).getLevel price = (book.side s).getLevel price
  otherSide : out.book.side s.opSide = book.side s.opSide
  index : out.book.orders = book.orders.erase o.orderId

/-- The index is exact, every resting order can be cancelled, and nothing else can. -/
structure CancelLaw (book : OrderBook) : Prop where
  indexed : ∀ id price, book.orders.lookup id = some price ↔
    ∃ s, ∃ o ∈ (book.side s).resting, o.orderId = id ∧ o.price = price
  cancels : ∀ s, ∀ o ∈ (book.side s).resting, ∀ cmd cache, cmd.orderId = o.orderId →
    cmd.status ≠ .rejected → CancelsExactly book s o (book.cancelOrder cmd cache)
  refuses : ∀ cmd cache, (∀ s, ∀ o ∈ (book.side s).resting, o.orderId ≠ cmd.orderId) →
    (book.cancelOrder cmd cache).cmd.status = .rejected ∧
      (book.cancelOrder cmd cache).book = book

/-- No price carries both a bid and an ask level. -/
def NoSharedPrice (book : OrderBook) : Prop :=
  ∀ price, book.bids.getLevel price = none ∨ book.asks.getLevel price = none

/-- Every resting order is indexed at its price. -/
def IndexComplete (book : OrderBook) : Prop :=
  ∀ s, ∀ o ∈ (book.side s).resting, book.orders.lookup o.orderId = some o.price

theorem new_indexComplete (marketId : Nat) : (new marketId).IndexComplete := by
  intro s o ho
  cases s <;> cases ho

theorem Shape.side_unique {book : OrderBook} (h : book.Shape) {s t : Side} {a b : Order}
    (ha : a ∈ (book.side s).resting) (hb : b ∈ (book.side t).resting)
    (hid : a.orderId = b.orderId) : s = t := by
  by_contra hne
  have hop : t = s.opSide := by
    cases s <;> cases t <;> first | rfl | exact absurd rfl hne
  subst hop
  exact h.disjoint s (BookSide.mem_ids.mpr ⟨a, ha, rfl⟩) (BookSide.mem_ids.mpr ⟨b, hb, hid.symm⟩)

theorem completes_false_of_resting {book : OrderBook} (h : book.Shape) {cmd : OrderCommand}
    {s : Side} {o' : Order} (ho' : o' ∈ ((book.matchOrder cmd).1.side s).resting) :
    completes (book.referenceFills cmd) o'.orderId = false := by
  by_cases hs : s = cmd.side.opSide
  · subst hs
    rw [matchOrder_resting h] at ho'
    obtain ⟨o, _, hafter⟩ := List.mem_filterMap.mp ho'
    obtain ⟨hcompletes, rfl⟩ := afterFills_eq_some hafter
    exact hcompletes
  · rw [matchOrder_side_ne hs] at ho'
    simp only [completes, List.any_eq_false, Bool.and_eq_true, beq_iff_eq, not_and]
    intro f hf heq
    have hsource : f.source ∈ (book.side cmd.side.opSide).resting :=
      List.mem_of_mem_filter (source_mem_of_mem_allocate hf)
    exact absurd (h.side_unique ho' hsource heq.symm) hs

theorem matchOrder_indexComplete {book : OrderBook} (h : book.Shape)
    (hindex : book.IndexComplete) (cmd : OrderCommand) :
    (book.matchOrder cmd).1.IndexComplete := by
  intro s o' ho'
  rw [matchOrder_orders h, lookup_indexAfterFills, completes_false_of_resting h ho']
  obtain ⟨o, ho, size, _, rfl⟩ := mem_resting_matchOrder h ho'
  exact hindex s o ho

theorem addToBook_indexComplete {book : OrderBook} (hindex : book.IndexComplete)
    {cmd : OrderCommand} (hbelow : book.IdsBelow cmd.orderId) (remaining : Nat) :
    (book.addToBook cmd remaining).IndexComplete := by
  intro s o ho
  change (book.orders.insert cmd.orderId cmd.price).lookup o.orderId = some o.price
  rcases mem_resting_addToBook.mp ho with ⟨_, rfl⟩ | ho
  · exact Finmap.lookup_insert _
  · have hlt := hbelow s o.orderId (BookSide.mem_ids.mpr ⟨o, ho, rfl⟩)
    rw [Finmap.lookup_insert_of_ne _ (Nat.ne_of_lt hlt)]
    exact hindex s o ho

theorem placeOrder_indexComplete {book : OrderBook} (h : book.Shape)
    (hindex : book.IndexComplete) {cmd : OrderCommand} (hbelow : book.IdsBelow cmd.orderId)
    (cache : PriceCache) : (book.placeOrder cmd cache).book.IndexComplete := by
  rcases placeOrder_book_cases book cmd cache with heq | heq | ⟨_, _, heq⟩
  · rw [heq]
    exact hindex
  · rw [heq]
    exact matchOrder_indexComplete h hindex cmd
  · rw [heq]
    exact addToBook_indexComplete (matchOrder_indexComplete h hindex cmd)
      (matchOrder_idsBelow h hbelow cmd) _

theorem not_misdirected {book : OrderBook} (h : book.Shape) (hshared : book.NoSharedPrice)
    (orderId : Nat) : ¬book.Misdirected orderId := by
  rintro ⟨price, level, hindex, hlevel, hmiss⟩
  obtain ⟨s, o, ho, hid, hprice⟩ := h.indexed _ _ hindex
  obtain ⟨olevel, holevel, hmem⟩ := h.level_of_resting ho
  rw [hprice] at holevel
  cases s with
  | bid =>
    have heq : olevel = level := by
      change book.bids.getLevel price = some olevel at holevel
      rw [hlevel] at holevel
      exact (Option.some.inj holevel).symm
    rw [heq] at hmem
    exact hmiss o hmem hid
  | ask =>
    rcases hshared price with hnone | hnone
    · rw [hlevel] at hnone
      cases hnone
    · change book.asks.getLevel price = some olevel at holevel
      rw [holevel] at hnone
      cases hnone

theorem cancelOrder_indexComplete {book : OrderBook} (h : book.Shape)
    (hindex : book.IndexComplete) (hshared : book.NoSharedPrice) (cmd : OrderCommand)
    (cache : PriceCache) : (book.cancelOrder cmd cache).book.IndexComplete := by
  rcases cancelOrder_book book cmd cache with heq | heq
  · rw [heq]
    exact hindex
  · rw [heq]
    rcases cancelByIndex_cases h cmd with ⟨_, hout⟩ | ⟨hmis, _⟩ |
      ⟨t, level, order, hlevel, hmem, _, _, hout⟩
    · rw [hout]
      exact hindex
    · exact absurd hmis (not_misdirected h hshared cmd.orderId)
    · rw [hout]
      have hshape := removeResting_shape h hlevel hmem
      have hperm := removeResting_perm h hlevel hmem
      have horder : order ∈ (book.side t).resting := hperm.mem_iff.mpr List.mem_cons_self
      have hids := (hperm.map Order.orderId).nodup_iff.mp (h.nodup t)
      rw [List.map_cons, List.nodup_cons] at hids
      intro s o ho
      have hold : o ∈ (book.side s).resting := by
        by_cases hs : s = t
        · subst hs
          exact hperm.mem_iff.mpr (List.mem_cons_of_mem _ ho)
        · rw [side_removeResting_ne _ _ hs] at ho
          exact ho
      have hne : o.orderId ≠ order.orderId := by
        intro hid
        have hs := h.side_unique hold horder hid
        subst hs
        exact hids.1 (List.mem_map.mpr ⟨o, ho, hid⟩)
      change (book.orders.erase order.orderId).lookup o.orderId = some o.price
      rw [Finmap.lookup_erase_ne hne]
      exact hindex s o hold

theorem Run.indexComplete {marketId : Nat} {calls : List Call} {book : OrderBook}
    (run : Run marketId NoSharedPrice calls book) : book.IndexComplete ∧ book.NoSharedPrice := by
  induction run with
  | start =>
    refine ⟨new_indexComplete marketId, ?_⟩
    intro price
    exact .inl rfl
  | place cmd cache run hnew _ fits ih =>
    have hinv := run.invariant
    exact ⟨placeOrder_indexComplete hinv.shape ih.1 (hinv.idsBelow hnew) cache, fits⟩
  | cancel cmd cache run fits ih =>
    exact ⟨cancelOrder_indexComplete run.invariant.shape ih.1 ih.2 cmd cache, fits⟩

theorem cancelOrder_of_ne {cmd : OrderCommand} (hstatus : cmd.status ≠ .rejected)
    (book : OrderBook) (cache : PriceCache) :
    (book.cancelOrder cmd cache).book = (book.cancelByIndex cmd).1 ∧
      (book.cancelOrder cmd cache).cmd = (book.cancelByIndex cmd).2 := by
  rw [cancelOrder, if_neg hstatus]
  exact ⟨rfl, rfl⟩

theorem cancelsExactly_of_removed {book : OrderBook} (h : book.Shape) {s : Side}
    {level : PriceLevel} {order : Order}
    (hlevel : (book.side s).getLevel order.price = some level) (hmem : order ∈ level.orders)
    {out : Outcome} {cmd : OrderCommand} (hbook : out.book = book.removeResting s level order)
    (hcmd : out.cmd = (book.removeResting s level order).recordSnapshot
      (PriceLevel.reportCancelled cmd order)) : CancelsExactly book s order out := by
  have hside : (out.book).side s =
      (book.side s).replaceLevel order.price (level.without order) := by
    rw [hbook, side_removeResting]
  constructor
  · rw [hcmd]
    rfl
  · rw [hcmd]
    exact ⟨rfl, rfl, rfl, rfl, rfl⟩
  · rw [hbook]
    exact removeResting_perm h hlevel hmem
  · refine ⟨level, hlevel, hmem, ?_⟩
    rw [hside, BookSide.getLevel_replaceLevel hlevel, if_pos rfl]
  · intro price hne
    rw [hside, BookSide.getLevel_replaceLevel hlevel, if_neg hne]
  · rw [hbook, side_removeResting_ne _ _ (Side.opSide_ne s)]
  · rw [hbook]
    rfl

theorem cancelLaw_of_complete {book : OrderBook} (h : book.Shape) (hindex : book.IndexComplete)
    (hshared : book.NoSharedPrice) : book.CancelLaw where
  indexed id price := by
    constructor
    · exact h.indexed id price
    · rintro ⟨s, o, ho, rfl, rfl⟩
      exact hindex s o ho
  cancels s o ho cmd cache hid hstatus := by
    obtain ⟨hbook, hcmd⟩ := cancelOrder_of_ne hstatus book cache
    have hlookup := hindex s o ho
    rw [← hid] at hlookup
    obtain ⟨t, level, order, hlevel, hmem, horder, _, hout⟩ :=
      cancelByIndex_found h hlookup (not_misdirected h hshared _)
    have hrest : order ∈ (book.side t).resting := BookSide.mem_resting.mpr ⟨_, _, hlevel, hmem⟩
    have hs : t = s := h.side_unique hrest ho (horder.trans hid)
    subst hs
    have ho' : order = o :=
      List.inj_on_of_nodup_map (h.nodup t) hrest ho (horder.trans hid)
    subst ho'
    rw [hout] at hbook hcmd
    exact cancelsExactly_of_removed h hlevel hmem hbook hcmd
  refuses cmd cache hnone := by
    by_cases hstatus : cmd.status = .rejected
    · rw [cancelOrder, if_pos hstatus]
      exact ⟨hstatus, rfl⟩
    · obtain ⟨hbook, hcmd⟩ := cancelOrder_of_ne hstatus book cache
      have hlookup : book.orders.lookup cmd.orderId = none := by
        by_contra hsome
        obtain ⟨price, hprice⟩ := Option.ne_none_iff_exists'.mp hsome
        obtain ⟨s, o, ho, hid, _⟩ := h.indexed _ _ hprice
        exact hnone s o ho hid
      rw [cancelByIndex_unknown hlookup] at hbook hcmd
      exact ⟨by rw [hcmd], hbook⟩

theorem noSharedPrice_of_cancelLaw {book : OrderBook} (h : book.Shape) (law : book.CancelLaw) :
    book.NoSharedPrice := by
  intro price
  cases hbid : book.bids.getLevel price with
  | none => exact .inl rfl
  | some bidLevel =>
    cases hask : book.asks.getLevel price with
    | none => exact .inr rfl
    | some askLevel =>
      exfalso
      have hbidShape := h.level .bid price bidLevel hbid
      have haskShape := h.level .ask price askLevel hask
      obtain ⟨o, ho⟩ := List.exists_mem_of_ne_nil _ haskShape.nonempty
      have hrest : o ∈ (book.side .ask).resting := BookSide.mem_resting.mpr ⟨_, _, hask, ho⟩
      have hprice := (haskShape.placed o ho).1
      have hlookup := (law.indexed o.orderId price).mpr ⟨.ask, o, hrest, rfl, hprice⟩
      have hmis : book.Misdirected (OrderCommand.cancelOf o.orderId).orderId := by
        refine ⟨price, bidLevel, hlookup, hbid, ?_⟩
        intro b hb heq
        have hbrest : b ∈ (book.side .bid).resting := BookSide.mem_resting.mpr ⟨_, _, hbid, hb⟩
        exact absurd (h.side_unique hbrest hrest heq) (by decide)
      have hstatus : (OrderCommand.cancelOf o.orderId).status ≠ .rejected := Status.noConfusion
      have hcancel := (law.cancels .ask o hrest (.cancelOf o.orderId) ⟨∅⟩ rfl hstatus).status
      rw [(cancelOrder_of_ne hstatus book ⟨∅⟩).2, cancelByIndex_misdirected h hmis] at hcancel
      cases hcancel

/-- Over a run, cancellation works in every state exactly when no state has a price that
carries both a bid and an ask level. -/
theorem run_cancelLaw_iff (marketId : Nat) (calls : List Call) (book : OrderBook) :
    Run marketId CancelLaw calls book ↔ Run marketId NoSharedPrice calls book := by
  constructor
  · intro run
    induction run with
    | start => exact .start
    | place cmd cache run hnew hpos law ih =>
      have hshape := (run.invariant.place hnew cache).shape
      exact ih.place cmd cache hnew hpos (noSharedPrice_of_cancelLaw hshape law)
    | cancel cmd cache run law ih =>
      have hshape := (run.invariant.cancel cmd cache).shape
      exact ih.cancel cmd cache (noSharedPrice_of_cancelLaw hshape law)
  · intro run
    induction run with
    | start => exact .start
    | place cmd cache run hnew hpos shared ih =>
      have hafter := Run.place cmd cache run hnew hpos shared
      exact ih.place cmd cache hnew hpos
        (cancelLaw_of_complete hafter.invariant.shape hafter.indexComplete.1 shared)
    | cancel cmd cache run shared ih =>
      have hafter := Run.cancel cmd cache run shared
      exact ih.cancel cmd cache
        (cancelLaw_of_complete hafter.invariant.shape hafter.indexComplete.1 shared)

/-- A user's bid and ask at one price, resting against each other. -/
theorem selfCross_uncancellable :
    ¬∀ calls book, Run 1 (fun _ => True) calls book → book.CancelLaw := by
  intro hall
  have first : Run 1 (fun _ => True) [] (new 1) := .start
  have second := Run.place (.limit .bid .gtc 1 7 100 10) ⟨∅⟩ first (by decide) (by decide) trivial
  have third := Run.place (.limit .ask .gtc 2 7 100 5) ⟨∅⟩ second (by decide) (by decide) trivial
  have law := hall _ _ third
  have hcancel := (law.cancels .ask
    { orderId := 2, userId := 7, price := 100, size := 5, originalSize := 5, side := .ask,
      timeInForce := .gtc, status := .processing, timestamp := 0 }
    (by decide) (.cancelOf 2) ⟨∅⟩ rfl (by decide)).status
  revert hcancel
  decide

end OrderBook

end VexCore
