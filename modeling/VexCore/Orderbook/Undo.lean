import VexCore.Orderbook.Cancellation
import VexCore.Orderbook.Splitting

/-!
# Cancelling what was just placed

A good-till-cancelled order that is cancelled at once should leave what an immediate-or-cancel
order leaves. It does, unless the order rests as an ask at a price that bids also rest at: there
the cancellation looks among the bids and finds nothing.
-/

namespace VexCore

open Framework

namespace PriceLevel

theorem without_addOrder {level : PriceLevel} {order : Order}
    (hvolume : level.totalVolume < 2 ^ 64) (hsize : order.size < 2 ^ 64)
    (hfresh : ∀ o ∈ level.orders, o.orderId ≠ order.orderId) :
    (level.addOrder order).without order = level := by
  have hkept : (level.orders.filter fun o => o.orderId ≠ order.orderId) = level.orders := by
    rw [List.filter_eq_self]
    intro o ho
    simpa using hfresh o ho
  unfold without addOrder
  rw [List.filter_append, hkept, wrappingSub_wrappingAdd hvolume hsize]
  simp

end PriceLevel

namespace OrderBook

section

variable {book : OrderBook} {cmd : OrderCommand} {remaining : Nat}

theorem Shape.lookup_fresh (h : book.Shape) {id : Nat} (hbelow : book.IdsBelow id) :
    book.orders.lookup id = none := by
  rw [Option.eq_none_iff_forall_ne_some]
  intro price hlookup
  obtain ⟨s, o, ho, heq, _⟩ := h.indexed _ _ hlookup
  exact Nat.lt_irrefl _ (hbelow s _ (BookSide.mem_ids.mpr ⟨o, ho, heq⟩))

theorem replaceLevel_addOrder (h : book.Shape) (hv : book.VolumesExact)
    (hbelow : book.IdsBelow cmd.orderId) (hsize : remaining < 2 ^ 64) {level : PriceLevel}
    (hlevel : ((book.addToBook cmd remaining).side cmd.side).getLevel cmd.price = some level) :
    ((book.addToBook cmd remaining).side cmd.side).replaceLevel cmd.price
      (level.without (restingOrder cmd remaining)) = book.side cmd.side := by
  obtain ⟨old, hold, hvolume, hfresh, hget⟩ : ∃ old : PriceLevel,
      ((book.side cmd.side).getLevel cmd.price).getD .new = old ∧ old.totalVolume < 2 ^ 64 ∧
      (∀ o ∈ old.orders, o.orderId ≠ cmd.orderId) ∧
      (if old.orders.isEmpty then none else some old) =
        (book.side cmd.side).getLevel cmd.price := by
    cases hget : (book.side cmd.side).getLevel cmd.price with
    | none => exact ⟨.new, rfl, by decide, (fun o ho => by cases ho), rfl⟩
    | some old =>
      have hexact := hv _ _ _ hget
      have hnonempty := (h.level _ _ _ hget).nonempty
      refine ⟨old, rfl, ?_, ?_, ?_⟩
      · rw [hexact.total]
        exact hexact.fits
      · intro o ho heq
        have hrest := BookSide.mem_resting.mpr ⟨_, _, hget, ho⟩
        have hlt := hbelow _ _ (BookSide.mem_ids.mpr ⟨o, hrest, rfl⟩)
        exact Nat.ne_of_lt hlt heq
      · rw [if_neg (by simpa using hnonempty)]
  have hadded := hlevel
  rw [side_addToBook, BookSide.getLevel_getOrCreateLevel, if_pos rfl, hold,
    Option.some.injEq] at hadded
  have hwithout : level.without (restingOrder cmd remaining) = old := by
    rw [← hadded]
    exact PriceLevel.without_addOrder hvolume hsize hfresh
  apply SortedMap.ext_find?
  intro price
  change (((book.addToBook cmd remaining).side cmd.side).replaceLevel cmd.price _).getLevel price =
    (book.side cmd.side).getLevel price
  rw [BookSide.getLevel_replaceLevel hlevel, hwithout]
  by_cases hp : price = cmd.price
  · rw [if_pos hp, hp, hget]
  · rw [if_neg hp, side_addToBook, BookSide.getLevel_getOrCreateLevel, if_neg hp]

theorem removeResting_addToBook (h : book.Shape) (hv : book.VolumesExact)
    (hbelow : book.IdsBelow cmd.orderId) (hsize : remaining < 2 ^ 64) {level : PriceLevel}
    (hlevel : ((book.addToBook cmd remaining).side cmd.side).getLevel cmd.price = some level) :
    (book.addToBook cmd remaining).removeResting cmd.side level (restingOrder cmd remaining) =
      book := by
  apply eq_of_sides
  · exact (marketId_withSide _ _ _).trans (marketId_withSide _ _ _)
  · intro s
    by_cases hs : s = cmd.side
    · subst hs
      rw [side_removeResting]
      exact replaceLevel_addOrder h hv hbelow hsize hlevel
    · rw [side_removeResting_ne _ _ hs, side_addToBook_ne _ hs]
  · change (book.orders.insert cmd.orderId cmd.price).erase cmd.orderId = book.orders
    apply Finmap.ext_lookup
    intro id
    by_cases hid : id = cmd.orderId
    · subst hid
      rw [Finmap.lookup_erase, h.lookup_fresh hbelow]
    · rw [Finmap.lookup_erase_ne hid, Finmap.lookup_insert_of_ne _ hid]

/-- The lookup for a fresh order goes astray exactly when it is an ask with bids at its price. -/
theorem misdirected_addToBook_iff (hbelow : book.IdsBelow cmd.orderId) :
    (book.addToBook cmd remaining).Misdirected cmd.orderId ↔
      cmd.side = .ask ∧ ∃ level, book.bids.getLevel cmd.price = some level := by
  have hindex : (book.addToBook cmd remaining).orders.lookup cmd.orderId = some cmd.price :=
    Finmap.lookup_insert _
  constructor
  · intro hmis
    obtain ⟨price, level, hlookup, hlevel, hmiss⟩ := hmis
    rw [hindex, Option.some.injEq] at hlookup
    subst hlookup
    cases hside : cmd.side with
    | ask =>
      have hkept := @side_addToBook_ne book cmd .bid remaining (by rw [hside]; decide)
      change (book.addToBook cmd remaining).bids = book.bids at hkept
      rw [hkept] at hlevel
      exact ⟨rfl, level, hlevel⟩
    | bid =>
      exfalso
      have hadded := side_addToBook book cmd remaining
      rw [hside] at hadded
      change (book.addToBook cmd remaining).bids = _ at hadded
      rw [hadded, BookSide.getLevel_getOrCreateLevel, if_pos rfl, Option.some.injEq] at hlevel
      refine hmiss (restingOrder cmd remaining) ?_ rfl
      rw [← hlevel]
      simp [PriceLevel.addOrder]
  · intro hshadow
    obtain ⟨hside, level, hlevel⟩ := hshadow
    have hkept := @side_addToBook_ne book cmd .bid remaining (by rw [hside]; decide)
    change (book.addToBook cmd remaining).bids = book.bids at hkept
    refine ⟨cmd.price, level, hindex, by rw [hkept]; exact hlevel, ?_⟩
    intro o ho heq
    have hrest : o ∈ (book.side .bid).resting := BookSide.mem_resting.mpr ⟨_, _, hlevel, ho⟩
    exact Nat.ne_of_lt (hbelow .bid _ (BookSide.mem_ids.mpr ⟨o, hrest, rfl⟩)) heq

/-- Cancelling a fresh order takes exactly it out, unless the lookup goes astray. -/
theorem cancelByIndex_addToBook (h : book.Shape) (hv : book.VolumesExact)
    (hbelow : book.IdsBelow cmd.orderId) (hsize : remaining < 2 ^ 64)
    (htif : cmd.timeInForce = .gtc)
    (hmis : ¬(book.addToBook cmd remaining).Misdirected cmd.orderId) {cancel : OrderCommand}
    (hid : cancel.orderId = cmd.orderId) :
    (book.addToBook cmd remaining).cancelByIndex cancel =
      (book, book.recordSnapshot
        (PriceLevel.reportCancelled cancel (restingOrder cmd remaining))) := by
  have hshape := addToBook_shape remaining h hbelow htif
  have hindex : (book.addToBook cmd remaining).orders.lookup cancel.orderId = some cmd.price := by
    rw [hid]
    exact Finmap.lookup_insert _
  rw [← hid] at hmis
  obtain ⟨s, level, order, hlevel, hmem, horder, hprice, hcancel⟩ :=
    cancelByIndex_found hshape hindex hmis
  have hrest : order ∈ ((book.addToBook cmd remaining).side s).resting :=
    BookSide.mem_resting.mpr ⟨_, _, hlevel, hmem⟩
  -- no other order has this id
  obtain ⟨hs, hnew⟩ : s = cmd.side ∧ order = restingOrder cmd remaining := by
    rcases mem_resting_addToBook.mp hrest with hnew | hold
    · exact hnew
    · have hlt := hbelow s _ (BookSide.mem_ids.mpr ⟨order, hold, rfl⟩)
      exact absurd (horder.trans hid) (Nat.ne_of_lt hlt)
  subst hs hnew
  rw [hcancel, removeResting_addToBook h hv hbelow hsize hlevel]

theorem placeOrder_gtc (h : book.Shape) (htif : cmd.timeInForce = .gtc)
    (hlive : cmd.status ≠ .rejected) (hpos : 0 < cmd.size) (cache : PriceCache) :
    (book.placeOrder cmd cache).cmd.size = (book.matchOrder cmd).2.2 ∧
    (book.placeOrder cmd cache).cmd.events = (book.matchOrder cmd).2.1.events ∧
    (book.placeOrder cmd cache).book =
      if 0 < (book.matchOrder cmd).2.2 then
        (book.matchOrder cmd).1.addToBook cmd (book.matchOrder cmd).2.2
      else (book.matchOrder cmd).1 := by
  obtain ⟨price, hout⟩ := placeOrder_cmd_eq hlive book cache
  have hbook := placeOrder_book hlive book cache
  have hmatched := matchOrder_cmd h cmd
  rw [placeByTimeInForce, htif] at hout hbook
  simp only [hmatched] at hout hbook
  rw [hmatched]
  rcases Nat.eq_zero_or_pos (book.matchOrder cmd).2.2 with hzero | hrest
  · have hne : (book.matchOrder cmd).2.2 ≠ cmd.size := by omega
    have hnot : ¬0 < (book.matchOrder cmd).2.2 := by omega
    rw [if_neg hne, if_neg hnot] at hout hbook
    rw [if_neg hnot]
    exact ⟨by rw [hout], by rw [hout], hbook⟩
  · rw [if_pos hrest] at hout hbook ⊢
    by_cases hall : (book.matchOrder cmd).2.2 = cmd.size
    · rw [if_pos hall] at hout hbook
      exact ⟨by rw [hout], by rw [hout], hbook⟩
    · rw [if_neg hall] at hout hbook
      exact ⟨by rw [hout], by rw [hout], hbook⟩

def withoutWaiting (cmd : OrderCommand) : OrderCommand := { cmd with timeInForce := .ioc }

theorem matchLevels_withoutWaiting (cmd : OrderCommand) (levels : List (Nat × PriceLevel))
    (st : MatchState) :
    matchLevels (withoutWaiting cmd) levels st = matchLevels cmd levels st := by
  induction levels generalizing st with
  | nil => rfl
  | cons e rest ih =>
    obtain ⟨price, level⟩ := e
    simp only [matchLevels, ih]
    rfl

theorem matchOrder_withoutWaiting (book : OrderBook) (cmd : OrderCommand) :
    (book.matchOrder (withoutWaiting cmd)).1 = (book.matchOrder cmd).1 := by
  have hside {s : Side} (side : BookSide s) :
      matchSide side (withoutWaiting cmd) book.orders = matchSide side cmd book.orders := by
    simp only [matchSide, matchLevels_withoutWaiting]
    rfl
  rw [matchOrder, hside]
  rfl

theorem placeOrder_withoutWaiting (h : book.Shape) (hlive : cmd.status ≠ .rejected)
    (hfresh : cmd.events = []) (cache : PriceCache) :
    (book.placeOrder (withoutWaiting cmd) cache).book = (book.matchOrder cmd).1 ∧
    (book.placeOrder (withoutWaiting cmd) cache).cmd.events = (book.matchOrder cmd).2.1.events ∧
    (book.placeOrder (withoutWaiting cmd) cache).cmd.size = (book.matchOrder cmd).2.2 := by
  obtain ⟨hbook, hevents, hsize⟩ :=
    @placeOrder_immediate book (withoutWaiting cmd) h ⟨rfl, hlive, hfresh⟩ cache
  rw [matchOrder_withoutWaiting] at hbook
  refine ⟨hbook, ?_, ?_⟩
  · rw [hevents, matchOrder_cmd h, hfresh]
    rfl
  · rw [hsize, matchOrder_remaining h]
    rfl

theorem addToBook_ne_of_setOrders (index : HashMap Nat Nat) :
    { book.addToBook cmd remaining with orders := index } ≠ book := by
  intro hsame
  have hlength := (addToBook_resting_perm book cmd remaining).length_eq
  have hresting := congrArg (fun b => (b.side cmd.side).resting.length) hsame
  simp only [side_setOrders] at hresting
  rw [List.length_cons, hresting] at hlength
  exact Nat.ne_of_lt (Nat.lt_succ_self _) hlength

/-- What did not trade is an ask at a price that bids also rest at. -/
def Shadowed (cmd : OrderCommand) (out : Outcome) : Prop :=
  cmd.side = .ask ∧ 0 < out.cmd.size ∧ ∃ level, out.book.bids.getLevel cmd.price = some level

/-- Were what did not trade to rest, the lookup for it would go astray. -/
theorem shadowed_iff {out : Outcome} (hbelow : out.book.IdsBelow cmd.orderId) :
    Shadowed cmd out ↔ 0 < out.cmd.size ∧
      (out.book.addToBook cmd out.cmd.size).Misdirected cmd.orderId := by
  rw [misdirected_addToBook_iff hbelow]
  exact and_left_comm

/-- Placing an order and cancelling it at once is sending it as immediate or cancel, unless what
does not trade is shadowed by bids at its price. -/
theorem cancelled_at_once_iff {marketId : Nat} {calls : List Call}
    (run : Run marketId VolumesFit calls book) {cancel : OrderCommand}
    (htif : cmd.timeInForce = .gtc) (hlive : cmd.status ≠ .rejected) (hfresh : cmd.events = [])
    (hnew : ∀ earlier ∈ placements calls, earlier.orderId < cmd.orderId) (hpos : 0 < cmd.size)
    (hword : cmd.size < 2 ^ 64) (hid : cancel.orderId = cmd.orderId)
    (hcancel : cancel.status ≠ .rejected) (cache : PriceCache) :
    let placed := book.placeOrder cmd cache
    let undone := placed.book.cancelOrder cancel placed.cache
    let immediate := book.placeOrder (withoutWaiting cmd) cache
    placed.cmd.events = immediate.cmd.events ∧ placed.cmd.size = immediate.cmd.size ∧
      (undone.book = immediate.book ↔ ¬Shadowed cmd immediate) ∧
      (undone.book = immediate.book → undone.cache = immediate.cache ∧
        (0 < immediate.cmd.size →
          undone.cmd.status = .cancelled ∧ undone.cmd.size = immediate.cmd.size)) := by
  intro placed undone immediate
  have hinv := run.invariant
  have h := hinv.shape
  have hbelow := matchOrder_idsBelow h (hinv.idsBelow hnew) cmd
  have hshape := matchOrder_shape h cmd
  have hexact := run.volumesExact.matchOrder h cmd
  have hle := matchOrder_remaining_le book h cmd
  obtain ⟨hplacedSize, hplacedEvents, hplaced⟩ := placeOrder_gtc h htif hlive hpos cache
  obtain ⟨himmediate, hevents, hleft⟩ := placeOrder_withoutWaiting h hlive hfresh cache
  change immediate.book = _ at himmediate
  change immediate.cmd.size = _ at hleft
  have hcache : undone.book = immediate.book → undone.cache = immediate.cache :=
    cache_of_same (placeOrder_cache hlive book cache)
      (cancelOrder_cache hcancel placed.book placed.cache)
      (@placeOrder_cache (withoutWaiting cmd) hlive book cache)
      (cancelOrder_marketId placed.book cancel placed.cache)
  have hshadowed : Shadowed cmd immediate ↔ 0 < (book.matchOrder cmd).2.2 ∧
      ((book.matchOrder cmd).1.addToBook cmd (book.matchOrder cmd).2.2).Misdirected
        cmd.orderId := by
    rw [shadowed_iff (by rw [himmediate]; exact hbelow), himmediate, hleft]
  obtain ⟨hbook, hcmd⟩ := cancelOrder_of_ne hcancel placed.book placed.cache
  change undone.book = _ at hbook
  change undone.cmd = _ at hcmd
  refine ⟨hplacedEvents.trans hevents.symm, hplacedSize.trans hleft.symm, ?_⟩
  rw [hshadowed, hleft, himmediate]
  rw [himmediate] at hcache
  by_cases hrest : 0 < (book.matchOrder cmd).2.2
  · rw [if_pos hrest] at hplaced
    change placed.book = _ at hplaced
    rw [hplaced] at hbook hcmd
    by_cases hmis : ((book.matchOrder cmd).1.addToBook cmd
        (book.matchOrder cmd).2.2).Misdirected cmd.orderId
    · have hlost := hmis
      rw [← hid] at hlost
      rw [cancelByIndex_misdirected (addToBook_shape _ hshape hbelow htif) hlost] at hbook
      have hne : undone.book ≠ (book.matchOrder cmd).1 := by
        rw [hbook]
        exact addToBook_ne_of_setOrders _
      exact ⟨iff_of_false hne fun hnot => hnot ⟨hrest, hmis⟩, fun hsame => absurd hsame hne⟩
    · have hrestored := cancelByIndex_addToBook hshape hexact hbelow (by omega) htif hmis hid
      rw [hrestored] at hbook hcmd
      refine ⟨iff_of_true hbook fun hshadow => hmis hshadow.2, fun hsame =>
        ⟨hcache hsame, fun _ => ?_⟩⟩
      rw [hcmd]
      exact ⟨rfl, rfl⟩
  · rw [if_neg hrest] at hplaced
    change placed.book = _ at hplaced
    have hlookup := hshape.lookup_fresh hbelow
    rw [← hid] at hlookup
    rw [hplaced, cancelByIndex_unknown hlookup] at hbook
    exact ⟨iff_of_true hbook fun hshadow => hrest hshadow.1, fun hsame =>
      ⟨hcache hsame, fun hsome => absurd hsome hrest⟩⟩

/-- An ask of eleven takes the six that rest, leaves five behind and takes them back. -/
theorem cancelled_at_once_iff_partialFill :
    let book := (((new 1).placeOrder (.limit .bid .gtc 1 7 100 10) ⟨∅⟩).book.placeOrder
      (.limit .ask .ioc 2 8 100 4) ⟨∅⟩).book
    let placed := book.placeOrder (.limit .ask .gtc 3 9 100 11) ⟨∅⟩
    let immediate := book.placeOrder (.limit .ask .ioc 3 9 100 11) ⟨∅⟩
    (placed.book.cancelOrder (.cancelOf 3) placed.cache).book = immediate.book ∧
      immediate.cmd.size = 5 := by
  intro book placed immediate
  have hall := @cancelled_at_once_iff book (.limit .ask .gtc 3 9 100 11) _ _ partialFill_run
    (.cancelOf 3) rfl (by decide) rfl (by decide) (by decide) (by decide) rfl (by decide) ⟨∅⟩
  have hclear : ¬Shadowed (.limit .ask .gtc 3 9 100 11) immediate := by
    intro ⟨_, _, level, hlevel⟩
    have hnone : immediate.book.bids.getLevel 100 = none := by decide
    cases hnone.symm.trans hlevel
  exact ⟨hall.2.2.1.mpr hclear, by decide⟩

end

end OrderBook

end VexCore
