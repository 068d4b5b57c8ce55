import VexCore.Orderbook.Cancel
import VexCore.Orderbook.Matching

/-!
# Runs of an order book

A run performs placements and cancellations on an initially empty book. The constraints the
source puts on its callers are those of `place_order`: ids increase and sizes are positive.
-/

namespace VexCore

open Framework

namespace OrderBook

theorem rejected_placeOrder {cmd : OrderCommand} (h : cmd.status = .rejected) (book : OrderBook)
    (cache : PriceCache) : book.placeOrder cmd cache = ⟨book, cmd, cache⟩ := by
  rw [placeOrder, if_pos h]

theorem placeOrder_book {cmd : OrderCommand} (h : cmd.status ≠ .rejected) (book : OrderBook)
    (cache : PriceCache) : (book.placeOrder cmd cache).book = (book.placeByTimeInForce cmd).1 := by
  rw [placeOrder, if_neg h]

/-- What a placement can do to the book: nothing, match, or match and rest. -/
theorem placeOrder_book_cases (book : OrderBook) (cmd : OrderCommand) (cache : PriceCache) :
    (book.placeOrder cmd cache).book = book ∨
    (book.placeOrder cmd cache).book = (book.matchOrder cmd).1 ∨
    (cmd.timeInForce = .gtc ∧
      ((book.matchOrder cmd).2.2 = cmd.size ∨ 0 < (book.matchOrder cmd).2.2) ∧
      (book.placeOrder cmd cache).book =
        (book.matchOrder cmd).1.addToBook cmd (book.matchOrder cmd).2.2) := by
  by_cases hrej : cmd.status = .rejected
  · rw [rejected_placeOrder hrej]
    exact .inl rfl
  · rw [placeOrder_book hrej]
    unfold placeByTimeInForce
    cases htif : cmd.timeInForce with
    | gtc =>
      simp only
      split
      · rename_i hrest
        exact .inr (.inr ⟨trivial, .inl hrest, rfl⟩)
      · split
        · rename_i hrest
          exact .inr (.inr ⟨trivial, .inr hrest, rfl⟩)
        · exact .inr (.inl rfl)
    | ioc => exact .inr (.inl rfl)
    | fok =>
      simp only
      split
      · exact .inl rfl
      · exact .inr (.inl rfl)

theorem matchOrder_idsBelow {book : OrderBook} (h : book.Shape) {bound : Nat}
    (hbelow : book.IdsBelow bound) (cmd : OrderCommand) :
    (book.matchOrder cmd).1.IdsBelow bound := by
  intro s id hid
  by_cases hs : s = cmd.side.opSide
  · subst hs
    rw [BookSide.ids, matchOrder_resting h] at hid
    exact hbelow _ _ ((map_orderId_filterMap_sublist _ _).subset hid)
  · rw [matchOrder_side_ne hs] at hid
    exact hbelow _ _ hid

theorem placeOrder_shape {book : OrderBook} (h : book.Shape) {cmd : OrderCommand}
    (hbelow : book.IdsBelow cmd.orderId) (cache : PriceCache) :
    (book.placeOrder cmd cache).book.Shape := by
  rcases placeOrder_book_cases book cmd cache with heq | heq | ⟨htif, _, heq⟩
  · rw [heq]
    exact h
  · rw [heq]
    exact matchOrder_shape h cmd
  · rw [heq]
    exact addToBook_shape _ (matchOrder_shape h cmd) (matchOrder_idsBelow h hbelow cmd) htif

theorem cancelOrder_book (book : OrderBook) (cmd : OrderCommand) (cache : PriceCache) :
    (book.cancelOrder cmd cache).book = book ∨
      (book.cancelOrder cmd cache).book = (book.cancelByIndex cmd).1 := by
  unfold cancelOrder
  split
  · exact .inl rfl
  · exact .inr rfl

theorem cancelOrder_shape {book : OrderBook} (h : book.Shape) (cmd : OrderCommand)
    (cache : PriceCache) : (book.cancelOrder cmd cache).book.Shape := by
  rcases cancelOrder_book book cmd cache with heq | heq
  · rw [heq]
    exact h
  · rw [heq]
    exact cancelByIndex_shape h cmd

/-- An order that rests after matching, with what it had before. -/
theorem mem_resting_matchOrder {book : OrderBook} (h : book.Shape) {cmd : OrderCommand} {s : Side}
    {o' : Order} (ho : o' ∈ ((book.matchOrder cmd).1.side s).resting) :
    ∃ o ∈ (book.side s).resting, ∃ size ≤ o.size, o' = { o with size } := by
  by_cases hs : s = cmd.side.opSide
  · subst hs
    rw [matchOrder_resting h] at ho
    obtain ⟨o, ho, hafter⟩ := List.mem_filterMap.mp ho
    obtain ⟨_, heq⟩ := afterFills_eq_some hafter
    exact ⟨o, ho, _, Nat.sub_le _ _, heq⟩
  · rw [matchOrder_side_ne hs] at ho
    exact ⟨o', ho, o'.size, le_rfl, rfl⟩

theorem matchOrder_remaining_le (book : OrderBook) (h : book.Shape) (cmd : OrderCommand) :
    (book.matchOrder cmd).2.2 ≤ cmd.size := by
  rw [matchOrder_remaining h]
  exact Nat.sub_le _ _

/-- After a placement every resting order was there before, perhaps larger, or is the order
just placed. -/
theorem mem_resting_placeOrder {book : OrderBook} (h : book.Shape) {cmd : OrderCommand}
    {cache : PriceCache} {s : Side} {o' : Order}
    (ho : o' ∈ ((book.placeOrder cmd cache).book.side s).resting) :
    (s = cmd.side ∧ ∃ size ≤ cmd.size, o' = restingOrder cmd size) ∨
      ∃ o ∈ (book.side s).resting, ∃ size ≤ o.size, o' = { o with size } := by
  rcases placeOrder_book_cases book cmd cache with heq | heq | ⟨_, _, heq⟩
  · rw [heq] at ho
    exact .inr ⟨o', ho, o'.size, le_rfl, rfl⟩
  · rw [heq] at ho
    exact .inr (mem_resting_matchOrder h ho)
  · rw [heq] at ho
    rcases mem_resting_addToBook.mp ho with ⟨hs, hnew⟩ | ho
    · exact .inl ⟨hs, _, matchOrder_remaining_le book h cmd, hnew⟩
    · exact .inr (mem_resting_matchOrder h ho)

theorem mem_resting_cancelOrder {book : OrderBook} (h : book.Shape) {cmd : OrderCommand}
    {cache : PriceCache} {s : Side} {o : Order}
    (ho : o ∈ ((book.cancelOrder cmd cache).book.side s).resting) : o ∈ (book.side s).resting := by
  rcases cancelOrder_book book cmd cache with heq | heq
  · rw [heq] at ho
    exact ho
  · rw [heq] at ho
    rcases cancelByIndex_cases h cmd with ⟨_, hout⟩ | ⟨_, hout⟩ |
      ⟨t, level, order, hlevel, hmem, _, _, hout⟩
    · rw [hout] at ho
      exact ho
    · rw [hout, side_setOrders] at ho
      exact ho
    · rw [hout] at ho
      by_cases hs : s = t
      · subst hs
        exact (removeResting_perm h hlevel hmem).mem_iff.mpr (List.mem_cons_of_mem _ ho)
      · rw [side_removeResting_ne _ _ hs] at ho
        exact ho

inductive Call
  | place (cmd : OrderCommand)
  | cancel (cmd : OrderCommand)

def Call.perform (call : Call) (book : OrderBook) (cache : PriceCache) : Outcome :=
  match call with
  | .place cmd => book.placeOrder cmd cache
  | .cancel cmd => book.cancelOrder cmd cache

/-- The commands of the placements among some calls. -/
def placements (calls : List Call) : List OrderCommand :=
  calls.filterMap fun
    | .place cmd => some cmd
    | .cancel _ => none

/-- Every level's total size fits 64 bits. -/
def VolumesFit (book : OrderBook) : Prop :=
  ∀ s price level, (book.side s).getLevel price = some level →
    (level.orders.map Order.size).sum < 2 ^ 64

/-- The books reached from the empty one; `within` holds after each call. The price cache is
shared with other books, so each call may find any cache. -/
inductive Run (marketId : Nat) (within : OrderBook → Prop) : List Call → OrderBook → Prop
  | start : Run marketId within [] (new marketId)
  | place {calls : List Call} {book : OrderBook} (cmd : OrderCommand) (cache : PriceCache)
      (run : Run marketId within calls book)
      (increasing : ∀ earlier ∈ placements calls, earlier.orderId < cmd.orderId)
      (positive : 0 < cmd.size)
      (fits : within (book.placeOrder cmd cache).book) :
      Run marketId within (calls ++ [.place cmd]) (book.placeOrder cmd cache).book
  | cancel {calls : List Call} {book : OrderBook} (cmd : OrderCommand) (cache : PriceCache)
      (run : Run marketId within calls book)
      (fits : within (book.cancelOrder cmd cache).book) :
      Run marketId within (calls ++ [.cancel cmd]) (book.cancelOrder cmd cache).book

theorem placements_place (calls : List Call) (cmd : OrderCommand) :
    placements (calls ++ [.place cmd]) = placements calls ++ [cmd] := by
  simp [placements]

theorem placements_cancel (calls : List Call) (cmd : OrderCommand) :
    placements (calls ++ [.cancel cmd]) = placements calls := by
  simp [placements]

/-- The order stems from one of the placements. -/
def SubmittedBy (placed : List OrderCommand) (o : Order) : Prop :=
  ∃ cmd ∈ placed, cmd.orderId = o.orderId ∧ cmd.userId = o.userId ∧ cmd.price = o.price ∧
    cmd.side = o.side ∧ cmd.size = o.originalSize

theorem SubmittedBy.mono {placed more : List OrderCommand} {o : Order}
    (h : SubmittedBy placed o) (hsub : placed ⊆ more) : SubmittedBy more o := by
  obtain ⟨cmd, hcmd, h⟩ := h
  exact ⟨cmd, hsub hcmd, h⟩

/-- What every state of a run satisfies. -/
structure RunInvariant (calls : List Call) (book : OrderBook) : Prop where
  shape : book.Shape
  submitted : ∀ s, ∀ o ∈ (book.side s).resting, SubmittedBy (placements calls) o

theorem RunInvariant.idsBelow {calls : List Call} {book : OrderBook} (h : RunInvariant calls book)
    {bound : Nat} (hbound : ∀ cmd ∈ placements calls, cmd.orderId < bound) :
    book.IdsBelow bound := by
  intro s id hid
  obtain ⟨o, ho, rfl⟩ := BookSide.mem_ids.mp hid
  obtain ⟨cmd, hcmd, heq, _⟩ := h.submitted s o ho
  rw [← heq]
  exact hbound cmd hcmd

theorem RunInvariant.place {calls : List Call} {book : OrderBook} (h : RunInvariant calls book)
    {cmd : OrderCommand} (hnew : ∀ earlier ∈ placements calls, earlier.orderId < cmd.orderId)
    (cache : PriceCache) :
    RunInvariant (calls ++ [.place cmd]) (book.placeOrder cmd cache).book where
  shape := placeOrder_shape h.shape (h.idsBelow hnew) cache
  submitted s o' ho' := by
    rw [placements_place]
    rcases mem_resting_placeOrder h.shape ho' with ⟨_, size, _, rfl⟩ | ⟨o, ho, size, _, rfl⟩
    · exact ⟨cmd, by simp, rfl, rfl, rfl, rfl, rfl⟩
    · exact (h.submitted s o ho).mono (List.subset_append_left _ _)

theorem RunInvariant.cancel {calls : List Call} {book : OrderBook} (h : RunInvariant calls book)
    (cmd : OrderCommand) (cache : PriceCache) :
    RunInvariant (calls ++ [.cancel cmd]) (book.cancelOrder cmd cache).book where
  shape := cancelOrder_shape h.shape cmd cache
  submitted s o ho := by
    rw [placements_cancel]
    exact h.submitted s o (mem_resting_cancelOrder h.shape ho)

theorem Run.invariant {marketId : Nat} {within : OrderBook → Prop} {calls : List Call}
    {book : OrderBook} (run : Run marketId within calls book) : RunInvariant calls book := by
  induction run with
  | start =>
    refine ⟨new_shape marketId, ?_⟩
    intro s o ho
    cases s <;> cases ho
  | place cmd cache _ hnew _ _ ih => exact ih.place hnew cache
  | cancel cmd cache _ _ ih => exact ih.cancel cmd cache

end OrderBook

end VexCore
