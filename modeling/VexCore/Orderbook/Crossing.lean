import VexCore.Orderbook.Run

/-!
# Crossed prices

A remainder rests only when the fills left nothing it could trade with, so the prices of two
resting orders meet only where both belong to one user.
-/

namespace VexCore

open Framework

namespace OrderBook

/-- Orders of opposite sides whose prices meet belong to one user. -/
def Uncrossed (book : OrderBook) : Prop :=
  ∀ s, ∀ o ∈ (book.side s).resting, ∀ other ∈ (book.side s.opSide).resting,
    priceCheck s o.price other.price = true → other.userId = o.userId

theorem priceCheck_swap {s : Side} {p q : Nat} (h : priceCheck s.opSide p q = true) :
    priceCheck s q p = true := by
  cases s <;> simpa [priceCheck, Side.opSide] using h

/-- Every resting order was resting before, perhaps with another size. -/
def RestsWithin (after before : OrderBook) : Prop :=
  ∀ s, ∀ o' ∈ (after.side s).resting, ∃ o ∈ (before.side s).resting,
    o.price = o'.price ∧ o.userId = o'.userId

theorem Uncrossed.mono {before after : OrderBook} (h : before.Uncrossed)
    (hwithin : after.RestsWithin before) : after.Uncrossed := by
  intro s o' ho' other' hother' hcheck
  obtain ⟨o, ho, hprice, huser⟩ := hwithin s o' ho'
  obtain ⟨other, hother, hotherPrice, hotherUser⟩ := hwithin s.opSide other' hother'
  rw [← hprice, ← hotherPrice] at hcheck
  rw [← huser, ← hotherUser]
  exact h s o ho other hother hcheck

theorem matchOrder_restsWithin {book : OrderBook} (h : book.Shape) (cmd : OrderCommand) :
    (book.matchOrder cmd).1.RestsWithin book := by
  intro s o' ho'
  obtain ⟨o, ho, size, _, rfl⟩ := mem_resting_matchOrder h ho'
  exact ⟨o, ho, rfl, rfl⟩

theorem cancelOrder_restsWithin {book : OrderBook} (h : book.Shape) (cmd : OrderCommand)
    (cache : PriceCache) : (book.cancelOrder cmd cache).book.RestsWithin book := by
  intro s o ho
  exact ⟨o, mem_resting_cancelOrder h ho, rfl, rfl⟩

theorem not_eligible_of_remaining {book : OrderBook} (h : book.Shape) {cmd : OrderCommand}
    (hremaining : 0 < (book.matchOrder cmd).2.2) {o' : Order}
    (ho' : o' ∈ ((book.matchOrder cmd).1.side cmd.side.opSide).resting)
    (hcheck : priceCheck cmd.side cmd.price o'.price = true) : o'.userId = cmd.userId := by
  by_contra hother
  rw [matchOrder_resting h] at ho'
  obtain ⟨o, ho, hafter⟩ := List.mem_filterMap.mp ho'
  obtain ⟨hcompletes, rfl⟩ := afterFills_eq_some hafter
  rw [matchOrder_remaining h] at hremaining
  have heligible : o ∈ book.eligible cmd := by
    simp only [eligible, List.mem_filter, Bool.and_eq_true, decide_eq_true_eq]
    exact ⟨ho, hcheck, hother⟩
  -- the fills fell short, so this order was used up
  have hshort : filled (book.referenceFills cmd) < cmd.size := Nat.lt_of_sub_pos hremaining
  obtain ⟨f, hf, hsource, hamount⟩ := exhausted_of_filled_lt hshort heligible
  simp only [completes, List.any_eq_false] at hcompletes
  apply hcompletes f hf
  simp [hsource, hamount]

theorem addToBook_uncrossed {book : OrderBook} (h : book.Uncrossed) {cmd : OrderCommand}
    (hnone : ∀ o ∈ (book.side cmd.side.opSide).resting,
      priceCheck cmd.side cmd.price o.price = true → o.userId = cmd.userId) (remaining : Nat) :
    (book.addToBook cmd remaining).Uncrossed := by
  intro s o ho other hother hcheck
  rcases mem_resting_addToBook.mp ho with ⟨hs, hnew⟩ | ho
  · rcases mem_resting_addToBook.mp hother with ⟨ht, _⟩ | hother
    · exact absurd (ht.trans hs.symm) (Side.opSide_ne s)
    · subst hs hnew
      exact hnone other hother hcheck
  · rcases mem_resting_addToBook.mp hother with ⟨ht, hnew⟩ | hother
    · subst hnew
      have hs : s = cmd.side.opSide := by rw [← ht, Side.opSide_opSide]
      subst hs
      exact (hnone o ho (priceCheck_swap hcheck)).symm
    · exact h s o ho other hother hcheck

theorem placeOrder_uncrossed {book : OrderBook} (hshape : book.Shape) (h : book.Uncrossed)
    {cmd : OrderCommand} (hpos : 0 < cmd.size) (cache : PriceCache) :
    (book.placeOrder cmd cache).book.Uncrossed := by
  rcases placeOrder_book_cases book cmd cache with heq | heq | ⟨_, hrest, heq⟩
  · rw [heq]
    exact h
  · rw [heq]
    exact h.mono (matchOrder_restsWithin hshape cmd)
  · rw [heq]
    have hremaining : 0 < (book.matchOrder cmd).2.2 := by omega
    apply addToBook_uncrossed (h.mono (matchOrder_restsWithin hshape cmd))
    intro o ho hcheck
    exact not_eligible_of_remaining hshape hremaining ho hcheck

theorem Run.uncrossed {marketId : Nat} {within : OrderBook → Prop} {calls : List Call}
    {book : OrderBook} (run : Run marketId within calls book) : book.Uncrossed := by
  induction run with
  | start =>
    intro s o ho
    cases s <;> cases ho
  | place cmd cache run _ hpos _ ih => exact placeOrder_uncrossed run.invariant.shape ih hpos cache
  | cancel cmd cache run _ ih => exact ih.mono (cancelOrder_restsWithin run.invariant.shape cmd cache)

/-- In any book of any run different users' resting orders do not cross, and what a placement
leaves unfilled meets no other user's order. -/
theorem run_crossing_same_user {marketId : Nat} {calls : List Call} {book : OrderBook}
    (run : Run marketId (fun _ => True) calls book) :
    (∀ b ∈ book.bids.resting, ∀ a ∈ book.asks.resting, b.price ≥ a.price → b.userId = a.userId) ∧
    ∀ cmd, 0 < (book.matchOrder cmd).2.2 →
      ∀ o ∈ ((book.matchOrder cmd).1.side cmd.side.opSide).resting,
        priceCheck cmd.side cmd.price o.price = true → o.userId = cmd.userId := by
  have hshape := run.invariant.shape
  constructor
  · intro b hb a ha hcross
    have hcheck : priceCheck .bid b.price a.price = true := by simpa [priceCheck] using hcross
    exact (run.uncrossed .bid b hb a ha hcheck).symm
  · intro cmd hremaining o ho hcheck
    exact not_eligible_of_remaining hshape hremaining ho hcheck

/-- A user's own ask rests below the bid that it crosses. -/
theorem run_crossing_same_user_selfCross :
    let book := (((new 1).placeOrder (.limit .bid .gtc 1 7 100 10) ⟨∅⟩).book.placeOrder
      (.limit .ask .gtc 2 7 90 5) ⟨∅⟩).book
    ∃ b ∈ book.bids.resting, ∃ a ∈ book.asks.resting,
      b.price ≥ a.price ∧ b.userId = a.userId := by
  intro book
  have first : Run 1 (fun _ => True) [] (new 1) := .start
  have second := Run.place (.limit .bid .gtc 1 7 100 10) ⟨∅⟩ first (by decide) (by decide) trivial
  have third := Run.place (.limit .ask .gtc 2 7 90 5) ⟨∅⟩ second (by decide) (by decide) trivial
  have hbid : restingOrder (.limit .bid .gtc 1 7 100 10) 10 ∈ book.bids.resting := by decide
  have hask : restingOrder (.limit .ask .gtc 2 7 90 5) 5 ∈ book.asks.resting := by decide
  have hsame := (run_crossing_same_user third).1 _ hbid _ hask (by decide)
  exact ⟨_, hbid, _, hask, by decide, hsame⟩

end OrderBook

end VexCore
