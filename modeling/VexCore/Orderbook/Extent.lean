import VexCore.Orderbook.Volumes

/-!
# What a book consists of

A well-shaped book whose volumes are exact has nothing to it but its resting orders and its
index: the levels, their queues and their volumes follow.
-/

namespace VexCore

open Framework

namespace OrderBook

/-- The level that a queue makes up; an empty queue has none. -/
def levelOf (queue : List Order) : Option PriceLevel :=
  if queue = [] then none else some ⟨totalSize queue, queue⟩

theorem filter_price_of_ne {price : Nat} {queue : List Order}
    (h : ∀ o ∈ queue, o.price ≠ price) : (queue.filter fun o => o.price = price) = [] := by
  rw [List.filter_eq_nil_iff]
  intro o ho
  simpa using h o ho

theorem filter_price_of_eq {price : Nat} {queue : List Order}
    (h : ∀ o ∈ queue, o.price = price) : (queue.filter fun o => o.price = price) = queue := by
  rw [List.filter_eq_self]
  intro o ho
  simpa using h o ho

theorem LevelsPlaced.filter_price {s : Side} {levels : List (Nat × PriceLevel)}
    (h : LevelsPlaced s levels) (price : Nat) :
    ((levels.flatMap fun e => e.2.orders).filter fun o => o.price = price) =
      ((SortedMap.lookupList price levels).map PriceLevel.orders).getD [] := by
  induction levels with
  | nil => rfl
  | cons e rest ih =>
    obtain ⟨q, level⟩ := e
    have hlevel : ∀ o ∈ level.orders, o.price = q := h.price (q, level) List.mem_cons_self
    rw [List.flatMap_cons, List.filter_append]
    by_cases hq : q = price
    · subst hq
      have hsorted := h.sorted
      rw [List.map_cons, List.pairwise_cons] at hsorted
      have hrest : ∀ o ∈ rest.flatMap fun e => e.2.orders, o.price ≠ q := by
        intro o ho heq
        obtain ⟨e, he, hmem⟩ := List.mem_flatMap.mp ho
        have hprice := h.price e (List.mem_cons_of_mem _ he) o hmem
        have hbetter := hsorted.1 e.1 (List.mem_map.mpr ⟨e, he, rfl⟩)
        rw [← hprice, heq] at hbetter
        exact irrefl (r := s.Better) _ hbetter
      rw [filter_price_of_eq hlevel, filter_price_of_ne hrest, List.append_nil]
      simp [SortedMap.lookupList]
    · have hne : ∀ o ∈ level.orders, o.price ≠ price := by
        intro o ho
        rw [hlevel o ho]
        exact hq
      rw [filter_price_of_ne hne, List.nil_append, ih h.tail]
      simp [SortedMap.lookupList, hq]

section

variable {book : OrderBook}

theorem Shape.getLevel_eq (h : book.Shape) (hv : book.VolumesExact) (s : Side) (price : Nat) :
    (book.side s).getLevel price =
      levelOf ((book.side s).resting.filter fun o => o.price = price) := by
  have hqueue := (h.levelsPlaced s).filter_price price
  change ((book.side s).resting.filter _) = _ at hqueue
  rw [hqueue]
  change (book.side s).getLevel price =
    levelOf ((((book.side s).getLevel price).map PriceLevel.orders).getD [])
  cases hlevel : (book.side s).getLevel price with
  | none => rfl
  | some level =>
    have hne := (h.level _ _ _ hlevel).nonempty
    have htotal := (hv _ _ _ hlevel).total
    simp only [Option.map_some, Option.getD_some, levelOf, if_neg hne, ← htotal]

theorem eq_of_sides {a b : OrderBook} (hmarket : a.marketId = b.marketId)
    (hsides : ∀ s, a.side s = b.side s) (hindex : a.orders = b.orders) : a = b := by
  obtain ⟨marketId, bids, asks, orders⟩ := a
  obtain ⟨marketId', bids', asks', orders'⟩ := b
  have hbids : bids = bids' := hsides .bid
  have hasks : asks = asks' := hsides .ask
  simp only at hmarket hindex
  subst hmarket hbids hasks hindex
  rfl

/-- Two books of a market with the same resting orders and the same index are the same. -/
theorem eq_of_resting {a b : OrderBook} (ha : a.Shape) (hb : b.Shape) (hva : a.VolumesExact)
    (hvb : b.VolumesExact) (hmarket : a.marketId = b.marketId)
    (hresting : ∀ s, (a.side s).resting = (b.side s).resting) (hindex : a.orders = b.orders) :
    a = b := by
  apply eq_of_sides hmarket _ hindex
  intro s
  apply SortedMap.ext_find?
  intro price
  change (a.side s).getLevel price = (b.side s).getLevel price
  rw [ha.getLevel_eq hva, hb.getLevel_eq hvb, hresting]

theorem Run.volumesExact {marketId : Nat} {calls : List Call}
    (run : Run marketId VolumesFit calls book) : book.VolumesExact := by
  intro s price level hlevel
  exact .of_total (run.fits s price level hlevel) (run.sized s price level hlevel).volume

theorem Run.positive {marketId : Nat} {calls : List Call}
    (run : Run marketId VolumesFit calls book) : book.Positive := by
  intro s o ho
  exact (run.sized.resting ho).1

end

end OrderBook

end VexCore
