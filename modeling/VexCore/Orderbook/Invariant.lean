import Mathlib.Data.List.Flatten
import Mathlib.Data.List.Perm.Basic
import VexCore.Orderbook.Book

/-!
# The shape of an order book

What holds of the levels, the queues and the id index of a book whatever the sizes of its
orders are, and how resting an order or taking one out of a level keeps it.
-/

namespace VexCore

open Framework

/-- The queue of one price level: never empty, in order of increasing ids, and holding
only orders placed for this side and price. -/
structure PriceLevel.Shape (level : PriceLevel) (s : Side) (price : Nat) : Prop where
  nonempty : level.orders ≠ []
  increasing : level.orders.Pairwise fun a b => a.orderId < b.orderId
  placed : ∀ o ∈ level.orders, o.price = price ∧ o.side = s ∧ o.timeInForce = .gtc

/-- The sizes of one price level. -/
structure PriceLevel.Sized (level : PriceLevel) : Prop where
  volume : level.totalVolume = (level.orders.map Order.size).sum
  sizes : ∀ o ∈ level.orders, 0 < o.size ∧ o.size ≤ o.originalSize

namespace BookSide

variable {s : Side}

def ids (side : BookSide s) : List Nat := side.resting.map Order.orderId

theorem mem_resting {side : BookSide s} {o : Order} :
    o ∈ side.resting ↔ ∃ price level, side.getLevel price = some level ∧ o ∈ level.orders := by
  constructor
  · intro h
    obtain ⟨e, he, ho⟩ := List.mem_flatMap.mp h
    exact ⟨e.1, e.2, SortedMap.find?_eq_some.mpr he, ho⟩
  · rintro ⟨price, level, hlevel, ho⟩
    exact List.mem_flatMap.mpr ⟨(price, level), SortedMap.find?_eq_some.mp hlevel, ho⟩

theorem mem_ids {side : BookSide s} {id : Nat} :
    id ∈ side.ids ↔ ∃ o ∈ side.resting, o.orderId = id := by
  simp [ids]

theorem getLevel_getOrCreateLevel (side : BookSide s) (price q : Nat)
    (mutate : PriceLevel → PriceLevel) :
    (side.getOrCreateLevel price mutate).getLevel q =
      if q = price then some (mutate ((side.getLevel q).getD .new)) else side.getLevel q :=
  SortedMap.find?_upsert side price q .new mutate

private theorem upsertList_addOrder_perm (price : Nat) (order : Order)
    (entries : List (Nat × PriceLevel)) :
    ((SortedMap.upsertList s.Better price .new (fun level => level.addOrder order)
      entries).flatMap fun e => e.2.orders).Perm
      (order :: entries.flatMap fun e => e.2.orders) := by
  induction entries with
  | nil => simp [SortedMap.upsertList, PriceLevel.addOrder, PriceLevel.new]
  | cons e rest ih =>
    obtain ⟨q, level⟩ := e
    by_cases hq : q = price
    · simp only [SortedMap.upsertList, if_pos hq, List.flatMap_cons, PriceLevel.addOrder,
        List.append_assoc, List.singleton_append]
      exact List.perm_middle
    · by_cases hlt : s.Better price q
      · simp [SortedMap.upsertList, hq, hlt, PriceLevel.addOrder, PriceLevel.new]
      · simp only [SortedMap.upsertList, if_neg hq, if_neg hlt, List.flatMap_cons]
        exact (ih.append_left _).trans List.perm_middle

theorem resting_addOrder_perm (side : BookSide s) (price : Nat) (order : Order) :
    (side.getOrCreateLevel price fun level => level.addOrder order).resting.Perm
      (order :: side.resting) :=
  upsertList_addOrder_perm price order side.entries

/-- The side after `level` was mutated through `get_level_mut` and dropped if empty. -/
def replaceLevel (side : BookSide s) (price : Nat) (level : PriceLevel) : BookSide s :=
  (side.setLevel price level).removeLevelIfEmpty price

theorem getLevel_replaceLevel {side : BookSide s} {price : Nat} {old : PriceLevel}
    (hold : side.getLevel price = some old) (level : PriceLevel) (q : Nat) :
    (side.replaceLevel price level).getLevel q =
      if q = price then (if level.orders.isEmpty then none else some level)
      else side.getLevel q := by
  change ((side.modify price fun _ => level).eraseIf price _).find? q = _
  change side.find? price = some old at hold
  rw [SortedMap.find?_eraseIf, SortedMap.find?_modify]
  by_cases hq : q = price
  · subst hq
    rw [if_pos rfl, if_pos rfl, if_pos rfl, hold]
    cases h : level.orders.isEmpty <;> simp [Option.filter, h]
  · simp only [if_neg hq]
    rfl

/-- Writing back what is there changes nothing. -/
theorem replaceLevel_self {side : BookSide s} {price : Nat} {level : PriceLevel}
    (hlevel : side.getLevel price = some level) (hne : level.orders ≠ []) :
    side.replaceLevel price level = side := by
  apply SortedMap.ext_find?
  intro q
  have h := getLevel_replaceLevel hlevel level q
  change (side.replaceLevel price level).find? q = _ at h
  rw [h]
  by_cases hq : q = price
  · subst hq
    have hempty : level.orders.isEmpty = false := by simpa using hne
    simp only [if_pos, hempty, Bool.false_eq_true, if_false]
    exact hlevel.symm
  · rw [if_neg hq]
    rfl

private theorem filter_ne_orders_perm {price : Nat} {level : PriceLevel}
    {entries : List (Nat × PriceLevel)} (hs : (entries.map Prod.fst).Pairwise s.Better)
    (hmem : (price, level) ∈ entries) :
    (entries.flatMap fun e => e.2.orders).Perm
      (level.orders ++ (entries.filter fun e => e.1 ≠ price).flatMap fun e => e.2.orders) := by
  induction entries with
  | nil => cases hmem
  | cons e rest ih =>
    simp only [List.map_cons, List.pairwise_cons] at hs
    rcases List.mem_cons.mp hmem with rfl | hmem
    · have hrest : rest.filter (fun e => e.1 ≠ price) = rest := by
        apply List.filter_eq_self.mpr
        intro e he
        have hlt := hs.1 e.1 (List.mem_map_of_mem (f := Prod.fst) he)
        have hne : e.1 ≠ price := by
          intro heq
          rw [heq] at hlt
          exact irrefl (r := s.Better) _ hlt
        simpa using hne
      rw [List.filter_cons_of_neg (by simp), hrest, List.flatMap_cons]
    · have hlt := hs.1 price (List.mem_map_of_mem (f := Prod.fst) hmem)
      have hne : e.1 ≠ price := by
        intro heq
        rw [heq] at hlt
        exact irrefl (r := s.Better) _ hlt
      rw [List.filter_cons_of_pos (by simpa using hne), List.flatMap_cons, List.flatMap_cons]
      refine ((ih hs.2 hmem).append_left _).trans ?_
      rw [← List.append_assoc, ← List.append_assoc]
      exact List.perm_append_comm.append_right _

/-- The orders of a side are those of one level and those of all others. -/
theorem resting_perm_erase {side : BookSide s} {price : Nat} {level : PriceLevel}
    (hlevel : side.getLevel price = some level) :
    side.resting.Perm (level.orders ++ resting (SortedMap.erase side price)) :=
  filter_ne_orders_perm side.sorted (SortedMap.find?_eq_some.mp hlevel)

private theorem erase_replaceLevel {side : BookSide s} {price : Nat} {old : PriceLevel}
    (hold : side.getLevel price = some old) (level : PriceLevel) :
    SortedMap.erase (side.replaceLevel price level) price = SortedMap.erase side price := by
  apply SortedMap.ext_find?
  intro q
  have h := getLevel_replaceLevel hold level q
  change (side.replaceLevel price level).find? q = _ at h
  rw [SortedMap.find?_erase, SortedMap.find?_erase, h]
  by_cases hq : q = price
  · simp only [if_pos hq]
  · simp only [if_neg hq]
    rfl

theorem resting_replaceLevel_perm {side : BookSide s} {price : Nat} {old : PriceLevel}
    (hold : side.getLevel price = some old) (level : PriceLevel) :
    (side.replaceLevel price level).resting.Perm
      (level.orders ++ resting (SortedMap.erase side price)) := by
  have hlevel := getLevel_replaceLevel hold level price
  rw [if_pos rfl] at hlevel
  rw [← erase_replaceLevel hold level]
  by_cases hempty : level.orders = []
  · simp only [hempty, List.isEmpty_nil, if_true] at hlevel
    rw [hempty, SortedMap.erase_of_find?_none hlevel]
    exact List.Perm.refl _
  · have hne : level.orders.isEmpty = false := by simpa using hempty
    simp only [hne, Bool.false_eq_true, if_false] at hlevel
    exact resting_perm_erase hlevel

end BookSide

namespace PriceLevel

/-- The queue without the order of the given id. -/
def without (level : PriceLevel) (order : Order) : PriceLevel :=
  { totalVolume := wrappingSub 64 level.totalVolume order.size
    orders := level.orders.filter fun o => o.orderId ≠ order.orderId }

private theorem eraseIdx_eq_filter {xs : List Order} {pos : Nat} {order : Order}
    (hs : xs.Pairwise fun a b => a.orderId < b.orderId) (hpos : xs[pos]? = some order) :
    xs.eraseIdx pos = xs.filter fun o => o.orderId ≠ order.orderId := by
  induction xs generalizing pos with
  | nil => cases hpos
  | cons x rest ih =>
    rw [List.pairwise_cons] at hs
    cases pos with
    | zero =>
      simp only [List.getElem?_cons_zero, Option.some.injEq] at hpos
      subst hpos
      have hrest : rest.filter (fun o => o.orderId ≠ x.orderId) = rest := by
        apply List.filter_eq_self.mpr
        intro o ho
        have hlt := hs.1 o ho
        simpa using Nat.ne_of_gt hlt
      rw [List.filter_cons_of_neg (by simp), hrest, List.eraseIdx_cons_zero]
    | succ pos =>
      simp only [List.getElem?_cons_succ] at hpos
      have hlt := hs.1 order (List.mem_of_getElem? hpos)
      rw [List.eraseIdx_cons_succ, ih hs.2 hpos,
        List.filter_cons_of_pos (by simpa using Nat.ne_of_lt hlt)]

/-- The command reports the order that was taken out. -/
def reportCancelled (cmd : OrderCommand) (order : Order) : OrderCommand :=
  { cmd with
    price := order.price
    size := order.size
    userId := order.userId
    side := order.side
    status := .cancelled
    originalSize := order.originalSize }

theorem removeOrder_of_mem {level : PriceLevel} {order : Order} (cmd : OrderCommand)
    (hs : level.orders.Pairwise fun a b => a.orderId < b.orderId) (hmem : order ∈ level.orders) :
    level.removeOrder order.orderId cmd =
      (level.without order, reportCancelled cmd order) := by
  obtain ⟨pos, hlt, rfl⟩ := List.mem_iff_getElem.mp hmem
  have hfound := @binarySearchByKey_complete _ _ Order.orderId _ hs hlt
  have hget : level.orders[pos]? = some level.orders[pos] := List.getElem?_eq_getElem hlt
  unfold removeOrder
  simp only [hfound, hget]
  rw [eraseIdx_eq_filter hs hget]
  rfl

theorem removeOrder_of_not_mem {level : PriceLevel} {orderId : Nat} (cmd : OrderCommand)
    (h : ∀ o ∈ level.orders, o.orderId ≠ orderId) :
    level.removeOrder orderId cmd = (level, { cmd with status := .rejected }) := by
  unfold removeOrder
  rw [binarySearchByKey_eq_none h]

theorem perm_without {level : PriceLevel} {order : Order}
    (hs : level.orders.Pairwise fun a b => a.orderId < b.orderId) (hmem : order ∈ level.orders) :
    level.orders.Perm (order :: (level.without order).orders) := by
  obtain ⟨pos, hlt, rfl⟩ := List.mem_iff_getElem.mp hmem
  have hget : level.orders[pos]? = some level.orders[pos] := List.getElem?_eq_getElem hlt
  change level.orders.Perm (level.orders[pos] :: level.orders.filter _)
  rw [← eraseIdx_eq_filter hs hget]
  exact (List.getElem_cons_eraseIdx_perm hlt).symm

end PriceLevel

namespace OrderBook

/-- The invariant that carries the structure of a book: well-shaped levels, no id twice,
and no index entry without its order. -/
structure Shape (book : OrderBook) : Prop where
  level : ∀ s price level, (book.side s).getLevel price = some level → level.Shape s price
  nodup : ∀ s, (book.side s).ids.Nodup
  disjoint : ∀ s, (book.side s).ids.Disjoint (book.side s.opSide).ids
  indexed : ∀ id price, book.orders.lookup id = some price →
    ∃ s, ∃ o ∈ (book.side s).resting, o.orderId = id ∧ o.price = price

theorem new_shape (marketId : Nat) : (new marketId).Shape where
  level s price level h := by cases s <;> cases h
  nodup s := by cases s <;> exact List.nodup_nil
  disjoint s := by cases s <;> exact List.disjoint_nil_left _
  indexed id price h := by
    change (∅ : HashMap Nat Nat).lookup id = some price at h
    rw [Finmap.lookup_empty] at h
    cases h

/-- All ids on the book are below `bound`. -/
def IdsBelow (book : OrderBook) (bound : Nat) : Prop :=
  ∀ s, ∀ id ∈ (book.side s).ids, id < bound

theorem side_addToBook (book : OrderBook) (cmd : OrderCommand) (remaining : Nat) :
    (book.addToBook cmd remaining).side cmd.side =
      (book.side cmd.side).getOrCreateLevel cmd.price
        fun level => level.addOrder (restingOrder cmd remaining) := by
  rw [addToBook, side_setOrders, side_withSide]

theorem side_addToBook_ne {book : OrderBook} {cmd : OrderCommand} {s : Side} (remaining : Nat)
    (h : s ≠ cmd.side) : (book.addToBook cmd remaining).side s = book.side s := by
  rw [addToBook, side_setOrders, side_withSide_ne _ h]

theorem addToBook_level {book : OrderBook} {cmd : OrderCommand} (remaining : Nat)
    (h : book.Shape) (hbelow : book.IdsBelow cmd.orderId) (htif : cmd.timeInForce = .gtc)
    (s : Side) (price : Nat) (level : PriceLevel)
    (hlevel : ((book.addToBook cmd remaining).side s).getLevel price = some level) :
    level.Shape s price := by
  by_cases hs : s = cmd.side
  · subst hs
    rw [side_addToBook, BookSide.getLevel_getOrCreateLevel] at hlevel
    by_cases hp : price = cmd.price
    · subst hp
      rw [if_pos rfl, Option.some.injEq] at hlevel
      subst hlevel
      have hplaced : ∀ o ∈ [restingOrder cmd remaining],
          o.price = cmd.price ∧ o.side = cmd.side ∧ o.timeInForce = .gtc := by
        intro o ho
        rw [List.mem_singleton] at ho
        subst ho
        exact ⟨rfl, rfl, htif⟩
      cases hold : (book.side cmd.side).getLevel cmd.price with
      | none =>
        refine ⟨by simp [PriceLevel.addOrder], ?_, hplaced⟩
        exact List.pairwise_singleton _ _
      | some old =>
        have hshape := h.level _ _ _ hold
        refine ⟨by simp [PriceLevel.addOrder], ?_, ?_⟩
        · apply List.pairwise_append.mpr
          refine ⟨hshape.increasing, List.pairwise_singleton _ _, ?_⟩
          intro a ha b hb
          rw [List.mem_singleton] at hb
          subst hb
          have hrest : a ∈ (book.side cmd.side).resting := BookSide.mem_resting.mpr ⟨_, _, hold, ha⟩
          exact hbelow _ _ (BookSide.mem_ids.mpr ⟨a, hrest, rfl⟩)
        · intro o ho
          rcases List.mem_append.mp ho with ho | ho
          · exact hshape.placed o ho
          · exact hplaced o ho
    · rw [if_neg hp] at hlevel
      exact h.level _ _ _ hlevel
  · rw [side_addToBook_ne remaining hs] at hlevel
    exact h.level _ _ _ hlevel

theorem addToBook_resting_perm (book : OrderBook) (cmd : OrderCommand) (remaining : Nat) :
    ((book.addToBook cmd remaining).side cmd.side).resting.Perm
      (restingOrder cmd remaining :: (book.side cmd.side).resting) := by
  rw [side_addToBook]
  exact BookSide.resting_addOrder_perm _ _ _

theorem addToBook_ids_perm (book : OrderBook) (cmd : OrderCommand) (remaining : Nat) :
    ((book.addToBook cmd remaining).side cmd.side).ids.Perm
      (cmd.orderId :: (book.side cmd.side).ids) :=
  (addToBook_resting_perm book cmd remaining).map Order.orderId

theorem mem_resting_addToBook {book : OrderBook} {cmd : OrderCommand} {remaining : Nat} {s : Side}
    {o : Order} : o ∈ ((book.addToBook cmd remaining).side s).resting ↔
      (s = cmd.side ∧ o = restingOrder cmd remaining) ∨ o ∈ (book.side s).resting := by
  by_cases hs : s = cmd.side
  · subst hs
    rw [(addToBook_resting_perm book cmd remaining).mem_iff, List.mem_cons]
    tauto
  · rw [side_addToBook_ne remaining hs]
    tauto

/-- A fresh good-till-cancelled order can rest on any book. -/
theorem addToBook_shape {book : OrderBook} {cmd : OrderCommand} (remaining : Nat)
    (h : book.Shape) (hbelow : book.IdsBelow cmd.orderId) (htif : cmd.timeInForce = .gtc) :
    (book.addToBook cmd remaining).Shape where
  level := addToBook_level remaining h hbelow htif
  nodup s := by
    by_cases hs : s = cmd.side
    · subst hs
      apply (addToBook_ids_perm book cmd remaining).nodup_iff.mpr
      refine List.nodup_cons.mpr ⟨?_, h.nodup _⟩
      intro hmem
      exact Nat.lt_irrefl _ (hbelow _ _ hmem)
    · rw [side_addToBook_ne remaining hs]
      exact h.nodup s
  disjoint s := by
    intro id hid hop
    obtain ⟨a, ha, rfl⟩ := BookSide.mem_ids.mp hid
    obtain ⟨b, hb, hab⟩ := BookSide.mem_ids.mp hop
    have hside := Side.opSide_ne s
    rcases mem_resting_addToBook.mp ha with ⟨hs, rfl⟩ | ha <;>
      rcases mem_resting_addToBook.mp hb with ⟨ht, rfl⟩ | hb
    · exact hside (ht.trans hs.symm)
    · have hlt := hbelow _ _ (BookSide.mem_ids.mpr ⟨b, hb, rfl⟩)
      exact Nat.ne_of_lt hlt hab
    · have hlt := hbelow _ _ (BookSide.mem_ids.mpr ⟨a, ha, rfl⟩)
      exact Nat.ne_of_lt hlt hab.symm
    · exact h.disjoint s (BookSide.mem_ids.mpr ⟨a, ha, rfl⟩) (BookSide.mem_ids.mpr ⟨b, hb, hab⟩)
  indexed id price hid := by
    change (book.orders.insert cmd.orderId cmd.price).lookup id = some price at hid
    by_cases heq : id = cmd.orderId
    · subst heq
      rw [Finmap.lookup_insert, Option.some.injEq] at hid
      subst hid
      exact ⟨cmd.side, _, mem_resting_addToBook.mpr (.inl ⟨rfl, rfl⟩), rfl, rfl⟩
    · rw [Finmap.lookup_insert_of_ne _ heq] at hid
      obtain ⟨s, o, ho, hoid⟩ := h.indexed _ _ hid
      exact ⟨s, o, mem_resting_addToBook.mpr (.inr ho), hoid⟩

/-- One side may lose orders as long as the index loses theirs with them. -/
theorem Shape.shrink {book : OrderBook} (h : book.Shape) {s : Side} {side : BookSide s}
    {orders : HashMap Nat Nat}
    (hlevel : ∀ price level, side.getLevel price = some level → level.Shape s price)
    (hnodup : side.ids.Nodup) (hsub : side.ids ⊆ (book.side s).ids)
    (hindexed : ∀ id price, orders.lookup id = some price →
      book.orders.lookup id = some price ∧ ∀ o ∈ (book.side s).resting, o.orderId = id →
        ∃ o' ∈ side.resting, o'.orderId = id ∧ o'.price = o.price) :
    ({ book.withSide s side with orders } : OrderBook).Shape := by
  have hself : ({ book.withSide s side with orders } : OrderBook).side s = side := by
    rw [side_setOrders, side_withSide]
  have hother (t : Side) (ht : t ≠ s) :
      ({ book.withSide s side with orders } : OrderBook).side t = book.side t := by
    rw [side_setOrders, side_withSide_ne _ ht]
  constructor
  · intro t price level hl
    by_cases ht : t = s
    · subst ht
      rw [hself] at hl
      exact hlevel _ _ hl
    · rw [hother t ht] at hl
      exact h.level _ _ _ hl
  · intro t
    by_cases ht : t = s
    · subst ht
      rw [hself]
      exact hnodup
    · rw [hother t ht]
      exact h.nodup t
  · intro t id hid hop
    by_cases ht : t = s
    · subst ht
      rw [hself] at hid
      rw [hother _ (Side.opSide_ne t)] at hop
      exact h.disjoint t (hsub hid) hop
    · rw [hother t ht] at hid
      have hto : t.opSide = s := by
        cases t <;> cases s <;> first | rfl | cases ht rfl
      subst hto
      rw [hself] at hop
      exact h.disjoint t hid (hsub hop)
  · intro id price hid
    obtain ⟨hold, hkept⟩ := hindexed id price hid
    obtain ⟨t, o, ho, hoid, hprice⟩ := h.indexed id price hold
    refine ⟨t, ?_⟩
    by_cases ht : t = s
    · subst ht
      rw [hself]
      obtain ⟨o', ho', hid', hprice'⟩ := hkept o ho hoid
      exact ⟨o', ho', hid', hprice'.trans hprice⟩
    · rw [hother t ht]
      exact ⟨o, ho, hoid, hprice⟩

end OrderBook

end VexCore
