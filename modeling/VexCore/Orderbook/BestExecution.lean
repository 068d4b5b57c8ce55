import VexCore.Framework.Cheapest
import VexCore.Orderbook.FillOrKill
import VexCore.Orderbook.Priority
import VexCore.Orderbook.Splitting
import Mathlib.Algebra.Order.Ring.Int

/-!
# Best execution

Nobody could have done better for an incoming order than the matcher: no way to take from the
resting orders of others, within the limit, trades more of it, and none trades as much for less
(or, selling, for more).
-/

namespace VexCore

open Framework

/-- What a trade at a price takes out of the pocket of whoever takes the side. -/
def Side.outlay : Side → Nat → Int
  | bid, price => price
  | ask, price => -price

/-- Of two sums of money the first is no worse: a buyer pays no more, a seller gets no less. -/
def Side.NoWorse : Side → Nat → Nat → Prop
  | bid, m, n => m ≤ n
  | ask, m, n => n ≤ m

namespace Side

theorem noWorse_iff {s : Side} {m n : Nat} : s.NoWorse m n ↔ s.outlay m ≤ s.outlay n := by
  cases s <;> simp [NoWorse, outlay]

@[simp] theorem outlay_zero (s : Side) : s.outlay 0 = 0 := by
  cases s <;> rfl

theorem outlay_add (s : Side) (m n : Nat) : s.outlay (m + n) = s.outlay m + s.outlay n := by
  cases s with
  | bid => exact Int.natCast_add m n
  | ask => exact (congrArg Neg.neg (Int.natCast_add m n)).trans Int.neg_add

theorem outlay_mul (s : Side) (m n : Nat) : s.outlay (m * n) = m * s.outlay n := by
  cases s with
  | bid => exact Int.natCast_mul m n
  | ask => exact (congrArg Neg.neg (Int.natCast_mul m n)).trans (Int.mul_neg _ _).symm

end Side

namespace OrderBook

variable {book : OrderBook} {cmd : OrderCommand}

/-- A way to fill an order: how much to take from each resting order it may trade with. -/
structure Basket (book : OrderBook) (cmd : OrderCommand) where
  amount : Order → Nat
  within : ∀ o ∈ book.eligible cmd, amount o ≤ o.size

namespace Basket

def size (basket : Basket book cmd) : Nat := ((book.eligible cmd).map basket.amount).sum

/-- What changes hands, in units of price times size. -/
def money (basket : Basket book cmd) : Nat :=
  ((book.eligible cmd).map fun o => basket.amount o * o.price).sum

theorem size_le (basket : Basket book cmd) : basket.size ≤ totalSize (book.eligible cmd) :=
  List.sum_le_sum basket.within

theorem money_eq_zero (basket : Basket book cmd) (hzero : basket.size = 0) : basket.money = 0 := by
  apply List.sum_eq_zero
  intro money hmoney
  obtain ⟨o, ho, rfl⟩ := List.mem_map.mp hmoney
  have hamount := List.sum_eq_zero_iff.mp hzero _ (List.mem_map.mpr ⟨o, ho, rfl⟩)
  rw [hamount, Nat.zero_mul]

end Basket

theorem eligible_nodup (h : book.Shape) (cmd : OrderCommand) :
    ((book.eligible cmd).map Order.orderId).Nodup :=
  (List.filter_sublist.map Order.orderId).nodup (h.nodup cmd.side.opSide)

/-- What the matcher takes. -/
def ownBasket (h : book.Shape) (cmd : OrderCommand) : Basket book cmd where
  amount o := taken Order.orderId (book.referenceFills cmd) o.orderId
  within _ ho := taken_le_cap (eligible_nodup h cmd) ho

theorem size_ownBasket (h : book.Shape) :
    (ownBasket h cmd).size = filled (book.referenceFills cmd) := by
  have hsum := @sum_taken _ Order.size _ _ _ _ (eligible_nodup h cmd) (fun _ => 1) cmd.size
  simp only [Nat.mul_one] at hsum
  rw [filled_eq_weighed]
  exact hsum

theorem money_ownBasket (h : book.Shape) :
    (ownBasket h cmd).money = weighed Order.price (book.referenceFills cmd) :=
  sum_taken (eligible_nodup h cmd) Order.price cmd.size

theorem eligible_outlay (h : book.Shape) (cmd : OrderCommand) :
    (book.eligible cmd).Pairwise fun a b => cmd.side.outlay a.price ≤ cmd.side.outlay b.price := by
  apply (eligible_servedBefore h cmd).imp
  intro a b hserved
  cases hside : cmd.side with
  | bid =>
    rw [hside] at hserved
    rcases hserved with hbetter | ⟨hsame, _⟩
    · exact Int.ofNat_le.mpr (Nat.le_of_lt hbetter)
    · exact le_of_eq (congrArg _ hsame)
  | ask =>
    rw [hside] at hserved
    rcases hserved with hbetter | ⟨hsame, _⟩
    · exact Int.neg_le_neg (Int.ofNat_le.mpr (Nat.le_of_lt hbetter))
    · exact le_of_eq (congrArg _ hsame)

theorem paid_outlay (s : Side) (fills : List (Fill Order)) :
    paid (fun o => s.outlay o.price) fills = s.outlay (weighed Order.price fills) := by
  induction fills with
  | nil => simp
  | cons f rest ih => rw [paid_cons, weighed_cons, Side.outlay_add, Side.outlay_mul, ih]

theorem costOf_outlay (s : Side) (choice : Order → Nat) (orders : List Order) :
    costOf (fun o => s.outlay o.price) choice orders =
      s.outlay ((orders.map fun o => choice o * o.price).sum) := by
  induction orders with
  | nil => simp [costOf]
  | cons o rest ih =>
    rw [costOf_cons, List.map_cons, List.sum_cons, Side.outlay_add, Side.outlay_mul, ih]

theorem noWorse_of_size (h : book.Shape) (basket : Basket book cmd)
    (hsize : basket.size = filled (book.referenceFills cmd)) :
    cmd.side.NoWorse (weighed Order.price (book.referenceFills cmd)) basket.money := by
  have hle := paid_allocate_le (eligible_outlay h cmd) basket.within hsize
  rw [paid_outlay, costOf_outlay] at hle
  exact Side.noWorse_iff.mpr hle

theorem size_le_of_size (basket : Basket book cmd) (hsize : basket.size ≤ cmd.size) :
    basket.size ≤ filled (book.referenceFills cmd) :=
  sum_le_filled_allocate basket.within hsize

theorem placeOrder_executes {marketId : Nat} {calls : List Call}
    (run : Run marketId VolumesFit calls book)
    (hwords : ∀ earlier ∈ placements calls, earlier.price < 2 ^ 64)
    (hlive : cmd.status ≠ .rejected) (hfresh : cmd.events = []) (hpos : 0 < cmd.size)
    (cache : PriceCache) :
    (book.placeOrder cmd cache).cmd.events = (book.referenceFills cmd).map fillEvent ∨
      ((book.placeOrder cmd cache).cmd.events = [] ∧ cmd.timeInForce = .fok ∧
        totalSize (book.eligible cmd) < cmd.size) := by
  have h := run.invariant.shape
  by_cases htif : cmd.timeInForce = .fok
  · have hcan := canFillCompletely_iff h run.fits (run.invariant.prices hwords) hpos
    cases hcheck : book.canFillCompletely cmd with
    | true =>
      have hzero := (matchOrder_remaining_eq_zero h).mpr (hcan.mp hcheck)
      have hevents := (placeOrder_fok_filled h htif hlive hcheck hzero cache).2.2
      rw [hfresh, List.nil_append] at hevents
      exact .inl hevents
    | false =>
      have hevents := (placeOrder_fok_killed htif hlive hcheck cache).2.2.1
      have hshort : ¬cmd.size ≤ totalSize (book.eligible cmd) := by
        intro hle
        rw [hcan.mpr hle] at hcheck
        cases hcheck
      exact .inr ⟨hevents.trans hfresh, htif, Nat.lt_of_not_le hshort⟩
  · have hevents := (placeOrder_cmd_events hlive htif book cache).1
    rw [matchOrder_cmd h, hfresh] at hevents
    exact .inl hevents

/-- An incoming order is executed as well as its book allows: its trades take a basket of resting
orders that it may trade with; none that its size and time in force admit is larger, and none of
that size has a better price. -/
theorem best_execution {marketId : Nat} {calls : List Call}
    (run : Run marketId VolumesFit calls book)
    (hwords : ∀ earlier ∈ placements calls, earlier.price < 2 ^ 64)
    (hlive : cmd.status ≠ .rejected) (hfresh : cmd.events = []) (hpos : 0 < cmd.size)
    (cache : PriceCache) :
    let trades := (book.placeOrder cmd cache).cmd.events
    (∃ basket : Basket book cmd,
      basket.size = calcFilledSize trades ∧ basket.money = turnover trades) ∧
    ∀ basket : Basket book cmd,
      (basket.size ≤ cmd.size → (cmd.timeInForce = .fok → basket.size = cmd.size) →
        basket.size ≤ calcFilledSize trades) ∧
      (basket.size = calcFilledSize trades →
        cmd.side.NoWorse (turnover trades) basket.money) := by
  intro trades
  have h := run.invariant.shape
  rcases placeOrder_executes run hwords hlive hfresh hpos cache with
    hevents | ⟨hevents, htif, hshort⟩
  · have hsize : calcFilledSize trades = filled (book.referenceFills cmd) := by
      rw [← calcFilledSize_fillEvents, ← hevents]
    have hmoney : turnover trades = weighed Order.price (book.referenceFills cmd) := by
      rw [← turnover_fillEvents, ← hevents]
    rw [hsize, hmoney]
    refine ⟨⟨ownBasket h cmd, size_ownBasket h, money_ownBasket h⟩, fun basket => ⟨?_, ?_⟩⟩
    · intro hle _
      exact size_le_of_size basket hle
    · intro heq
      exact noWorse_of_size h basket heq
  · have hnone : trades = [] := hevents
    rw [hnone]
    refine ⟨⟨⟨fun _ => 0, fun _ _ => Nat.zero_le _⟩, ?_, ?_⟩, fun basket => ⟨?_, ?_⟩⟩
    · simp [Basket.size, calcFilledSize]
    · simp [Basket.money, turnover]
    · intro _ hwhole
      have hle := basket.size_le
      rw [hwhole htif] at hle
      exact absurd hle (Nat.not_le.mpr hshort)
    · intro hzero
      rw [basket.money_eq_zero hzero]
      exact Side.noWorse_iff.mpr le_rfl

/-- A market sell of four takes four of the six that rest at a hundred; no one gets more. -/
theorem best_execution_partialFill :
    let book := (((new 1).placeOrder (.limit .bid .gtc 1 7 100 10) ⟨∅⟩).book.placeOrder
      (.limit .ask .ioc 2 8 100 4) ⟨∅⟩).book
    let cmd : OrderCommand := .limit .ask .ioc 3 9 0 4
    turnover (book.placeOrder cmd ⟨∅⟩).cmd.events = 400 ∧
      ∀ basket : Basket book cmd, basket.size = 4 → basket.money ≤ 400 := by
  intro book cmd
  have hbest := @best_execution book cmd _ _ partialFill_run (by decide) (by decide) rfl
    (by decide) ⟨∅⟩
  have hfilled : calcFilledSize (book.placeOrder cmd ⟨∅⟩).cmd.events = 4 := by decide
  have hmoney : turnover (book.placeOrder cmd ⟨∅⟩).cmd.events = 400 := by decide
  refine ⟨hmoney, fun basket hsize => ?_⟩
  have hworse := (hbest.2 basket).2 (hsize.trans hfilled.symm)
  exact hworse.trans (le_of_eq hmoney)

end OrderBook

end VexCore
