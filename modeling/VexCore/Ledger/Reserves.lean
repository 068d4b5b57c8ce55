import VexCore.Ledger.Plan
import VexCore.Orderbook.Placement
import VexCore.Orderbook.Views

/-!
# What a book holds in reserve

Every resting order has its cost reserved. A placement turns the reserve of its size into what
its fills spend and refund, and into the reserve or the release of its remainder; the reserves
of its makers shrink by what they spend. Flooring loses the difference.
-/

namespace VexCore

open Framework

/-- What flooring loses when `size` is taken out of an order of `size + rest`. -/
def takeLoss (spec : CoreMarketSpecification) (s : Side) (price size rest : Nat) : Nat :=
  match s with
  | .bid => spec.fillLoss price size rest
  | .ask => 0

/-- What flooring loses when a bid trades below its limit. -/
def refundLoss (spec : CoreMarketSpecification) (s : Side) (limit price size : Nat) : Nat :=
  match s with
  | .bid => spec.improvementLoss price (limit - price) size
  | .ask => 0

section Escrowed

variable (spec : CoreMarketSpecification)

@[simp] theorem escrowed_zero (s : Side) (price : Nat) : escrowed spec s price 0 = 0 := by
  cases s <;> simp [escrowed]

theorem escrowed_add (s : Side) (price size rest : Nat) :
    escrowed spec s price (size + rest) =
      escrowed spec s price size + escrowed spec s price rest +
        takeLoss spec s price size rest := by
  cases s with
  | bid => exact spec.quoteCost_add_size price size rest
  | ask => rfl

theorem escrowed_refund {s : Side} {limit price : Nat}
    (h : OrderBook.priceCheck s limit price = true) (size : Nat) :
    escrowed spec s limit size =
      escrowed spec s price size + refund spec s limit price size +
        refundLoss spec s limit price size := by
  cases s with
  | ask => rfl
  | bid =>
    have hle : price ≤ limit := of_decide_eq_true h
    have hsplit := spec.quoteCost_add_price price (limit - price) size
    rwa [Nat.add_sub_cancel' hle] at hsplit

/-- What flooring loses over the fills of a taker that keeps `rest`. -/
def takerLoss (s : Side) (limit : Nat) : List (Fill Order) → Nat → Nat
  | [], _ => 0
  | f :: fills, rest =>
      takeLoss spec s limit f.amount (filled fills + rest) +
        refundLoss spec s limit f.source.price f.amount + takerLoss s limit fills rest

theorem escrowed_fills {s : Side} {limit : Nat} {fills : List (Fill Order)}
    (h : ∀ f ∈ fills, OrderBook.priceCheck s limit f.source.price = true) (rest : Nat) :
    escrowed spec s limit (filled fills + rest) =
      (fills.map fun f => escrowed spec s f.source.price f.amount +
        refund spec s limit f.source.price f.amount).sum +
      escrowed spec s limit rest + takerLoss spec s limit fills rest := by
  induction fills with
  | nil => simp [takerLoss]
  | cons f fills ih =>
    have hrest := ih fun g hg => h g (List.mem_cons_of_mem _ hg)
    have hfill := escrowed_refund spec (h f List.mem_cons_self) f.amount
    rw [filled_cons, Nat.add_assoc, escrowed_add, hfill, hrest, List.map_cons, List.sum_cons,
      takerLoss]
    omega

end Escrowed

section SideReserve

variable (spec : CoreMarketSpecification) (marketId : Nat) (s : Side)

/-- What the resting orders of a side hold on an account. -/
def sideReserve (orders : List Order) (k : BalanceKey) : Nat :=
  (orders.map fun o =>
    onKey ⟨o.userId, escrowAsset s marketId⟩ k (escrowed spec s o.price o.size)).sum

variable (k : BalanceKey)

@[simp] theorem sideReserve_nil : sideReserve spec marketId s [] k = 0 := rfl

@[simp] theorem sideReserve_cons (o : Order) (orders : List Order) :
    sideReserve spec marketId s (o :: orders) k =
      onKey ⟨o.userId, escrowAsset s marketId⟩ k (escrowed spec s o.price o.size) +
        sideReserve spec marketId s orders k := rfl

theorem sideReserve_perm {orders orders' : List Order} (h : orders.Perm orders') :
    sideReserve spec marketId s orders k = sideReserve spec marketId s orders' k :=
  (h.map _).sum_eq

/-- What fills spend on a maker's account, and what flooring loses there. -/
def makersSpend (fills : List (Fill Order)) : Nat :=
  (fills.map fun f =>
    onKey ⟨f.source.userId, escrowAsset s marketId⟩ k
      (escrowed spec s f.source.price f.amount)).sum

def makersLoss (fills : List (Fill Order)) : Nat :=
  (fills.map fun f =>
    onKey ⟨f.source.userId, escrowAsset s marketId⟩ k
      (takeLoss spec s f.source.price f.amount (f.source.size - f.amount))).sum

@[simp] theorem makersSpend_cons (f : Fill Order) (fills : List (Fill Order)) :
    makersSpend spec marketId s k (f :: fills) =
      onKey ⟨f.source.userId, escrowAsset s marketId⟩ k
        (escrowed spec s f.source.price f.amount) +
      makersSpend spec marketId s k fills := rfl

@[simp] theorem makersLoss_cons (f : Fill Order) (fills : List (Fill Order)) :
    makersLoss spec marketId s k (f :: fills) =
      onKey ⟨f.source.userId, escrowAsset s marketId⟩ k
        (takeLoss spec s f.source.price f.amount (f.source.size - f.amount)) +
      makersLoss spec marketId s k fills := rfl

theorem onKey_fill {o : Order} {amount : Nat} (hle : amount ≤ o.size) (here : BalanceKey) :
    onKey here k (escrowed spec s o.price o.size) =
      onKey here k (escrowed spec s o.price amount) +
        onKey here k (escrowed spec s o.price (o.size - amount)) +
        onKey here k (takeLoss spec s o.price amount (o.size - amount)) := by
  rw [← onKey_add, ← onKey_add, ← escrowed_add, Nat.add_sub_cancel' hle]

theorem sideReserve_afterFills {orders : List Order} {fills : List (Fill Order)}
    (hsources : (fills.map Fill.source).Sublist orders)
    (hnodup : (orders.map Order.orderId).Nodup)
    (hle : ∀ f ∈ fills, f.amount ≤ f.source.size) :
    sideReserve spec marketId s (orders.filterMap (OrderBook.afterFills fills)) k +
        makersSpend spec marketId s k fills + makersLoss spec marketId s k fills =
      sideReserve spec marketId s orders k := by
  induction orders generalizing fills with
  | nil =>
    have hnil : fills = [] := by simpa using hsources
    subst hnil
    rfl
  | cons o rest ih =>
    rw [List.map_cons, List.nodup_cons] at hnodup
    have hfresh : ∀ {fs : List (Fill Order)}, (fs.map Fill.source).Sublist rest →
        ∀ f ∈ fs, f.source.orderId ≠ o.orderId := by
      intro fs hsub f hf heq
      have hmem := hsub.subset (List.mem_map_of_mem (f := Fill.source) hf)
      exact hnodup.1 (List.mem_map.mpr ⟨f.source, hmem, heq⟩)
    rcases List.sublist_cons_iff.mp hsources with hskip | ⟨sources, hcons, hsub⟩
    · -- no fill takes from the first order
      have hkeep := OrderBook.afterFills_of_not_mem (hfresh hskip)
      have hrest := ih hskip hnodup.2 hle
      rw [List.filterMap_cons, hkeep, sideReserve_cons, sideReserve_cons]
      omega
    · -- the first fill does, and no other
      cases fills with
      | nil => cases hcons
      | cons f fs =>
        rw [List.map_cons, List.cons.injEq] at hcons
        obtain ⟨hsource, rfl⟩ := hcons
        obtain ⟨source, amount, left⟩ := f
        simp only at hsource
        subst hsource
        have hfill := onKey_fill spec s k (hle _ List.mem_cons_self)
          ⟨source.userId, escrowAsset s marketId⟩
        have hrest := ih hsub hnodup.2 fun g hg => hle g (List.mem_cons_of_mem _ hg)
        have hsame : rest.filterMap (OrderBook.afterFills (⟨source, amount, left⟩ :: fs)) =
            rest.filterMap (OrderBook.afterFills fs) := by
          apply List.filterMap_congr
          intro o ho
          apply @OrderBook.afterFills_append_right [⟨source, amount, left⟩]
          intro g hg heq
          rw [List.mem_singleton] at hg
          subst hg
          exact hnodup.1 (List.mem_map.mpr ⟨o, ho, heq.symm⟩)
        rw [List.filterMap_cons, OrderBook.afterFills_cons_self amount left (hfresh hsub), hsame,
          makersSpend_cons, makersLoss_cons, sideReserve_cons]
        dsimp only at hfill ⊢
        by_cases hzero : source.size - amount = 0
        · rw [if_pos hzero]
          rw [hzero, escrowed_zero, onKey_zero] at hfill
          rw [hzero]
          dsimp only
          omega
        · rw [if_neg hzero]
          dsimp only
          rw [sideReserve_cons]
          dsimp only
          omega

end SideReserve

namespace OrderBook

/-- What the resting orders of a book hold on an account. -/
def reserve (spec : CoreMarketSpecification) (book : OrderBook) (k : BalanceKey) : Nat :=
  sideReserve spec book.marketId .bid book.bids.resting k +
    sideReserve spec book.marketId .ask book.asks.resting k

theorem reserve_sides (spec : CoreMarketSpecification) (book : OrderBook) (s : Side)
    (k : BalanceKey) : book.reserve spec k =
      sideReserve spec book.marketId s (book.side s).resting k +
        sideReserve spec book.marketId s.opSide (book.side s.opSide).resting k := by
  cases s with
  | bid => rfl
  | ask => exact Nat.add_comm _ _

/-- The fills of a placement: none for a fill-or-kill order that cannot be filled. -/
def executed (book : OrderBook) (cmd : OrderCommand) : List (Fill Order) :=
  if cmd.timeInForce = .fok ∧ book.canFillCompletely cmd = false then []
  else book.referenceFills cmd

/-- The size a placement does not execute. -/
def unexecuted (book : OrderBook) (cmd : OrderCommand) : Nat :=
  cmd.size - filled (book.executed cmd)

section Executed

variable {book : OrderBook} {cmd : OrderCommand}

theorem executed_eq (book : OrderBook) (cmd : OrderCommand) :
    book.executed cmd = [] ∨ book.executed cmd = book.referenceFills cmd := by
  unfold executed
  split
  · exact .inl rfl
  · exact .inr rfl

theorem mem_executed {f : Fill Order} (h : f ∈ book.executed cmd) :
    f ∈ book.referenceFills cmd := by
  rcases executed_eq book cmd with heq | heq
  · rw [heq] at h
    cases h
  · rwa [heq] at h

theorem filled_executed_le (book : OrderBook) (cmd : OrderCommand) :
    filled (book.executed cmd) ≤ cmd.size := by
  rcases executed_eq book cmd with heq | heq
  · rw [heq]
    exact Nat.zero_le _
  · rw [heq]
    exact filled_allocate_le _ _ _

theorem filled_add_unexecuted (book : OrderBook) (cmd : OrderCommand) :
    filled (book.executed cmd) + book.unexecuted cmd = cmd.size :=
  Nat.add_sub_cancel' (filled_executed_le book cmd)

theorem executed_sources (book : OrderBook) (cmd : OrderCommand) :
    ((book.executed cmd).map Fill.source).Sublist (book.side cmd.side.opSide).resting := by
  rcases executed_eq book cmd with heq | heq
  · rw [heq]
    exact List.nil_sublist _
  · rw [heq]
    exact (allocate_sources_sublist Order.size cmd.size (book.eligible cmd)).trans
      List.filter_sublist

/-- A fill's maker is someone else, at an acceptable price. -/
theorem executed_maker {f : Fill Order} (h : f ∈ book.executed cmd) :
    priceCheck cmd.side cmd.price f.source.price = true ∧ f.source.userId ≠ cmd.userId := by
  have hsource := source_mem_of_mem_allocate (mem_executed h)
  have heligible := (List.mem_filter.mp hsource).2
  rw [Bool.and_eq_true, decide_eq_true_eq] at heligible
  exact heligible

end Executed

/-- A placement: its fills, its status, and what it rests or leaves to be released. -/
structure Placed (book : OrderBook) (cmd : OrderCommand) (out : Outcome) : Prop where
  events : out.cmd.events = (book.executed cmd).map fillEvent
  size : out.cmd.size = book.unexecuted cmd
  userId : out.cmd.userId = cmd.userId
  side : out.cmd.side = cmd.side
  price : cmd.side = .bid → out.cmd.price = cmd.price
  marketId : out.book.marketId = book.marketId
  status : out.cmd.status ≠ .rejected ∧ out.cmd.status ≠ .processed
  opposite : (out.book.side cmd.side.opSide).resting =
    (book.side cmd.side.opSide).resting.filterMap (afterFills (book.executed cmd))
  remainder : (shouldHandleCancellation out.cmd = true ∧
      (out.book.side cmd.side).resting = (book.side cmd.side).resting) ∨
    (shouldHandleCancellation out.cmd = false ∧ book.unexecuted cmd = 0 ∧
      (out.book.side cmd.side).resting = (book.side cmd.side).resting) ∨
    (shouldHandleCancellation out.cmd = false ∧ (out.book.side cmd.side).resting.Perm
      (restingOrder cmd (book.unexecuted cmd) :: (book.side cmd.side).resting))

section Placed

variable {book : OrderBook} {cmd : OrderCommand}

theorem executed_of_matched (h : ¬(cmd.timeInForce = .fok ∧ book.canFillCompletely cmd = false)) :
    book.executed cmd = book.referenceFills cmd := if_neg h

theorem matchOrder_sides (h : book.Shape)
    (hmatched : ¬(cmd.timeInForce = .fok ∧ book.canFillCompletely cmd = false)) :
    ((book.matchOrder cmd).1.side cmd.side.opSide).resting =
        (book.side cmd.side.opSide).resting.filterMap (afterFills (book.executed cmd)) ∧
      (book.matchOrder cmd).1.side cmd.side = book.side cmd.side := by
  constructor
  · rw [executed_of_matched hmatched]
    exact matchOrder_resting h cmd
  · exact matchOrder_side_ne cmd.side.opSide_ne.symm

/-- Time in force decides neither whose order it is, nor its side or limit. -/
theorem placeByTimeInForce_fields (book : OrderBook) (cmd : OrderCommand) :
    (book.placeByTimeInForce cmd).2.userId = cmd.userId ∧
      (book.placeByTimeInForce cmd).2.side = cmd.side ∧
      (book.placeByTimeInForce cmd).2.price = cmd.price ∧
      (book.placeByTimeInForce cmd).2.timeInForce = cmd.timeInForce := by
  unfold placeByTimeInForce
  split
  · simp only
    split
    · exact ⟨rfl, rfl, rfl, rfl⟩
    · split <;> exact ⟨rfl, rfl, rfl, rfl⟩
  · simp only
    split <;> exact ⟨rfl, rfl, rfl, rfl⟩
  · exact ⟨rfl, rfl, rfl, rfl⟩

theorem executionPrice_bid (h : cmd.side = .bid) : executionPrice cmd = cmd := by
  unfold executionPrice
  rw [if_neg]
  intro hask
  rw [h] at hask
  cases hask.2

theorem Placed.of_parts {out : Outcome} {price : Nat} {l2Data : Option L2MarketData}
    (hcmd : out.cmd = { (book.placeByTimeInForce cmd).2 with price, l2Data })
    (hprice : cmd.side = .bid → price = cmd.price) (hmarket : out.book.marketId = book.marketId)
    (hevents : (book.placeByTimeInForce cmd).2.events = (book.executed cmd).map fillEvent)
    (hsize : (book.placeByTimeInForce cmd).2.size = book.unexecuted cmd)
    (status : Status) (hstatus : (book.placeByTimeInForce cmd).2.status = status)
    (hdone : status ≠ .rejected ∧ status ≠ .processed)
    (hopposite : (out.book.side cmd.side.opSide).resting =
      (book.side cmd.side.opSide).resting.filterMap (afterFills (book.executed cmd)))
    {releases : Bool}
    (hreleases : shouldHandleCancellation { cmd with status } = releases)
    (hremainder : (releases = true ∧
        (out.book.side cmd.side).resting = (book.side cmd.side).resting) ∨
      (releases = false ∧ book.unexecuted cmd = 0 ∧
        (out.book.side cmd.side).resting = (book.side cmd.side).resting) ∨
      (releases = false ∧ (out.book.side cmd.side).resting.Perm
        (restingOrder cmd (book.unexecuted cmd) :: (book.side cmd.side).resting))) :
    Placed book cmd out := by
  obtain ⟨huser, hside, -, htif⟩ := placeByTimeInForce_fields book cmd
  have hkeeps : shouldHandleCancellation out.cmd = releases := by
    rw [← hreleases, hcmd]
    unfold shouldHandleCancellation
    dsimp only
    rw [htif, hstatus]
  refine ⟨?_, ?_, ?_, ?_, ?_, hmarket, ?_, hopposite, ?_⟩
  · rw [hcmd]
    exact hevents
  · rw [hcmd]
    exact hsize
  · rw [hcmd]
    exact huser
  · rw [hcmd]
    exact hside
  · rw [hcmd]
    exact hprice
  · rw [hcmd]
    dsimp only
    rwa [hstatus]
  · rw [hkeeps]
    exact hremainder

/-- Every placement that R1 has let through is one. -/
theorem placeOrder_placed (h : book.Shape) (hstatus : cmd.status ≠ .rejected)
    (hevents : cmd.events = []) (cache : PriceCache) :
    Placed book cmd (book.placeOrder cmd cache) := by
  have hmarket := placeOrder_marketId book cmd cache
  have hbook := placeOrder_book hstatus book cache
  have hcmd : (book.placeOrder cmd cache).cmd =
      (book.placeByTimeInForce cmd).1.recordSnapshot
        (executionPrice (book.placeByTimeInForce cmd).2) := by
    rw [placeOrder, if_neg hstatus]
  obtain ⟨-, hside, hlimit, -⟩ := placeByTimeInForce_fields book cmd
  have hprice : cmd.side = .bid →
      (executionPrice (book.placeByTimeInForce cmd).2).price = cmd.price := by
    intro hbid
    rw [executionPrice_bid (hside.trans hbid), hlimit]
  obtain ⟨price, hexecution⟩ := executionPrice_eq (book.placeByTimeInForce cmd).2
  rw [hexecution] at hcmd hprice
  have hmatched := matchOrder_cmd h cmd
  rw [hevents, List.nil_append] at hmatched
  have hremaining := matchOrder_remaining h cmd
  have hle := filled_executed_le book cmd
  have hparts := Placed.of_parts hcmd hprice hmarket
  rw [hbook] at hparts
  cases htif : cmd.timeInForce with
  | gtc =>
    have hplain : ¬(cmd.timeInForce = .fok ∧ book.canFillCompletely cmd = false) := by simp [htif]
    obtain ⟨hopposite, hown⟩ := matchOrder_sides h hplain
    rw [← executed_of_matched hplain] at hmatched hremaining
    change _ = book.unexecuted cmd at hremaining
    have hplace : book.placeByTimeInForce cmd =
        if (book.matchOrder cmd).2.2 = (book.matchOrder cmd).2.1.size then
          ((book.matchOrder cmd).1.addToBook (book.matchOrder cmd).2.1 (book.matchOrder cmd).2.2,
            { (book.matchOrder cmd).2.1 with status := .placed, size := (book.matchOrder cmd).2.2 })
        else if (book.matchOrder cmd).2.2 > 0 then
          ((book.matchOrder cmd).1.addToBook (book.matchOrder cmd).2.1 (book.matchOrder cmd).2.2,
            { (book.matchOrder cmd).2.1 with
              status := .partiallyFilled, size := (book.matchOrder cmd).2.2 })
        else ((book.matchOrder cmd).1,
          { (book.matchOrder cmd).2.1 with status := .filled, size := (book.matchOrder cmd).2.2 }) := by
      rw [placeByTimeInForce, htif]
    rw [hmatched, hremaining] at hplace
    have hrests := addToBook_resting_perm (book.matchOrder cmd).1 cmd (book.unexecuted cmd)
    rw [hown] at hrests
    have hother : ((book.matchOrder cmd).1.addToBook cmd (book.unexecuted cmd)).side
        cmd.side.opSide = (book.matchOrder cmd).1.side cmd.side.opSide :=
      side_addToBook_ne _ cmd.side.opSide_ne
    rw [← hother] at hopposite
    by_cases hnone : book.unexecuted cmd = cmd.size
    · rw [if_pos hnone] at hplace
      rw [hplace] at hparts
      exact hparts rfl rfl .placed rfl (by decide) hopposite rfl (.inr (.inr ⟨rfl, hrests⟩))
    · by_cases hsome : book.unexecuted cmd > 0
      · have hkeeps : shouldHandleCancellation { cmd with status := .partiallyFilled } = false := by
          rw [shouldHandleCancellation, htif]
        rw [if_neg hnone, if_pos hsome] at hplace
        rw [hplace] at hparts
        exact hparts rfl rfl .partiallyFilled rfl (by decide) hopposite hkeeps
          (.inr (.inr ⟨rfl, hrests⟩))
      · rw [if_neg hnone, if_neg hsome] at hplace
        rw [hplace] at hparts
        rw [hother] at hopposite
        exact hparts rfl rfl .filled rfl (by decide) hopposite rfl
          (.inr (.inl ⟨rfl, by omega, congrArg BookSide.resting hown⟩))
  | fok =>
    cases hkill : book.canFillCompletely cmd with
    | false =>
      have hnone : book.executed cmd = [] := if_pos ⟨htif, hkill⟩
      have hall : book.unexecuted cmd = cmd.size := by rw [unexecuted, hnone]; rfl
      have hplace : book.placeByTimeInForce cmd = (book, { cmd with status := .cancelled }) := by
        rw [placeByTimeInForce, htif]
        simp only [hkill, Bool.not_false, if_true]
      have hkept : (book.side cmd.side.opSide).resting =
          (book.side cmd.side.opSide).resting.filterMap (afterFills (book.executed cmd)) := by
        have hid : afterFills [] = some := funext fun o => afterFills_of_not_mem fun f hf => by cases hf
        rw [hnone, hid, List.filterMap_some]
      rw [hplace] at hparts
      exact hparts (by rw [hnone]; exact hevents) hall.symm .cancelled rfl (by decide) hkept rfl
        (.inl ⟨rfl, rfl⟩)
    | true =>
      have hplain : ¬(cmd.timeInForce = .fok ∧ book.canFillCompletely cmd = false) := by simp [hkill]
      obtain ⟨hopposite, hown⟩ := matchOrder_sides h hplain
      rw [← executed_of_matched hplain] at hmatched hremaining
      change _ = book.unexecuted cmd at hremaining
      have hplace : book.placeByTimeInForce cmd =
          ((book.matchOrder cmd).1, { (book.matchOrder cmd).2.1 with
            status := if (book.matchOrder cmd).2.2 = 0 then .filled else .cancelled
            size := (book.matchOrder cmd).2.2 }) := by
        rw [placeByTimeInForce, htif]
        simp only [hkill, Bool.not_true, Bool.false_eq_true, if_false]
      rw [hmatched, hremaining] at hplace
      rw [hplace] at hparts
      by_cases hall : book.unexecuted cmd = 0
      · exact hparts rfl rfl .filled (if_pos hall) (by decide) hopposite rfl
          (.inr (.inl ⟨rfl, hall, congrArg BookSide.resting hown⟩))
      · exact hparts rfl rfl .cancelled (if_neg hall) (by decide) hopposite rfl
          (.inl ⟨rfl, congrArg BookSide.resting hown⟩)
  | ioc =>
    have hplain : ¬(cmd.timeInForce = .fok ∧ book.canFillCompletely cmd = false) := by simp [htif]
    obtain ⟨hopposite, hown⟩ := matchOrder_sides h hplain
    rw [← executed_of_matched hplain] at hmatched hremaining
    change _ = book.unexecuted cmd at hremaining
    have hplace : book.placeByTimeInForce cmd =
        ((book.matchOrder cmd).1, { (book.matchOrder cmd).2.1 with
          status :=
            if (book.matchOrder cmd).2.2 = 0 then .filled
            else if (book.matchOrder cmd).2.2 < (book.matchOrder cmd).2.1.size then .partiallyFilled
            else .cancelled
          size := (book.matchOrder cmd).2.2 }) := by
      rw [placeByTimeInForce, htif]
    rw [hmatched, hremaining] at hplace
    rw [hplace] at hparts
    have hown' := congrArg BookSide.resting hown
    by_cases hall : book.unexecuted cmd = 0
    · exact hparts rfl rfl .filled (if_pos hall) (by decide) hopposite rfl (.inr (.inl ⟨rfl, hall, hown'⟩))
    · by_cases hsome : book.unexecuted cmd < cmd.size
      · have hreleases : shouldHandleCancellation { cmd with status := .partiallyFilled } = true := by
          rw [shouldHandleCancellation, htif]
        exact hparts rfl rfl .partiallyFilled ((if_neg hall).trans (if_pos hsome)) (by decide) hopposite hreleases
          (.inl ⟨rfl, hown'⟩)
      · exact hparts rfl rfl .cancelled ((if_neg hall).trans (if_neg hsome)) (by decide) hopposite rfl
          (.inl ⟨rfl, hown'⟩)

end Placed

end OrderBook

section Debits

variable (spec : CoreMarketSpecification) (k : BalanceKey)

@[simp] theorem tally_debit_sidePlan (marketId userId : Nat) (s : Side) (price size rate : Nat) :
    tally Move.debit (sidePlan spec marketId userId s price size rate) k =
      onKey ⟨userId, escrowAsset s marketId⟩ k (escrowed spec s price size) := by
  simp [sidePlan, onKey, Move.debit]

theorem tally_debit_takerPlan (cmd : OrderCommand) (event : MatcherTradeEvent) :
    tally Move.debit (takerPlan spec cmd event) k =
      onKey ⟨cmd.userId, escrowAsset cmd.side cmd.marketId⟩ k
        (escrowed spec cmd.side event.price event.size +
          refund spec cmd.side cmd.price event.price event.size) := by
  rw [takerPlan, tally_cons_onKey, tally_debit_sidePlan, onKey_add, Nat.add_comm]
  cases cmd.side with
  | bid => rfl
  | ask => simp [refund, Move.debit]

theorem tally_debit_events (cmd : OrderCommand) (fills : List (Fill Order)) :
    tally Move.debit ((fills.map OrderBook.fillEvent).flatMap fun event =>
        makerPlan spec cmd event ++ takerPlan spec cmd event) k =
      makersSpend spec cmd.marketId cmd.side.opSide k fills +
        onKey ⟨cmd.userId, escrowAsset cmd.side cmd.marketId⟩ k
          (fills.map fun f => escrowed spec cmd.side f.source.price f.amount +
            refund spec cmd.side cmd.price f.source.price f.amount).sum := by
  induction fills with
  | nil => simp [makersSpend]
  | cons f fills ih =>
    rw [List.map_cons, List.flatMap_cons, tally_append, ih, tally_append, makerPlan,
      tally_debit_sidePlan, tally_debit_takerPlan, makersSpend_cons, List.map_cons, List.sum_cons]
    simp only [OrderBook.fillEvent, onKey_add]
    omega

theorem tally_debit_releasePlan (cmd : OrderCommand) :
    tally Move.debit (releasePlan spec cmd) k =
      if shouldHandleCancellation cmd then
        onKey ⟨cmd.userId, escrowAsset cmd.side cmd.marketId⟩ k
          (escrowed spec cmd.side cmd.price cmd.size)
      else 0 := by
  unfold releasePlan
  cases shouldHandleCancellation cmd with
  | true => simp [onKey, Move.debit]
  | false => simp

end Debits

namespace OrderBook

/-- What flooring loses on an account when a placement executes. -/
def lossAt (spec : CoreMarketSpecification) (book : OrderBook) (cmd : OrderCommand)
    (k : BalanceKey) : Nat :=
  makersLoss spec book.marketId cmd.side.opSide k (book.executed cmd) +
    onKey ⟨cmd.userId, escrowAsset cmd.side book.marketId⟩ k
      (takerLoss spec cmd.side cmd.price (book.executed cmd) (book.unexecuted cmd))

/-- What a placement makes R2 take, what then rests, and what is lost add up to what rested
before and what R1 locked. -/
theorem Placed.balance {book : OrderBook} {cmd : OrderCommand} {out : Outcome}
    (h : Placed book cmd out) (hshape : book.Shape) (hmarket : out.cmd.marketId = book.marketId)
    (spec : CoreMarketSpecification) (k : BalanceKey) :
    tally Move.debit (settlementPlan spec out.cmd) k + out.book.reserve spec k +
        book.lossAt spec cmd k =
      book.reserve spec k + onKey ⟨cmd.userId, escrowAsset cmd.side book.marketId⟩ k
        (escrowed spec cmd.side cmd.price cmd.size) := by
  have hmakers := sideReserve_afterFills spec book.marketId cmd.side.opSide k
    (executed_sources book cmd) (hshape.nodup _)
    fun f hf => amount_le_of_mem_allocate (mem_executed hf)
  have htaker := escrowed_fills spec
    (fun f (hf : f ∈ book.executed cmd) => (executed_maker hf).1) (book.unexecuted cmd)
  rw [filled_add_unexecuted] at htaker
  -- the execution price of a market sell plays no part
  have hescrow : ∀ size, escrowed spec cmd.side out.cmd.price size =
      escrowed spec cmd.side cmd.price size := by
    intro size
    cases hside : cmd.side with
    | bid => rw [h.price hside]
    | ask => rfl
  have hrefund : ∀ price size, refund spec cmd.side out.cmd.price price size =
      refund spec cmd.side cmd.price price size := by
    intro price size
    cases hside : cmd.side with
    | bid => rw [h.price hside]
    | ask => rfl
  have hplan : settlementPlan spec out.cmd =
      out.cmd.events.flatMap (fun event => makerPlan spec out.cmd event ++
        takerPlan spec out.cmd event) ++ releasePlan spec out.cmd :=
    if_neg fun hdone => hdone.elim h.status.1 h.status.2
  rw [hplan, tally_append, h.events, tally_debit_events, tally_debit_releasePlan, h.userId, h.side,
    h.size, hmarket, hescrow, reserve_sides _ _ cmd.side, reserve_sides spec book cmd.side,
    h.marketId, h.opposite, lossAt, htaker]
  simp only [hrefund, onKey_add]
  rcases h.remainder with ⟨hreleases, hown⟩ | ⟨hreleases, hnone, hown⟩ | ⟨hreleases, hown⟩
  · rw [hreleases, hown, if_pos rfl]
    omega
  · rw [hreleases, hown, hnone, escrowed_zero, onKey_zero, if_neg Bool.false_ne_true]
    omega
  · rw [hreleases, sideReserve_perm spec book.marketId cmd.side k hown, sideReserve_cons,
      if_neg Bool.false_ne_true]
    simp only [restingOrder]
    omega

theorem shouldHandleCancellation_cancelled {cmd : OrderCommand} (h : cmd.status = .cancelled) :
    shouldHandleCancellation cmd = true := by
  unfold shouldHandleCancellation
  rw [h]

/-- A cancellation turns a reserve into a release. -/
theorem cancelOrder_balance {book : OrderBook} (h : book.Shape) {cmd : OrderCommand}
    (hstatus : cmd.status ≠ .rejected) (hevents : cmd.events = [])
    (hmarket : cmd.marketId = book.marketId) (cache : PriceCache) (spec : CoreMarketSpecification)
    (k : BalanceKey) :
    tally Move.debit (settlementPlan spec (book.cancelOrder cmd cache).cmd) k +
        (book.cancelOrder cmd cache).book.reserve spec k = book.reserve spec k := by
  have hrejected : ∀ l2Data, settlementPlan spec { cmd with status := .rejected, l2Data } = [] :=
    fun _ => if_pos (.inl rfl)
  rw [cancelOrder, if_neg hstatus]
  rcases cancelByIndex_cases h cmd with ⟨_, heq⟩ | ⟨_, heq⟩ |
    ⟨s, level, order, hlevel, hmem, _, _, heq⟩
  · rw [heq]
    show tally Move.debit (settlementPlan spec { cmd with status := .rejected }) k + _ = _
    rw [hrejected cmd.l2Data, tally_nil, Nat.zero_add]
  · rw [heq]
    show tally Move.debit (settlementPlan spec { cmd with status := .rejected, l2Data := _ }) k +
      _ = _
    rw [hrejected, tally_nil, Nat.zero_add]
    rfl
  · obtain ⟨-, hside, -⟩ := (h.level _ _ _ hlevel).placed order hmem
    have hperm := removeResting_perm h hlevel hmem
    have hown := sideReserve_perm spec book.marketId s k hperm
    rw [sideReserve_cons] at hown
    have hother := @side_removeResting_ne book _ _ level order s.opSide_ne
    have hid : (book.removeResting s level order).marketId = book.marketId := by
      cases s <;> rfl
    rw [heq]
    dsimp only [recordSnapshot, PriceLevel.reportCancelled]
    rw [settlementPlan, if_neg (by simp)]
    dsimp only
    rw [hevents, List.flatMap_nil, List.nil_append, tally_debit_releasePlan,
      reserve_sides spec (book.removeResting s level order) s, reserve_sides spec book s, hid,
      hother, hown, hside, hmarket, shouldHandleCancellation_cancelled rfl, if_pos rfl]
    dsimp only
    omega

end OrderBook

end VexCore
