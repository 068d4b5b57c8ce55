import VexCore.Orderbook.Cancellation
import VexCore.Orderbook.Wrapping
import VexCore.Stream.Answers
import VexCore.Stream.Steps

/-!
# What a reader of the depth events sees

Whoever keeps the last orderbook event of every market has in front of them the best levels of
the books: a command that moves a book reports the book, and one that does not report it has not
moved it.
-/

namespace VexCore

open Framework OrderBook

/-- The orderbook events of a log. -/
def depthEvents (log : List Output) : List OrderbookEvent :=
  log.filterMap fun
    | .orderbook event => some event
    | _ => none

/-- A snapshot as the event of a market shows it: no level of price zero. -/
def L2MarketData.shown (snapshot : L2MarketData) (marketId : Nat) : OrderbookEvent :=
  { marketId
    bids := (snapshot.bidPrices.zip snapshot.bidVolumes).filter fun l => decide (l.1 > 0)
    asks := (snapshot.askPrices.zip snapshot.askVolumes).filter fun l => decide (l.1 > 0) }

@[simp] theorem L2MarketData.shown_marketId (snapshot : L2MarketData) (marketId : Nat) :
    (snapshot.shown marketId).marketId = marketId := rfl

/-- The depth of a market, to a reader of the log; nothing before its first event. -/
def shownDepth (marketId : Nat) (log : List Output) : OrderbookEvent :=
  (currentOf OrderbookEvent.marketId marketId (depthEvents log)).getD ⟨marketId, [], []⟩

section Events

variable {log more : List Output} {cmd : OrderCommand}

@[simp] theorem depthEvents_append :
    depthEvents (log ++ more) = depthEvents log ++ depthEvents more := List.filterMap_append ..

@[simp] theorem depthEvents_balances (userId : Nat) (balance : UserBalance × UserBalance) :
    depthEvents (publishBalanceEvent userId cmd balance) = [] := rfl

@[simp] theorem depthEvents_order (size filledSize : Nat) :
    depthEvents (publishOrderEvent cmd size filledSize) = [] := rfl

@[simp] theorem depthEvents_cancel : depthEvents (publishCancelOrderEvent cmd) = [] := rfl

@[simp] theorem depthEvents_filled : depthEvents (publishFilledOrder cmd) = [] := rfl

@[simp] theorem depthEvents_fills : depthEvents (publishFills cmd) = [] := by
  rw [depthEvents, publishFills, List.filterMap_flatMap]
  exact List.flatMap_eq_nil_iff.mpr fun event _ => rfl

theorem depthEvents_decided (hcommand : cmd.command = .placeOrder ∨ cmd.command = .cancelOrder)
    (hstatus : cmd.status = .placed ∨ cmd.status = .partiallyFilled ∨ cmd.status = .filled ∨
      cmd.status = .cancelled) {snapshot : L2MarketData} (hdepth : cmd.l2Data = some snapshot) :
    depthEvents (publishEvents cmd) = [snapshot.shown cmd.marketId] := by
  have hbook : depthEvents (publishOrderbookEvent cmd) = [snapshot.shown cmd.marketId] := by
    rw [publishOrderbookEvent, hdepth]
    rfl
  have hall : publishEvents cmd = publishByStatus cmd := by
    rcases hcommand with h | h <;> simp [publishEvents, h]
  rw [hall]
  rcases hstatus with h | h | h | h
  · simp [publishByStatus, h, hbook]
  · simp [publishByStatus, h, hbook]
  · simp [publishByStatus, h, hbook]
  · have hfirst : depthEvents (if cmd.events ≠ [] then publishFills cmd ++ publishFilledOrder cmd
        else if cmd.command = .cancelOrder then
          publishOrderEvent cmd cmd.originalSize (wrappingSub 64 cmd.originalSize cmd.size)
        else publishOrderEvent cmd cmd.size 0) = [] := by
      split
      · simp
      · split <;> rfl
    have hcancelled : publishByStatus cmd = publishCancelled cmd := by rw [publishByStatus, h]
    rw [hcancelled, publishCancelled, depthEvents_append, depthEvents_append, depthEvents_append,
      hfirst, hbook]
    rfl

theorem depthEvents_silent (h : cmd.command = .depositFunds ∨ cmd.command = .withdrawFunds ∨
    cmd.status = .rejected) : depthEvents (publishEvents cmd) = [] := by
  have hrejected (hstatus : cmd.status = .rejected) :
      depthEvents (publishByStatus cmd) = [] := by
    rw [publishByStatus, hstatus]
    rfl
  unfold publishEvents
  cases hcommand : cmd.command with
  | depositFunds =>
    by_cases hstatus : cmd.status = .processed
    · simp only [hstatus]
      rfl
    · simp only [hstatus]
      rfl
  | withdrawFunds =>
    by_cases hstatus : cmd.status = .processed
    · simp only [hstatus]
      rfl
    · simp only [hstatus]
      rfl
  | placeOrder => exact hrejected (by simpa [hcommand] using h)
  | cancelOrder => exact hrejected (by simpa [hcommand] using h)

theorem shownDepth_still (h : depthEvents more = []) (m : Nat) :
    shownDepth m (log ++ more) = shownDepth m log := by
  rw [shownDepth, depthEvents_append, h, List.append_nil, shownDepth]

theorem shownDepth_event {event : OrderbookEvent} (h : depthEvents more = [event]) (m : Nat) :
    shownDepth m (log ++ more) = if event.marketId = m then event else shownDepth m log := by
  rw [shownDepth, depthEvents_append, h]
  by_cases hm : event.marketId = m
  · subst hm
    rw [currentOf_append_of_mem (by simp) List.mem_cons_self, if_pos rfl]
    rfl
  · have hother : ∀ e ∈ [event], e.marketId ≠ m := by simpa using hm
    rw [currentOf_append_of_not_mem hother, if_neg hm, shownDepth]

end Events

theorem matchingHandler_at_home {router : MatchingEngineRouter} {cmd : OrderCommand}
    (hhome : router.marketForThisHandler cmd.marketId = true) (cache : PriceCache) :
    ((matchingHandler router cmd cache).1 = router.orderBooks ∧
      ((matchingHandler router cmd cache).2.1.command = .depositFunds ∨
        (matchingHandler router cmd cache).2.1.command = .withdrawFunds ∨
        (matchingHandler router cmd cache).2.1.status = .rejected)) ∨
    ∃ book, router.orderBooks.lookup cmd.marketId = some book ∧ cmd.status ≠ .rejected ∧
      ((cmd.command = .placeOrder ∧ matchingHandler router cmd cache =
          (router.orderBooks.insert cmd.marketId (book.placeOrder cmd cache).book,
            (book.placeOrder cmd cache).cmd, (book.placeOrder cmd cache).cache)) ∨
        (cmd.command = .cancelOrder ∧ matchingHandler router cmd cache =
          (router.orderBooks.insert cmd.marketId (book.cancelOrder cmd cache).book,
            (book.cancelOrder cmd cache).cmd, (book.cancelOrder cmd cache).cache))) := by
  by_cases hskip : cmd.command = .depositFunds ∨ cmd.command = .withdrawFunds ∨
      cmd.status = .rejected
  · rw [matchingHandler, if_pos hskip]
    exact .inl ⟨rfl, hskip⟩
  · have hstatus : cmd.status ≠ .rejected := fun h => hskip (.inr (.inr h))
    simp only [matchingHandler, if_neg hskip, MatchingEngineRouter.processOrder, hhome, if_true]
    cases hbook : router.orderBooks.lookup cmd.marketId with
    | none => exact .inl ⟨rfl, .inr (.inr rfl)⟩
    | some book =>
      cases hcommand : cmd.command with
      | placeOrder => exact .inr ⟨book, rfl, hstatus, .inl ⟨rfl, rfl⟩⟩
      | cancelOrder => exact .inr ⟨book, rfl, hstatus, .inr ⟨rfl, rfl⟩⟩
      | depositFunds => exact absurd (.inl hcommand) hskip
      | withdrawFunds => exact absurd (.inr (.inl hcommand)) hskip

namespace Floor

/-- The reader sees the books. -/
def Shows (floor : Floor) : Prop :=
  ∀ m book, floor.router.orderBooks.lookup m = some book →
    shownDepth m floor.log = book.l2Snapshot.shown m

def VolumesWrap (floor : Floor) : Prop :=
  ∀ m book, floor.router.orderBooks.lookup m = some book → book.VolumesWrap

section Step

variable {floor : Floor} {cmd settled : OrderCommand}

theorem book_of_step {m : Nat} {after : OrderBook}
    (hafter : (floor.step cmd settled).router.orderBooks.lookup m = some after) :
    floor.router.orderBooks.lookup m = some after ∨
      ∃ book, floor.router.orderBooks.lookup m = some book ∧
        (after = (book.placeOrder cmd floor.cache).book ∨
          after = (book.cancelOrder cmd floor.cache).book) := by
  change (matchingHandler floor.router cmd floor.cache).1.lookup m = some after at hafter
  have hinsert {book made : OrderBook}
      (hbook : floor.router.orderBooks.lookup cmd.marketId = some book)
      (hbooks : (matchingHandler floor.router cmd floor.cache).1 =
        floor.router.orderBooks.insert cmd.marketId made) :
      floor.router.orderBooks.lookup m = some after ∨
        (floor.router.orderBooks.lookup m = some book ∧ after = made) := by
    rw [hbooks] at hafter
    by_cases hm : m = cmd.marketId
    · subst hm
      rw [Finmap.lookup_insert, Option.some.injEq] at hafter
      exact .inr ⟨hbook, hafter.symm⟩
    · rw [Finmap.lookup_insert_of_ne _ hm] at hafter
      exact .inl hafter
  rcases matchingHandler_cases floor.router cmd floor.cache with ⟨hbooks, _⟩ |
    ⟨book, hbook, _, ⟨_, hmatched⟩ | ⟨_, hmatched⟩⟩
  · rw [hbooks] at hafter
    exact .inl hafter
  · exact (hinsert hbook (congrArg Prod.fst hmatched)).imp_right
      fun ⟨hlookup, heq⟩ => ⟨book, hlookup, .inl heq⟩
  · exact (hinsert hbook (congrArg Prod.fst hmatched)).imp_right
      fun ⟨hlookup, heq⟩ => ⟨book, hlookup, .inr heq⟩

theorem Invariant.words (h : floor.Invariant) {m : Nat} {book : OrderBook}
    (hbook : floor.router.orderBooks.lookup m = some book) : book.Words := by
  intro s o ho
  have haccount := (h.resting m book hbook s o ho).1
  have htraded := haccount.traded
  have hfits := haccount.fits
  omega

theorem VolumesWrap.step (hv : floor.VolumesWrap) (h : floor.Invariant) :
    (floor.step cmd settled).VolumesWrap := by
  intro m after hafter
  rcases book_of_step hafter with hold | ⟨book, hbook, heq | heq⟩
  · exact hv m after hold
  · rw [heq]
    exact (hv m book hbook).placeOrder (h.shape m book hbook) (h.words hbook) floor.cache
  · rw [heq]
    exact (hv m book hbook).cancelOrder (h.shape m book hbook) (h.words hbook) floor.cache

/-- A command that shows nothing has left every level as it was. -/
theorem Shows.still (shows : floor.Shows)
    (hdepth : depthEvents (publishEvents settled) = [])
    (hbooks : ∀ m after, (floor.step cmd settled).router.orderBooks.lookup m = some after →
      ∃ book, floor.router.orderBooks.lookup m = some book ∧
        after.l2Snapshot = book.l2Snapshot) : (floor.step cmd settled).Shows := by
  intro m after hafter
  obtain ⟨book, hbook, heq⟩ := hbooks m after hafter
  rw [step_log, shownDepth_still hdepth, heq]
  exact shows m book hbook

/-- A command that shows the book it has replaced. -/
theorem Shows.shown (shows : floor.Shows) {after : OrderBook}
    (hdepth : depthEvents (publishEvents settled) =
      [after.l2Snapshot.shown cmd.marketId])
    (hbooks : (floor.step cmd settled).router.orderBooks =
      floor.router.orderBooks.insert cmd.marketId after) : (floor.step cmd settled).Shows := by
  intro m book hbook
  rw [hbooks] at hbook
  rw [step_log, shownDepth_event hdepth, L2MarketData.shown_marketId]
  by_cases hm : m = cmd.marketId
  · subst hm
    rw [Finmap.lookup_insert, Option.some.injEq] at hbook
    rw [if_pos rfl, hbook]
  · rw [Finmap.lookup_insert_of_ne _ hm] at hbook
    rw [if_neg (Ne.symm hm)]
    exact shows m book hbook

theorem depthEvents_settled {out : OrderCommand} {after : OrderBook} (settles : Settles out settled)
    (hsame : SameCommand cmd settled)
    (hcommand : cmd.command = .placeOrder ∨ cmd.command = .cancelOrder)
    (hstatus : out.status = .placed ∨ out.status = .partiallyFilled ∨ out.status = .filled ∨
      out.status = .cancelled) (hdepth : out.l2Data = some after.l2Snapshot) :
    depthEvents (publishEvents settled) =
      [after.l2Snapshot.shown cmd.marketId] := by
  have hfields := settles.fields
  rw [← hsame.marketId]
  apply depthEvents_decided
  · rw [hsame.command]
    exact hcommand
  · rw [hfields]
    exact hstatus
  · rw [hfields]
    exact hdepth

theorem Shows.step (shows : floor.Shows) (h : floor.Invariant)
    (hhome : floor.router.marketForThisHandler cmd.marketId = true)
    (settles : Settles (matchingHandler floor.router cmd floor.cache).2.1 settled) :
    (floor.step cmd settled).Shows := by
  have hsame := (matchingHandler_same floor.router cmd floor.cache).trans settles.same
  have hfields := settles.fields
  rcases matchingHandler_at_home hhome floor.cache with ⟨hbooks, hsilent⟩ |
    ⟨book, hbook, hstatus, ⟨hcommand, hmatched⟩ | ⟨hcommand, hmatched⟩⟩
  · apply shows.still
    · apply depthEvents_silent
      rw [hfields]
      exact hsilent
    · intro m after hafter
      change (matchingHandler floor.router cmd floor.cache).1.lookup m = some after at hafter
      rw [hbooks] at hafter
      exact ⟨after, hafter, rfl⟩
  · rw [hmatched] at settles
    refine shows.shown ?_ (congrArg Prod.fst hmatched)
    refine depthEvents_settled settles hsame (.inl hcommand) ?_
      (placeOrder_snapshot hstatus book floor.cache)
    have hdecides := @placeOrder_decides book _ hstatus floor.cache
    unfold Decides at hdecides
    split at hdecides <;> tauto
  · rw [hmatched] at settles hfields
    have hbooks := congrArg Prod.fst hmatched
    -- a refused cancellation leaves every level alone and is not shown
    have hrefused (hrejected : (book.cancelOrder cmd floor.cache).cmd.status = .rejected)
        (hsides : (book.cancelOrder cmd floor.cache).book.l2Snapshot = book.l2Snapshot) :
        (floor.step cmd settled).Shows := by
      apply shows.still
      · apply depthEvents_silent
        rw [hfields]
        exact .inr (.inr hrejected)
      · intro m after hafter
        change (matchingHandler floor.router cmd floor.cache).1.lookup m = some after at hafter
        rw [hbooks] at hafter
        by_cases hm : m = cmd.marketId
        · subst hm
          rw [Finmap.lookup_insert, Option.some.injEq] at hafter
          exact ⟨book, hbook, hafter ▸ hsides⟩
        · rw [Finmap.lookup_insert_of_ne _ hm] at hafter
          exact ⟨after, hafter, rfl⟩
    obtain ⟨hcancelBook, hcancelCmd⟩ := cancelOrder_of_ne hstatus book floor.cache
    rcases cancelByIndex_cases (h.shape _ _ hbook) cmd with ⟨_, heq⟩ | ⟨_, heq⟩ |
      ⟨t, level, order, _, _, _, _, heq⟩
    · rw [heq] at hcancelBook hcancelCmd
      exact hrefused (by rw [hcancelCmd]) (by rw [hcancelBook])
    · rw [heq] at hcancelBook hcancelCmd
      exact hrefused (by rw [hcancelCmd]; rfl) (by rw [hcancelBook]; rfl)
    · rw [heq] at hcancelBook hcancelCmd
      refine shows.shown (depthEvents_settled settles hsame (.inr hcommand) ?_ ?_) hbooks
      · rw [hcancelCmd]
        exact .inr (.inr (.inr rfl))
      · rw [hcancelCmd, hcancelBook]
        rfl

end Step

/-- On a floor that serves every market the reader always sees the books. -/
theorem Run.shows {floor : Floor} (run : Run floor)
    (hhome : ∀ m, floor.router.marketForThisHandler m = true) :
    floor.Shows ∧ floor.VolumesWrap := by
  induction run with
  | start router cache opened =>
    constructor
    · intro m book hbook
      rw [opened m book hbook]
      rfl
    · intro m book hbook
      rw [opened m book hbook]
      exact new_volumesWrap m
  | command cmd settled run arrives settles ih =>
    obtain ⟨shows, wraps⟩ := ih hhome
    exact ⟨shows.step run.invariant (hhome cmd.marketId) settles, wraps.step run.invariant⟩

end Floor

namespace Engine

variable {config : Config} {s : State}

end Engine

end VexCore
