import VexCore.Stream.Depth

/-!
# Markets on their own

What happens in a market is what its own orders and cancellations make of its own book, once they
are admitted: the engine is as many orderbooks side by side. Whether R1 admits an order may depend
on the other markets.
-/

namespace VexCore

open Framework OrderBook Engine

/-- The order, trade, cancellation and orderbook events of a market. -/
def Output.inMarket (marketId : Nat) : Output → Bool
  | .order event => event.marketId == marketId
  | .trade event => event.marketId == marketId
  | .cancel event => event.marketId == marketId
  | .orderbook event => event.marketId == marketId
  | .balance _ | .deposit _ | .withdraw _ => false

/-- What a log says about a market. -/
def marketTape (marketId : Nat) (log : List Output) : List Output :=
  log.filter (Output.inMarket marketId)

/-- An order or a cancellation in the market. -/
def OrderCommand.InMarket (marketId : Nat) (cmd : OrderCommand) : Prop :=
  cmd.marketId = marketId ∧ (cmd.command = .placeOrder ∨ cmd.command = .cancelOrder)

instance (marketId : Nat) (cmd : OrderCommand) : Decidable (cmd.InMarket marketId) :=
  inferInstanceAs (Decidable (_ ∧ _))

/-- What an orderbook makes of a command; the price cache is only written. -/
def OrderBook.answer (book : OrderBook) (cmd : OrderCommand) : OrderBook × OrderCommand :=
  match cmd.command with
  | .placeOrder => ((book.placeOrder cmd ⟨∅⟩).book, (book.placeOrder cmd ⟨∅⟩).cmd)
  | .cancelOrder => ((book.cancelOrder cmd ⟨∅⟩).book, (book.cancelOrder cmd ⟨∅⟩).cmd)
  | .depositFunds | .withdrawFunds => (book, cmd)

/-- An orderbook and what was published about it. -/
structure Stand where
  book : OrderBook
  tape : List Output

namespace Stand

/-- The orderbook takes one command, and what the command comes to is published. -/
def take (marketId : Nat) (stand : Stand) (cmd : OrderCommand) : Stand :=
  { book := (stand.book.answer cmd).1
    tape := stand.tape ++
      marketTape marketId (publishEvents (stand.book.answer cmd).2) }

/-- A market to which its own commands of the list came, one after the other. -/
def after (marketId : Nat) (cmds : List OrderCommand) : Stand :=
  (cmds.filter fun cmd => cmd.InMarket marketId).foldl (take marketId) ⟨.new marketId, []⟩

end Stand

section Tape

variable {m : Nat} {log more : List Output} {cmd settled : OrderCommand}

@[simp] theorem marketTape_nil : marketTape m [] = [] := rfl

@[simp] theorem marketTape_append :
    marketTape m (log ++ more) = marketTape m log ++ marketTape m more := List.filter_append _ _

@[simp] theorem marketTape_balances (userId : Nat) (balance : UserBalance × UserBalance) :
    marketTape m (publishBalanceEvent userId cmd balance) = [] := rfl

@[simp] theorem marketTape_funds : marketTape m (publishDepositWithdrawalEvent cmd) = [] := rfl

theorem marketTape_of_funds (h : IsFunds cmd) :
    marketTape m (publishEvents cmd) = [] := by
  have hmoved : marketTape m [.deposit (fundsEvent cmd)] = [] ∧
      marketTape m [.withdraw (fundsEvent cmd)] = [] := ⟨rfl, rfl⟩
  rcases h with hcommand | hcommand <;> by_cases hdone : cmd.status = .processed <;>
    simp only [publishEvents, hcommand, hdone, hmoved, marketTape_append, marketTape_nil,
      marketTape_funds, if_false, if_true, List.append_nil]

theorem marketTape_order_ne (hm : cmd.marketId ≠ m) (size filledSize : Nat) :
    marketTape m (publishOrderEvent cmd size filledSize) = [] := by
  simp [marketTape, publishOrderEvent, Output.inMarket, hm]

theorem marketTape_fills_ne (hm : cmd.marketId ≠ m) :
    marketTape m (publishFills cmd) = [] := by
  rw [marketTape, publishFills, List.filter_flatMap, List.flatMap_eq_nil_iff]
  intro event _
  simp [publishTradeEvent, publishBalanceEvent, balanceEvent, publishMakerOrderEvent,
    Output.inMarket, hm]

theorem marketTape_cancel_ne (hm : cmd.marketId ≠ m) :
    marketTape m (publishCancelOrderEvent cmd) = [] := by
  simp [marketTape, publishCancelOrderEvent, Output.inMarket, hm]

theorem marketTape_orderbook_ne (hm : cmd.marketId ≠ m) :
    marketTape m (publishOrderbookEvent cmd) = [] := by
  unfold publishOrderbookEvent
  split <;> simp [marketTape, Output.inMarket, hm]

theorem marketTape_of_ne (hm : cmd.marketId ≠ m) :
    marketTape m (publishEvents cmd) = [] := by
  have hfilled : marketTape m (publishFilledOrder cmd) = [] := marketTape_order_ne hm _ _
  have hstatus : marketTape m (publishByStatus cmd) = [] := by
    unfold publishByStatus publishCancelled
    split <;>
      simp [apply_ite (marketTape m), marketTape_order_ne hm, marketTape_fills_ne hm, hfilled,
        marketTape_cancel_ne hm, marketTape_orderbook_ne hm]
  by_cases hfunds : IsFunds cmd
  · exact marketTape_of_funds hfunds
  · rcases order_of_not_funds hfunds with hcommand | hcommand <;>
      simp [publishEvents, hcommand, hstatus]

theorem calcFilledSize_rebalanced {events events' : List MatcherTradeEvent}
    (h : List.Forall₂ Rebalanced events events') : calcFilledSize events' = calcFilledSize events := by
  induction h with
  | nil => rfl
  | cons hevent _ ih =>
    obtain ⟨balance, rfl⟩ := hevent
    simp only [calcFilledSize, List.map_cons, List.sum_cons] at ih ⊢
    rw [ih]

theorem marketTape_rebalanced {events events' : List MatcherTradeEvent}
    (h : List.Forall₂ Rebalanced events events') :
    marketTape m (events'.flatMap (publishFill cmd)) =
      marketTape m (events.flatMap (publishFill cmd)) := by
  induction h with
  | nil => rfl
  | cons hevent _ ih =>
    obtain ⟨balance, rfl⟩ := hevent
    rw [List.flatMap_cons, List.flatMap_cons, marketTape_append, marketTape_append, ih]
    rfl

theorem marketTape_byStatus_settled (settles : Settles cmd settled) :
    marketTape m (publishByStatus settled) = marketTape m (publishByStatus cmd) := by
  have hrebalanced := settles.events
  have hfields := settles.fields
  have hcalc := calcFilledSize_rebalanced hrebalanced
  have hempty : settled.events = [] ↔ cmd.events = [] := by
    rw [← List.length_eq_zero_iff, ← hrebalanced.length_eq, List.length_eq_zero_iff]
  have hstatus : settled.status = cmd.status := by rw [hfields]
  have hsizes : settled.size = cmd.size ∧ settled.originalSize = cmd.originalSize := by
    rw [hfields]
    exact ⟨rfl, rfl⟩
  have horder (size filledSize : Nat) :
      publishOrderEvent settled size filledSize = publishOrderEvent cmd size filledSize := by
    rw [hfields]
    rfl
  have hcancel : publishCancelOrderEvent settled = publishCancelOrderEvent cmd := by
    rw [hfields]
    rfl
  have horderbook : publishOrderbookEvent settled = publishOrderbookEvent cmd := by
    rw [hfields]
    rfl
  have hfills : marketTape m (publishFills settled) = marketTape m (publishFills cmd) := by
    have hsame : publishFill settled = publishFill cmd := by
      rw [hfields]
      rfl
    change marketTape m (settled.events.flatMap (publishFill settled)) = _
    rw [hsame]
    exact marketTape_rebalanced hrebalanced
  have hfilled : publishFilledOrder settled = publishFilledOrder cmd := by
    rw [publishFilledOrder, publishFilledOrder, horder, hcalc, hsizes.1]
  unfold publishByStatus publishCancelled
  rw [hstatus, hsizes.1, hsizes.2, settles.same.command]
  cases cmd.status with
  | rejected => rfl
  | processing => simp only [horderbook]
  | processed => simp only [marketTape_funds]
  | placed => simp only [marketTape_append, marketTape_balances, horder, horderbook]
  | partiallyFilled | filled =>
    simp only [marketTape_append, marketTape_balances, hfills, hfilled, horderbook]
  | cancelled =>
    simp only [marketTape_append, marketTape_balances, hcancel, horderbook, ne_eq, hempty, horder,
      apply_ite (marketTape m), hfills, hfilled]

theorem marketTape_settled (settles : Settles cmd settled) :
    marketTape m (publishEvents settled) =
      marketTape m (publishEvents cmd) := by
  have hsame := settles.same
  by_cases hfunds : IsFunds cmd
  · have hfunds' : IsFunds settled := by
      rw [IsFunds, hsame.command]
      exact hfunds
    rw [marketTape_of_funds hfunds, marketTape_of_funds hfunds']
  · have hbyStatus := @marketTape_byStatus_settled m _ _ settles
    rcases order_of_not_funds hfunds with hcommand | hcommand <;>
      simp only [publishEvents, hsame.command, hcommand, hbyStatus]

end Tape

section Matching

variable {router : MatchingEngineRouter} {cache : PriceCache} {book : OrderBook} {m : Nat}
  {cmd : OrderCommand}

theorem placeOrder_uncached (book : OrderBook) (cmd : OrderCommand) (cache : PriceCache) :
    (book.placeOrder cmd cache).book = (book.placeOrder cmd ⟨∅⟩).book ∧
      (book.placeOrder cmd cache).cmd = (book.placeOrder cmd ⟨∅⟩).cmd := by
  unfold placeOrder
  split <;> exact ⟨rfl, rfl⟩

theorem cancelOrder_uncached (book : OrderBook) (cmd : OrderCommand) (cache : PriceCache) :
    (book.cancelOrder cmd cache).book = (book.cancelOrder cmd ⟨∅⟩).book ∧
      (book.cancelOrder cmd cache).cmd = (book.cancelOrder cmd ⟨∅⟩).cmd := by
  unfold cancelOrder
  split <;> exact ⟨rfl, rfl⟩

theorem answer_of_rejected (hrejected : cmd.status = .rejected) (book : OrderBook) :
    book.answer cmd = (book, cmd) := by
  unfold OrderBook.answer
  split <;> simp [placeOrder, cancelOrder, hrejected]

theorem matchingHandler_own (hcmd : cmd.InMarket m)
    (hhome : router.marketForThisHandler m = true)
    (hbook : router.orderBooks.lookup m = some book) :
    (matchingHandler router cmd cache).1.lookup m = some (book.answer cmd).1 ∧
      (matchingHandler router cmd cache).2.1 = (book.answer cmd).2 := by
  obtain ⟨rfl, hcommand⟩ := hcmd
  by_cases hrejected : cmd.status = .rejected
  · rw [matchingHandler, if_pos (.inr (.inr hrejected)), answer_of_rejected hrejected]
    exact ⟨hbook, rfl⟩
  · have hprocessed : ¬(cmd.command = .depositFunds ∨ cmd.command = .withdrawFunds ∨
        cmd.status = .rejected) := by
      rcases hcommand with h | h <;> simp [h, hrejected]
    rw [matchingHandler, if_neg hprocessed, MatchingEngineRouter.processOrder, if_pos hhome, hbook]
    rcases hcommand with h | h
    · obtain ⟨hsameBook, hsameCmd⟩ := placeOrder_uncached book cmd cache
      simp only [OrderBook.answer, h, Finmap.lookup_insert, hsameBook, hsameCmd, and_self]
    · obtain ⟨hsameBook, hsameCmd⟩ := cancelOrder_uncached book cmd cache
      simp only [OrderBook.answer, h, Finmap.lookup_insert, hsameBook, hsameCmd, and_self]

theorem matchingHandler_other (hcmd : ¬cmd.InMarket m) :
    (matchingHandler router cmd cache).1.lookup m = router.orderBooks.lookup m := by
  rcases matchingHandler_cases router cmd cache with ⟨hbooks, _⟩ |
    ⟨book, _, _, ⟨hcommand, hmatched⟩ | ⟨hcommand, hmatched⟩⟩
  · rw [hbooks]
  · have hne : m ≠ cmd.marketId := fun h => hcmd ⟨h.symm, .inl hcommand⟩
    rw [hmatched, Finmap.lookup_insert_of_ne _ hne]
  · have hne : m ≠ cmd.marketId := fun h => hcmd ⟨h.symm, .inr hcommand⟩
    rw [hmatched, Finmap.lookup_insert_of_ne _ hne]

theorem marketTape_other (hcmd : ¬cmd.InMarket m) :
    marketTape m (publishEvents cmd) = [] := by
  by_cases hfunds : IsFunds cmd
  · exact marketTape_of_funds hfunds
  · exact marketTape_of_ne fun hm => hcmd ⟨hm, order_of_not_funds hfunds⟩

end Matching

namespace Stand

variable {m : Nat} {cmds : List OrderCommand} {cmd : OrderCommand}

theorem after_append_own (hcmd : cmd.InMarket m) :
    after m (cmds ++ [cmd]) = (after m cmds).take m cmd := by
  have hkept : [cmd].filter (fun cmd => cmd.InMarket m) = [cmd] := by simp [hcmd]
  rw [after, List.filter_append, hkept, List.foldl_append]
  rfl

theorem after_append_other (hcmd : ¬cmd.InMarket m) : after m (cmds ++ [cmd]) = after m cmds := by
  have hdropped : [cmd].filter (fun cmd => cmd.InMarket m) = [] := by simp [hcmd]
  rw [after, List.filter_append, hdropped, List.append_nil]
  rfl

end Stand

namespace Floor

variable {floor : Floor} {cmd settled : OrderCommand} {m : Nat}

theorem step_lookup (hhome : floor.router.marketForThisHandler m = true) :
    (floor.step cmd settled).router.orderBooks.lookup m =
      (floor.router.orderBooks.lookup m).map fun book =>
        if cmd.InMarket m then (book.answer cmd).1 else book := by
  change (matchingHandler floor.router cmd floor.cache).1.lookup m = _
  by_cases hcmd : cmd.InMarket m
  · cases hbook : floor.router.orderBooks.lookup m with
    | some book => simp [(matchingHandler_own hcmd hhome hbook).1, hcmd]
    | none =>
      obtain ⟨rfl, _⟩ := hcmd
      rcases matchingHandler_cases floor.router cmd floor.cache with ⟨hbooks, _⟩ | ⟨book, hfound, _⟩
      · rw [hbooks, hbook]
        rfl
      · rw [hbook] at hfound
        cases hfound
  · rw [matchingHandler_other hcmd]
    simp [hcmd]

/-- A market that is served together with others is a market on its own. -/
theorem Run.stand {floor : Floor} (run : Run floor)
    (hhome : floor.router.marketForThisHandler m = true) {book : OrderBook}
    (hbook : floor.router.orderBooks.lookup m = some book) :
    Stand.after m floor.arrived = ⟨book, marketTape m floor.log⟩ := by
  induction run generalizing book with
  | start router cache opened =>
    rw [opened m book hbook]
    rfl
  | @command floor cmd settled run arrives settles ih =>
    have hserved : floor.router.marketForThisHandler m = true := hhome
    rw [step_lookup hserved] at hbook
    obtain ⟨before, hbefore, hafter⟩ := Option.map_eq_some_iff.mp hbook
    have hstand := ih hserved hbefore
    rw [step_log, marketTape_append, marketTape_settled settles]
    change Stand.after m (floor.arrived ++ [cmd]) = _
    by_cases hcmd : cmd.InMarket m
    · obtain ⟨_, hdecided⟩ := @matchingHandler_own _ floor.cache _ _ _ hcmd hserved hbefore
      rw [if_pos hcmd] at hafter
      rw [Stand.after_append_own hcmd, hstand, hdecided, ← hafter]
      rfl
    · rw [if_neg hcmd] at hafter
      have hdecided : ¬(matchingHandler floor.router cmd floor.cache).2.1.InMarket m := by
        have hsame := matchingHandler_same floor.router cmd floor.cache
        rw [OrderCommand.InMarket, hsame.marketId, hsame.command]
        exact hcmd
      rw [Stand.after_append_other hcmd, hstand, marketTape_other hdecided, List.append_nil, hafter]

end Floor

namespace Engine

variable {config : Config} {s : State}

theorem floorAt_book {arrived settled : Nat → OrderCommand} {m : Nat} {book : OrderBook} (n : Nat)
    (hbook : (floorAt config arrived settled n).router.orderBooks.lookup m = some book) :
    book = (Stand.after m ((List.range n).map arrived)).book := by
  induction n generalizing book with
  | zero => exact openFloor_opened hbook
  | succ n ih =>
    rw [floorAt, Floor.step_lookup (floorAt_home m)] at hbook
    obtain ⟨before, hbefore, hafter⟩ := Option.map_eq_some_iff.mp hbook
    have hstand := ih hbefore
    rw [List.range_succ, List.map_append, List.map_singleton, ← hafter]
    by_cases hcmd : (arrived n).InMarket m
    · rw [if_pos hcmd, Stand.after_append_own hcmd, hstand]
      rfl
    · rw [if_neg hcmd, Stand.after_append_other hcmd, hstand]

theorem floorAt_isSome {arrived settled : Nat → OrderCommand} {m : Nat} (n : Nat) :
    ((floorAt config arrived settled n).router.orderBooks.lookup m).isSome =
      (config.openFloor.router.orderBooks.lookup m).isSome := by
  induction n with
  | zero => rfl
  | succ n ih => rw [floorAt, Floor.step_lookup (floorAt_home m), Option.isSome_map, ih]

/-- In every live run there are admitted commands from which each market's book, and all that is
emitted about the market, follows by the market's own orders and cancellations alone. -/
theorem markets_are_independent {guard : Handler → State → Prop}
    (run : Reaches config guard false s) (increase : ∀ h s, guard h s → IdsIncrease h s)
    (sized : Sized s) :
    ∃ arrived : Nat → OrderCommand,
      (∀ n < s.published, Admits (s.slots n).ingested (arrived n)) ∧
      ∀ m book, (s.shared.orderBooks (marketShard m)).lookup m = some book →
        book = (Stand.after m ((List.range (s.seq (.matching (marketShard m)))).map arrived)).book ∧
        marketTape m (s.shared.emitted.map Prod.snd) =
          (Stand.after m ((List.range (s.seq .events)).map arrived)).tape := by
  obtain ⟨arrived, h⟩ := run.floors increase sized
  refine ⟨arrived, h.admitted, fun m book hbook => ?_⟩
  rw [h.books] at hbook
  refine ⟨floorAt_book _ hbook, ?_⟩
  have hopen := congrArg Option.isSome hbook
  rw [floorAt_isSome, ← floorAt_isSome (s.seq .events)] at hopen
  obtain ⟨published, hpublished⟩ := Option.isSome_iff_exists.mp hopen
  have hstand := (h.run _ h.passed).stand (floorAt_home m) hpublished
  rw [floorAt_arrived] at hstand
  rw [h.log, hstand]

theorem markets_are_independent_session :
    ∃ arrived : Nat → OrderCommand,
      (∀ n < session.published, Admits (session.slots n).ingested (arrived n)) ∧
      ∀ m book, (session.shared.orderBooks (marketShard m)).lookup m = some book →
        book = (Stand.after m
          ((List.range (session.seq (.matching (marketShard m)))).map arrived)).book ∧
        marketTape m (session.shared.emitted.map Prod.snd) =
          (Stand.after m ((List.range (session.seq .events)).map arrived)).tape :=
  markets_are_independent session_reaches (fun _ _ h => h) session_sized

end Engine

end VexCore
