import VexCore.Framework.SoleActor
import VexCore.Processors.Reservation
import VexCore.Server.Books

/-!
# Rejected commands

One command taken alone through R1, matching and R2. If it ends rejected, books, balances and
cache are as before, except after a cancellation that the id index sends to the wrong level.
-/

namespace VexCore

open Framework

namespace OrderBook

theorem executionPrice_status (cmd : OrderCommand) : (executionPrice cmd).status = cmd.status := by
  unfold executionPrice
  split
  · split <;> rfl
  · rfl

theorem placeOrder_status {cmd : OrderCommand} (h : cmd.status ≠ .rejected) (book : OrderBook)
    (cache : PriceCache) : (book.placeOrder cmd cache).cmd.status ≠ .rejected := by
  have hplaced : (book.placeByTimeInForce cmd).2.status ≠ .rejected := by
    unfold placeByTimeInForce
    cases cmd.timeInForce with
    | gtc =>
      simp only
      split
      · exact Status.noConfusion
      · split <;> exact Status.noConfusion
    | fok =>
      simp only
      split
      · exact Status.noConfusion
      · simp only
        split <;> exact Status.noConfusion
    | ioc =>
      simp only
      split
      · exact Status.noConfusion
      · split <;> exact Status.noConfusion
  rw [placeOrder, if_neg h]
  change (executionPrice (book.placeByTimeInForce cmd).2).status ≠ .rejected
  rw [executionPrice_status]
  exact hplaced

theorem cancelOrder_cases {book : OrderBook} (h : book.Shape) {cmd : OrderCommand}
    (hstatus : cmd.status ≠ .rejected) (cache : PriceCache) :
    ((book.cancelOrder cmd cache).cmd.status = .rejected ∧ ¬book.Misdirected cmd.orderId ∧
      (book.cancelOrder cmd cache).book = book) ∨
    ((book.cancelOrder cmd cache).cmd.status = .rejected ∧ book.Misdirected cmd.orderId ∧
      (book.cancelOrder cmd cache).book =
        { book with orders := book.orders.erase cmd.orderId }) ∨
    ((book.cancelOrder cmd cache).cmd.status ≠ .rejected ∧ ¬book.Misdirected cmd.orderId) := by
  rw [cancelOrder, if_neg hstatus]
  by_cases hmis : book.Misdirected cmd.orderId
  · rw [cancelByIndex_misdirected h hmis]
    exact .inr (.inl ⟨rfl, hmis, rfl⟩)
  · rcases cancelByIndex_cases h cmd with ⟨_, heq⟩ | ⟨hmis', _⟩ | ⟨s, level, order, _, _, _, _, heq⟩
    · rw [heq]
      exact .inl ⟨rfl, hmis, rfl⟩
    · exact absurd hmis' hmis
    · rw [heq]
      exact .inr (.inr ⟨Status.noConfusion, hmis⟩)

end OrderBook

namespace Core

/-- Every lookup in the books, the balances and the price cache answers as before. -/
structure Unchanged (core core' : Core) : Prop where
  books : ∀ shard m, (core'.orderBooks shard).lookup m = (core.orderBooks shard).lookup m
  balances : ∀ shard, (core.balances shard).Same (core'.balances shard)
  cache : ∀ m, core'.priceCache.prices.lookup m = core.priceCache.prices.lookup m

theorem Unchanged.refl (core : Core) : core.Unchanged core :=
  ⟨fun _ _ => rfl, fun _ => .refl _, fun _ => rfl⟩

/-- Replacing a shard's store by one that answers alike. -/
theorem Unchanged.setBalances {core : Core} {shard : Fin numRiskEngines} {store : BalanceStore}
    (h : (core.balances shard).Same store) : core.Unchanged (core.setBalances shard store) := by
  refine ⟨fun _ _ => rfl, ?_, fun _ => rfl⟩
  intro other
  by_cases hother : other = shard
  · subst hother
    rw [setBalances_self]
    exact h
  · rw [setBalances_ne core hother]
    exact .refl _

end Core

namespace Engine

variable (config : Config)

/-- Handlers visiting one slot, one after the other. -/
def visitAll (n : Nat) (handlers : List Handler) (core : Core) (cmd : OrderCommand) :
    Core × OrderCommand :=
  handlers.foldl (fun out h => process config h n out.1 out.2) (core, cmd)

def riskHandlers : List Handler := (List.finRange numRiskEngines).map .risk
def matchingHandlers : List Handler := (List.finRange numMatchingEngines).map .matching
def settlementHandlers : List Handler := (List.finRange numRiskEngines).map .settlement

/-- A command alone in the pipeline, after R1. -/
def afterRisk (n : Nat) (core : Core) (cmd : OrderCommand) : Core × OrderCommand :=
  visitAll config n riskHandlers core cmd

/-- A command alone in the pipeline, after R1, matching and R2. -/
def processAlone (n : Nat) (core : Core) (cmd : OrderCommand) : Core × OrderCommand :=
  visitAll config n (riskHandlers ++ matchingHandlers ++ settlementHandlers) core cmd

/-- The law: a rejected command changes nothing, and a placement that R1 has locked funds for
is not rejected. -/
structure RejectedNoop (n : Nat) (core : Core) (cmd : OrderCommand) : Prop where
  unchanged : (processAlone config n core cmd).2.status = .rejected →
    core.Unchanged (processAlone config n core cmd).1
  reserved : cmd.command = .placeOrder → (afterRisk config n core cmd).2.status ≠ .rejected →
    (processAlone config n core cmd).2.status ≠ .rejected

/-- A cancellation that the book of its market would send to the wrong level. -/
def MisdirectedCancel (core : Core) (cmd : OrderCommand) : Prop :=
  cmd.command = .cancelOrder ∧ ∃ shard book,
    (core.orderBooks shard).lookup cmd.marketId = some book ∧ book.Misdirected cmd.orderId

variable {config}

def userShard (userId : Nat) : Fin numRiskEngines :=
  ⟨userId &&& (numRiskEngines - 1), Nat.lt_of_le_of_lt Nat.and_le_right (by decide)⟩

def marketShard (marketId : Nat) : Fin numMatchingEngines :=
  ⟨marketId &&& (numMatchingEngines - 1), Nat.lt_of_le_of_lt Nat.and_le_right (by decide)⟩

theorem ownsUser_iff {shard : Fin numRiskEngines} {userId : Nat} :
    ownsUser shard userId = true ↔ shard = userShard userId := by
  rw [ownsUser, beq_iff_eq]
  constructor
  · intro h
    exact Fin.ext h.symm
  · rintro rfl
    rfl

theorem homeShard_iff {shard : Fin numMatchingEngines} {marketId : Nat} :
    homeShard marketId shard ↔ shard = marketShard marketId := by
  constructor
  · intro h
    exact Fin.ext (Eq.symm h)
  · rintro rfl
    rfl

theorem riskHandler_userId (shard : Fin numRiskEngines) (n : Nat) (core : Core)
    (cmd : OrderCommand) : (riskHandler config shard n core cmd).2.userId = cmd.userId :=
  (core.riskEngine config shard).preProcessCommand_userId cmd _

theorem routerHandler_skip {shard : Fin numMatchingEngines} {cmd : OrderCommand}
    (h : cmd.status = .rejected ∨ shard ≠ marketShard cmd.marketId) (core : Core) :
    routerHandler shard core cmd = (core, cmd) := by
  have hrouted : matchingHandler (core.router shard) cmd core.priceCache =
      (core.orderBooks shard, cmd, core.priceCache) := by
    unfold matchingHandler
    split
    · rfl
    · rename_i hpass
      rcases h with h | h
      · exact absurd (.inr (.inr h)) hpass
      · have haway : (core.router shard).marketForThisHandler cmd.marketId = false := by
          have hne : ¬(cmd.marketId &&& 3 = shard.val) := by
            intro heq
            exact h (Fin.ext heq.symm)
          simp [MatchingEngineRouter.marketForThisHandler, Core.router, hne]
        rw [MatchingEngineRouter.processOrder, haway]
        rfl
  unfold routerHandler
  rw [hrouted]
  have hself : Function.update core.orderBooks shard (core.orderBooks shard) = core.orderBooks :=
    Function.update_eq_self shard core.orderBooks
  simp only [hself]

theorem afterRisk_eq (n : Nat) (core : Core) (cmd : OrderCommand) :
    afterRisk config n core cmd = riskHandler config (userShard cmd.userId) n core cmd := by
  unfold afterRisk visitAll riskHandlers
  rw [List.foldl_map]
  apply foldl_of_soleActor (List.nodup_finRange _) (List.mem_finRange _)
  · intro shard hne
    exact riskHandler_skip (Bool.eq_false_iff.mpr fun h => hne (ownsUser_iff.mp h)) n core
  · intro shard hne
    apply riskHandler_skip
    rw [process, riskHandler_userId]
    exact Bool.eq_false_iff.mpr fun h => hne (ownsUser_iff.mp h)

theorem matching_eq (n : Nat) (core : Core) (cmd : OrderCommand) :
    visitAll config n matchingHandlers core cmd =
      routerHandler (marketShard cmd.marketId) core cmd := by
  unfold visitAll matchingHandlers
  rw [List.foldl_map]
  apply foldl_of_soleActor (List.nodup_finRange _) (List.mem_finRange _)
  · intro shard hne
    exact routerHandler_skip (.inr hne) core
  · intro shard hne
    apply routerHandler_skip
    have hsame := @process_same config (.matching (marketShard cmd.marketId))
      Handler.noConfusion n core cmd
    rw [hsame.marketId]
    exact .inr hne

theorem riskR2Handler_status (engine : RiskEngine) (cmd : OrderCommand) :
    (riskR2Handler engine cmd).2.1.status = cmd.status := by
  unfold riskR2Handler
  split
  · rfl
  · simp only
    split <;> rfl

theorem settlementHandler_skip {shard : Fin numRiskEngines} {cmd : OrderCommand}
    (h : cmd.status = .rejected) (core : Core) :
    settlementHandler config shard core cmd = (core, cmd) := by
  unfold settlementHandler riskR2Handler
  rw [if_pos (.inl h)]
  have hself : Function.update core.balances shard (core.riskEngine config shard).balances =
      core.balances := Function.update_eq_self shard core.balances
  simp only [hself, List.append_nil]

theorem settlement_status (n : Nat) (core : Core) (cmd : OrderCommand) :
    (visitAll config n settlementHandlers core cmd).2.status = cmd.status := by
  unfold visitAll settlementHandlers
  rw [List.foldl_map]
  generalize List.finRange numRiskEngines = shards
  induction shards generalizing core cmd with
  | nil => rfl
  | cons shard rest ih =>
    rw [List.foldl_cons, ih]
    exact riskR2Handler_status _ _

theorem settlement_rejected {cmd : OrderCommand} (h : cmd.status = .rejected) (n : Nat)
    (core : Core) : visitAll config n settlementHandlers core cmd = (core, cmd) := by
  unfold visitAll settlementHandlers
  rw [List.foldl_map]
  exact foldl_of_skips fun shard _ => settlementHandler_skip h core

theorem processAlone_eq (n : Nat) (core : Core) (cmd : OrderCommand) :
    processAlone config n core cmd =
      visitAll config n settlementHandlers
        (routerHandler (marketShard cmd.marketId) (afterRisk config n core cmd).1
          (afterRisk config n core cmd).2).1
        (routerHandler (marketShard cmd.marketId) (afterRisk config n core cmd).1
          (afterRisk config n core cmd).2).2 := by
  have hmarket : (afterRisk config n core cmd).2.marketId = cmd.marketId := by
    rw [afterRisk_eq]
    exact (@process_same config (.risk (userShard cmd.userId)) Handler.noConfusion n core cmd).marketId
  have hmatching := @matching_eq config n (afterRisk config n core cmd).1
    (afterRisk config n core cmd).2
  rw [hmarket] at hmatching
  rw [← hmatching]
  unfold processAlone afterRisk visitAll
  rw [List.foldl_append, List.foldl_append]

theorem rejectedNoop_iff (n : Nat) (core : Core) (cmd : OrderCommand)
    {matched : Core × OrderCommand}
    (hmatched : routerHandler (marketShard cmd.marketId) (afterRisk config n core cmd).1
      (afterRisk config n core cmd).2 = matched) :
    RejectedNoop config n core cmd ↔
      (matched.2.status = .rejected → core.Unchanged matched.1) ∧
        (cmd.command = .placeOrder → (afterRisk config n core cmd).2.status ≠ .rejected →
          matched.2.status ≠ .rejected) := by
  have hstatus : (processAlone config n core cmd).2.status = matched.2.status := by
    rw [processAlone_eq, hmatched, settlement_status]
  constructor
  · intro h
    refine ⟨?_, ?_⟩
    · intro hrejected
      have hunchanged := h.unchanged (hstatus.trans hrejected)
      rw [processAlone_eq, hmatched, settlement_rejected hrejected] at hunchanged
      exact hunchanged
    · intro hplace hpassed
      rw [← hstatus]
      exact h.reserved hplace hpassed
  · rintro ⟨hunchanged, hreserved⟩
    refine ⟨?_, ?_⟩
    · intro hrejected
      rw [hstatus] at hrejected
      rw [processAlone_eq, hmatched, settlement_rejected hrejected]
      exact hunchanged hrejected
    · intro hplace hpassed
      rw [hstatus]
      exact hreserved hplace hpassed

theorem marketForThisHandler_marketShard (core : Core) (marketId : Nat) :
    (core.router (marketShard marketId)).marketForThisHandler marketId = true := by
  simp [MatchingEngineRouter.marketForThisHandler, Core.router, marketShard]

theorem routerHandler_funds {shard : Fin numMatchingEngines} {cmd : OrderCommand}
    (h : cmd.command = .depositFunds ∨ cmd.command = .withdrawFunds) (core : Core) :
    (routerHandler shard core cmd).2 = cmd := by
  have hskip : cmd.command = .depositFunds ∨ cmd.command = .withdrawFunds ∨
      cmd.status = .rejected := h.imp_right .inl
  show (matchingHandler _ cmd _).2.1 = cmd
  rw [matchingHandler, if_pos hskip]

theorem matchingHandler_pass {cmd : OrderCommand} (hstatus : cmd.status ≠ .rejected)
    (hcommand : cmd.command = .placeOrder ∨ cmd.command = .cancelOrder)
    (router : MatchingEngineRouter) (cache : PriceCache) :
    matchingHandler router cmd cache = router.processOrder cmd cache := by
  rw [matchingHandler, if_neg]
  rintro (h | h | h)
  · rcases hcommand with hc | hc <;> rw [hc] at h <;> cases h
  · rcases hcommand with hc | hc <;> rw [hc] at h <;> cases h
  · exact hstatus h

/-- The state with one book replaced and the cache that goes with it. -/
def Core.withBook (core : Core) (shard : Fin numMatchingEngines) (marketId : Nat)
    (book : OrderBook) (cache : PriceCache) : Core :=
  { core with
    orderBooks := Function.update core.orderBooks shard ((core.orderBooks shard).insert marketId book)
    priceCache := cache }

theorem routerHandler_place {core : Core} {cmd : OrderCommand} {book : OrderBook}
    (hbook : (core.orderBooks (marketShard cmd.marketId)).lookup cmd.marketId = some book)
    (hstatus : cmd.status ≠ .rejected) (hcommand : cmd.command = .placeOrder) :
    routerHandler (marketShard cmd.marketId) core cmd =
      (Core.withBook core (marketShard cmd.marketId) cmd.marketId
        (book.placeOrder cmd core.priceCache).book (book.placeOrder cmd core.priceCache).cache,
        (book.placeOrder cmd core.priceCache).cmd) := by
  have hlookup : (core.router (marketShard cmd.marketId)).orderBooks.lookup cmd.marketId =
      some book := hbook
  unfold routerHandler
  rw [matchingHandler_pass hstatus (.inl hcommand), MatchingEngineRouter.processOrder,
    marketForThisHandler_marketShard, hlookup, hcommand]
  rfl

theorem routerHandler_cancel {core : Core} {cmd : OrderCommand} {book : OrderBook}
    (hbook : (core.orderBooks (marketShard cmd.marketId)).lookup cmd.marketId = some book)
    (hstatus : cmd.status ≠ .rejected) (hcommand : cmd.command = .cancelOrder) :
    routerHandler (marketShard cmd.marketId) core cmd =
      (Core.withBook core (marketShard cmd.marketId) cmd.marketId
        (book.cancelOrder cmd core.priceCache).book (book.cancelOrder cmd core.priceCache).cache,
        (book.cancelOrder cmd core.priceCache).cmd) := by
  have hlookup : (core.router (marketShard cmd.marketId)).orderBooks.lookup cmd.marketId =
      some book := hbook
  unfold routerHandler
  rw [matchingHandler_pass hstatus (.inr hcommand), MatchingEngineRouter.processOrder,
    marketForThisHandler_marketShard, hlookup, hcommand]
  rfl

theorem routerHandler_unknown {core : Core} {cmd : OrderCommand}
    (hbook : (core.orderBooks (marketShard cmd.marketId)).lookup cmd.marketId = none)
    (hstatus : cmd.status ≠ .rejected)
    (hcommand : cmd.command = .placeOrder ∨ cmd.command = .cancelOrder) :
    routerHandler (marketShard cmd.marketId) core cmd = (core, { cmd with status := .rejected }) := by
  have hlookup : (core.router (marketShard cmd.marketId)).orderBooks.lookup cmd.marketId =
      none := hbook
  have hself : Function.update core.orderBooks (marketShard cmd.marketId)
      (core.router (marketShard cmd.marketId)).orderBooks = core.orderBooks :=
    Function.update_eq_self _ core.orderBooks
  unfold routerHandler
  rw [matchingHandler_pass hstatus hcommand, MatchingEngineRouter.processOrder,
    marketForThisHandler_marketShard, hlookup]
  simp only [if_true, hself]

/-- A book put back as it was, with its cache entry refreshed. -/
theorem Core.Unchanged.withBook {core : Core} {shard : Fin numMatchingEngines} {marketId : Nat}
    {book : OrderBook} (hbook : (core.orderBooks shard).lookup marketId = some book)
    (hcached : book.Cached core.priceCache) :
    core.Unchanged (Core.withBook core shard marketId book
      (book.updatePriceCache core.priceCache)) := by
  refine ⟨?_, fun _ => .refl _, OrderBook.updatePriceCache_of_cached hcached⟩
  intro other m
  show (Function.update core.orderBooks shard _ other).lookup m = _
  by_cases hother : other = shard
  · subst hother
    rw [Function.update_self]
    by_cases hm : m = marketId
    · subst hm
      rw [Finmap.lookup_insert, hbook]
    · rw [Finmap.lookup_insert_of_ne _ hm]
  · rw [Function.update_of_ne hother]

theorem lookup_withBook (core : Core) (shard : Fin numMatchingEngines) (marketId : Nat)
    (book : OrderBook) (cache : PriceCache) :
    ((Core.withBook core shard marketId book cache).orderBooks shard).lookup marketId =
      some book := by
  show (Function.update core.orderBooks shard _ shard).lookup marketId = _
  rw [Function.update_self, Finmap.lookup_insert]

theorem misdirectedCancel_iff {s : State} (h : BooksInvariant config s) {cmd : OrderCommand}
    (hcommand : cmd.command = .cancelOrder) :
    MisdirectedCancel s.shared cmd ↔ ∃ book,
      (s.shared.orderBooks (marketShard cmd.marketId)).lookup cmd.marketId = some book ∧
        book.Misdirected cmd.orderId := by
  constructor
  · rintro ⟨_, shard, book, hbook, hmis⟩
    have hshard := homeShard_iff.mp (h.home shard _ book hbook).1
    subst hshard
    exact ⟨book, hbook, hmis⟩
  · rintro ⟨book, hbook, hmis⟩
    exact ⟨hcommand, _, book, hbook, hmis⟩

theorem cancel_noop_iff {s : State} (h : BooksInvariant config s) {cmd : OrderCommand}
    (hstatus : cmd.status ≠ .rejected) (hcommand : cmd.command = .cancelOrder) :
    ((routerHandler (marketShard cmd.marketId) s.shared cmd).2.status = .rejected →
      s.shared.Unchanged (routerHandler (marketShard cmd.marketId) s.shared cmd).1) ↔
      ¬MisdirectedCancel s.shared cmd := by
  rw [misdirectedCancel_iff h hcommand]
  cases hbook : (s.shared.orderBooks (marketShard cmd.marketId)).lookup cmd.marketId with
  | none =>
    rw [routerHandler_unknown hbook hstatus (.inr hcommand)]
    simp [Core.Unchanged.refl]
  | some book =>
    have hcache := OrderBook.cancelOrder_cache hstatus book s.shared.priceCache
    rw [routerHandler_cancel hbook hstatus hcommand]
    simp only [Option.some.injEq, exists_eq_left']
    rcases OrderBook.cancelOrder_cases (h.shape _ _ book hbook) hstatus s.shared.priceCache with
      ⟨_, hmis, hsame⟩ | ⟨hrejected, hmis, herased⟩ | ⟨hpassed, hmis⟩
    · rw [hsame] at hcache
      rw [hsame, hcache]
      have hunchanged := Core.Unchanged.withBook hbook (h.cached _ _ book hbook)
      exact ⟨fun _ => hmis, fun _ _ => hunchanged⟩
    · refine ⟨?_, fun hno => absurd hmis hno⟩
      -- the entry that sent the cancellation astray is gone
      intro hunchanged
      have hsame := (hunchanged hrejected).books (marketShard cmd.marketId) cmd.marketId
      rw [lookup_withBook, hbook, herased] at hsame
      obtain ⟨price, level, hindex, _⟩ := hmis
      have hentry := congrArg (fun b => b.map fun b => b.orders.lookup cmd.orderId) hsame
      simp [hindex] at hentry
    · exact ⟨fun _ => hmis, fun _ hrejected => absurd hrejected hpassed⟩

theorem funds_noop_iff {core : Core} {cmd : OrderCommand}
    (hcommand : cmd.command = .depositFunds ∨ cmd.command = .withdrawFunds)
    {checked : Core × OrderCommand} {store : BalanceStore}
    (hchecked : checked.2 = RiskEngine.fundsProcessed store cmd) :
    ((routerHandler (marketShard cmd.marketId) checked.1 checked.2).2.status = .rejected →
        core.Unchanged (routerHandler (marketShard cmd.marketId) checked.1 checked.2).1) ∧
      (cmd.command = .placeOrder → checked.2.status ≠ .rejected →
        (routerHandler (marketShard cmd.marketId) checked.1 checked.2).2.status ≠ .rejected) ↔
      ¬MisdirectedCancel core cmd := by
  have hpassed : (routerHandler (marketShard cmd.marketId) checked.1 checked.2).2.status ≠
      .rejected := by
    rw [hchecked, @routerHandler_funds _ (RiskEngine.fundsProcessed store cmd) hcommand]
    exact Status.noConfusion
  refine ⟨fun _ hmis => ?_, fun _ => ⟨fun hrejected => absurd hrejected hpassed, fun _ _ => hpassed⟩⟩
  rcases hcommand with h | h <;> rw [hmis.1] at h <;> cases h

/-- In every reachable state and for every command: the law holds exactly when the command is
not a misdirected cancellation. -/
theorem rejected_noop_iff {guard : Handler → State → Prop} {replayEnabled : Bool} {s : State}
    (run : Reaches config guard replayEnabled s)
    (increase : ∀ h s, guard h s → IdsIncrease h s) (n : Nat) (cmd : OrderCommand)
    (hstatus : cmd.status = .processing) :
    RejectedNoop config n s.shared cmd ↔ ¬MisdirectedCancel s.shared cmd := by
  have hbooks := run.books increase
  have hlive : cmd.status ≠ .rejected := by
    rw [hstatus]
    exact Status.noConfusion
  rw [rejectedNoop_iff n s.shared cmd rfl, afterRisk_eq]
  have howns : ((s.shared.riskEngine config (userShard cmd.userId)).userIdForThisHandler
      cmd.userId) = true := ownsUser_iff.mpr rfl
  have hreserve := @riskHandler_eq config (userShard cmd.userId) n s.shared cmd
  rcases (s.shared.riskEngine config (userShard cmd.userId)).preProcessCommand_cases cmd
      (config.view n s.shared.priceCache) howns with h | h | ⟨hcommand, _, h⟩ |
        ⟨hcommand, _, h⟩ | ⟨hcommand, h⟩
  · -- turned down by R1, so matching skips it
    obtain ⟨price, hcmd⟩ := h.cmd
    have hrejected : (riskHandler config (userShard cmd.userId) n s.shared cmd).2.status =
        .rejected := by rw [hreserve, hcmd]
    rw [routerHandler_skip (.inl hrejected), hreserve]
    refine ⟨fun _ hmis => h.command hmis.1, fun _ => ⟨fun _ => ?_, fun _ hpassed => ?_⟩⟩
    · exact Core.Unchanged.setBalances h.balances
    · rw [hcmd] at hpassed
      exact absurd rfl hpassed
  · -- reserved, so the market exists and has a book
    obtain ⟨spec, price, amount, balance, hspec, _, _, _, _, hout⟩ := h.locked
    obtain ⟨book, hbook⟩ := hbooks.opened _ spec hspec _ (homeShard_iff.mpr rfl)
    rw [hout] at hreserve
    rw [hreserve]
    have hplaced (store : BalanceStore) := @routerHandler_place
      (s.shared.setBalances (userShard cmd.userId) store) { cmd with price } _ hbook hlive
      h.command
    have hpassed := @OrderBook.placeOrder_status { cmd with price } hlive book
      s.shared.priceCache
    rw [hplaced]
    refine ⟨fun _ hmis => ?_, fun _ => ⟨fun hrejected => ?_, fun _ _ => hpassed⟩⟩
    · have hplace := h.command
      rw [hmis.1] at hplace
      cases hplace
    · exact absurd hrejected hpassed
  · exact funds_noop_iff (.inl hcommand) h.cmd
  · exact funds_noop_iff (.inr hcommand) h.cmd
  · rw [h] at hreserve
    have hself : s.shared.setBalances (userShard cmd.userId)
        (s.shared.riskEngine config (userShard cmd.userId)).balances = s.shared :=
      s.shared.setBalances_balances _
    rw [hself] at hreserve
    rw [hreserve, ← cancel_noop_iff hbooks hlive hcommand]
    refine ⟨fun hlaw => hlaw.1, fun hlaw => ⟨hlaw, fun hplace => ?_⟩⟩
    rw [hcommand] at hplace
    cases hplace

/-- User 3 funds both sides of market 1, then bids and asks at the same price. -/
def selfCrossing : List OrderCommand :=
  [.funds .depositFunds 3 0 1000, .funds .depositFunds 3 1 5,
    .limit .bid .gtc 0 3 100 10, .limit .ask .gtc 0 3 100 5]

/-- The commands are published and taken through matching, one stage after the other. -/
def selfCrossSchedule : List (Pipeline.Action Handler Slot) :=
  selfCrossing.map (fun cmd => .publish (Slot.of cmd)) ++
    (Handler.journaling :: riskHandlers ++ matchingHandlers).flatMap fun h =>
      selfCrossing.map fun _ => .advance h

/-- The state in which a bid and an ask of user 3 rest at one price. -/
def selfCrossed : State :=
  (pipeline (plainConfig [1])).execute (start (plainConfig [1]) false) selfCrossSchedule

theorem selfCrossed_reaches : Reaches (plainConfig [1]) IdsIncrease false selfCrossed :=
  @Reaches.of_schedule _ selfCrossing _ _ _ (by decide) (by decide +kernel)

theorem rejected_noop_iff_selfCrossed :
    RejectedNoop (plainConfig [1]) 4 selfCrossed.shared (.cancelOf 4) ↔
      ¬MisdirectedCancel selfCrossed.shared (.cancelOf 4) :=
  rejected_noop_iff selfCrossed_reaches (fun _ _ h => h) 4 (.cancelOf 4) rfl

/-- Cancelling the ask is rejected and yet drops its index entry. -/
theorem selfCrossed_cancel_not_noop :
    ¬∀ s, Reaches (plainConfig [1]) IdsIncrease false s →
      ∀ n cmd, cmd.status = .processing → RejectedNoop (plainConfig [1]) n s.shared cmd := by
  intro hall
  have hlaw := hall selfCrossed selfCrossed_reaches 4 (.cancelOf 4) rfl
  have hbooks := (hlaw.unchanged (by decide +kernel)).books 1 1
  have hindex := congrArg (fun b => b.bind fun b => b.orders.lookup 4) hbooks
  revert hindex
  decide +kernel

end Engine

end VexCore
