import VexCore.Framework.Local
import VexCore.Server.Frames

/-!
# What a risk engine does for a user stays with the user

Each store operation, and with it reservation, settlement and release, is local to one user.
-/

namespace VexCore

open Framework

namespace BalanceStore

/-- What a user holds. -/
abbrev holdings (store : BalanceStore) (userId : Nat) : Nat → UserBalance :=
  store.getBalance userId

theorem local_of_balance {ρ : Type} {f : BalanceStore → BalanceStore × ρ} {userId : Nat}
    (assetId : Nat) (write : UserBalance → UserBalance) (result : UserBalance → ρ)
    (h : ∀ s, f s = (s.setBalance userId assetId (write (s.getBalance userId assetId)),
      result (s.getBalance userId assetId))) :
    Local holdings userId f where
  frame s u hu := by
    funext a
    rw [h s]
    show (s.setBalance userId assetId _).getBalance u a = s.getBalance u a
    rw [getBalance_setBalance, if_neg fun hk => hu hk.1]
  result s t hst := by
    have hbalance : s.getBalance userId assetId = t.getBalance userId assetId :=
      congrFun hst assetId
    rw [h s, h t, hbalance]
  update s t hst := by
    have hbalance : s.getBalance userId assetId = t.getBalance userId assetId :=
      congrFun hst assetId
    funext a
    rw [h s, h t, hbalance]
    show (s.setBalance userId assetId _).getBalance userId a =
      (t.setBalance userId assetId _).getBalance userId a
    rw [getBalance_setBalance, getBalance_setBalance]
    split
    · rfl
    · exact congrFun hst a

variable (userId assetId amount : Nat)

theorem lockFunds_local : Local holdings userId fun s => s.lockFunds userId assetId amount := by
  apply local_of_balance assetId
    (fun b => if b.available ≥ amount then
      { available := b.available - amount, locked := wrappingAdd 64 b.locked amount } else b)
    (fun b => if b.available ≥ amount then .ok () else
      .error (.insufficientAvailableFunds b.available amount))
  intro s
  unfold lockFunds
  by_cases h : (s.getBalance userId assetId).available ≥ amount
  · simp only [if_pos h]
  · simp only [if_neg h]

theorem unlockFunds_local : Local holdings userId fun s => s.unlockFunds userId assetId amount := by
  apply local_of_balance assetId
    (fun b => if b.locked ≥ amount then
      { available := wrappingAdd 64 b.available amount, locked := b.locked - amount } else b)
    (fun b => if b.locked ≥ amount then .ok () else
      .error (.insufficientLockedFunds b.locked amount))
  intro s
  unfold unlockFunds
  by_cases h : (s.getBalance userId assetId).locked ≥ amount
  · simp only [if_pos h]
  · simp only [if_neg h]

theorem addFunds_local : Local holdings userId fun s => s.addFunds userId assetId amount := by
  apply local_of_balance assetId
    (fun b => (checkedAdd 64 b.available amount).elim b fun available => { b with available })
    (fun b => (checkedAdd 64 b.available amount).elim (.error .overflow) fun available =>
      .ok { b with available })
  intro s
  unfold addFunds
  dsimp only
  cases checkedAdd 64 (s.getBalance userId assetId).available amount <;> rfl

theorem subtractFunds_local :
    Local holdings userId fun s => s.subtractFunds userId assetId amount := by
  apply local_of_balance assetId
    (fun b => if b.available ≥ amount then { b with available := b.available - amount } else b)
    (fun b => if b.available ≥ amount then .ok { b with available := b.available - amount } else
      .error (.insufficientAvailableFunds b.available amount))
  intro s
  unfold subtractFunds
  by_cases h : (s.getBalance userId assetId).available ≥ amount
  · simp only [if_pos h]
  · simp only [if_neg h]

theorem subtractLockedFunds_local :
    Local holdings userId fun s => s.subtractLockedFunds userId assetId amount := by
  apply local_of_balance assetId
    (fun b => if b.locked ≥ amount then { b with locked := b.locked - amount } else b)
    (fun b => if b.locked ≥ amount then .ok { b with locked := b.locked - amount } else
      .error (.insufficientLockedFunds b.locked amount))
  intro s
  unfold subtractLockedFunds
  by_cases h : (s.getBalance userId assetId).locked ≥ amount
  · simp only [if_pos h]
  · simp only [if_neg h]

theorem getBalance_local : Local holdings userId fun s => (s, s.getBalance userId assetId) where
  frame _ _ _ := rfl
  result _ _ h := congrFun h assetId
  update _ _ h := h

end BalanceStore

open BalanceStore

namespace RiskEngine

theorem refundImprovement_local (userId marketId : Nat) (refund : Option Nat) :
    Local holdings userId fun s => refundImprovement s userId marketId refund := by
  cases refund with
  | none => exact Local.pure holdings userId (Except.ok ())
  | some amount => exact unlockFunds_local userId (quoteAsset marketId) amount

theorem settleTrade_local (userId marketId : Nat) (userSide : Side) (event : MatcherTradeEvent)
    (spec : CoreMarketSpecification) (takerPrice : Option Nat) :
    Local holdings userId fun s =>
      settleTrade s userId marketId userSide event spec takerPrice := by
  let legs := tradeLegs spec marketId userSide event
  let isMaker := userId == event.makerUserId
  let fail (e : BalanceError) : MatcherTradeEvent × Except RiskEngineError Unit :=
    (event, .error (.balanceError e))
  let finish (balanceSub balanceAdd : UserBalance) :
      MatcherTradeEvent × Except RiskEngineError Unit :=
    (if isMaker then recordMakerBalance event marketId legs balanceSub balanceAdd else event,
      .ok ())
  have hadd := addFunds_local userId legs.assetToAdd
    (wrappingSub 64 legs.gross (feeOn legs.gross (feeRate spec isMaker)))
  have hsub := subtractLockedFunds_local userId legs.assetToSubtract legs.amountToSubtract
  have hrefund := refundImprovement_local userId marketId
    (priceImprovement spec isMaker userSide event takerPrice)
  have hsteps := hrefund.bindExcept fail fun _ => hsub.bindExcept fail fun balanceSub =>
    hadd.bindExcept fail fun balanceAdd => Local.pure holdings userId (finish balanceSub balanceAdd)
  refine hsteps.congr fun s => ?_
  simp only [settleTrade, legs, isMaker, fail, finish]
  generalize refundImprovement s userId marketId _ = refunded
  obtain ⟨s₁, _ | _⟩ := refunded
  · rfl
  · dsimp only
    generalize s₁.subtractLockedFunds userId _ _ = debited
    obtain ⟨s₂, _ | balanceSub⟩ := debited
    · rfl
    · dsimp only
      generalize s₂.addFunds userId _ _ = credited
      obtain ⟨s₃, _ | balanceAdd⟩ := credited <;> rfl

theorem handleTradeEvent_local (engine : RiskEngine) (userId marketId : Nat) (userSide : Side)
    (event : MatcherTradeEvent) (takerPrice : Option Nat) :
    Local holdings userId fun s =>
      engine.handleTradeEvent s userId marketId userSide event takerPrice := by
  unfold handleTradeEvent
  cases engine.symbolSpecs.lookup marketId with
  | none => exact Local.pure holdings userId (event, [])
  | some spec =>
    let legs := tradeLegs spec marketId userSide event
    let rate := feeRate spec (userId == event.makerUserId)
    refine ((settleTrade_local userId marketId userSide event spec takerPrice).map fun r =>
      match r with
      | (event, .ok _) => (event, [⟨userId, .ok (), legs.assetToAdd, feeOn legs.gross rate⟩])
      | (event, .error e) => (event, [⟨userId, .error e, legs.assetToAdd, 0⟩])).congr fun s => ?_
    dsimp only
    generalize settleTrade s userId marketId userSide event spec takerPrice = settled
    obtain ⟨s', event', _ | _⟩ := settled <;> rfl

/-- Two engines that know the same markets settle alike. -/
theorem handleTradeEvent_congr {engine engine' : RiskEngine}
    (h : engine.symbolSpecs = engine'.symbolSpecs) (store : BalanceStore) (userId marketId : Nat)
    (userSide : Side) (event : MatcherTradeEvent) (takerPrice : Option Nat) :
    engine.handleTradeEvent store userId marketId userSide event takerPrice =
      engine'.handleTradeEvent store userId marketId userSide event takerPrice := by
  unfold handleTradeEvent
  rw [h]

/-- The balance an event carries already plays no part. -/
theorem handleTradeEvent_rebalanced (engine : RiskEngine) (store : BalanceStore)
    (userId marketId : Nat) (userSide : Side) {event event' : MatcherTradeEvent}
    (h : Rebalanced event event') (takerPrice : Option Nat) :
    (engine.handleTradeEvent store userId marketId userSide event' takerPrice).1 =
      (engine.handleTradeEvent store userId marketId userSide event takerPrice).1 := by
  obtain ⟨balance, rfl⟩ := h
  have hsettle : ∀ spec,
      (settleTrade store userId marketId userSide { event with makerBalance := balance } spec
        takerPrice).1 = (settleTrade store userId marketId userSide event spec takerPrice).1 := by
    intro spec
    have hlegs : tradeLegs spec marketId userSide { event with makerBalance := balance } =
        tradeLegs spec marketId userSide event := by
      cases userSide <;> rfl
    have hprice : ∀ isMaker, priceImprovement spec isMaker userSide
        { event with makerBalance := balance } takerPrice =
          priceImprovement spec isMaker userSide event takerPrice := fun _ => rfl
    simp only [settleTrade, hlegs, hprice]
    generalize refundImprovement store userId marketId _ = refunded
    obtain ⟨s₁, _ | _⟩ := refunded
    · rfl
    · dsimp only
      generalize s₁.subtractLockedFunds userId _ _ = debited
      obtain ⟨s₂, _ | balanceSub⟩ := debited
      · rfl
      · dsimp only
        generalize s₂.addFunds userId _ _ = credited
        obtain ⟨s₃, _ | balanceAdd⟩ := credited <;> rfl
  unfold handleTradeEvent
  cases engine.symbolSpecs.lookup marketId with
  | none => rfl
  | some spec =>
    have hstore := hsettle spec
    dsimp only
    generalize settleTrade store userId marketId userSide { event with makerBalance := balance }
      spec takerPrice = settled' at hstore ⊢
    generalize settleTrade store userId marketId userSide event spec takerPrice = settled
      at hstore ⊢
    obtain ⟨s', event', _ | _⟩ := settled' <;> obtain ⟨s, event, _ | _⟩ := settled <;> exact hstore

theorem handleCancellation_local (engine : RiskEngine) (cmd : OrderCommand) :
    Local holdings cmd.userId fun s => engine.handleCancellation s cmd := by
  unfold handleCancellation releaseFundsForOrder
  cases engine.symbolSpecs.lookup cmd.marketId with
  | none => exact Local.pure holdings cmd.userId _
  | some spec =>
    let log (r : Except BalanceError Unit) : List Settlement :=
      [⟨cmd.userId, r.mapError .balanceError, baseAsset cmd.marketId, 0⟩]
    cases cmd.side with
    | bid => exact (unlockFunds_local cmd.userId _ _).map log
    | ask => exact (unlockFunds_local cmd.userId _ _).map log

theorem handleCancellation_congr {engine engine' : RiskEngine}
    (h : engine.symbolSpecs = engine'.symbolSpecs) (store : BalanceStore) (cmd : OrderCommand) :
    engine.handleCancellation store cmd = engine'.handleCancellation store cmd := by
  unfold handleCancellation releaseFundsForOrder
  rw [h]

theorem bidAmount_setBalances (engine : RiskEngine) (store : BalanceStore) (cmd : OrderCommand)
    (cache : PriceCache) :
    { engine with balances := store }.bidAmount cmd cache = engine.bidAmount cmd cache := rfl

theorem reserveFundsForOrder_local (engine : RiskEngine) (cmd : OrderCommand)
    (cache : PriceCache) :
    Local holdings cmd.userId fun s =>
      { engine with balances := s }.reserveFundsForOrder cmd cache := by
  unfold reserveFundsForOrder
  cases hside : cmd.side with
  | ask =>
    exact (lockFunds_local cmd.userId _ _).map fun r =>
      (cmd, Except.mapError RiskEngineError.balanceError r)
  | bid =>
    simp only [bidAmount_setBalances]
    have huser : (engine.bidAmount cmd cache).1.userId = cmd.userId := by
      unfold bidAmount
      split
      · rfl
      · split
        · dsimp only
          split
          · rfl
          · split <;> rfl
        · rfl
    generalize engine.bidAmount cmd cache = priced at huser ⊢
    obtain ⟨cmd', _ | amount⟩ := priced
    · exact Local.pure holdings cmd.userId _
    · change cmd'.userId = cmd.userId at huser
      dsimp only
      rw [← huser]
      exact (lockFunds_local cmd'.userId _ _).map fun r =>
        (cmd', Except.mapError RiskEngineError.balanceError r)

theorem fundsProcessed_local (cmd : OrderCommand) :
    Local holdings cmd.userId fun s => (s, fundsProcessed s cmd) :=
  (getBalance_local cmd.userId (truncate 16 cmd.marketId)).map fun balance =>
    { cmd with balance := (balance, cmd.balance.2), status := .processed }

/-- R1 on the shard of the user. -/
theorem preProcessCommand_local (engine : RiskEngine) {cmd : OrderCommand}
    (howns : engine.userIdForThisHandler cmd.userId = true) (cache : PriceCache) :
    Local holdings cmd.userId fun s =>
      { engine with balances := s }.preProcessCommand cmd cache := by
  have hpass : ∀ s : BalanceStore,
      { engine with balances := s }.userIdForThisHandler cmd.userId = true := fun _ => howns
  unfold preProcessCommand
  simp only [hpass, if_true]
  cases hcommand : cmd.command with
  | placeOrder =>
    dsimp only
    cases engine.symbolSpecs.lookup cmd.marketId with
    | none => exact Local.pure holdings cmd.userId _
    | some spec =>
      refine ((reserveFundsForOrder_local engine cmd cache).map fun r =>
        match r with
        | (cmd, .ok _) => cmd
        | (cmd, .error _) => { cmd with status := .rejected }).congr fun s => ?_
      dsimp only
      generalize { engine with balances := s }.reserveFundsForOrder cmd cache = reserved
      obtain ⟨s', cmd', _ | _⟩ := reserved <;> rfl
  | depositFunds =>
    refine ((addFunds_local cmd.userId (truncate 16 cmd.marketId) cmd.size).bindExcept
      (fun _ => { cmd with status := .rejected }) fun _ =>
        fundsProcessed_local cmd).congr fun s => ?_
    dsimp only [handleDeposit]
    generalize s.addFunds cmd.userId (truncate 16 cmd.marketId) cmd.size = added
    obtain ⟨s', _ | balance⟩ := added
    · rw [← hcommand]
      rfl
    · rfl
  | withdrawFunds =>
    refine ((subtractFunds_local cmd.userId (truncate 16 cmd.marketId) cmd.size).bindExcept
      (fun _ => { cmd with status := .rejected }) fun _ =>
        fundsProcessed_local cmd).congr fun s => ?_
    dsimp only [handleWithdrawal]
    generalize s.subtractFunds cmd.userId (truncate 16 cmd.marketId) cmd.size = taken
    obtain ⟨s', _ | balance⟩ := taken
    · rw [← hcommand]
      rfl
    · rfl
  | cancelOrder => exact Local.pure holdings cmd.userId cmd

/-- R1 depends on the store and the markets, once the user is the engine's. -/
theorem preProcessCommand_congr {engine engine' : RiskEngine} {cmd : OrderCommand}
    (hspecs : engine.symbolSpecs = engine'.symbolSpecs)
    (hbalances : engine.balances = engine'.balances)
    (howns : engine.userIdForThisHandler cmd.userId = true)
    (howns' : engine'.userIdForThisHandler cmd.userId = true) (cache : PriceCache) :
    engine.preProcessCommand cmd cache = engine'.preProcessCommand cmd cache := by
  obtain ⟨balances, symbolSpecs, shardId, shardMask⟩ := engine
  obtain ⟨balances', symbolSpecs', shardId', shardMask'⟩ := engine'
  cases hspecs
  cases hbalances
  unfold preProcessCommand
  rw [if_pos howns, if_pos howns']
  rfl

end RiskEngine

theorem local_of_entry {ρ : Type} {f : HashMap Nat OrderBook → HashMap Nat OrderBook × ρ} (id : Nat)
    (op : OrderBook → OrderBook × ρ) (miss : ρ)
    (h : ∀ books, f books = match books.lookup id with
      | some book => (books.insert id (op book).1, (op book).2)
      | none => (books, miss)) :
    Local (fun (books : HashMap Nat OrderBook) id => books.lookup id) id f where
  frame books other hother := by
    rw [h]
    cases books.lookup id with
    | none => rfl
    | some book => exact Finmap.lookup_insert_of_ne _ hother
  result books books' hbook := by
    rw [h, h, hbook]
    cases books'.lookup id <;> rfl
  update books books' hbook := by
    rw [h, h, hbook]
    cases hlookup : books'.lookup id with
    | none => exact hbook
    | some book => simp only [Finmap.lookup_insert]

/-- What a router does for a command stays with the book of its market. -/
theorem matchingHandler_local (router : MatchingEngineRouter) {cmd : OrderCommand}
    (hhome : router.marketForThisHandler cmd.marketId = true) (cache : PriceCache) :
    Local (fun (books : HashMap Nat OrderBook) id => books.lookup id) cmd.marketId fun books =>
      matchingHandler { router with orderBooks := books } cmd cache := by
  have hpass : ∀ books : HashMap Nat OrderBook,
      { router with orderBooks := books }.marketForThisHandler cmd.marketId = true :=
    fun _ => hhome
  by_cases hskip : cmd.command = .depositFunds ∨ cmd.command = .withdrawFunds ∨
      cmd.status = .rejected
  · refine (Local.pure _ _ (cmd, cache)).congr fun books => ?_
    rw [matchingHandler, if_pos hskip]
  · let op (book : OrderBook) : OrderBook × OrderCommand × PriceCache :=
      match cmd.command with
      | .placeOrder =>
          let out := book.placeOrder cmd cache
          (out.book, out.cmd, out.cache)
      | _ =>
          let out := book.cancelOrder cmd cache
          (out.book, out.cmd, out.cache)
    apply local_of_entry cmd.marketId op ({ cmd with status := .rejected }, cache)
    intro books
    simp only [matchingHandler, if_neg hskip, MatchingEngineRouter.processOrder, hpass, if_true, op]
    cases books.lookup cmd.marketId with
    | none => rfl
    | some book =>
      cases hcommand : cmd.command with
      | placeOrder => rfl
      | cancelOrder => rfl
      | depositFunds => exact absurd (.inl hcommand) hskip
      | withdrawFunds => exact absurd (.inr (.inl hcommand)) hskip

/-- Matching depends on the books, once the market is the router's. -/
theorem matchingHandler_congr {router router' : MatchingEngineRouter} {cmd : OrderCommand}
    (hbooks : router.orderBooks = router'.orderBooks)
    (hhome : router.marketForThisHandler cmd.marketId = true)
    (hhome' : router'.marketForThisHandler cmd.marketId = true) (cache : PriceCache) :
    matchingHandler router cmd cache = matchingHandler router' cmd cache := by
  unfold matchingHandler MatchingEngineRouter.processOrder
  rw [if_pos hhome, if_pos hhome', hbooks]

end VexCore
