import VexCore.Framework.Window
import VexCore.Ledger.Reserves
import VexCore.Ledger.Settling
import VexCore.Server.Rejection

/-!
# The ledger of the engine

What each account has locked is owed: to commands between R1 and R2, and to resting orders. A
command owes what R1 locked for it until it is matched, and the debits of its plan from then on.
-/

namespace VexCore

open Framework

/-- The account of a key, on the shard of its user. -/
def Core.account (core : Core) (k : BalanceKey) : Account :=
  (core.balances (Engine.userShard k.userId)).accounts k

namespace Engine

variable (config : Config)

/-- What R2 owes for a command. -/
def planOf (cmd : OrderCommand) : List (BalanceKey × Move) :=
  (config.symbolSpecs.lookup cmd.marketId).elim [] fun spec => settlementPlan spec cmd

/-- What R1 has locked for a placement it let through. -/
def lockedFor (cmd : OrderCommand) (k : BalanceKey) : Nat :=
  (config.symbolSpecs.lookup cmd.marketId).elim 0 fun spec =>
    if cmd.command = .placeOrder ∧ cmd.status ≠ .rejected then
      onKey ⟨cmd.userId, escrowAsset cmd.side cmd.marketId⟩ k
        (escrowed spec cmd.side cmd.price cmd.size)
    else 0

/-- What the resting orders of a market hold on an account. -/
def marketReserve (core : Core) (k : BalanceKey) (marketId : Nat) : Nat :=
  (config.symbolSpecs.lookup marketId).elim 0 fun spec =>
    ((core.orderBooks (marketShard marketId)).lookup marketId).elim 0 fun book =>
      book.reserve spec k

/-- What all resting orders hold on an account. -/
def reserved (core : Core) (k : BalanceKey) : Nat :=
  ∑ marketId ∈ config.symbolSpecs.keys, marketReserve config core k marketId

/-- The matching shard of its market has passed a slot. -/
def Matched (s : State) (n : Nat) : Prop :=
  n < s.seq (.matching (marketShard (s.slots n).cmd.marketId))

instance (s : State) (n : Nat) : Decidable (Matched s n) := inferInstanceAs (Decidable (_ < _))

/-- What the command in a slot is owed by an account. -/
def due (s : State) (k : BalanceKey) (n : Nat) : Nat :=
  if Matched s n then tally Move.debit (planOf config (s.slots n).cmd) k
  else lockedFor config (s.slots n).cmd k

/-- What an account owes to the commands between R1 and R2. -/
def pending (s : State) (k : BalanceKey) : Nat :=
  window (due config s k) (s.seq (.settlement (userShard k.userId)))
    (s.seq (.risk (userShard k.userId)))

/-- What a deposit or withdrawal that R1 carried out has moved. -/
def moved (command : OrderCommandType) (cmd : OrderCommand) (k : BalanceKey) : Nat :=
  if cmd.command = command ∧ cmd.status = .processed then
    onKey ⟨cmd.userId, truncate 16 cmd.marketId⟩ k cmd.size
  else 0

/-- The successful deposits to an account, or withdrawals from it. -/
def movedOn (command : OrderCommandType) (s : State) (k : BalanceKey) : Nat :=
  window (fun n => moved command (s.slots n).cmd k) 0 s.published

/-- What the settled plans have moved on an account. -/
def settledOn (measure : Move → Nat) (s : State) (k : BalanceKey) : Nat :=
  window (fun n => tally measure (planOf config (s.slots n).cmd) k) 0
    (s.seq (.settlement (userShard k.userId)))

/-- Two commands that no account can tell apart. -/
structure OwesSame (cmd cmd' : OrderCommand) : Prop where
  command : cmd'.command = cmd.command
  userId : cmd'.userId = cmd.userId
  marketId : cmd'.marketId = cmd.marketId
  price : cmd'.price = cmd.price
  size : cmd'.size = cmd.size
  side : cmd'.side = cmd.side
  timeInForce : cmd'.timeInForce = cmd.timeInForce
  status : cmd'.status = cmd.status
  events : List.Forall₂ Rebalanced cmd.events cmd'.events

namespace OwesSame

variable {config : Config} {cmd cmd' : OrderCommand}

theorem refl (cmd : OrderCommand) : OwesSame cmd cmd :=
  ⟨rfl, rfl, rfl, rfl, rfl, rfl, rfl, rfl, List.forall₂_same.mpr fun event _ => .refl event⟩

theorem withBalance (cmd : OrderCommand) (balance : UserBalance × UserBalance) :
    OwesSame cmd { cmd with balance } :=
  ⟨rfl, rfl, rfl, rfl, rfl, rfl, rfl, rfl, (refl cmd).events⟩

theorem symm (h : OwesSame cmd cmd') : OwesSame cmd' cmd :=
  ⟨h.command.symm, h.userId.symm, h.marketId.symm, h.price.symm, h.size.symm, h.side.symm,
    h.timeInForce.symm, h.status.symm, h.events.flip.imp fun _ _ => Rebalanced.symm⟩

theorem rebalanced_trans {a b c : List MatcherTradeEvent} (hab : List.Forall₂ Rebalanced a b)
    (hbc : List.Forall₂ Rebalanced b c) : List.Forall₂ Rebalanced a c := by
  induction hab generalizing c with
  | nil => exact hbc
  | cons hfirst _ ih =>
    cases hbc with
    | cons hsecond hrest => exact .cons (hfirst.trans hsecond) (ih hrest)

theorem trans {cmd'' : OrderCommand} (h : OwesSame cmd cmd') (h' : OwesSame cmd' cmd'') :
    OwesSame cmd cmd'' :=
  ⟨h'.command.trans h.command, h'.userId.trans h.userId, h'.marketId.trans h.marketId,
    h'.price.trans h.price, h'.size.trans h.size, h'.side.trans h.side,
    h'.timeInForce.trans h.timeInForce, h'.status.trans h.status,
    rebalanced_trans h.events h'.events⟩

theorem shouldHandleCancellation_eq (h : OwesSame cmd cmd') :
    shouldHandleCancellation cmd' = shouldHandleCancellation cmd := by
  rw [shouldHandleCancellation, shouldHandleCancellation, h.status, h.timeInForce]

theorem eventPlan_eq (h : OwesSame cmd cmd') (spec : CoreMarketSpecification)
    {event event' : MatcherTradeEvent} (he : Rebalanced event event') :
    makerPlan spec cmd' event' ++ takerPlan spec cmd' event' =
      makerPlan spec cmd event ++ takerPlan spec cmd event := by
  obtain ⟨balance, rfl⟩ := he
  simp only [makerPlan, takerPlan, h.marketId, h.side, h.userId, h.price]

theorem eventPlans_eq (h : OwesSame cmd cmd') (spec : CoreMarketSpecification)
    {events events' : List MatcherTradeEvent} (he : List.Forall₂ Rebalanced events events') :
    (events'.flatMap fun event => makerPlan spec cmd' event ++ takerPlan spec cmd' event) =
      events.flatMap fun event => makerPlan spec cmd event ++ takerPlan spec cmd event := by
  induction he with
  | nil => rfl
  | cons hevent _ ih => rw [List.flatMap_cons, List.flatMap_cons, h.eventPlan_eq spec hevent, ih]

theorem settlementPlan_eq (h : OwesSame cmd cmd') (spec : CoreMarketSpecification) :
    settlementPlan spec cmd' = settlementPlan spec cmd := by
  have hrelease : releasePlan spec cmd' = releasePlan spec cmd := by
    rw [releasePlan, releasePlan, h.shouldHandleCancellation_eq, h.userId, h.side, h.marketId,
      h.price, h.size]
  rw [settlementPlan, settlementPlan, h.status, hrelease, h.eventPlans_eq spec h.events]

theorem planOf_eq (h : OwesSame cmd cmd') : planOf config cmd' = planOf config cmd := by
  rw [planOf, planOf, h.marketId]
  simp only [h.settlementPlan_eq]

theorem lockedFor_eq (h : OwesSame cmd cmd') (k : BalanceKey) :
    lockedFor config cmd' k = lockedFor config cmd k := by
  rw [lockedFor, lockedFor, h.marketId, h.command, h.status, h.userId, h.side, h.price, h.size]

theorem moved_eq (h : OwesSame cmd cmd') (command : OrderCommandType) (k : BalanceKey) :
    moved command cmd' k = moved command cmd k := by
  rw [moved, moved, h.command, h.status, h.userId, h.marketId, h.size]

theorem makers_rebalanced {events events' : List MatcherTradeEvent} {userId : Nat}
    (he : List.Forall₂ Rebalanced events events') (hne : ∀ e ∈ events, e.makerUserId ≠ userId) :
    ∀ e ∈ events', e.makerUserId ≠ userId := by
  induction he with
  | nil => simp
  | cons hevent _ ih =>
    obtain ⟨balance, rfl⟩ := hevent
    rw [List.forall_mem_cons] at hne ⊢
    exact ⟨hne.1, ih hne.2⟩

/-- Nobody trades with itself in either. -/
theorem makers (h : OwesSame cmd cmd') (hne : ∀ e ∈ cmd.events, e.makerUserId ≠ cmd.userId) :
    ∀ e ∈ cmd'.events, e.makerUserId ≠ cmd'.userId := by
  rw [h.userId]
  exact makers_rebalanced h.events hne

theorem noEvents (h : OwesSame cmd cmd') (hnone : cmd.events = []) : cmd'.events = [] := by
  have hevents := h.events
  rw [hnone] at hevents
  exact List.forall₂_nil_left_iff.mp hevents

end OwesSame

variable {config}

theorem journalingHandler_owesSame (n : Nat) (core : Core) (cmd : OrderCommand) :
    OwesSame cmd (journalingHandler config n core cmd).2 := by
  have hevents := (OwesSame.refl cmd).events
  show OwesSame cmd (journalCommand core.replayEnabled (config.stamp n)
    (config.publications .journaling n) cmd).1
  unfold journalCommand
  split
  · exact .refl cmd
  · dsimp only [Stamp.apply]
    split <;> exact ⟨rfl, rfl, rfl, rfl, rfl, rfl, rfl, rfl, hevents⟩

theorem settlementHandler_owesSame (shard : Fin numRiskEngines) (core : Core)
    (cmd : OrderCommand) : OwesSame cmd (settlementHandler config shard core cmd).2 := by
  show OwesSame cmd (riskR2Handler (core.riskEngine config shard) cmd).2.1
  have hevents := settleEvents_rebalanced (core.riskEngine config shard) cmd
    (core.riskEngine config shard).balances cmd.events
  unfold riskR2Handler
  split
  · exact .refl cmd
  · dsimp only
    split
    · exact ⟨rfl, rfl, rfl, rfl, rfl, rfl, rfl, rfl, hevents⟩
    · exact ⟨rfl, rfl, rfl, rfl, rfl, rfl, rfl, rfl, hevents⟩

theorem marketReserve_of_book {core : Core} {marketId : Nat} {spec : CoreMarketSpecification}
    {book : OrderBook} (hspec : config.symbolSpecs.lookup marketId = some spec)
    (hbook : (core.orderBooks (marketShard marketId)).lookup marketId = some book)
    (k : BalanceKey) : marketReserve config core k marketId = book.reserve spec k := by
  rw [marketReserve, hspec, Option.elim_some, hbook, Option.elim_some]

theorem reserved_congr {core core' : Core} (h : core'.orderBooks = core.orderBooks)
    (k : BalanceKey) : reserved config core' k = reserved config core k := by
  unfold reserved marketReserve
  rw [h]

/-- One book is replaced. -/
theorem reserved_withBook {core : Core} {marketId : Nat} {spec : CoreMarketSpecification}
    {book : OrderBook} (hspec : config.symbolSpecs.lookup marketId = some spec)
    (hbook : (core.orderBooks (marketShard marketId)).lookup marketId = some book)
    (after : OrderBook) (cache : PriceCache) (k : BalanceKey) :
    reserved config (Core.withBook core (marketShard marketId) marketId after cache) k +
        book.reserve spec k =
      reserved config core k + after.reserve spec k := by
  have hmem : marketId ∈ config.symbolSpecs.keys :=
    Finmap.mem_keys.mpr (Finmap.mem_iff.mpr ⟨spec, hspec⟩)
  have hafter := marketReserve_of_book hspec
    (lookup_withBook core (marketShard marketId) marketId after cache) k
  rw [← marketReserve_of_book hspec hbook k, ← hafter]
  apply sum_change hmem
  intro m _ hne
  have hlookup : ((Core.withBook core (marketShard marketId) marketId after cache).orderBooks
      (marketShard m)).lookup m = (core.orderBooks (marketShard m)).lookup m := by
    by_cases hshard : marketShard m = marketShard marketId
    · rw [hshard]
      simp [Core.withBook, Finmap.lookup_insert_of_ne _ hne]
    · simp [Core.withBook, Function.update_of_ne hshard]
  rw [marketReserve, marketReserve, hlookup]

theorem account_setBalances_self {core : Core} {shard : Fin numRiskEngines} {k : BalanceKey}
    (h : userShard k.userId = shard) (store : BalanceStore) :
    (core.setBalances shard store).account k = store.accounts k := by
  subst h
  rw [Core.account, Core.setBalances_self]

theorem account_setBalances_ne {core : Core} {shard : Fin numRiskEngines} {k : BalanceKey}
    (h : userShard k.userId ≠ shard) (store : BalanceStore) :
    (core.setBalances shard store).account k = core.account k := by
  rw [Core.account, Core.setBalances_ne core h, Core.account]

/-- Orders lock nothing on the accounts of other users. -/
theorem lockedFor_of_user {cmd : OrderCommand} {k : BalanceKey} (h : cmd.userId ≠ k.userId) :
    lockedFor config cmd k = 0 := by
  have hne : (⟨cmd.userId, escrowAsset cmd.side cmd.marketId⟩ : BalanceKey) ≠ k := by
    intro heq
    exact h (congrArg BalanceKey.userId heq)
  unfold lockedFor
  cases config.symbolSpecs.lookup cmd.marketId with
  | none => rfl
  | some spec => simp [onKey_of_ne hne]

theorem lockedFor_of_not {cmd : OrderCommand} (h : ¬(cmd.command = .placeOrder ∧
    cmd.status ≠ .rejected)) (k : BalanceKey) : lockedFor config cmd k = 0 := by
  unfold lockedFor
  cases config.symbolSpecs.lookup cmd.marketId with
  | none => rfl
  | some spec => simp only [Option.elim_some, if_neg h]

theorem lockedFor_of_spec {cmd : OrderCommand} {spec : CoreMarketSpecification}
    (hspec : config.symbolSpecs.lookup cmd.marketId = some spec)
    (hcommand : cmd.command = .placeOrder) (hstatus : cmd.status ≠ .rejected) (k : BalanceKey) :
    lockedFor config cmd k = onKey ⟨cmd.userId, escrowAsset cmd.side cmd.marketId⟩ k
      (escrowed spec cmd.side cmd.price cmd.size) := by
  rw [lockedFor, hspec, Option.elim_some, if_pos ⟨hcommand, hstatus⟩]

/-- A command without fills and without a release owes nothing. -/
theorem planOf_idle {cmd : OrderCommand} (hevents : cmd.events = [])
    (hkeeps : shouldHandleCancellation cmd = false) : planOf config cmd = [] := by
  unfold planOf
  cases config.symbolSpecs.lookup cmd.marketId with
  | none => rfl
  | some spec => simp [settlementPlan, releasePlan, hevents, hkeeps]

theorem planOf_of_none {cmd : OrderCommand}
    (hspec : config.symbolSpecs.lookup cmd.marketId = none) : planOf config cmd = [] := by
  rw [planOf, hspec, Option.elim_none]

theorem lockedFor_of_none {cmd : OrderCommand}
    (hspec : config.symbolSpecs.lookup cmd.marketId = none) (k : BalanceKey) :
    lockedFor config cmd k = 0 := by
  rw [lockedFor, hspec, Option.elim_none]

theorem planOf_of_spec {cmd : OrderCommand} {spec : CoreMarketSpecification}
    (hspec : config.symbolSpecs.lookup cmd.marketId = some spec) :
    planOf config cmd = settlementPlan spec cmd := by
  rw [planOf, hspec, Option.elim_some]

theorem moved_of_command {command : OrderCommandType} {cmd : OrderCommand}
    (h : cmd.command ≠ command) (k : BalanceKey) : moved command cmd k = 0 :=
  if_neg fun hboth => h hboth.1

/-- Deposits and withdrawals move nothing on the accounts of other users. -/
theorem moved_of_user {command : OrderCommandType} {cmd : OrderCommand} {k : BalanceKey}
    (h : cmd.userId ≠ k.userId) : moved command cmd k = 0 := by
  have hne : (⟨cmd.userId, truncate 16 cmd.marketId⟩ : BalanceKey) ≠ k := by
    intro heq
    exact h (congrArg BalanceKey.userId heq)
  simp [moved, onKey_of_ne hne]

theorem moved_of_status {cmd : OrderCommand} (h : cmd.status ≠ .processed)
    (command : OrderCommandType) (k : BalanceKey) : moved command cmd k = 0 :=
  if_neg fun hboth => h hboth.2

/-- A matching shard passes over a command, rejects it, or runs it on the book of its market. -/
theorem routerHandler_cases (shard : Fin numMatchingEngines) (core : Core) (cmd : OrderCommand) :
    (routerHandler shard core cmd = (core, cmd) ∧ (shard = marketShard cmd.marketId →
      cmd.status = .rejected ∨ cmd.command = .depositFunds ∨ cmd.command = .withdrawFunds)) ∨
    (shard = marketShard cmd.marketId ∧ (core.orderBooks shard).lookup cmd.marketId = none ∧
      (cmd.command = .placeOrder ∨ cmd.command = .cancelOrder) ∧
      routerHandler shard core cmd = (core, { cmd with status := .rejected })) ∨
    ∃ book, shard = marketShard cmd.marketId ∧ cmd.status ≠ .rejected ∧
      (core.orderBooks shard).lookup cmd.marketId = some book ∧
      ((cmd.command = .placeOrder ∧ routerHandler shard core cmd =
          (Core.withBook core shard cmd.marketId (book.placeOrder cmd core.priceCache).book
            (book.placeOrder cmd core.priceCache).cache,
            (book.placeOrder cmd core.priceCache).cmd)) ∨
        (cmd.command = .cancelOrder ∧ routerHandler shard core cmd =
          (Core.withBook core shard cmd.marketId (book.cancelOrder cmd core.priceCache).book
            (book.cancelOrder cmd core.priceCache).cache,
            (book.cancelOrder cmd core.priceCache).cmd))) := by
  by_cases hskip : cmd.status = .rejected ∨ shard ≠ marketShard cmd.marketId
  · refine .inl ⟨routerHandler_skip hskip core, ?_⟩
    intro hhome
    exact hskip.elim .inl fun hne => absurd hhome hne
  · obtain ⟨hstatus, hhome⟩ := not_or.mp hskip
    rw [not_not] at hhome
    by_cases hfunds : cmd.command = .depositFunds ∨ cmd.command = .withdrawFunds
    · refine .inl ⟨?_, fun _ => .inr hfunds⟩
      have hself : Function.update core.orderBooks shard (core.orderBooks shard) =
          core.orderBooks := Function.update_eq_self shard core.orderBooks
      have hpass : matchingHandler (core.router shard) cmd core.priceCache =
          (core.orderBooks shard, cmd, core.priceCache) := by
        rw [matchingHandler, if_pos (hfunds.elim .inl fun h => .inr (.inl h))]
        rfl
      rw [routerHandler, hpass, hself]
    · right
      subst hhome
      cases hbook : (core.orderBooks (marketShard cmd.marketId)).lookup cmd.marketId with
      | some book =>
        refine .inr ⟨book, rfl, hstatus, rfl, ?_⟩
        cases hcommand : cmd.command with
        | placeOrder => exact .inl ⟨rfl, routerHandler_place hbook hstatus hcommand⟩
        | cancelOrder => exact .inr ⟨rfl, routerHandler_cancel hbook hstatus hcommand⟩
        | depositFunds => exact absurd (.inl hcommand) hfunds
        | withdrawFunds => exact absurd (.inr hcommand) hfunds
      | none =>
        have hcommand : cmd.command = .placeOrder ∨ cmd.command = .cancelOrder := by
          generalize cmd.command = command at hfunds
          cases command with
          | placeOrder => exact .inl rfl
          | cancelOrder => exact .inr rfl
          | depositFunds => exact absurd (.inl rfl) hfunds
          | withdrawFunds => exact absurd (.inr rfl) hfunds
        exact .inl ⟨rfl, rfl, hcommand, routerHandler_unknown hbook hstatus hcommand⟩

end Engine

end VexCore
