import VexCore.Framework.Latest
import VexCore.Processors.BalanceStream
import VexCore.Server.Frames

/-!
# The snapshots of R2

A shard records in a command what it leaves on the accounts of its users: a maker's balances
after each fill, the taker's at the end. Where every call succeeds, the last snapshot of a key is
what the store then holds.
-/

namespace VexCore

open Framework

namespace BalanceStore

def read (store : BalanceStore) (k : BalanceKey) : UserBalance := store.getBalance k.userId k.assetId

section Read

variable (store : BalanceStore) {k : BalanceKey} {userId assetId amount : Nat}

theorem read_setBalance_of (h : userId = k.userId ∧ assetId = k.assetId) (balance : UserBalance) :
    (store.setBalance userId assetId balance).read k = balance := by
  rw [read, getBalance_setBalance, if_pos ⟨h.1.symm, h.2.symm⟩]

theorem read_setBalance_ne (h : ¬(userId = k.userId ∧ assetId = k.assetId))
    (balance : UserBalance) : (store.setBalance userId assetId balance).read k = store.read k := by
  rw [read, getBalance_setBalance, if_neg fun heq => h ⟨heq.1.symm, heq.2.symm⟩]
  rfl

theorem unlockFunds_read_ne (h : ¬(userId = k.userId ∧ assetId = k.assetId)) :
    (store.unlockFunds userId assetId amount).1.read k = store.read k := by
  simp only [unlockFunds]
  split <;> exact read_setBalance_ne store h _

variable {store}

theorem subtractLockedFunds_store {store' : BalanceStore} {balance : UserBalance}
    (h : store.subtractLockedFunds userId assetId amount = (store', .ok balance)) :
    store' = store.setBalance userId assetId balance := by
  simp only [subtractLockedFunds] at h
  split at h
  · simp only [Prod.mk.injEq, Except.ok.injEq] at h
    rw [← h.1, ← h.2]
  · cases congrArg Prod.snd h

theorem addFunds_store {store' : BalanceStore} {balance : UserBalance}
    (h : store.addFunds userId assetId amount = (store', .ok balance)) :
    store' = store.setBalance userId assetId balance := by
  simp only [addFunds] at h
  split at h
  · simp only [Prod.mk.injEq, Except.ok.injEq] at h
    rw [← h.1, ← h.2]
  · cases congrArg Prod.snd h

theorem read_setBalance_same {balance : UserBalance}
    (h : balance = store.getBalance userId assetId) :
    (store.setBalance userId assetId balance).read k = store.read k := by
  by_cases hk : userId = k.userId ∧ assetId = k.assetId
  · rw [read_setBalance_of store hk, h, hk.1, hk.2]
    rfl
  · exact read_setBalance_ne store hk balance

theorem subtractLockedFunds_zero {store' : BalanceStore} {balance : UserBalance}
    (h : store.subtractLockedFunds userId assetId 0 = (store', .ok balance)) :
    store'.read k = store.read k := by
  simp only [subtractLockedFunds, Nat.zero_le, ge_iff_le, if_true, Prod.mk.injEq] at h
  rw [← h.1]
  exact read_setBalance_same rfl

theorem addFunds_zero {store' : BalanceStore} {balance : UserBalance}
    (h : store.addFunds userId assetId 0 = (store', .ok balance)) :
    store'.read k = store.read k := by
  simp only [addFunds] at h
  split at h
  · rename_i available hsum
    obtain ⟨-, rfl⟩ := checkedAdd_eq_some.mp hsum
    have hstore : _ = store' := congrArg Prod.fst h
    rw [← hstore]
    exact read_setBalance_same rfl
  · cases congrArg Prod.snd h

end Read

end BalanceStore

open BalanceStore

namespace RiskEngine

theorem settleTrade_steps {store store' : BalanceStore} {userId marketId : Nat} {side : Side}
    {event event' : MatcherTradeEvent} {spec : CoreMarketSpecification} {takerPrice : Option Nat}
    (h : settleTrade store userId marketId side event spec takerPrice = (store', event', .ok ())) :
    ∃ store₁ store₂ balanceSub balanceAdd,
      refundImprovement store userId marketId
        (priceImprovement spec (userId == event.makerUserId) side event takerPrice) =
          (store₁, .ok ()) ∧
      store₁.subtractLockedFunds userId (tradeLegs spec marketId side event).assetToSubtract
        (tradeLegs spec marketId side event).amountToSubtract = (store₂, .ok balanceSub) ∧
      store₂.addFunds userId (tradeLegs spec marketId side event).assetToAdd
        (wrappingSub 64 (tradeLegs spec marketId side event).gross
          (feeOn (tradeLegs spec marketId side event).gross
            (feeRate spec (userId == event.makerUserId)))) = (store', .ok balanceAdd) ∧
      event' = if userId == event.makerUserId then
        recordMakerBalance event marketId (tradeLegs spec marketId side event) balanceSub balanceAdd
          else event := by
  unfold settleTrade at h
  dsimp only at h
  split at h
  · cases congrArg (fun out => out.2.2) h
  · rename_i store₁ refunded hrefund
    split at h
    · cases congrArg (fun out => out.2.2) h
    · rename_i store₂ balanceSub hspend
      split at h
      · cases congrArg (fun out => out.2.2) h
      · rename_i store₃ balanceAdd hreceive
        simp only [Prod.mk.injEq] at h
        obtain ⟨rfl, rfl, -⟩ := h
        exact ⟨store₁, store₂, balanceSub, balanceAdd, hrefund, hspend, hreceive, rfl⟩

theorem priceImprovement_maker (spec : CoreMarketSpecification) (side : Side)
    (event : MatcherTradeEvent) (takerPrice : Option Nat) :
    priceImprovement spec true side event takerPrice = none := by
  cases takerPrice <;> simp [priceImprovement]

theorem tradeLegs_assets (spec : CoreMarketSpecification) (marketId : Nat) (side : Side)
    (event : MatcherTradeEvent) :
    ((tradeLegs spec marketId side event).assetToSubtract = baseAsset marketId ∧
      (tradeLegs spec marketId side event).assetToAdd = quoteAsset marketId) ∨
    ((tradeLegs spec marketId side event).assetToSubtract = quoteAsset marketId ∧
      (tradeLegs spec marketId side event).assetToAdd = baseAsset marketId) := by
  cases side with
  | bid => exact .inr ⟨rfl, rfl⟩
  | ask => exact .inl ⟨rfl, rfl⟩

section Sides

variable {store store' : BalanceStore} {userId marketId : Nat} {side : Side}
  {event event' : MatcherTradeEvent} {spec : CoreMarketSpecification} {takerPrice : Option Nat}
  {k : BalanceKey}

theorem settleTrade_read_ne
    (h : settleTrade store userId marketId side event spec takerPrice = (store', event', .ok ()))
    (hk : ¬Holds k userId marketId) : store'.read k = store.read k := by
  obtain ⟨store₁, store₂, balanceSub, balanceAdd, hrefund, hspend, hreceive, -⟩ :=
    settleTrade_steps h
  have hbase : ¬(userId = k.userId ∧ baseAsset marketId = k.assetId) :=
    fun heq => hk ⟨heq.1, .inl heq.2⟩
  have hquote : ¬(userId = k.userId ∧ quoteAsset marketId = k.assetId) :=
    fun heq => hk ⟨heq.1, .inr heq.2⟩
  have hrefunded : store₁.read k = store.read k := by
    unfold refundImprovement at hrefund
    split at hrefund
    · have hstore : (store.unlockFunds userId (quoteAsset marketId) _).1 = store₁ :=
        congrArg Prod.fst hrefund
      rw [← hstore]
      exact unlockFunds_read_ne store hquote
    · have hstore : store = store₁ := congrArg Prod.fst hrefund
      rw [hstore]
  rw [addFunds_store hreceive, subtractLockedFunds_store hspend, ← hrefunded]
  rcases tradeLegs_assets spec marketId side event with ⟨hsub, hadd⟩ | ⟨hsub, hadd⟩
  · rw [hsub, hadd, read_setBalance_ne _ hquote, read_setBalance_ne _ hbase]
  · rw [hsub, hadd, read_setBalance_ne _ hbase, read_setBalance_ne _ hquote]

theorem settleTrade_recorded
    (h : settleTrade store userId marketId side event spec takerPrice = (store', event', .ok ()))
    (hmaker : userId = event.makerUserId) (hk : Holds k userId marketId) :
    (pairOf k userId marketId event'.makerBalance).getLast? = some (store'.read k) := by
  obtain ⟨store₁, store₂, balanceSub, balanceAdd, -, hspend, hreceive, hevent⟩ :=
    settleTrade_steps h
  rw [if_pos (beq_iff_eq.mpr hmaker)] at hevent
  have huser := hk.1
  have hstore : store' = (store₁.setBalance userId
      (tradeLegs spec marketId side event).assetToSubtract balanceSub).setBalance userId
        (tradeLegs spec marketId side event).assetToAdd balanceAdd := by
    rw [← subtractLockedFunds_store hspend]
    exact addFunds_store hreceive
  rw [hevent, hstore]
  unfold recordMakerBalance
  rcases tradeLegs_assets spec marketId side event with ⟨hsub, hadd⟩ | ⟨hsub, hadd⟩
  · rw [hsub, hadd, if_pos rfl]
    apply pairOf_getLast? hk
    · intro hquote
      exact (read_setBalance_of _ ⟨huser, hquote⟩ _).symm
    · intro hquote
      have hbase := hk.2.resolve_right hquote
      rw [read_setBalance_ne _ fun heq => hquote heq.2]
      exact (read_setBalance_of _ ⟨huser, hbase⟩ _).symm
  · rw [hsub, hadd]
    by_cases hsame : quoteAsset marketId = baseAsset marketId
    · -- a market of one asset: the base balance is written last either way
      rw [if_pos hsame]
      have hbase : baseAsset marketId = k.assetId := hk.2.elim id fun hquote => hsame ▸ hquote
      apply pairOf_getLast? hk
      · intro _
        exact (read_setBalance_of _ ⟨huser, hbase⟩ _).symm
      · intro hquote
        exact absurd (hsame.trans hbase) hquote
    · rw [if_neg hsame]
      apply pairOf_getLast? hk
      · intro hquote
        have hbase : ¬(userId = k.userId ∧ baseAsset marketId = k.assetId) :=
          fun heq => hsame (hquote.trans heq.2.symm)
        rw [read_setBalance_ne _ hbase]
        exact (read_setBalance_of _ ⟨huser, hquote⟩ _).symm
      · intro hquote
        have hbase := hk.2.resolve_right hquote
        exact (read_setBalance_of _ ⟨huser, hbase⟩ _).symm

/-- Nothing is moved for a maker whose order fills with size zero. -/
theorem settleTrade_zero
    (h : settleTrade store userId marketId side event spec takerPrice = (store', event', .ok ()))
    (hmaker : userId = event.makerUserId) (hzero : event.size = 0) : store'.read k = store.read k := by
  obtain ⟨store₁, store₂, balanceSub, balanceAdd, hrefund, hspend, hreceive, -⟩ :=
    settleTrade_steps h
  have hcost : spec.calculateQuoteCost event.price 0 = 0 := by
    simp [CoreMarketSpecification.calculateQuoteCost, wrappingMul, truncate]
  have hspent : (tradeLegs spec marketId side event).amountToSubtract = 0 := by
    cases side <;> simp [tradeLegs, hzero, hcost]
  have hnet : wrappingSub 64 (tradeLegs spec marketId side event).gross
      (feeOn (tradeLegs spec marketId side event).gross
        (feeRate spec (userId == event.makerUserId))) = 0 := by
    have hgross : (tradeLegs spec marketId side event).gross = 0 := by
      cases side <;> simp [tradeLegs, hzero, hcost]
    simp [hgross, feeOn, wrappingMul, wrappingSub, truncate]
  rw [beq_iff_eq.mpr hmaker, priceImprovement_maker] at hrefund
  have hstore : store = store₁ := congrArg Prod.fst hrefund
  rw [hspent] at hspend
  rw [hnet] at hreceive
  rw [addFunds_zero hreceive, subtractLockedFunds_zero hspend, hstore]

theorem settleTrade_event_taker
    (h : settleTrade store userId marketId side event spec takerPrice = (store', event', .ok ()))
    (htaker : userId ≠ event.makerUserId) : event' = event := by
  obtain ⟨_, _, _, _, -, -, -, hevent⟩ := settleTrade_steps h
  rwa [if_neg (by simpa using htaker)] at hevent

end Sides

end RiskEngine

/-- Every settlement of a log succeeded. -/
def AllOk (log : List Settlement) : Prop := ∀ e ∈ log, e.result = .ok ()

instance (log : List Settlement) : Decidable (AllOk log) :=
  inferInstanceAs (Decidable (∀ e ∈ log, _ = _))

theorem AllOk.of_append {l m : List Settlement} (h : AllOk (l ++ m)) : AllOk l ∧ AllOk m :=
  List.forall_mem_append.mp h

section Event

variable {engine : RiskEngine} {spec : CoreMarketSpecification} {cmd : OrderCommand}
  {store : BalanceStore} {event : MatcherTradeEvent} {k : BalanceKey}

theorem handleTradeEvent_settles {userId marketId : Nat} {side : Side} {takerPrice : Option Nat}
    (hspec : engine.symbolSpecs.lookup marketId = some spec)
    (hok : AllOk (engine.handleTradeEvent store userId marketId side event takerPrice).2.2) :
    RiskEngine.settleTrade store userId marketId side event spec takerPrice =
      ((engine.handleTradeEvent store userId marketId side event takerPrice).1,
        (engine.handleTradeEvent store userId marketId side event takerPrice).2.1, .ok ()) := by
  unfold RiskEngine.handleTradeEvent at hok ⊢
  rw [hspec] at hok ⊢
  dsimp only at hok ⊢
  split at hok
  · rename_i hsettle
    rw [hsettle]
  · rename_i e hsettle
    cases hok _ (List.mem_singleton.mpr rfl)

/-- What an event leaves of an account that is not the taker's: recorded if it is the maker's,
and as it was otherwise. -/
structure EventSeen (k : BalanceKey) (cmd : OrderCommand) (store : BalanceStore)
    (event : MatcherTradeEvent) (out : BalanceStore × MatcherTradeEvent × List Settlement) :
    Prop where
  recorded : Holds k event.makerUserId cmd.marketId →
    (pairOf k event.makerUserId cmd.marketId out.2.1.makerBalance).getLast? = some (out.1.read k)
  kept : ¬Holds k event.makerUserId cmd.marketId → out.1.read k = store.read k
  zero : event.size = 0 → out.1.read k = store.read k

theorem settleEvent_seen (hspec : engine.symbolSpecs.lookup cmd.marketId = some spec)
    (hmaker : event.makerUserId ≠ cmd.userId)
    (howns : engine.userIdForThisHandler k.userId = true) (htaker : cmd.userId ≠ k.userId)
    (hok : AllOk (settleEvent engine cmd store event).2.2) :
    EventSeen k cmd store event (settleEvent engine cmd store event) := by
  have hnot : ¬Holds k cmd.userId cmd.marketId := fun hk => htaker hk.1
  -- the taker's side touches neither the account nor the record
  have hside {store₁ : BalanceStore} {event₁ : MatcherTradeEvent}
      (hevent : event₁.makerUserId = event.makerUserId) (hok : AllOk (engine.handleTradeEvent store₁
        cmd.userId cmd.marketId cmd.side event₁ (some cmd.price)).2.2) :
      (engine.handleTradeEvent store₁ cmd.userId cmd.marketId cmd.side event₁
          (some cmd.price)).1.read k = store₁.read k ∧
        (engine.handleTradeEvent store₁ cmd.userId cmd.marketId cmd.side event₁
          (some cmd.price)).2.1 = event₁ := by
    have hsettle := handleTradeEvent_settles hspec hok
    refine ⟨RiskEngine.settleTrade_read_ne hsettle hnot,
      RiskEngine.settleTrade_event_taker hsettle ?_⟩
    rw [hevent]
    exact hmaker.symm
  by_cases hown : engine.userIdForThisHandler event.makerUserId = true
  · have hrebalanced := handleTradeEvent_event engine store event.makerUserId cmd.marketId
      cmd.side.opSide event none
    have hfirst (hok : AllOk (engine.handleTradeEvent store event.makerUserId cmd.marketId
        cmd.side.opSide event none).2.2) : EventSeen k cmd store event
          (engine.handleTradeEvent store event.makerUserId cmd.marketId cmd.side.opSide event
            none) := by
      have hsettle := handleTradeEvent_settles hspec hok
      exact ⟨RiskEngine.settleTrade_recorded hsettle rfl, RiskEngine.settleTrade_read_ne hsettle,
        RiskEngine.settleTrade_zero hsettle rfl⟩
    by_cases htakes : engine.userIdForThisHandler cmd.userId = true
    · simp only [settleEvent, if_pos hown, if_pos htakes] at hok ⊢
      obtain ⟨hok₁, hok₂⟩ := hok.of_append
      obtain ⟨balance, hevent⟩ := hrebalanced
      have hmaker₁ : (engine.handleTradeEvent store event.makerUserId cmd.marketId
          cmd.side.opSide event none).2.1.makerUserId = event.makerUserId := by rw [hevent]
      obtain ⟨hread, hsame⟩ := hside hmaker₁ hok₂
      have hseen := hfirst hok₁
      refine ⟨?_, ?_, ?_⟩
      · rw [hsame, hread]
        exact hseen.recorded
      · rw [hread]
        exact hseen.kept
      · rw [hread]
        exact hseen.zero
    · simp only [settleEvent, if_pos hown, if_neg htakes, List.append_nil] at hok ⊢
      exact hfirst hok
  · have hother : ¬Holds k event.makerUserId cmd.marketId := by
      intro hk
      rw [hk.1] at hown
      exact hown howns
    by_cases htakes : engine.userIdForThisHandler cmd.userId = true
    · simp only [settleEvent, if_neg hown, if_pos htakes, List.nil_append] at hok ⊢
      obtain ⟨hread, -⟩ := hside rfl hok
      exact ⟨fun hk => absurd hk hother, fun _ => hread, fun _ => hread⟩
    · simp only [settleEvent, if_neg hown, if_neg htakes]
      exact ⟨fun hk => absurd hk hother, fun _ => rfl, fun _ => rfl⟩

theorem settleEvent_read_ne (hspec : engine.symbolSpecs.lookup cmd.marketId = some spec)
    (hnot : ∀ userId, ¬Holds k userId cmd.marketId)
    (hok : AllOk (settleEvent engine cmd store event).2.2) :
    (settleEvent engine cmd store event).1.read k = store.read k := by
  have hside {store₁ : BalanceStore} {event₁ : MatcherTradeEvent} {userId : Nat} {side : Side}
      {takerPrice : Option Nat} (hok : AllOk (engine.handleTradeEvent store₁ userId cmd.marketId
        side event₁ takerPrice).2.2) : (engine.handleTradeEvent store₁ userId cmd.marketId side
          event₁ takerPrice).1.read k = store₁.read k :=
    RiskEngine.settleTrade_read_ne (handleTradeEvent_settles hspec hok) (hnot userId)
  by_cases hown : engine.userIdForThisHandler event.makerUserId = true
  · by_cases htakes : engine.userIdForThisHandler cmd.userId = true
    · simp only [settleEvent, if_pos hown, if_pos htakes] at hok ⊢
      rw [hside hok.of_append.2, hside hok.of_append.1]
    · simp only [settleEvent, if_pos hown, if_neg htakes, List.append_nil] at hok ⊢
      exact hside hok
  · by_cases htakes : engine.userIdForThisHandler cmd.userId = true
    · simp only [settleEvent, if_neg hown, if_pos htakes, List.nil_append] at hok ⊢
      exact hside hok
    · simp only [settleEvent, if_neg hown, if_neg htakes]

end Event

section Events

variable {engine : RiskEngine} {spec : CoreMarketSpecification} {cmd : OrderCommand}
  {store : BalanceStore} {events : List MatcherTradeEvent} {k : BalanceKey}

theorem settleEvents_follows (hspec : engine.symbolSpecs.lookup cmd.marketId = some spec)
    (hmakers : ∀ event ∈ events, event.makerUserId ≠ cmd.userId)
    (howns : engine.userIdForThisHandler k.userId = true) (htaker : cmd.userId ≠ k.userId)
    (hok : AllOk (settleEvents engine cmd store events).2.2) :
    Follows (makersOf k cmd.marketId (settleEvents engine cmd store events).2.1) (store.read k)
      ((settleEvents engine cmd store events).1.read k) := by
  induction events generalizing store with
  | nil => exact .refl _
  | cons event rest ih =>
    simp only [settleEvents] at hok ⊢
    obtain ⟨hok₁, hok₂⟩ := hok.of_append
    have hseen := settleEvent_seen hspec (hmakers event List.mem_cons_self) howns htaker hok₁
    have hrest := ih (fun e he => hmakers e (List.mem_cons_of_mem _ he)) hok₂
    obtain ⟨balance, hevent⟩ := settleEvent_rebalanced engine cmd store event
    have hmaker : (settleEvent engine cmd store event).2.1.makerUserId = event.makerUserId := by
      rw [hevent]
    refine Follows.append ?_ hrest
    dsimp only
    rw [hmaker]
    by_cases hk : Holds k event.makerUserId cmd.marketId
    · exact .inl (hseen.recorded hk)
    · exact .of_nil (pairOf_of_not hk _) (hseen.kept hk)

theorem settleEvents_zero (hspec : engine.symbolSpecs.lookup cmd.marketId = some spec)
    (hmakers : ∀ event ∈ events, event.makerUserId ≠ cmd.userId)
    (howns : engine.userIdForThisHandler k.userId = true) (htaker : cmd.userId ≠ k.userId)
    (hok : AllOk (settleEvents engine cmd store events).2.2)
    (hzero : ∀ event ∈ events, event.size = 0) :
    (settleEvents engine cmd store events).1.read k = store.read k := by
  induction events generalizing store with
  | nil => rfl
  | cons event rest ih =>
    simp only [settleEvents] at hok ⊢
    obtain ⟨hok₁, hok₂⟩ := hok.of_append
    have hseen := settleEvent_seen hspec (hmakers event List.mem_cons_self) howns htaker hok₁
    rw [ih (fun e he => hmakers e (List.mem_cons_of_mem _ he)) hok₂
      (fun e he => hzero e (List.mem_cons_of_mem _ he)), hseen.zero (hzero event List.mem_cons_self)]

theorem settleEvents_read_ne (hspec : engine.symbolSpecs.lookup cmd.marketId = some spec)
    (hnot : ∀ userId, ¬Holds k userId cmd.marketId)
    (hok : AllOk (settleEvents engine cmd store events).2.2) :
    (settleEvents engine cmd store events).1.read k = store.read k := by
  induction events generalizing store with
  | nil => rfl
  | cons event rest ih =>
    simp only [settleEvents] at hok ⊢
    rw [ih hok.of_append.2, settleEvent_read_ne hspec hnot hok.of_append.1]

theorem makersOf_of_not {marketId : Nat}
    (hnot : ∀ event ∈ events, ¬Holds k event.makerUserId marketId) :
    makersOf k marketId events = [] := by
  rw [makersOf, List.flatMap_eq_nil_iff]
  intro event he
  exact pairOf_of_not (hnot event he) _

end Events

theorem finishTaker_read_ne (engine : RiskEngine) (store : BalanceStore) {cmd : OrderCommand}
    {k : BalanceKey} (hk : ¬Holds k cmd.userId cmd.marketId) :
    (finishTaker engine store cmd).1.read k = store.read k := by
  have hbase : ¬(cmd.userId = k.userId ∧ baseAsset cmd.marketId = k.assetId) :=
    fun heq => hk ⟨heq.1, .inl heq.2⟩
  have hquote : ¬(cmd.userId = k.userId ∧ quoteAsset cmd.marketId = k.assetId) :=
    fun heq => hk ⟨heq.1, .inr heq.2⟩
  simp only [finishTaker]
  split
  · simp only [RiskEngine.handleCancellation, RiskEngine.releaseFundsForOrder]
    split
    · rfl
    · cases cmd.side with
      | bid => exact unlockFunds_read_ne store hquote
      | ask => exact unlockFunds_read_ne store hbase
  · rfl

theorem finishTaker_cmd (engine : RiskEngine) (store : BalanceStore) (cmd : OrderCommand) :
    (finishTaker engine store cmd).2.1 = { cmd with balance :=
      ((finishTaker engine store cmd).1.getBalance cmd.userId (baseAsset cmd.marketId),
        (finishTaker engine store cmd).1.getBalance cmd.userId (quoteAsset cmd.marketId)) } := rfl

/-- A command that matching has decided. -/
structure Decided (cmd : OrderCommand) : Prop where
  command : cmd.command = .placeOrder ∨ cmd.command = .cancelOrder
  status : cmd.status ≠ .rejected ∧ cmd.status ≠ .processed ∧ cmd.status ≠ .processing
  makers : ∀ event ∈ cmd.events, event.makerUserId ≠ cmd.userId
  zero : cmd.status = .placed → ∀ event ∈ cmd.events, event.size = 0

/-- A decided command tells of the makers and then of the taker. -/
theorem Decided.snapshots_eq {cmd : OrderCommand} (h : Decided cmd) (k : BalanceKey)
    (events : List MatcherTradeEvent) (balance : UserBalance × UserBalance) :
    snapshots k { cmd with events, balance } =
      (if cmd.status = .placed then [] else makersOf k cmd.marketId events) ++
        pairOf k cmd.userId cmd.marketId balance := by
  obtain ⟨hrejected, hprocessed, hprocessing⟩ := h.status
  have hfunds : ¬(cmd.command = .depositFunds ∨ cmd.command = .withdrawFunds) := by
    rcases h.command with hc | hc <;> simp [hc]
  rw [VexCore.snapshots_eq, if_neg hprocessed, if_neg]
  rintro (hdeposit | hwithdraw | hr | hp)
  · exact hfunds (.inl hdeposit)
  · exact hfunds (.inr hwithdraw)
  · exact hrejected hr
  · exact hprocessing hp

section Handler

variable {engine : RiskEngine} {spec : CoreMarketSpecification} {cmd : OrderCommand}
  {k : BalanceKey}

/-- What a shard that settles a command leaves on an account of its users shows in what is
published for the command. -/
theorem riskR2Handler_follows (h : Decided cmd)
    (hspec : engine.symbolSpecs.lookup cmd.marketId = some spec)
    (howns : engine.userIdForThisHandler k.userId = true)
    (hok : AllOk (riskR2Handler engine cmd).2.2) :
    Follows (snapshots k (riskR2Handler engine cmd).2.1) (engine.balances.read k)
      ((riskR2Handler engine cmd).1.read k) := by
  have hdone : ¬(cmd.status = .rejected ∨ cmd.status = .processed) :=
    not_or.mpr ⟨h.status.1, h.status.2.1⟩
  obtain ⟨settled, hsettled⟩ : ∃ settled,
    settleEvents engine cmd engine.balances cmd.events = settled := ⟨_, rfl⟩
  by_cases htaker : cmd.userId = k.userId
  · -- the taker's own balances are taken at the end
    have howner : engine.userIdForThisHandler cmd.userId = true := by
      rw [htaker]
      exact howns
    obtain ⟨store, hstore⟩ : ∃ store,
      (finishTaker engine settled.1 { cmd with events := settled.2.1 }).1 = store := ⟨_, rfl⟩
    have hout : (riskR2Handler engine cmd).1 = store ∧ (riskR2Handler engine cmd).2.1 =
        { cmd with
          events := settled.2.1
          balance := (store.getBalance cmd.userId (baseAsset cmd.marketId),
            store.getBalance cmd.userId (quoteAsset cmd.marketId)) } := by
      simp only [riskR2Handler, if_neg hdone, if_pos howner, hsettled]
      exact ⟨hstore, by rw [finishTaker_cmd, hstore]⟩
    rw [hout.1, hout.2, h.snapshots_eq]
    by_cases hk : Holds k cmd.userId cmd.marketId
    · left
      rw [List.getLast?_append, @pairOf_getLast? _ _ _ hk _ (store.read k)]
      · rfl
      · intro hquote
        rw [BalanceStore.read, ← hk.1, ← hquote]
      · intro hquote
        rw [BalanceStore.read, ← hk.1, ← hk.2.resolve_right hquote]
    · have hnot : ∀ userId, ¬Holds k userId cmd.marketId := fun userId heq => hk ⟨htaker, heq.2⟩
      simp only [riskR2Handler, if_neg hdone, if_pos howner] at hok
      have hread := settleEvents_read_ne hspec hnot hok.of_append.1
      have hfinish : store.read k = settled.1.read k := by
        rw [← hstore]
        exact finishTaker_read_ne engine settled.1 hk
      rw [hsettled] at hread
      rw [hfinish, hread, pairOf_of_not hk, makersOf_of_not fun event _ => hnot event.makerUserId,
        ite_self]
      exact .refl _
  · have hk : ¬Holds k cmd.userId cmd.marketId := fun heq => htaker heq.1
    obtain ⟨balance, hout, hread, hlog⟩ : ∃ balance,
        (riskR2Handler engine cmd).2.1 = { cmd with events := settled.2.1, balance } ∧
        (riskR2Handler engine cmd).1.read k = settled.1.read k ∧ AllOk settled.2.2 := by
      by_cases howner : engine.userIdForThisHandler cmd.userId = true
      · simp only [riskR2Handler, if_neg hdone, if_pos howner, hsettled] at hok ⊢
        exact ⟨_, finishTaker_cmd _ _ _, finishTaker_read_ne engine settled.1 hk, hok.of_append.1⟩
      · simp only [riskR2Handler, if_neg hdone, if_neg howner, hsettled] at hok ⊢
        exact ⟨_, rfl, trivial, hok⟩
    rw [← hsettled] at hlog
    rw [hout, hread, h.snapshots_eq, pairOf_of_not hk, List.append_nil]
    by_cases hplaced : cmd.status = .placed
    · rw [if_pos hplaced, ← hsettled,
        settleEvents_zero hspec h.makers howns htaker hlog (h.zero hplaced)]
      exact .refl _
    · rw [if_neg hplaced, ← hsettled]
      exact settleEvents_follows hspec h.makers howns htaker hlog

theorem settleEvent_event_other {store : BalanceStore} {event : MatcherTradeEvent}
    (hmaker : engine.userIdForThisHandler event.makerUserId = false) :
    (settleEvent engine cmd store event).2.1 = event := by
  simp only [settleEvent, hmaker, Bool.false_eq_true, if_false]
  split
  · rename_i howner
    apply RiskEngine.handleTradeEvent_taker
    intro heq
    rw [heq, hmaker] at howner
    cases howner
  · rfl

theorem settleEvents_makers_other (hother : engine.userIdForThisHandler k.userId = false)
    (store : BalanceStore) (events : List MatcherTradeEvent) :
    makersOf k cmd.marketId (settleEvents engine cmd store events).2.1 =
      makersOf k cmd.marketId events := by
  induction events generalizing store with
  | nil => rfl
  | cons event rest ih =>
    have hfirst : pairOf k (settleEvent engine cmd store event).2.1.makerUserId cmd.marketId
        (settleEvent engine cmd store event).2.1.makerBalance =
          pairOf k event.makerUserId cmd.marketId event.makerBalance := by
      by_cases hmaker : event.makerUserId = k.userId
      · rw [← hmaker] at hother
        rw [settleEvent_event_other hother]
      · obtain ⟨balance, hevent⟩ := settleEvent_rebalanced engine cmd store event
        rw [hevent, pairOf_of_not fun hk => hmaker hk.1, pairOf_of_not fun hk => hmaker hk.1]
    have hrest := ih (settleEvent engine cmd store event).1
    simp only [makersOf, settleEvents, List.flatMap_cons] at hfirst hrest ⊢
    rw [hfirst, hrest]

/-- What is published of a key is for the shard of its user to say. -/
theorem riskR2Handler_snapshots_other (hother : engine.userIdForThisHandler k.userId = false) :
    snapshots k (riskR2Handler engine cmd).2.1 = snapshots k cmd := by
  have hmakers := @settleEvents_makers_other engine cmd k hother engine.balances cmd.events
  by_cases hdone : cmd.status = .rejected ∨ cmd.status = .processed
  · rw [riskR2Handler, if_pos hdone]
  · obtain ⟨balance, hout, hbalance⟩ : ∃ balance, (riskR2Handler engine cmd).2.1 =
        { cmd with events := (settleEvents engine cmd engine.balances cmd.events).2.1, balance } ∧
          (cmd.userId = k.userId → balance = cmd.balance) := by
      by_cases howner : engine.userIdForThisHandler cmd.userId = true
      · simp only [riskR2Handler, if_neg hdone, if_pos howner]
        refine ⟨_, finishTaker_cmd _ _ _, ?_⟩
        intro heq
        rw [heq, hother] at howner
        cases howner
      · simp only [riskR2Handler, if_neg hdone, if_neg howner]
        exact ⟨_, rfl, fun _ => rfl⟩
    rw [hout]
    exact @snapshots_congr k cmd _ rfl rfl rfl rfl hbalance hmakers

end Handler

end VexCore
