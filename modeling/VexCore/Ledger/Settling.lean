import VexCore.Ledger.Plan
import VexCore.Server.Frames

/-!
# R2 carries out the plan

Where a shard's accounts cover its part of a settlement and the arithmetic stays in range, every
call R2 makes succeeds, and together the calls are the moves of the plan.
-/

namespace VexCore

open Framework

/-- The part of a plan that moves accounts of a shard. -/
def ownPart (engine : RiskEngine) (plan : List (BalanceKey × Move)) : List (BalanceKey × Move) :=
  plan.filter fun e => engine.userIdForThisHandler e.1.userId

/-- The fees a log withheld in an asset. -/
def feesIn (log : List Settlement) (assetId : Nat) : Nat :=
  (log.map fun e => if e.feeAsset = assetId then e.fee else 0).sum

theorem feesIn_append (l m : List Settlement) (assetId : Nat) :
    feesIn (l ++ m) assetId = feesIn l assetId + feesIn m assetId := by
  simp [feesIn]

/-- Calls that all succeed and together carry out a plan, with the fees it withholds. -/
structure CarriesOut (store : BalanceStore) (plan : List (BalanceKey × Move))
    (store' : BalanceStore) (log : List Settlement) : Prop where
  executes : Executes store plan store'
  ok : ∀ e ∈ log, e.result = .ok ()
  fees : ∀ assetId, feesIn log assetId =
    tallyAt Move.withheld plan fun k => decide (k.assetId = assetId)

namespace CarriesOut

theorem nil (store : BalanceStore) : CarriesOut store [] store [] :=
  ⟨.nil store, by simp, fun _ => rfl⟩

theorem append {a b c : BalanceStore} {p q : List (BalanceKey × Move)} {l m : List Settlement}
    (hab : CarriesOut a p b l) (hbc : CarriesOut b q c m) : CarriesOut a (p ++ q) c (l ++ m) where
  executes := hab.executes.append hbc.executes
  ok e he := (List.mem_append.mp he).elim (hab.ok e) (hbc.ok e)
  fees assetId := by rw [feesIn_append, hab.fees, hbc.fees, tallyAt_append]

end CarriesOut

section Event

variable {engine : RiskEngine} {spec : CoreMarketSpecification} {cmd : OrderCommand}
  {store : BalanceStore} {event : MatcherTradeEvent}

theorem handleTradeEvent_settled {userId marketId : Nat} {side : Side} {takerPrice : Option Nat}
    {store' : BalanceStore} {event' : MatcherTradeEvent}
    (hspec : engine.symbolSpecs.lookup marketId = some spec)
    (hsettle : RiskEngine.settleTrade store userId marketId side event spec takerPrice =
      (store', event', .ok ())) :
    engine.handleTradeEvent store userId marketId side event takerPrice =
      (store', event', [⟨userId, .ok (),
        (RiskEngine.tradeLegs spec marketId side event).assetToAdd,
        RiskEngine.feeOn (RiskEngine.tradeLegs spec marketId side event).gross
          (RiskEngine.feeRate spec (userId == event.makerUserId))⟩]) := by
  unfold RiskEngine.handleTradeEvent
  rw [hspec]
  simp only [hsettle]

theorem handleTradeEvent_carriesOut (refunds : List (BalanceKey × Move)) {userId : Nat} {side : Side}
    {takerPrice : Option Nat} {rate : Nat}
    (hspec : engine.symbolSpecs.lookup cmd.marketId = some spec)
    (hrefund : ∃ store', RiskEngine.refundImprovement store userId cmd.marketId
        (RiskEngine.priceImprovement spec (userId == event.makerUserId) side event takerPrice) =
          (store', .ok ()) ∧ Executes store refunds store')
    (hwithheld : ∀ here, tallyAt Move.withheld refunds here = 0)
    (hrate : RiskEngine.feeRate spec (userId == event.makerUserId) = rate)
    (hnet : escrowed spec side.opSide event.price event.size * rate / 10000 ≤
      escrowed spec side.opSide event.price event.size)
    (hcost : spec.costFits event.price event.size = true) (hsize : event.size < 2 ^ 64)
    (hfee : escrowed spec side.opSide event.price event.size * rate < 2 ^ 64)
    (covers : Covers (2 ^ 64) store.accounts (refunds ++ sidePlan spec cmd.marketId userId side
      event.price event.size rate)) :
    CarriesOut store (refunds ++ sidePlan spec cmd.marketId userId side event.price event.size rate)
      (engine.handleTradeEvent store userId cmd.marketId side event takerPrice).1
      (engine.handleTradeEvent store userId cmd.marketId side event takerPrice).2.2 := by
  subst hrate
  obtain ⟨store', event', hsettle, hexec⟩ :=
    settleTrade_executes hrefund hcost hsize hnet hfee covers
  rw [handleTradeEvent_settled hspec hsettle]
  refine ⟨hexec, by simp, ?_⟩
  intro assetId
  have hgross : (RiskEngine.tradeLegs spec cmd.marketId side event).gross =
      escrowed spec side.opSide event.price event.size := by
    rw [tradeLegs_eq]
    exact escrowAmount_eq fun _ => hcost
  have hasset : (RiskEngine.tradeLegs spec cmd.marketId side event).assetToAdd =
      escrowAsset side.opSide cmd.marketId := by
    rw [tradeLegs_eq]
  rw [tallyAt_append, hwithheld, hgross, hasset, feeOn_eq hfee]
  simp [feesIn, sidePlan, Move.withheld]

theorem makerPlan_carriedOut (hspec : engine.symbolSpecs.lookup cmd.marketId = some spec)
    (hnet : NetFits spec cmd event) (hfits : EventFits spec cmd event)
    (covers : Covers (2 ^ 64) store.accounts (makerPlan spec cmd event)) :
    CarriesOut store (makerPlan spec cmd event)
      (engine.handleTradeEvent store event.makerUserId cmd.marketId cmd.side.opSide event none).1
      (engine.handleTradeEvent store event.makerUserId cmd.marketId cmd.side.opSide event
        none).2.2 := by
  have hfee := hfits.makerFee
  have hmaker := hnet.maker
  rw [← cmd.side.opSide_opSide] at hfee hmaker
  exact handleTradeEvent_carriesOut [] hspec ⟨store, rfl, .nil store⟩ (fun _ => rfl)
    (by simp [RiskEngine.feeRate]) hmaker hfits.cost hfits.size hfee covers

theorem refund_executes (hmaker : event.makerUserId ≠ cmd.userId)
    (hfits : EventFits spec cmd event)
    (covers : Covers (2 ^ 64) store.accounts
      [(⟨cmd.userId, quoteAsset cmd.marketId⟩,
        .release (refund spec cmd.side cmd.price event.price event.size))]) :
    ∃ store', RiskEngine.refundImprovement store cmd.userId cmd.marketId
        (RiskEngine.priceImprovement spec (cmd.userId == event.makerUserId) cmd.side event
          (some cmd.price)) = (store', .ok ()) ∧
      Executes store [(⟨cmd.userId, quoteAsset cmd.marketId⟩,
        .release (refund spec cmd.side cmd.price event.price event.size))] store' := by
  have htaker : (cmd.userId == event.makerUserId) = false :=
    beq_eq_false_iff_ne.mpr (Ne.symm hmaker)
  have hnone : ∀ k, Executes store [(k, .release 0)] store := by
    intro k
    rw [Executes, settle_singleton]
    exact (Function.update_eq_self k store.accounts).symm
  cases hside : cmd.side with
  | ask => exact ⟨store, by simp [RiskEngine.priceImprovement, htaker]; rfl, hnone _⟩
  | bid =>
    rw [hside] at covers
    by_cases himproved : event.price < cmd.price
    · have hcost := CoreMarketSpecification.calculateQuoteCost_of_fits
        (hfits.improvement hside himproved)
      have himprovement : RiskEngine.priceImprovement spec (cmd.userId == event.makerUserId) .bid
          event (some cmd.price) = some (spec.quoteCost (cmd.price - event.price) event.size) := by
        rw [RiskEngine.priceImprovement, htaker, hcost]
        simp [himproved]
      rw [himprovement]
      exact unlockFunds_executes covers
    · have himprovement : RiskEngine.priceImprovement spec (cmd.userId == event.makerUserId) .bid
          event (some cmd.price) = none := by
        rw [RiskEngine.priceImprovement, htaker]
        simp [himproved]
      have hzero : refund spec .bid cmd.price event.price event.size = 0 := by
        rw [refund, Nat.sub_eq_zero_of_le (Nat.le_of_not_lt himproved)]
        exact spec.quoteCost_zero_price _
      rw [himprovement, hzero]
      exact ⟨store, rfl, hnone _⟩

theorem takerPlan_carriedOut (hspec : engine.symbolSpecs.lookup cmd.marketId = some spec)
    (hnet : NetFits spec cmd event) (hmaker : event.makerUserId ≠ cmd.userId)
    (hfits : EventFits spec cmd event)
    (covers : Covers (2 ^ 64) store.accounts (takerPlan spec cmd event)) :
    CarriesOut store (takerPlan spec cmd event)
      (engine.handleTradeEvent store cmd.userId cmd.marketId cmd.side event (some cmd.price)).1
      (engine.handleTradeEvent store cmd.userId cmd.marketId cmd.side event
        (some cmd.price)).2.2 := by
  have hrefund := refund_executes hmaker hfits (covers.left (p := [_]))
  have hrate : RiskEngine.feeRate spec (cmd.userId == event.makerUserId) = spec.takerFee := by
    rw [beq_eq_false_iff_ne.mpr (Ne.symm hmaker)]
    rfl
  exact handleTradeEvent_carriesOut [_] hspec hrefund (fun _ => by simp [Move.withheld])
    hrate hnet.taker hfits.cost hfits.size hfits.takerFee covers

end Event

section OwnPart

variable {engine : RiskEngine}

@[simp] theorem ownPart_nil : ownPart engine [] = [] := rfl

@[simp] theorem ownPart_append (p q : List (BalanceKey × Move)) :
    ownPart engine (p ++ q) = ownPart engine p ++ ownPart engine q := List.filter_append ..

theorem tally_ownPart (measure : Move → Nat) (plan : List (BalanceKey × Move)) {k : BalanceKey}
    (h : engine.userIdForThisHandler k.userId = true) :
    tally measure (ownPart engine plan) k = tally measure plan k :=
  @tally_filter BalanceKey _ measure (fun k => engine.userIdForThisHandler k.userId) plan k h

theorem tally_ownPart_of_not (measure : Move → Nat) (plan : List (BalanceKey × Move))
    {k : BalanceKey} (h : engine.userIdForThisHandler k.userId = false) :
    tally measure (ownPart engine plan) k = 0 :=
  @tally_filter_of_not BalanceKey _ measure (fun k => engine.userIdForThisHandler k.userId) plan k h

theorem tallyAt_ownPart (measure : Move → Nat) (plan : List (BalanceKey × Move))
    (here : BalanceKey → Bool) : tallyAt measure (ownPart engine plan) here =
      tallyAt measure plan fun k => engine.userIdForThisHandler k.userId && here k :=
  tallyAt_filter measure (fun k : BalanceKey => engine.userIdForThisHandler k.userId) here plan

theorem ownPart_user {plan : List (BalanceKey × Move)} {userId : Nat}
    (h : ∀ e ∈ plan, e.1.userId = userId) :
    ownPart engine plan = if engine.userIdForThisHandler userId then plan else [] := by
  unfold ownPart
  by_cases howns : engine.userIdForThisHandler userId = true
  · rw [if_pos howns, List.filter_eq_self]
    intro e he
    rwa [h e he]
  · rw [if_neg howns, List.filter_eq_nil_iff]
    intro e he
    rwa [h e he]

end OwnPart

section Settlement

variable {engine : RiskEngine} {spec : CoreMarketSpecification} {cmd : OrderCommand}

theorem makerPlan_user (event : MatcherTradeEvent) :
    ∀ e ∈ makerPlan spec cmd event, e.1.userId = event.makerUserId := by
  simp [makerPlan, sidePlan]

theorem takerPlan_user (event : MatcherTradeEvent) :
    ∀ e ∈ takerPlan spec cmd event, e.1.userId = cmd.userId := by
  simp [takerPlan, sidePlan]

theorem releasePlan_user : ∀ e ∈ releasePlan spec cmd, e.1.userId = cmd.userId := by
  unfold releasePlan
  split <;> simp

theorem takerPlan_rebalanced {event event' : MatcherTradeEvent} (h : Rebalanced event event') :
    takerPlan spec cmd event' = takerPlan spec cmd event := by
  obtain ⟨balance, rfl⟩ := h
  rfl

theorem NetFits.rebalanced {event event' : MatcherTradeEvent} (hnet : NetFits spec cmd event)
    (h : Rebalanced event event') : NetFits spec cmd event' := by
  obtain ⟨balance, rfl⟩ := h
  exact ⟨hnet.maker, hnet.taker⟩

theorem EventFits.rebalanced {event event' : MatcherTradeEvent} (hfits : EventFits spec cmd event)
    (h : Rebalanced event event') : EventFits spec cmd event' := by
  obtain ⟨balance, rfl⟩ := h
  exact ⟨hfits.cost, hfits.size, hfits.improvement, hfits.makerFee, hfits.takerFee⟩

variable (hspec : engine.symbolSpecs.lookup cmd.marketId = some spec)

include hspec

theorem settleEvent_carriesOut {store : BalanceStore} {event : MatcherTradeEvent}
    (hmaker : event.makerUserId ≠ cmd.userId) (hfits : EventFits spec cmd event)
    (hnet : NetFits spec cmd event) (covers : Covers (2 ^ 64) store.accounts
      (ownPart engine (makerPlan spec cmd event ++ takerPlan spec cmd event))) :
    CarriesOut store (ownPart engine (makerPlan spec cmd event ++ takerPlan spec cmd event))
      (settleEvent engine cmd store event).1 (settleEvent engine cmd store event).2.2 := by
  rw [ownPart_append, ownPart_user (makerPlan_user event), ownPart_user (takerPlan_user event)]
    at covers ⊢
  by_cases hown : engine.userIdForThisHandler event.makerUserId = true
  · have hrebalanced := handleTradeEvent_event engine store event.makerUserId cmd.marketId
      cmd.side.opSide event none
    rw [if_pos hown] at covers ⊢
    have hfirst := makerPlan_carriedOut hspec hnet hfits covers.left
    have hcovers := hfirst.executes.next covers
    by_cases htaker : engine.userIdForThisHandler cmd.userId = true
    · rw [if_pos htaker] at hcovers ⊢
      obtain ⟨balance, hevent⟩ := hrebalanced
      have hmaker' : (engine.handleTradeEvent store event.makerUserId cmd.marketId
          cmd.side.opSide event none).2.1.makerUserId ≠ cmd.userId := by
        rw [hevent]
        exact hmaker
      rw [← takerPlan_rebalanced ⟨balance, hevent⟩] at hcovers ⊢
      have hsecond := takerPlan_carriedOut hspec (hnet.rebalanced ⟨balance, hevent⟩) hmaker'
        (hfits.rebalanced ⟨balance, hevent⟩) hcovers
      simp only [settleEvent, if_pos hown, if_pos htaker]
      exact hfirst.append hsecond
    · simp only [settleEvent, if_pos hown, if_neg htaker, List.append_nil]
      exact hfirst
  · rw [if_neg hown, List.nil_append] at covers ⊢
    by_cases htaker : engine.userIdForThisHandler cmd.userId = true
    · rw [if_pos htaker] at covers ⊢
      simp only [settleEvent, if_neg hown, if_pos htaker, List.nil_append]
      exact takerPlan_carriedOut hspec hnet hmaker hfits covers
    · rw [if_neg htaker]
      simp only [settleEvent, if_neg hown, if_neg htaker, List.append_nil]
      exact .nil store

theorem settleEvents_carriesOut {store : BalanceStore} {events : List MatcherTradeEvent}
    (hmakers : ∀ event ∈ events, event.makerUserId ≠ cmd.userId)
    (hfits : ∀ event ∈ events, EventFits spec cmd event)
    (hnets : ∀ event ∈ events, NetFits spec cmd event)
    (covers : Covers (2 ^ 64) store.accounts (ownPart engine
      (events.flatMap fun event => makerPlan spec cmd event ++ takerPlan spec cmd event))) :
    CarriesOut store (ownPart engine
        (events.flatMap fun event => makerPlan spec cmd event ++ takerPlan spec cmd event))
      (settleEvents engine cmd store events).1 (settleEvents engine cmd store events).2.2 := by
  induction events generalizing store with
  | nil => exact .nil store
  | cons event rest ih =>
    rw [List.flatMap_cons, ownPart_append] at covers ⊢
    have hfirst := settleEvent_carriesOut hspec (hmakers event List.mem_cons_self)
      (hfits event List.mem_cons_self) (hnets event List.mem_cons_self) covers.left
    have hrest := ih (fun e he => hmakers e (List.mem_cons_of_mem _ he))
      (fun e he => hfits e (List.mem_cons_of_mem _ he))
      (fun e he => hnets e (List.mem_cons_of_mem _ he)) (hfirst.executes.next covers)
    simp only [settleEvents]
    exact hfirst.append hrest

theorem finishTaker_carriesOut {store : BalanceStore} (events : List MatcherTradeEvent)
    (hfits : shouldHandleCancellation cmd = true → cmd.side = .bid →
      spec.costFits cmd.price cmd.size = true)
    (covers : Covers (2 ^ 64) store.accounts (releasePlan spec cmd)) :
    CarriesOut store (releasePlan spec cmd) (finishTaker engine store { cmd with events }).1
      (finishTaker engine store { cmd with events }).2.2 := by
  have hsame : shouldHandleCancellation { cmd with events } = shouldHandleCancellation cmd := rfl
  unfold releasePlan at covers ⊢
  unfold finishTaker
  rw [hsame]
  cases hreleases : shouldHandleCancellation cmd with
  | false => exact .nil store
  | true =>
    rw [hreleases, if_pos rfl] at covers
    obtain ⟨store', hunlock, hexec⟩ := unlockFunds_executes covers
    have hamount := escrowAmount_eq fun hbid => hfits hreleases hbid
    have hrelease : engine.handleCancellation store { cmd with events } =
        (store', [⟨cmd.userId, .ok (), baseAsset cmd.marketId, 0⟩]) := by
      rw [← hamount] at hunlock
      unfold RiskEngine.handleCancellation RiskEngine.releaseFundsForOrder
      dsimp only
      rw [hspec]
      cases hside : cmd.side with
      | bid =>
        rw [hside] at hunlock
        change store.unlockFunds cmd.userId (quoteAsset cmd.marketId)
          (spec.calculateQuoteCost cmd.price cmd.size) = _ at hunlock
        simp only [hunlock]
        rfl
      | ask =>
        rw [hside] at hunlock
        change store.unlockFunds cmd.userId (baseAsset cmd.marketId) cmd.size = _ at hunlock
        simp only [hunlock]
        rfl
    simp only [if_true, hrelease]
    refine ⟨hexec, by simp, ?_⟩
    intro assetId
    simp [feesIn, Move.withheld]

/-- A shard's part of a settlement that its accounts cover. -/
theorem riskR2Handler_carriesOut (hmakers : ∀ event ∈ cmd.events, event.makerUserId ≠ cmd.userId)
    (hfits : ¬(cmd.status = .rejected ∨ cmd.status = .processed) → SettlementFits spec cmd)
    (hnets : ∀ event ∈ cmd.events, NetFits spec cmd event)
    (covers : Covers (2 ^ 64) engine.balances.accounts
      (ownPart engine (settlementPlan spec cmd))) :
    CarriesOut engine.balances (ownPart engine (settlementPlan spec cmd)) (riskR2Handler engine cmd).1
      (riskR2Handler engine cmd).2.2 := by
  by_cases hdone : cmd.status = .rejected ∨ cmd.status = .processed
  · rw [settlementPlan, if_pos hdone, ownPart_nil, riskR2Handler, if_pos hdone]
    exact .nil _
  · rw [settlementPlan, if_neg hdone, ownPart_append] at covers ⊢
    have hevents := settleEvents_carriesOut hspec hmakers (hfits hdone).events hnets covers.left
    have hcovers := hevents.executes.next covers
    unfold riskR2Handler
    rw [if_neg hdone]
    rw [ownPart_user releasePlan_user] at hcovers ⊢
    dsimp only
    by_cases htaker : engine.userIdForThisHandler cmd.userId = true
    · rw [if_pos htaker] at hcovers ⊢
      rw [if_pos htaker]
      exact hevents.append (finishTaker_carriesOut hspec _ (hfits hdone).release hcovers)
    · rw [if_neg htaker, if_neg htaker, List.append_nil]
      exact hevents

end Settlement

end VexCore
