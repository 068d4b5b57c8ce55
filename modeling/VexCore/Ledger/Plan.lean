import VexCore.Framework.Escrow
import VexCore.Processors.Reservation
import VexCore.Server.Handlers

/-!
# The plan of a settlement

What R2 owes the accounts for a matched command, over unbounded integers: for every fill the
maker's and the taker's side, and a release of what is left. Where the arithmetic stays in range
and the accounts cover the plan, the R2 handler of a shard carries out the shard's part of it
and every call succeeds.
-/

namespace VexCore

open Framework

/-- The balances of a store as accounts. -/
def BalanceStore.accounts (store : BalanceStore) (k : BalanceKey) : Account :=
  { available := (store.getBalance k.userId k.assetId).available
    locked := (store.getBalance k.userId k.assetId).locked }

theorem BalanceStore.Same.accounts {store store' : BalanceStore} (h : store.Same store') :
    store'.accounts = store.accounts := by
  funext k
  rw [BalanceStore.accounts, BalanceStore.accounts, h]

theorem BalanceStore.accounts_setBalance (store : BalanceStore) (userId assetId : Nat)
    (balance : UserBalance) : (store.setBalance userId assetId balance).accounts =
      Function.update store.accounts ⟨userId, assetId⟩ ⟨balance.available, balance.locked⟩ := by
  funext k
  by_cases hk : k = ⟨userId, assetId⟩
  · subst hk
    rw [Function.update_self]
    simp [accounts, getBalance_setBalance]
  · have hne : ¬(k.userId = userId ∧ k.assetId = assetId) := by
      rintro ⟨rfl, rfl⟩
      exact hk rfl
    rw [Function.update_of_ne hk]
    simp [accounts, getBalance_setBalance, hne]

/-- The store has carried out a plan. -/
def Executes (store : BalanceStore) (plan : List (BalanceKey × Move)) (store' : BalanceStore) :
    Prop := store'.accounts = settle store.accounts plan

section Moves

variable {store : BalanceStore} {userId assetId amount : Nat}

theorem unlockFunds_executes
    (h : Covers (2 ^ 64) store.accounts [(⟨userId, assetId⟩, .release amount)]) :
    ∃ store', store.unlockFunds userId assetId amount = (store', .ok ()) ∧
      Executes store [(⟨userId, assetId⟩, .release amount)] store' := by
  have hk := h ⟨userId, assetId⟩
  simp only [tally_cons, tally_nil, if_true, Move.debit, Move.credit, Nat.add_zero,
    BalanceStore.accounts] at hk
  refine ⟨store.setBalance userId assetId
    { available := (store.getBalance userId assetId).available + amount
      locked := (store.getBalance userId assetId).locked - amount }, ?_, ?_⟩
  · unfold BalanceStore.unlockFunds
    simp only [ge_iff_le, if_pos hk.1, wrappingAdd_of_lt hk.2]
  · rw [Executes, settle_singleton, BalanceStore.accounts_setBalance]
    rfl

theorem subtractLockedFunds_executes
    (h : Covers (2 ^ 64) store.accounts [(⟨userId, assetId⟩, .spend amount)]) :
    ∃ store', store.subtractLockedFunds userId assetId amount =
        (store', .ok (store'.getBalance userId assetId)) ∧
      Executes store [(⟨userId, assetId⟩, .spend amount)] store' := by
  have hk := h ⟨userId, assetId⟩
  simp only [tally_cons, tally_nil, if_true, Move.debit, Move.credit, Nat.add_zero,
    BalanceStore.accounts] at hk
  refine ⟨store.setBalance userId assetId { store.getBalance userId assetId with
    locked := (store.getBalance userId assetId).locked - amount }, ?_, ?_⟩
  · unfold BalanceStore.subtractLockedFunds
    simp [hk.1, BalanceStore.getBalance_setBalance]
  · rw [Executes, settle_singleton, BalanceStore.accounts_setBalance]
    rfl

theorem addFunds_executes {fee : Nat}
    (h : Covers (2 ^ 64) store.accounts [(⟨userId, assetId⟩, .receive amount fee)]) :
    ∃ store', store.addFunds userId assetId amount =
        (store', .ok (store'.getBalance userId assetId)) ∧
      Executes store [(⟨userId, assetId⟩, .receive amount fee)] store' := by
  have hk := h ⟨userId, assetId⟩
  simp only [tally_cons, tally_nil, if_true, Move.debit, Move.credit, Nat.add_zero,
    BalanceStore.accounts] at hk
  refine ⟨store.setBalance userId assetId { store.getBalance userId assetId with
    available := (store.getBalance userId assetId).available + amount }, ?_, ?_⟩
  · unfold BalanceStore.addFunds
    simp [checkedAdd_of_lt hk.2, BalanceStore.getBalance_setBalance]
  · rw [Executes, settle_singleton, BalanceStore.accounts_setBalance]
    rfl

end Moves

theorem Executes.nil (store : BalanceStore) : Executes store [] store := rfl

theorem Executes.append {a b c : BalanceStore} {p q : List (BalanceKey × Move)}
    (hab : Executes a p b) (hbc : Executes b q c) : Executes a (p ++ q) c := by
  rw [Executes, hbc, hab, settle_append]

theorem Executes.next {a b : BalanceStore} {p q : List (BalanceKey × Move)}
    (hab : Executes a p b) (h : Covers (2 ^ 64) a.accounts (p ++ q)) :
    Covers (2 ^ 64) b.accounts q := by
  rw [hab]
  exact h.right

/-- What an order costs over unbounded integers. -/
def escrowed (spec : CoreMarketSpecification) (side : Side) (price size : Nat) : Nat :=
  match side with
  | .bid => spec.quoteCost price size
  | .ask => size

/-- What a user on a side of a trade spends, and receives after the fee. -/
def sidePlan (spec : CoreMarketSpecification) (marketId userId : Nat) (side : Side)
    (price size rate : Nat) : List (BalanceKey × Move) :=
  [(⟨userId, escrowAsset side marketId⟩, .spend (escrowed spec side price size)),
    (⟨userId, escrowAsset side.opSide marketId⟩,
      .receive (escrowed spec side.opSide price size -
          escrowed spec side.opSide price size * rate / 10000)
        (escrowed spec side.opSide price size * rate / 10000))]

/-- The improvement of a bid that trades at `price` below its limit. -/
def refund (spec : CoreMarketSpecification) (side : Side) (limit price size : Nat) : Nat :=
  match side with
  | .bid => spec.quoteCost (limit - price) size
  | .ask => 0

def makerPlan (spec : CoreMarketSpecification) (cmd : OrderCommand) (event : MatcherTradeEvent) :
    List (BalanceKey × Move) :=
  sidePlan spec cmd.marketId event.makerUserId cmd.side.opSide event.price event.size spec.makerFee

def takerPlan (spec : CoreMarketSpecification) (cmd : OrderCommand) (event : MatcherTradeEvent) :
    List (BalanceKey × Move) :=
  (⟨cmd.userId, quoteAsset cmd.marketId⟩,
      .release (refund spec cmd.side cmd.price event.price event.size)) ::
    sidePlan spec cmd.marketId cmd.userId cmd.side event.price event.size spec.takerFee

def releasePlan (spec : CoreMarketSpecification) (cmd : OrderCommand) :
    List (BalanceKey × Move) :=
  if shouldHandleCancellation cmd then
    [(⟨cmd.userId, escrowAsset cmd.side cmd.marketId⟩,
      .release (escrowed spec cmd.side cmd.price cmd.size))]
  else []

/-- Everything R2 owes for a matched command. -/
def settlementPlan (spec : CoreMarketSpecification) (cmd : OrderCommand) :
    List (BalanceKey × Move) :=
  if cmd.status = .rejected ∨ cmd.status = .processed then []
  else cmd.events.flatMap (fun event => makerPlan spec cmd event ++ takerPlan spec cmd event) ++
    releasePlan spec cmd

/-- The arithmetic of one event stays in range. -/
structure EventFits (spec : CoreMarketSpecification) (cmd : OrderCommand)
    (event : MatcherTradeEvent) : Prop where
  cost : spec.costFits event.price event.size = true
  size : event.size < 2 ^ 64
  improvement : cmd.side = .bid → event.price < cmd.price →
    spec.costFits (cmd.price - event.price) event.size = true
  makerFee : escrowed spec cmd.side event.price event.size * spec.makerFee < 2 ^ 64
  takerFee : escrowed spec cmd.side.opSide event.price event.size * spec.takerFee < 2 ^ 64

instance (spec : CoreMarketSpecification) (cmd : OrderCommand) (event : MatcherTradeEvent) :
    Decidable (EventFits spec cmd event) :=
  decidable_of_iff (spec.costFits event.price event.size = true ∧ event.size < 2 ^ 64 ∧
      (cmd.side = .bid → event.price < cmd.price →
        spec.costFits (cmd.price - event.price) event.size = true) ∧
      escrowed spec cmd.side event.price event.size * spec.makerFee < 2 ^ 64 ∧
      escrowed spec cmd.side.opSide event.price event.size * spec.takerFee < 2 ^ 64)
    ⟨fun ⟨hcost, hsize, himprovement, hmaker, htaker⟩ =>
        ⟨hcost, hsize, himprovement, hmaker, htaker⟩,
      fun h => ⟨h.cost, h.size, h.improvement, h.makerFee, h.takerFee⟩⟩

/-- The arithmetic of a settlement stays in range. -/
structure SettlementFits (spec : CoreMarketSpecification) (cmd : OrderCommand) : Prop where
  events : ∀ event ∈ cmd.events, EventFits spec cmd event
  release : shouldHandleCancellation cmd = true → cmd.side = .bid →
    spec.costFits cmd.price cmd.size = true

instance (spec : CoreMarketSpecification) (cmd : OrderCommand) :
    Decidable (SettlementFits spec cmd) :=
  decidable_of_iff ((∀ event ∈ cmd.events, EventFits spec cmd event) ∧
      (shouldHandleCancellation cmd = true → cmd.side = .bid →
        spec.costFits cmd.price cmd.size = true))
    ⟨fun ⟨hevents, hrelease⟩ => ⟨hevents, hrelease⟩, fun h => ⟨h.events, h.release⟩⟩

/-- No side of an event is charged more than it receives. -/
structure NetFits (spec : CoreMarketSpecification) (cmd : OrderCommand)
    (event : MatcherTradeEvent) : Prop where
  maker : escrowed spec cmd.side event.price event.size * spec.makerFee / 10000 ≤
    escrowed spec cmd.side event.price event.size
  taker : escrowed spec cmd.side.opSide event.price event.size * spec.takerFee / 10000 ≤
    escrowed spec cmd.side.opSide event.price event.size

instance (spec : CoreMarketSpecification) (cmd : OrderCommand) (event : MatcherTradeEvent) :
    Decidable (NetFits spec cmd event) :=
  decidable_of_iff (escrowed spec cmd.side event.price event.size * spec.makerFee / 10000 ≤
      escrowed spec cmd.side event.price event.size ∧
      escrowed spec cmd.side.opSide event.price event.size * spec.takerFee / 10000 ≤
        escrowed spec cmd.side.opSide event.price event.size)
    ⟨fun ⟨hmaker, htaker⟩ => ⟨hmaker, htaker⟩, fun h => ⟨h.maker, h.taker⟩⟩

/-- Fees are at most the whole. -/
def FeesBounded (spec : CoreMarketSpecification) : Prop :=
  spec.takerFee ≤ 10000 ∧ spec.makerFee ≤ 10000

instance (spec : CoreMarketSpecification) : Decidable (FeesBounded spec) :=
  inferInstanceAs (Decidable (_ ∧ _))

theorem escrowAmount_eq {spec : CoreMarketSpecification} {side : Side} {price size : Nat}
    (h : side = .bid → spec.costFits price size = true) :
    escrowAmount spec side price size = escrowed spec side price size := by
  cases side with
  | ask => rfl
  | bid => exact CoreMarketSpecification.calculateQuoteCost_of_fits (h rfl)

theorem escrowed_lt_of_cost {spec : CoreMarketSpecification} {price size : Nat} (side : Side)
    (hcost : spec.quoteCost price size < 2 ^ 64) (hsize : size < 2 ^ 64) :
    escrowed spec side price size < 2 ^ 64 := by
  cases side with
  | ask => exact hsize
  | bid => exact hcost

theorem escrowed_lt {spec : CoreMarketSpecification} {price size : Nat} (side : Side)
    (hcost : spec.costFits price size = true) (hsize : size < 2 ^ 64) :
    escrowed spec side price size < 2 ^ 64 := by
  simp only [CoreMarketSpecification.costFits, Bool.and_eq_true, decide_eq_true_eq] at hcost
  exact escrowed_lt_of_cost side hcost.2 hsize

theorem feeOn_eq {gross rate : Nat} (h : gross * rate < 2 ^ 64) :
    RiskEngine.feeOn gross rate = gross * rate / 10000 := by
  rw [RiskEngine.feeOn, wrappingMul_of_lt h]

theorem fee_le {gross rate : Nat} (h : rate ≤ 10000) : gross * rate / 10000 ≤ gross := by
  apply Nat.div_le_of_le_mul
  rw [Nat.mul_comm 10000]
  exact Nat.mul_le_mul_left gross h

/-- Fees up to the whole are never more than what they are cut from. -/
theorem FeesBounded.net {spec : CoreMarketSpecification} (h : FeesBounded spec)
    (cmd : OrderCommand) (event : MatcherTradeEvent) : NetFits spec cmd event :=
  ⟨fee_le h.2, fee_le h.1⟩

theorem tradeLegs_eq (spec : CoreMarketSpecification) (marketId : Nat) (side : Side)
    (event : MatcherTradeEvent) : RiskEngine.tradeLegs spec marketId side event =
      { assetToSubtract := escrowAsset side marketId
        amountToSubtract := escrowAmount spec side event.price event.size
        assetToAdd := escrowAsset side.opSide marketId
        gross := escrowAmount spec side.opSide event.price event.size } := by
  cases side <;> rfl

theorem settleTrade_of_steps {store : BalanceStore} {userId marketId : Nat} {userSide : Side}
    {event : MatcherTradeEvent} {spec : CoreMarketSpecification} {takerPrice : Option Nat}
    {store₁ store₂ store₃ : BalanceStore} {balanceSub balanceAdd : UserBalance}
    (hrefund : RiskEngine.refundImprovement store userId marketId
      (RiskEngine.priceImprovement spec (userId == event.makerUserId) userSide event takerPrice) =
        (store₁, .ok ()))
    (hspend : store₁.subtractLockedFunds userId
        (RiskEngine.tradeLegs spec marketId userSide event).assetToSubtract
        (RiskEngine.tradeLegs spec marketId userSide event).amountToSubtract =
      (store₂, .ok balanceSub))
    (hreceive : store₂.addFunds userId
        (RiskEngine.tradeLegs spec marketId userSide event).assetToAdd
        (wrappingSub 64 (RiskEngine.tradeLegs spec marketId userSide event).gross
          (RiskEngine.feeOn (RiskEngine.tradeLegs spec marketId userSide event).gross
            (RiskEngine.feeRate spec (userId == event.makerUserId)))) = (store₃, .ok balanceAdd)) :
    RiskEngine.settleTrade store userId marketId userSide event spec takerPrice =
      (store₃, if userId == event.makerUserId then
        RiskEngine.recordMakerBalance event marketId
          (RiskEngine.tradeLegs spec marketId userSide event) balanceSub balanceAdd else event,
        .ok ()) := by
  unfold RiskEngine.settleTrade
  simp only
  rw [hrefund]
  simp only
  rw [hspend]
  simp only
  rw [hreceive]

/-- A trade side whose refund and plan are covered is settled. -/
theorem settleTrade_executes {store : BalanceStore} {userId marketId : Nat} {side : Side}
    {event : MatcherTradeEvent} {spec : CoreMarketSpecification} {takerPrice : Option Nat}
    {refunds : List (BalanceKey × Move)}
    (hrefund : ∃ store', RiskEngine.refundImprovement store userId marketId
        (RiskEngine.priceImprovement spec (userId == event.makerUserId) side event takerPrice) =
          (store', .ok ()) ∧ Executes store refunds store')
    (hcost : spec.costFits event.price event.size = true) (hsize : event.size < 2 ^ 64)
    (hnet : escrowed spec side.opSide event.price event.size *
        RiskEngine.feeRate spec (userId == event.makerUserId) / 10000 ≤
      escrowed spec side.opSide event.price event.size)
    (hfee : escrowed spec side.opSide event.price event.size *
      RiskEngine.feeRate spec (userId == event.makerUserId) < 2 ^ 64)
    (covers : Covers (2 ^ 64) store.accounts (refunds ++ sidePlan spec marketId userId side
      event.price event.size (RiskEngine.feeRate spec (userId == event.makerUserId)))) :
    ∃ store' event', RiskEngine.settleTrade store userId marketId side event spec takerPrice =
        (store', event', .ok ()) ∧
      Executes store (refunds ++ sidePlan spec marketId userId side event.price event.size
        (RiskEngine.feeRate spec (userId == event.makerUserId))) store' := by
  obtain ⟨store₁, heq₁, hexec₁⟩ := hrefund
  have hcovers₁ := hexec₁.next covers
  have hspend : Covers (2 ^ 64) store₁.accounts
      [(⟨userId, escrowAsset side marketId⟩, .spend (escrowed spec side event.price event.size))] :=
    hcovers₁.left (q := [_])
  obtain ⟨store₂, heq₂, hexec₂⟩ := subtractLockedFunds_executes hspend
  have hreceive := hexec₂.next (q := [_]) hcovers₁
  obtain ⟨store₃, heq₃, hexec₃⟩ := addFunds_executes hreceive
  have hgross := escrowed_lt side.opSide hcost hsize
  have hwithheld : wrappingSub 64 (escrowed spec side.opSide event.price event.size)
      (RiskEngine.feeOn (escrowed spec side.opSide event.price event.size)
        (RiskEngine.feeRate spec (userId == event.makerUserId))) =
        escrowed spec side.opSide event.price event.size -
          escrowed spec side.opSide event.price event.size *
            RiskEngine.feeRate spec (userId == event.makerUserId) / 10000 := by
    rw [feeOn_eq hfee, wrappingSub_of_le hnet hgross]
  have hamount (t : Side) : escrowAmount spec t event.price event.size =
      escrowed spec t event.price event.size := escrowAmount_eq fun _ => hcost
  have hlegs := tradeLegs_eq spec marketId side event
  rw [hamount, hamount] at hlegs
  rw [← hwithheld] at heq₃
  refine ⟨store₃, _, @settleTrade_of_steps _ _ _ _ _ _ _ _ store₂ _
    (store₂.getBalance userId (escrowAsset side marketId))
    (store₃.getBalance userId (escrowAsset side.opSide marketId)) heq₁ ?_ ?_,
    hexec₁.append (hexec₂.append hexec₃)⟩
  · rw [hlegs]
    exact heq₂
  · rw [hlegs]
    exact heq₃

theorem subtractLockedFunds_ok {store store' : BalanceStore} {userId assetId amount : Nat}
    {balance : UserBalance}
    (h : store.subtractLockedFunds userId assetId amount = (store', .ok balance)) :
    Executes store [(⟨userId, assetId⟩, .spend amount)] store' := by
  unfold BalanceStore.subtractLockedFunds at h
  simp only at h
  split at h
  · rw [Prod.mk.injEq] at h
    rw [Executes, ← h.1, settle_singleton, BalanceStore.accounts_setBalance]
    rfl
  · rw [Prod.mk.injEq] at h
    cases h.2

theorem addFunds_ok {store store' : BalanceStore} {userId assetId amount : Nat}
    {balance : UserBalance}
    (h : store.addFunds userId assetId amount = (store', .ok balance)) (fee : Nat) :
    Executes store [(⟨userId, assetId⟩, .receive amount fee)] store' := by
  unfold BalanceStore.addFunds at h
  simp only at h
  split at h
  · rename_i available hsum
    obtain ⟨_, rfl⟩ := checkedAdd_eq_some.mp hsum
    rw [Prod.mk.injEq] at h
    rw [Executes, ← h.1, settle_singleton, BalanceStore.accounts_setBalance]
    rfl
  · rw [Prod.mk.injEq] at h
    cases h.2

/-- A settlement that returns `Ok` has moved its two legs, after the refund. -/
theorem settleTrade_ok {store store' : BalanceStore} {userId marketId : Nat} {userSide : Side}
    {event event' : MatcherTradeEvent} {spec : CoreMarketSpecification} {takerPrice : Option Nat}
    (h : RiskEngine.settleTrade store userId marketId userSide event spec takerPrice =
      (store', event', .ok ())) (fee : Nat) :
    ∃ refunded, RiskEngine.refundImprovement store userId marketId
        (RiskEngine.priceImprovement spec (userId == event.makerUserId) userSide event
          takerPrice) = (refunded, .ok ()) ∧
      Executes refunded
        [(⟨userId, (RiskEngine.tradeLegs spec marketId userSide event).assetToSubtract⟩,
            .spend (RiskEngine.tradeLegs spec marketId userSide event).amountToSubtract),
          (⟨userId, (RiskEngine.tradeLegs spec marketId userSide event).assetToAdd⟩,
            .receive (wrappingSub 64 (RiskEngine.tradeLegs spec marketId userSide event).gross
              (RiskEngine.feeOn (RiskEngine.tradeLegs spec marketId userSide event).gross
                (RiskEngine.feeRate spec (userId == event.makerUserId)))) fee)] store' := by
  unfold RiskEngine.settleTrade at h
  simp only at h
  split at h
  · cases congrArg (fun out => out.2.2) h
  · rename_i refunded _ hrefund
    refine ⟨refunded, hrefund, ?_⟩
    split at h
    · cases congrArg (fun out => out.2.2) h
    · rename_i spent balanceSub hspend
      split at h
      · cases congrArg (fun out => out.2.2) h
      · rename_i received balanceAdd hreceive
        have hstore : received = store' := congrArg Prod.fst h
        rw [← hstore]
        exact (subtractLockedFunds_ok hspend).append (addFunds_ok hreceive fee)

end VexCore
