import VexCore.Processors.Reservation

/-!
# All or nothing in a settlement

`settle_trade` refunds, debits and credits one after the other, and returns at the first step
that fails. What the steps before it have moved stays moved.
-/

namespace VexCore

open Framework

namespace BalanceStore

/-- The balances are pairs of machine words. -/
def Words (store : BalanceStore) : Prop :=
  ∀ u a, (store.getBalance u a).available < 2 ^ 64 ∧ (store.getBalance u a).locked < 2 ^ 64

variable (store : BalanceStore) (userId assetId amount : Nat)

theorem unlockFunds_cases :
    (amount ≤ (store.getBalance userId assetId).locked ∧
      store.unlockFunds userId assetId amount =
        (store.setBalance userId assetId
          { available := wrappingAdd 64 (store.getBalance userId assetId).available amount
            locked := (store.getBalance userId assetId).locked - amount }, .ok ())) ∨
    ((store.getBalance userId assetId).locked < amount ∧
      ∃ e, (store.unlockFunds userId assetId amount).2 = .error e ∧
        store.Same (store.unlockFunds userId assetId amount).1) := by
  unfold unlockFunds
  by_cases h : amount ≤ (store.getBalance userId assetId).locked
  · exact .inl ⟨h, by simp [h]⟩
  · simp only [ge_iff_le, if_neg h]
    exact .inr ⟨Nat.lt_of_not_le h, _, rfl, .setBalance store userId assetId⟩

theorem subtractLockedFunds_cases :
    (∃ balance, amount ≤ (store.getBalance userId assetId).locked ∧
      balance = { store.getBalance userId assetId with
        locked := (store.getBalance userId assetId).locked - amount } ∧
      store.subtractLockedFunds userId assetId amount =
        (store.setBalance userId assetId balance, .ok balance)) ∨
    ((store.getBalance userId assetId).locked < amount ∧
      ∃ e, (store.subtractLockedFunds userId assetId amount).2 = .error e ∧
        store.Same (store.subtractLockedFunds userId assetId amount).1) := by
  unfold subtractLockedFunds
  by_cases h : amount ≤ (store.getBalance userId assetId).locked
  · exact .inl ⟨_, h, rfl, by simp [h]⟩
  · simp only [ge_iff_le, if_neg h]
    exact .inr ⟨Nat.lt_of_not_le h, _, rfl, .setBalance store userId assetId⟩

end BalanceStore

/-- What settling one side of a trade is to move. -/
structure Transfer where
  userId : Nat
  spentAsset : Nat
  receivedAsset : Nat
  refund : Nat
  spent : Nat
  net : Nat

def transferOf (userId marketId : Nat) (userSide : Side) (event : MatcherTradeEvent)
    (spec : CoreMarketSpecification) (takerPrice : Option Nat) : Transfer :=
  let isMaker := userId == event.makerUserId
  let legs := RiskEngine.tradeLegs spec marketId userSide event
  { userId
    spentAsset := legs.assetToSubtract
    receivedAsset := legs.assetToAdd
    refund := (RiskEngine.priceImprovement spec isMaker userSide event takerPrice).getD 0
    spent := legs.amountToSubtract
    net := wrappingSub 64 legs.gross
      (RiskEngine.feeOn legs.gross (RiskEngine.feeRate spec isMaker)) }

namespace Transfer

variable (t : Transfer)

/-- An amount that counts on one of the user's assets only. -/
def onAsset (assetId u a amount : Nat) : Nat :=
  if u = t.userId ∧ a = assetId then amount else 0

/-- Refund, spending and receipt have all been moved, and nothing else. -/
structure Applied (before after : BalanceStore) : Prop where
  available : ∀ u a, (after.getBalance u a).available = (before.getBalance u a).available +
    t.onAsset t.spentAsset u a t.refund + t.onAsset t.receivedAsset u a t.net
  locked : ∀ u a, (after.getBalance u a).locked + t.onAsset t.spentAsset u a (t.refund + t.spent) =
    (before.getBalance u a).locked

/-- The law: everything or nothing. -/
structure Atomic (before : BalanceStore)
    (out : BalanceStore × MatcherTradeEvent × Except RiskEngineError Unit) : Prop where
  failed : ∀ e, out.2.2 = .error e → before.Same out.1
  settled : out.2.2 = .ok () → t.Applied before out.1

/-- What is available of the received asset once the refund is back. -/
def receiving (store : BalanceStore) : Nat :=
  (store.getBalance t.userId t.receivedAsset).available +
    if t.receivedAsset = t.spentAsset then t.refund else 0

/-- All three steps go through in range, or the first that fails has nothing before it. -/
def Whole (store : BalanceStore) : Prop :=
  (store.getBalance t.userId t.spentAsset).locked < t.refund ∨
  (t.refund = 0 ∧ (store.getBalance t.userId t.spentAsset).locked < t.spent) ∨
  (t.refund = 0 ∧ t.spent = 0 ∧ 2 ^ 64 ≤ t.receiving store + t.net) ∨
  (t.refund + t.spent ≤ (store.getBalance t.userId t.spentAsset).locked ∧
    (store.getBalance t.userId t.spentAsset).available + t.refund < 2 ^ 64 ∧
    t.receiving store + t.net < 2 ^ 64)

instance (store : BalanceStore) : Decidable (t.Whole store) :=
  inferInstanceAs (Decidable (_ ∨ _))

/-- The store after the refund. -/
structure Refunded (before after : BalanceStore) : Prop where
  covered : t.refund ≤ (before.getBalance t.userId t.spentAsset).locked
  balances : ∀ u a, after.getBalance u a =
    if u = t.userId ∧ a = t.spentAsset then
      { available := wrappingAdd 64 (before.getBalance u a).available t.refund
        locked := (before.getBalance u a).locked - t.refund }
    else before.getBalance u a

theorem refund_cases {store : BalanceStore} (words : store.Words) {userId marketId : Nat}
    {userSide : Side} {event : MatcherTradeEvent} {spec : CoreMarketSpecification}
    {takerPrice : Option Nat}
    (ht : transferOf userId marketId userSide event spec takerPrice = t) :
    (∃ after, RiskEngine.refundImprovement store userId marketId (RiskEngine.priceImprovement spec
        (userId == event.makerUserId) userSide event takerPrice) = (after, .ok ()) ∧
      t.Refunded store after) ∨
    (∃ after e, RiskEngine.refundImprovement store userId marketId (RiskEngine.priceImprovement
        spec (userId == event.makerUserId) userSide event takerPrice) = (after, .error e) ∧
      (store.getBalance t.userId t.spentAsset).locked < t.refund ∧ store.Same after) := by
  have hrefund : (RiskEngine.priceImprovement spec (userId == event.makerUserId) userSide event
      takerPrice).getD 0 = t.refund := congrArg Transfer.refund ht
  have huser : userId = t.userId := congrArg Transfer.userId ht
  cases himproved : RiskEngine.priceImprovement spec (userId == event.makerUserId) userSide event
      takerPrice with
  | none =>
    rw [himproved] at hrefund
    have hzero : t.refund = 0 := hrefund.symm
    refine .inl ⟨store, rfl, by rw [hzero]; exact Nat.zero_le _, ?_⟩
    intro u a
    rw [hzero, wrappingAdd_of_lt (words u a).1, Nat.sub_zero, Nat.add_zero, ite_self]
  | some amount =>
    rw [himproved] at hrefund
    have hamount : amount = t.refund := hrefund
    -- only bids have a refund, and they spend what it is paid in
    have hbid : userSide = .bid := by
      unfold RiskEngine.priceImprovement at himproved
      cases takerPrice with
      | none => cases himproved
      | some limitPrice =>
        obtain ⟨hcond, -⟩ := Option.ite_none_right_eq_some.mp himproved
        simp only [Bool.and_eq_true, beq_iff_eq] at hcond
        exact hcond.1.2
    have hasset : t.spentAsset = quoteAsset marketId := by
      rw [← ht, hbid]
      rfl
    rw [RiskEngine.refundImprovement, hamount, huser, ← hasset]
    rcases store.unlockFunds_cases t.userId t.spentAsset t.refund with
      ⟨hle, heq⟩ | ⟨hlt, e, herror, hsame⟩
    · refine .inl ⟨_, heq, hle, ?_⟩
      intro u a
      rw [BalanceStore.getBalance_setBalance]
      split
      · rename_i hkey
        rw [hkey.1, hkey.2]
      · rfl
    · exact .inr ⟨_, e, Prod.ext rfl herror, hlt, hsame⟩

/-- The store after the debit. -/
def debited (mid : BalanceStore) : BalanceStore :=
  mid.setBalance t.userId t.spentAsset { mid.getBalance t.userId t.spentAsset with
    locked := (mid.getBalance t.userId t.spentAsset).locked - t.spent }

/-- The store after the credit. -/
def credited (mid : BalanceStore) : BalanceStore :=
  (t.debited mid).setBalance t.userId t.receivedAsset
    { (t.debited mid).getBalance t.userId t.receivedAsset with
      available := ((t.debited mid).getBalance t.userId t.receivedAsset).available + t.net }

/-- How debit and credit end after the refund. -/
inductive Continues (mid : BalanceStore)
    (out : BalanceStore × MatcherTradeEvent × Except RiskEngineError Unit) : Prop
  | refused (hlocked : (mid.getBalance t.userId t.spentAsset).locked < t.spent)
      (herror : ∃ e, out.2.2 = .error e) (hsame : mid.Same out.1)
  | overflow (hlocked : t.spent ≤ (mid.getBalance t.userId t.spentAsset).locked)
      (hfull : 2 ^ 64 ≤ ((t.debited mid).getBalance t.userId t.receivedAsset).available + t.net)
      (herror : ∃ e, out.2.2 = .error e) (hsame : (t.debited mid).Same out.1)
  | done (hlocked : t.spent ≤ (mid.getBalance t.userId t.spentAsset).locked)
      (hfits : ((t.debited mid).getBalance t.userId t.receivedAsset).available + t.net < 2 ^ 64)
      (hok : out.2.2 = .ok ()) (hstore : out.1 = t.credited mid)

section Settle

variable {store : BalanceStore} {userId marketId : Nat} {userSide : Side}
  {event : MatcherTradeEvent} {spec : CoreMarketSpecification} {takerPrice : Option Nat} {t}

theorem settleTrade_continues {mid : BalanceStore}
    (ht : transferOf userId marketId userSide event spec takerPrice = t)
    (hrefund : RiskEngine.refundImprovement store userId marketId (RiskEngine.priceImprovement spec
      (userId == event.makerUserId) userSide event takerPrice) = (mid, .ok ())) :
    t.Continues mid
      (RiskEngine.settleTrade store userId marketId userSide event spec takerPrice) := by
  subst ht
  unfold RiskEngine.settleTrade
  simp only [hrefund]
  rcases mid.subtractLockedFunds_cases userId
      (RiskEngine.tradeLegs spec marketId userSide event).assetToSubtract
      (RiskEngine.tradeLegs spec marketId userSide event).amountToSubtract with
    ⟨balance, hle, hbalance, heq⟩ | ⟨hlt, e, herror, hsame⟩
  · subst hbalance
    simp only [heq]
    rcases (debited (transferOf userId marketId userSide event spec takerPrice) mid).addFunds_cases
        userId (RiskEngine.tradeLegs spec marketId userSide event).assetToAdd
        (transferOf userId marketId userSide event spec takerPrice).net with
      ⟨balance, hlt, hbalance, hadd⟩ | ⟨herror, hfull, hsame⟩
    · subst hbalance
      apply Continues.done hle hlt
      · simp only [transferOf, debited] at hadd
        simp only [hadd]
      · simp only [transferOf, debited] at hadd
        simp only [hadd]
        rfl
    · obtain ⟨after, hpair, hkept⟩ : ∃ after, (debited (transferOf userId marketId userSide event
          spec takerPrice) mid).addFunds userId
            (RiskEngine.tradeLegs spec marketId userSide event).assetToAdd
            (transferOf userId marketId userSide event spec takerPrice).net =
              (after, .error .overflow) ∧
          (debited (transferOf userId marketId userSide event spec takerPrice) mid).Same after :=
        ⟨_, Prod.ext rfl herror, hsame⟩
      simp only [transferOf, debited] at hpair
      apply Continues.overflow hle hfull
      · simp only [hpair]
        exact ⟨_, rfl⟩
      · simp only [hpair]
        exact hkept
  · obtain ⟨after, hpair, hkept⟩ : ∃ after, mid.subtractLockedFunds userId
        (RiskEngine.tradeLegs spec marketId userSide event).assetToSubtract
        (RiskEngine.tradeLegs spec marketId userSide event).amountToSubtract = (after, .error e) ∧
          mid.Same after := ⟨_, Prod.ext rfl herror, hsame⟩
    simp only [hpair]
    exact .refused hlt ⟨_, rfl⟩ hkept

theorem settleTrade_refused {mid : BalanceStore} {e : BalanceError}
    (hrefund : RiskEngine.refundImprovement store userId marketId (RiskEngine.priceImprovement spec
      (userId == event.makerUserId) userSide event takerPrice) = (mid, .error e)) :
    RiskEngine.settleTrade store userId marketId userSide event spec takerPrice =
      (mid, event, .error (.balanceError e)) := by
  unfold RiskEngine.settleTrade
  simp only [hrefund]

/-! What the steps leave, account by account. -/

theorem onAsset_self (assetId amount : Nat) :
    t.onAsset assetId t.userId assetId amount = amount := if_pos ⟨rfl, rfl⟩

theorem debited_available (mid : BalanceStore) (u a : Nat) :
    ((t.debited mid).getBalance u a).available = (mid.getBalance u a).available := by
  rw [debited, BalanceStore.getBalance_setBalance]
  split
  · rename_i hkey
    rw [hkey.1, hkey.2]
  · rfl

theorem debited_locked (mid : BalanceStore) (u a : Nat) :
    ((t.debited mid).getBalance u a).locked =
      (mid.getBalance u a).locked - t.onAsset t.spentAsset u a t.spent := by
  rw [debited, BalanceStore.getBalance_setBalance, onAsset]
  split
  · rename_i hkey
    rw [hkey.1, hkey.2]
  · rfl

theorem credited_available (mid : BalanceStore) (u a : Nat) :
    ((t.credited mid).getBalance u a).available =
      (mid.getBalance u a).available + t.onAsset t.receivedAsset u a t.net := by
  have hdebited := @debited_available t mid u a
  rw [← hdebited, credited, BalanceStore.getBalance_setBalance, onAsset]
  split
  · rename_i hkey
    rw [hkey.1, hkey.2]
  · rfl

theorem credited_locked (mid : BalanceStore) (u a : Nat) :
    ((t.credited mid).getBalance u a).locked =
      (mid.getBalance u a).locked - t.onAsset t.spentAsset u a t.spent := by
  rw [← debited_locked, credited, BalanceStore.getBalance_setBalance]
  split
  · rename_i hkey
    rw [hkey.1, hkey.2]
  · rfl

namespace Refunded

variable {mid : BalanceStore}

theorem locked (h : t.Refunded store mid) (u a : Nat) :
    (mid.getBalance u a).locked + t.onAsset t.spentAsset u a t.refund =
      (store.getBalance u a).locked := by
  have hcovered := h.covered
  rw [h.balances, onAsset]
  split
  · rename_i hkey
    rw [hkey.1, hkey.2]
    exact Nat.sub_add_cancel hcovered
  · rfl

theorem available (h : t.Refunded store mid)
    (hfits : (store.getBalance t.userId t.spentAsset).available + t.refund < 2 ^ 64) (u a : Nat) :
    (mid.getBalance u a).available =
      (store.getBalance u a).available + t.onAsset t.spentAsset u a t.refund := by
  rw [h.balances, onAsset]
  split
  · rename_i hkey
    rw [hkey.1, hkey.2]
    exact wrappingAdd_of_lt hfits
  · rfl

theorem receiving (h : t.Refunded store mid)
    (hfits : (store.getBalance t.userId t.spentAsset).available + t.refund < 2 ^ 64) :
    ((t.debited mid).getBalance t.userId t.receivedAsset).available = t.receiving store := by
  rw [debited_available, h.available hfits, Transfer.receiving, onAsset]
  simp

/-- Without a refund nothing has happened yet. -/
theorem same (h : t.Refunded store mid) (words : store.Words) (hzero : t.refund = 0) :
    store.Same mid := by
  intro u a
  rw [h.balances, hzero, wrappingAdd_of_lt (words u a).1, Nat.sub_zero, Nat.add_zero, ite_self]

end Refunded

theorem debited_same (mid : BalanceStore) (hzero : t.spent = 0) : mid.Same (t.debited mid) := by
  unfold debited
  rw [hzero, Nat.sub_zero]
  exact .setBalance mid t.userId t.spentAsset

/-- Settling one side of a trade is atomic if and only if all its steps succeed in range, or the
step that fails has moved nothing before it. -/
theorem settle_atomic_iff (words : store.Words) :
    (transferOf userId marketId userSide event spec takerPrice).Atomic store
        (RiskEngine.settleTrade store userId marketId userSide event spec takerPrice) ↔
      (transferOf userId marketId userSide event spec takerPrice).Whole store := by
  generalize ht : transferOf userId marketId userSide event spec takerPrice = t
  have hspent := words t.userId t.spentAsset
  rcases refund_cases t words ht with ⟨mid, hrefund, hmid⟩ | ⟨mid, e, hrefund, hlt, hsame⟩
  · have hlocked := hmid.locked t.userId t.spentAsset
    rw [onAsset_self] at hlocked
    cases settleTrade_continues ht hrefund with
    | refused hdebit herror hkept =>
      obtain ⟨e, herror⟩ := herror
      constructor
      · intro hatomic
        have hback := hatomic.failed e herror t.userId t.spentAsset
        rw [hkept] at hback
        rw [hback] at hlocked hdebit
        exact .inr (.inl ⟨by omega, hdebit⟩)
      · intro hwhole
        have hzero : t.refund = 0 := by
          rcases hwhole with h | h | h | h <;> omega
        refine ⟨fun _ _ => (hmid.same words hzero).trans hkept, ?_⟩
        intro hok
        rw [herror] at hok
        cases hok
    | overflow hdebit hfull herror hkept =>
      obtain ⟨e, herror⟩ := herror
      constructor
      · intro hatomic
        have hback := congrArg UserBalance.locked (hatomic.failed e herror t.userId t.spentAsset)
        rw [hkept, debited_locked, onAsset_self] at hback
        have hzero : t.refund = 0 := by omega
        rw [hmid.receiving (by omega)] at hfull
        exact .inr (.inr (.inl ⟨hzero, by omega, hfull⟩))
      · intro hwhole
        have hzero : t.refund = 0 ∧ t.spent = 0 := by
          rcases hwhole with h | h | h | ⟨-, hfits, hnet⟩
          · omega
          · omega
          · exact ⟨h.1, h.2.1⟩
          · rw [hmid.receiving hfits] at hfull
            omega
        refine ⟨fun _ _ => ((hmid.same words hzero.1).trans (debited_same mid hzero.2)).trans
          hkept, ?_⟩
        intro hok
        rw [herror] at hok
        cases hok
    | done hdebit hfits hok hstore =>
      constructor
      · intro hatomic
        have happlied := hatomic.settled hok
        have hsum := happlied.available t.userId t.spentAsset
        rw [hstore, credited_available, onAsset_self] at hsum
        have hword : (mid.getBalance t.userId t.spentAsset).available < 2 ^ 64 := by
          rw [hmid.balances, if_pos ⟨rfl, rfl⟩]
          exact truncate_lt 64 _
        have hrange : (store.getBalance t.userId t.spentAsset).available + t.refund < 2 ^ 64 := by
          omega
        rw [hmid.receiving hrange] at hfits
        exact .inr (.inr (.inr ⟨by omega, hrange, hfits⟩))
      · intro hwhole
        have hrange : (store.getBalance t.userId t.spentAsset).available + t.refund < 2 ^ 64 := by
          rcases hwhole with h | h | h | h <;> omega
        refine ⟨?_, fun _ => ⟨?_, ?_⟩⟩
        · intro e herror
          rw [hok] at herror
          cases herror
        · intro u a
          rw [hstore, credited_available, hmid.available hrange]
        · intro u a
          rw [hstore, credited_locked]
          have hkept := hmid.locked u a
          by_cases hkey : u = t.userId ∧ a = t.spentAsset
          · obtain ⟨rfl, rfl⟩ := hkey
            rw [onAsset_self] at hkept ⊢
            rw [onAsset_self]
            omega
          · rw [onAsset, if_neg hkey] at hkept ⊢
            rw [onAsset, if_neg hkey]
            exact hkept
  · rw [settleTrade_refused hrefund]
    refine iff_of_true ⟨fun _ _ => hsame, ?_⟩ (.inl hlt)
    intro hok
    cases hok

end Settle

/-- A seller with five units locked whose quote balance is full. -/
def fullStore : BalanceStore :=
  (BalanceStore.new.setBalance 1 1 ⟨0, 5⟩).setBalance 1 2 ⟨2 ^ 64 - 1, 0⟩

/-- Its sale of the five units at one, in market 2/1. -/
def fullSale : MatcherTradeEvent :=
  { activeOrderCompleted := true
    matchedOrderId := 7
    makerUserId := 1
    matchedOrderCompleted := true
    price := 1
    size := 5
    makerRemainingSize := 0
    makerOriginalSize := 5 }

theorem fullStore_words : fullStore.Words := by
  intro u a
  rw [fullStore, BalanceStore.getBalance_setBalance]
  split
  · decide
  · rw [BalanceStore.getBalance_setBalance]
    split
    · decide
    · rw [BalanceStore.getBalance_new]
      decide

theorem settle_atomic_iff_full :
    (transferOf 1 0x20001 .ask fullSale ⟨1, 1, 1, 0, 0, 0⟩ none).Atomic fullStore
        (RiskEngine.settleTrade fullStore 1 0x20001 .ask fullSale ⟨1, 1, 1, 0, 0, 0⟩ none) ↔
      (transferOf 1 0x20001 .ask fullSale ⟨1, 1, 1, 0, 0, 0⟩ none).Whole fullStore :=
  settle_atomic_iff fullStore_words

/-- The credit overflows after the debit, and the units sold are gone. -/
theorem full_sale_not_atomic :
    fullStore.getBalance 1 1 = ⟨0, 5⟩ ∧
      (RiskEngine.settleTrade fullStore 1 0x20001 .ask fullSale ⟨1, 1, 1, 0, 0, 0⟩
        none).1.getBalance 1 1 = ⟨0, 0⟩ ∧
      ¬(transferOf 1 0x20001 .ask fullSale ⟨1, 1, 1, 0, 0, 0⟩ none).Atomic fullStore
        (RiskEngine.settleTrade fullStore 1 0x20001 .ask fullSale ⟨1, 1, 1, 0, 0, 0⟩ none) := by
  refine ⟨by decide +kernel, by decide +kernel, ?_⟩
  intro h
  have hback := h.failed (.balanceError .overflow) (by rfl) 1 1
  revert hback
  decide +kernel

end Transfer

end VexCore
