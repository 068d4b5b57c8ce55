import VexCore.Ledger.Conservation
import VexCore.Orderbook.Volumes

/-!
# What backs a level

A resting ask holds its size of base in reserve, and a resting bid its size of quote or more
where a unit of base costs a unit of quote. All reserves together are at most what was deposited,
so the sizes at such a price fit a word while the deposits do.
-/

namespace VexCore

open Framework

/-- A native unit of base costs at least a native unit of quote at the price. -/
def Backed (spec : CoreMarketSpecification) (s : Side) (price : Nat) : Prop :=
  s = .bid → 0 < spec.baseNativeScale * spec.quoteScaleK ∧
    spec.baseNativeScale * spec.quoteScaleK ≤ price * spec.quoteNativeScale

instance (spec : CoreMarketSpecification) (s : Side) (price : Nat) :
    Decidable (Backed spec s price) := inferInstanceAs (Decidable (_ = _ → _ ∧ _))

theorem Backed.size_le {spec : CoreMarketSpecification} {s : Side} {price : Nat}
    (h : Backed spec s price) (size : Nat) : size ≤ escrowed spec s price size := by
  cases s with
  | ask => exact Nat.le_refl _
  | bid =>
    obtain ⟨hpos, hle⟩ := h rfl
    show size ≤ price * size * spec.quoteNativeScale /
      (spec.baseNativeScale * spec.quoteScaleK)
    rw [Nat.le_div_iff_mul_le hpos]
    calc size * (spec.baseNativeScale * spec.quoteScaleK)
        ≤ size * (price * spec.quoteNativeScale) := Nat.mul_le_mul_left size hle
      _ = price * size * spec.quoteNativeScale := by ring

theorem sum_sideReserve {spec : CoreMarketSpecification} {marketId : Nat} {s : Side}
    {orders : List Order} {users : Finset Nat} (h : ∀ o ∈ orders, o.userId ∈ users) :
    ∑ userId ∈ users, sideReserve spec marketId s orders ⟨userId, escrowAsset s marketId⟩ =
      (orders.map fun o => escrowed spec s o.price o.size).sum := by
  induction orders with
  | nil => simp
  | cons o rest ih =>
    rw [List.forall_mem_cons] at h
    have hfirst := @sum_onKey users (escrowAsset s marketId)
      ⟨o.userId, escrowAsset s marketId⟩ h.1 (escrowed spec s o.price o.size)
    rw [if_pos rfl] at hfirst
    simp only [sideReserve_cons, Finset.sum_add_distrib, ih h.2, hfirst, List.map_cons,
      List.sum_cons]

namespace OrderBook

theorem restingAt_le {book : OrderBook} (hshape : book.Shape) {spec : CoreMarketSpecification}
    {s : Side} {price : Nat} (hbacked : Backed spec s price) :
    book.restingAt s price ≤
      ((book.side s).resting.map fun o => escrowed spec s o.price o.size).sum := by
  unfold restingAt
  cases hlevel : (book.side s).getLevel price with
  | none => exact Nat.zero_le _
  | some level =>
    have hperm := BookSide.resting_perm_erase hlevel
    rw [(hperm.map _).sum_eq, List.map_append, List.sum_append, Option.elim_some]
    apply le_trans ?_ (Nat.le_add_right _ _)
    apply List.sum_le_sum
    intro o ho
    rw [((hshape.level _ _ _ hlevel).placed o ho).1]
    exact hbacked.size_le o.size

end OrderBook

namespace Engine

variable {config : Config} {s : State}

/-- What the plans still to be settled will move on an account. -/
def unsettledOn (config : Config) (measure : Move → Nat) (s : State) (k : BalanceKey) : Nat :=
  window (fun n => tally measure (planOf config (s.slots n).cmd) k)
    (s.seq (.settlement (userShard k.userId))) s.published

theorem settledOn_add_unsettledOn (ho : (pipeline config).Ordered s) (measure : Move → Nat)
    (k : BalanceKey) : settledOn config measure s k + unsettledOn config measure s k =
      window (fun n => tally measure (planOf config (s.slots n).cmd) k) 0 s.published :=
  window_append _ (Nat.zero_le _) (ho.published _)

theorem sum_plans (ho : (pipeline config).Ordered s) {users : Finset Nat}
    (h : participants s ⊆ users) (measure : Move → Nat) (assetId : Nat) :
    ∑ userId ∈ users, settledOn config measure s ⟨userId, assetId⟩ +
        ∑ userId ∈ users, unsettledOn config measure s ⟨userId, assetId⟩ =
      window (fun n => tallyAt measure (planOf config (s.slots n).cmd)
        fun k => decide (k.assetId = assetId)) 0 s.published := by
  rw [← Finset.sum_add_distrib]
  simp only [settledOn_add_unsettledOn ho]
  rw [sum_window]
  apply window_congr
  intro n _ hn
  exact sum_tally measure fun e he => h (planOf_participants hn e he)

end Engine

theorem event_received_le {spec : CoreMarketSpecification} {cmd : OrderCommand}
    (event : MatcherTradeEvent) (assetId : Nat) :
    tallyAt Move.received (makerPlan spec cmd event ++ takerPlan spec cmd event)
        (fun k => decide (k.assetId = assetId)) ≤
      tallyAt Move.spent (makerPlan spec cmd event ++ takerPlan spec cmd event)
        fun k => decide (k.assetId = assetId) := by
  simp only [makerPlan, takerPlan, sidePlan, tallyAt_append, tallyAt_cons, tallyAt_nil,
    Move.spent, Move.received, decide_eq_true_eq, Side.opSide_opSide]
  by_cases hown : escrowAsset cmd.side cmd.marketId = assetId
  · by_cases hother : escrowAsset cmd.side.opSide cmd.marketId = assetId
    · simp only [hown, hother, if_true]
      omega
    · simp only [hown, hother, if_true, if_false]
      omega
  · by_cases hother : escrowAsset cmd.side.opSide cmd.marketId = assetId
    · simp only [hown, hother, if_true, if_false]
      omega
    · simp only [hown, hother, if_false]
      omega

theorem settlementPlan_received_le (spec : CoreMarketSpecification) (cmd : OrderCommand)
    (assetId : Nat) :
    tallyAt Move.received (settlementPlan spec cmd) (fun k => decide (k.assetId = assetId)) ≤
      tallyAt Move.spent (settlementPlan spec cmd) fun k => decide (k.assetId = assetId) := by
  have hrelease : tallyAt Move.received (releasePlan spec cmd)
      (fun k => decide (k.assetId = assetId)) = 0 := by
    unfold releasePlan
    split
    · simp [Move.received]
    · rfl
  unfold settlementPlan
  split
  · exact Nat.le_refl _
  · rw [tallyAt_append, tallyAt_append, hrelease, tallyAt_flatMap, tallyAt_flatMap, Nat.add_zero]
    apply le_trans ?_ (Nat.le_add_right _ _)
    apply List.sum_le_sum
    intro event _
    exact event_received_le event assetId

namespace Engine

variable {config : Config} {s : State}

theorem planOf_received_le (cmd : OrderCommand) (assetId : Nat) :
    tallyAt Move.received (planOf config cmd) (fun k => decide (k.assetId = assetId)) ≤
      tallyAt Move.spent (planOf config cmd) fun k => decide (k.assetId = assetId) := by
  cases hspec : config.symbolSpecs.lookup cmd.marketId with
  | none =>
    rw [planOf_of_none hspec]
    exact Nat.le_refl _
  | some spec =>
    rw [planOf_of_spec hspec]
    exact settlementPlan_received_le spec cmd assetId

theorem LedgerInvariant.sum_locked_le {exact : Prop} (inv : LedgerInvariant config exact s)
    (ho : (pipeline config).Ordered s) {users : Finset Nat} (h : participants s ⊆ users)
    (assetId : Nat) :
    ∑ userId ∈ users, (s.shared.account ⟨userId, assetId⟩).locked ≤
      movedIn .depositFunds s assetId +
        ∑ userId ∈ users, unsettledOn config Move.spent s ⟨userId, assetId⟩ := by
  have hflow : ∑ userId ∈ users,
      ((s.shared.account ⟨userId, assetId⟩).available +
        (s.shared.account ⟨userId, assetId⟩).locked +
        settledOn config Move.spent s ⟨userId, assetId⟩ +
        movedOn .withdrawFunds s ⟨userId, assetId⟩) =
      ∑ userId ∈ users, (settledOn config Move.received s ⟨userId, assetId⟩ +
        movedOn .depositFunds s ⟨userId, assetId⟩) :=
    Finset.sum_congr rfl fun userId _ => inv.flow ⟨userId, assetId⟩
  simp only [Finset.sum_add_distrib, sum_movedOn h] at hflow
  have hspent := @sum_plans config s ho users h Move.spent assetId
  have hreceived := @sum_plans config s ho users h Move.received assetId
  have hplans : window (fun n => tallyAt Move.received (planOf config (s.slots n).cmd)
      fun k => decide (k.assetId = assetId)) 0 s.published ≤
      window (fun n => tallyAt Move.spent (planOf config (s.slots n).cmd)
        fun k => decide (k.assetId = assetId)) 0 s.published :=
    window_le fun n _ _ => planOf_received_le (s.slots n).cmd assetId
  omega

section Matching

variable (ho : (pipeline config).Ordered s) (hc : CommandsInvariant config s)
  {shard : Fin numMatchingEngines} (ready : (pipeline config).Ready s (.matching shard))
  (hshard : shard = marketShard (found s (.matching shard)).marketId)

include ho hc ready hshard

/-- What is pending on an account pays for the plans and for the placement to be matched. -/
theorem unsettledOn_le (k : BalanceKey) :
    unsettledOn config Move.spent s k + lockedFor config (found s (.matching shard)) k ≤
      pending config s k := by
  have hbefore := (@matched_of_matching config s shard hshard).1
  have hunmatched {n : Nat} (hn : ¬Matched s n) (k : BalanceKey) :
      tally Move.spent (planOf config (s.slots n).cmd) k = 0 := by
    obtain ⟨hevents, hkeeps⟩ := hc.idle n (.inl hn)
    rw [planOf_idle hevents hkeeps, tally_nil]
  have hrisk : s.seq (.settlement (userShard k.userId)) ≤ s.seq (.risk (userShard k.userId)) :=
    ho.staged (.risk _) (.settlement _) (Nat.zero_lt_succ 1)
  -- past R1 nothing has been matched
  have hlate : window (fun n => tally Move.spent (planOf config (s.slots n).cmd) k)
      (s.seq (.risk (userShard k.userId))) s.published = 0 := by
    apply window_eq_zero
    intro n hn _
    apply hunmatched
    have hstaged := ho.staged (.risk (userShard k.userId))
      (.matching (marketShard (s.slots n).cmd.marketId)) Nat.zero_lt_one
    unfold Matched
    omega
  unfold unsettledOn
  rw [← window_append _ hrisk (ho.published _), hlate, Nat.add_zero]
  apply window_add_le
    (ho.staged (.matching shard) (.settlement (userShard k.userId)) (Nat.lt_succ_self 1))
    (ready.2 (.risk (userShard k.userId)) Nat.zero_lt_one)
  · intro n _ _
    by_cases hn : Matched s n
    · rw [due, if_pos hn]
      exact tallyAt_le Move.spent_le_debit _ _
    · rw [hunmatched hn]
      exact Nat.zero_le _
  · rw [hunmatched hbefore, Nat.zero_add, due, if_neg hbefore]
    exact Nat.le_refl _

theorem sum_reserved_le {exact : Prop} (inv : LedgerInvariant config exact s) {users : Finset Nat}
    (h : participants s ⊆ users) (assetId : Nat) :
    ∑ userId ∈ users, reserved config s.shared ⟨userId, assetId⟩ +
        ∑ userId ∈ users, lockedFor config (found s (.matching shard)) ⟨userId, assetId⟩ ≤
      movedIn .depositFunds s assetId := by
  have hlocked := inv.sum_locked_le ho h assetId
  have haccounts : ∑ userId ∈ users, (unsettledOn config Move.spent s ⟨userId, assetId⟩ +
      lockedFor config (found s (.matching shard)) ⟨userId, assetId⟩ +
        reserved config s.shared ⟨userId, assetId⟩) ≤
      ∑ userId ∈ users, (s.shared.account ⟨userId, assetId⟩).locked := by
    apply Finset.sum_le_sum
    intro userId _
    obtain ⟨lost, -, hcovered⟩ := inv.covered ⟨userId, assetId⟩
    have hpending := unsettledOn_le ho hc ready hshard ⟨userId, assetId⟩
    omega
  simp only [Finset.sum_add_distrib] at haccounts
  omega

/-- A placement at a backed price finds no more there than the deposits leave room for. -/
theorem restingAt_add_size_le {exact : Prop} (inv : LedgerInvariant config exact s)
    (hb : BooksInvariant config s) {spec : CoreMarketSpecification} {book : OrderBook}
    (hspec : config.symbolSpecs.lookup (found s (.matching shard)).marketId = some spec)
    (hbook : (s.shared.orderBooks shard).lookup (found s (.matching shard)).marketId = some book)
    (hcommand : (found s (.matching shard)).command = .placeOrder)
    (hstatus : (found s (.matching shard)).status ≠ .rejected)
    (hbacked : Backed spec (found s (.matching shard)).side (found s (.matching shard)).price) :
    book.restingAt (found s (.matching shard)).side (found s (.matching shard)).price +
        (found s (.matching shard)).size ≤
      movedIn .depositFunds s
        (escrowAsset (found s (.matching shard)).side (found s (.matching shard)).marketId) := by
  obtain ⟨cmd, hcmd⟩ : ∃ cmd, found s (.matching shard) = cmd := ⟨_, rfl⟩
  have hreserves := @sum_reserved_le config s ho hc shard ready hshard exact inv
  rw [hcmd] at hshard hspec hbook hcommand hstatus hbacked hreserves ⊢
  subst hshard
  have hmarket := (hb.home _ _ book hbook).2
  have hshape := hb.shape _ _ book hbook
  -- everyone, the owners of the resting orders included
  obtain ⟨users, husers, howners, hself⟩ : ∃ users : Finset Nat, participants s ⊆ users ∧
      (∀ o ∈ (book.side cmd.side).resting, o.userId ∈ users) ∧ cmd.userId ∈ users := by
    refine ⟨participants s ∪ insert cmd.userId
      ((book.side cmd.side).resting.map Order.userId).toFinset, Finset.subset_union_left, ?_, ?_⟩
    · intro o ho
      apply Finset.mem_union_right
      apply Finset.mem_insert_of_mem
      exact List.mem_toFinset.mpr (List.mem_map_of_mem ho)
    · exact Finset.mem_union_right _ (Finset.mem_insert_self _ _)
  have htotal := hreserves husers (escrowAsset cmd.side cmd.marketId)
  -- the placement's own cost
  have hcost : ∑ userId ∈ users, lockedFor config cmd ⟨userId, escrowAsset cmd.side cmd.marketId⟩ =
      escrowed spec cmd.side cmd.price cmd.size := by
    simp only [lockedFor_of_spec hspec hcommand hstatus]
    rw [@sum_onKey users (escrowAsset cmd.side cmd.marketId)
      ⟨cmd.userId, escrowAsset cmd.side cmd.marketId⟩ hself, if_pos rfl]
  -- the reserves of its side
  have hside : book.restingAt cmd.side cmd.price ≤ ∑ userId ∈ users,
      reserved config s.shared ⟨userId, escrowAsset cmd.side cmd.marketId⟩ := by
    apply (OrderBook.restingAt_le hshape hbacked).trans
    rw [← @sum_sideReserve spec cmd.marketId _ _ _ howners]
    apply Finset.sum_le_sum
    intro userId _
    have hmem : cmd.marketId ∈ config.symbolSpecs.keys :=
      Finmap.mem_keys.mpr (Finmap.mem_iff.mpr ⟨spec, hspec⟩)
    have hone := Finset.single_le_sum (fun m _ => Nat.zero_le (marketReserve config s.shared
      ⟨userId, escrowAsset cmd.side cmd.marketId⟩ m)) hmem
    apply le_trans ?_ hone
    rw [marketReserve_of_book hspec hbook, OrderBook.reserve_sides spec book cmd.side, hmarket]
    exact Nat.le_add_right _ _
  have hsize := hbacked.size_le cmd.size
  omega

end Matching

end Engine

end VexCore
