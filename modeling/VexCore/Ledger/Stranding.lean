import VexCore.Ledger.Conservation

/-!
# Stranded funds

What R1 locks for an order is floored once, what its fills spend and refund is floored fill by
fill. Where no split loses anything, a settled user without resting orders has nothing locked.
Where one does, the difference stays locked.
-/

namespace VexCore

open Framework

theorem sideReserve_of_user {spec : CoreMarketSpecification} {marketId : Nat} {s : Side}
    {orders : List Order} {k : BalanceKey} (h : ∀ o ∈ orders, o.userId ≠ k.userId) :
    sideReserve spec marketId s orders k = 0 := by
  induction orders with
  | nil => rfl
  | cons o rest ih =>
    rw [List.forall_mem_cons] at h
    have hne : (⟨o.userId, escrowAsset s marketId⟩ : BalanceKey) ≠ k := by
      intro heq
      exact h.1 (congrArg BalanceKey.userId heq)
    rw [sideReserve_cons, onKey_of_ne hne, ih h.2]

namespace Engine

variable {config : Config} {s : State}

/-- The user has no order on any book. -/
def HasNoOrders (core : Core) (userId : Nat) : Prop :=
  ∀ shard m book, (core.orderBooks shard).lookup m = some book →
    ∀ side, ∀ o ∈ (book.side side).resting, o.userId ≠ userId

instance (core : Core) (userId : Nat) : Decidable (HasNoOrders core userId) :=
  decidable_of_iff (∀ shard, ∀ m ∈ (core.orderBooks shard).keys,
      ∀ book ∈ (core.orderBooks shard).lookup m,
        (∀ o ∈ book.bids.resting, o.userId ≠ userId) ∧ ∀ o ∈ book.asks.resting, o.userId ≠ userId)
    ⟨fun h shard m book hbook side => by
        have hsides := h shard m (Finmap.mem_keys.mpr (Finmap.mem_iff.mpr ⟨book, hbook⟩)) book hbook
        cases side with
        | bid => exact hsides.1
        | ask => exact hsides.2,
      fun h shard m _ book hbook => ⟨h shard m book hbook .bid, h shard m book hbook .ask⟩⟩

theorem HasNoOrders.reserved {core : Core} {k : BalanceKey} (h : HasNoOrders core k.userId) :
    reserved config core k = 0 := by
  apply Finset.sum_eq_zero
  intro m _
  unfold marketReserve
  cases hspec : config.symbolSpecs.lookup m with
  | none => rfl
  | some spec =>
    cases hbook : (core.orderBooks (marketShard m)).lookup m with
    | none => rfl
    | some book =>
      have hside (side : Side) : sideReserve spec book.marketId side (book.side side).resting k =
          0 := sideReserve_of_user (h _ m book hbook side)
      rw [Option.elim_some, Option.elim_some, OrderBook.reserve_sides spec book .bid, hside, hside,
        Nat.add_zero]

/-- Nothing is pending on a settled account. -/
theorem Settled.pending (hsettled : Settled s) (k : BalanceKey) : pending config s k = 0 := by
  have hle := hsettled (userShard k.userId) (userShard k.userId)
  unfold Engine.pending window
  rw [Finset.Ico_eq_empty_of_le hle, Finset.sum_empty]

/-- In every run in range whose placements split no reserve with a loss, a settled user without
resting orders has nothing locked. -/
theorem nothing_stranded {replayEnabled : Bool}
    (run : Reaches config (fun h s => IdsIncrease h s ∧ InRange config h s ∧
      FeesFit config h s ∧ SplitsExactly config h s) replayEnabled s)
    (hsettled : Settled s) {userId : Nat} (horders : HasNoOrders s.shared userId)
    (assetId : Nat) : (s.shared.account ⟨userId, assetId⟩).locked = 0 := by
  obtain ⟨-, -, -, inv⟩ := @Reaches.ledger config s True _ _ run (fun _ _ h => h.1)
    (fun _ _ h => h.2.1) (fun _ _ h => h.2.2.1) fun _ _ _ h => h.2.2.2
  obtain ⟨lost, hlost, hcovered⟩ := inv.covered ⟨userId, assetId⟩
  rw [hsettled.pending, HasNoOrders.reserved horders, hlost trivial] at hcovered
  exact hcovered.symm

theorem traded_exact : Reaches feeConfig (fun h s => IdsIncrease h s ∧ InRange feeConfig h s ∧
    FeesFit feeConfig h s ∧ SplitsExactly feeConfig h s) false traded :=
  @Reaches.of_schedule _ tradeCommands _ _ _ (by decide) (by decide +kernel)

/-- The part of its ask that user 4 did not sell is released. -/
theorem nothing_stranded_traded : (traded.shared.account ⟨4, 1⟩).locked = 0 :=
  nothing_stranded traded_exact traded_settled (by decide +kernel) 1

/-- Market 1 with ten native units of base to one of quote. -/
def coarseConfig : Config :=
  { plainConfig [1] with markets := [(1, ⟨10, 1, 1, 0, 0, 0⟩)] }

/-- A bid of ten that costs one is filled five by five. -/
def coarseCommands : List OrderCommand :=
  [.funds .depositFunds 3 0 1000, .funds .depositFunds 4 1 500, .limit .bid .gtc 0 3 1 10,
    .limit .ask .ioc 0 4 1 5, .limit .ask .ioc 0 4 1 5]

def coarse : State :=
  (pipeline coarseConfig).execute (start coarseConfig false) (staged coarseCommands)

theorem coarse_reaches : Reaches coarseConfig (fun h s => IdsIncrease h s ∧
    InRange coarseConfig h s ∧ FeesFit coarseConfig h s) false coarse :=
  @Reaches.of_schedule _ coarseCommands _ _ _ (by decide) (by decide +kernel)

/-- Each fill costs nothing, and what R1 locked for the bid stays locked. -/
theorem coarse_stranded :
    ¬∀ config replayEnabled s, (∀ m ∈ config.markets, 0 < m.2.baseNativeScale ∧
        0 < m.2.quoteNativeScale ∧ 0 < m.2.quoteScaleK) →
      Reaches config (fun h s => IdsIncrease h s ∧ InRange config h s ∧ FeesFit config h s)
        replayEnabled s →
      (∀ n < s.published, (s.slots n).ingested.command = .placeOrder →
        0 < (s.slots n).ingested.size) → Settled s → ∀ userId, HasNoOrders s.shared userId →
        ∀ assetId, (s.shared.account ⟨userId, assetId⟩).locked = 0 := by
  intro hall
  have hsettled : Settled coarse := by
    unfold Settled
    decide +kernel
  have hlocked := hall coarseConfig false coarse (by decide) coarse_reaches (by decide +kernel)
    hsettled 3 (by decide +kernel) 0
  revert hlocked
  decide +kernel

end Engine

end VexCore
