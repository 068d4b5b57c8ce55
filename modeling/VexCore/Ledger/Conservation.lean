import VexCore.Ledger.Solvency

/-!
# Conservation

Summed over the users, the ledger balances in every asset: what the accounts hold, what was
withdrawn and what was withheld as fees is what was deposited.
-/

namespace VexCore

open Framework

/-- The users some shard keeps a balance of. -/
def Core.users (core : Core) : Finset Nat :=
  Finset.univ.biUnion fun shard => (core.balances shard).balances.keys.image BalanceKey.userId

/-- What all users have of an asset, available and locked. -/
def Core.total (core : Core) (assetId : Nat) : Nat :=
  ∑ userId ∈ core.users,
    ((core.account ⟨userId, assetId⟩).available + (core.account ⟨userId, assetId⟩).locked)

theorem Core.account_of_not_mem {core : Core} {userId : Nat} (h : userId ∉ core.users)
    (assetId : Nat) : core.account ⟨userId, assetId⟩ = ⟨0, 0⟩ := by
  have hnone : (core.balances (Engine.userShard userId)).balances.lookup ⟨userId, assetId⟩ =
      none := by
    by_contra hsome
    obtain ⟨balance, hbalance⟩ := Option.ne_none_iff_exists'.mp hsome
    apply h
    refine Finset.mem_biUnion.mpr ⟨Engine.userShard userId, Finset.mem_univ _, ?_⟩
    refine Finset.mem_image.mpr ⟨⟨userId, assetId⟩, ?_, rfl⟩
    exact Finmap.mem_keys.mpr (Finmap.mem_iff.mpr ⟨balance, hbalance⟩)
  simp [Core.account, BalanceStore.accounts, BalanceStore.getBalance, hnone]

theorem Core.total_superset {core : Core} {users : Finset Nat} (h : core.users ⊆ users)
    (assetId : Nat) : core.total assetId = ∑ userId ∈ users,
      ((core.account ⟨userId, assetId⟩).available +
        (core.account ⟨userId, assetId⟩).locked) := by
  apply Finset.sum_subset h
  intro userId _ hnot
  simp [Core.account_of_not_mem hnot]

section Users

variable {users : Finset Nat} {assetId : Nat}

theorem sum_onKey {here : BalanceKey} (h : here.userId ∈ users) (n : Nat) :
    ∑ userId ∈ users, onKey here ⟨userId, assetId⟩ n = if here.assetId = assetId then n else 0 := by
  have hkey (userId : Nat) : onKey here ⟨userId, assetId⟩ n =
      if here.userId = userId then (if here.assetId = assetId then n else 0) else 0 := by
    obtain ⟨u, a⟩ := here
    simp only [onKey, BalanceKey.mk.injEq, ite_and]
  simp only [hkey, Finset.sum_ite_eq, h, if_true]

/-- A plan on the accounts of some users, summed over them. -/
theorem sum_tally (measure : Move → Nat) {plan : List (BalanceKey × Move)}
    (h : ∀ e ∈ plan, e.1.userId ∈ users) :
    ∑ userId ∈ users, tally measure plan ⟨userId, assetId⟩ =
      tallyAt measure plan fun k => decide (k.assetId = assetId) := by
  induction plan with
  | nil => simp
  | cons e rest ih =>
    simp only [tally_cons_onKey, Finset.sum_add_distrib, sum_onKey (h e List.mem_cons_self),
      ih fun e' he' => h e' (List.mem_cons_of_mem _ he'), tallyAt_cons, decide_eq_true_eq]

end Users

theorem sum_tallyAt_shards (measure : Move → Nat) (plan : List (BalanceKey × Move))
    (here : BalanceKey → Bool) :
    ∑ shard, (tallyAt measure plan fun k => Engine.ownsUser shard k.userId && here k) =
      tallyAt measure plan here := by
  have hshard (shard : Fin numRiskEngines) (userId : Nat) : Engine.ownsUser shard userId =
      decide (Engine.userShard userId = shard) := by
    rw [Bool.eq_iff_iff, Engine.ownsUser_iff, decide_eq_true_eq, eq_comm]
  simp only [hshard]
  induction plan with
  | nil => simp
  | cons e rest ih =>
    simp only [tallyAt_cons, Finset.sum_add_distrib, ih, Bool.and_eq_true, decide_eq_true_eq,
      ite_and, Finset.sum_ite_eq, Finset.mem_univ, if_true]

section Flow

variable {spec : CoreMarketSpecification} {cmd : OrderCommand}

theorem event_conserves {event : MatcherTradeEvent} (hnet : NetFits spec cmd event)
    (assetId : Nat) : Conserves (makerPlan spec cmd event ++ takerPlan spec cmd event)
      fun k => decide (k.assetId = assetId) := by
  have hmaker := hnet.maker
  have htaker := hnet.taker
  -- each side receives, before its fee, what the other spends
  simp only [Conserves, makerPlan, takerPlan, sidePlan, tallyAt_append, tallyAt_cons, tallyAt_nil,
    Move.spent, Move.received, Move.withheld, decide_eq_true_eq, Side.opSide_opSide]
  by_cases hown : escrowAsset cmd.side cmd.marketId = assetId <;>
    by_cases hother : escrowAsset cmd.side.opSide cmd.marketId = assetId <;>
    simp [hown, hother] <;> omega

theorem releasePlan_conserves (assetId : Nat) :
    Conserves (releasePlan spec cmd) fun k => decide (k.assetId = assetId) := by
  unfold releasePlan
  split
  · simp [Conserves, Move.spent, Move.received, Move.withheld]
  · exact .nil _

theorem settlementPlan_conserves (hnets : ∀ event ∈ cmd.events, NetFits spec cmd event)
    (assetId : Nat) :
    Conserves (settlementPlan spec cmd) fun k => decide (k.assetId = assetId) := by
  unfold settlementPlan
  split
  · exact .nil _
  · exact (Conserves.flatMap fun event he => event_conserves (hnets event he) assetId).append
      (releasePlan_conserves assetId)

theorem settlementPlan_users :
    ∀ e ∈ settlementPlan spec cmd, e.1.userId = cmd.userId ∨
      ∃ event ∈ cmd.events, e.1.userId = event.makerUserId := by
  intro e he
  unfold settlementPlan at he
  split at he
  · cases he
  · rcases List.mem_append.mp he with he | he
    · obtain ⟨event, hevent, he⟩ := List.mem_flatMap.mp he
      rcases List.mem_append.mp he with he | he
      · exact .inr ⟨event, hevent, makerPlan_user event e he⟩
      · exact .inl (takerPlan_user event e he)
    · exact .inl (releasePlan_user e he)

end Flow

namespace Engine

variable {config : Config} {s : State}

/-- Every command that R1 has started is through R2. -/
def Settled (s : State) : Prop :=
  ∀ g h : Fin numRiskEngines, s.seq (.risk g) ≤ s.seq (.settlement h)

/-- The successful deposits of an asset, or withdrawals of it. -/
def movedIn (command : OrderCommandType) (s : State) (assetId : Nat) : Nat :=
  window (fun n => if (s.slots n).cmd.command = command ∧ (s.slots n).cmd.status = .processed ∧
    truncate 16 (s.slots n).cmd.marketId = assetId then (s.slots n).cmd.size else 0) 0 s.published

/-- Everyone a run has heard of. -/
def participants (s : State) : Finset Nat :=
  s.shared.users ∪ (Finset.range s.published).biUnion fun n =>
    insert (s.slots n).cmd.userId ((s.slots n).cmd.events.map MatcherTradeEvent.makerUserId).toFinset

theorem users_subset_participants (s : State) : s.shared.users ⊆ participants s :=
  Finset.subset_union_left

section Participants

variable {n : Nat} (hn : n < s.published)

include hn

theorem mem_participants {userId : Nat} (h : userId = (s.slots n).cmd.userId ∨
    ∃ event ∈ (s.slots n).cmd.events, userId = event.makerUserId) : userId ∈ participants s := by
  apply Finset.mem_union_right
  refine Finset.mem_biUnion.mpr ⟨n, Finset.mem_range.mpr hn, ?_⟩
  rcases h with rfl | ⟨event, hevent, rfl⟩
  · exact Finset.mem_insert_self _ _
  · apply Finset.mem_insert_of_mem
    exact List.mem_toFinset.mpr (List.mem_map_of_mem hevent)

theorem planOf_participants :
    ∀ e ∈ planOf config (s.slots n).cmd, e.1.userId ∈ participants s := by
  intro e he
  cases hspec : config.symbolSpecs.lookup (s.slots n).cmd.marketId with
  | none =>
    rw [planOf_of_none hspec] at he
    cases he
  | some spec =>
    rw [planOf_of_spec hspec] at he
    exact mem_participants hn (settlementPlan_users e he)

end Participants

theorem sum_movedOn {users : Finset Nat} (h : participants s ⊆ users)
    (command : OrderCommandType) (assetId : Nat) :
    ∑ userId ∈ users, movedOn command s ⟨userId, assetId⟩ = movedIn command s assetId := by
  unfold movedOn movedIn
  rw [sum_window]
  apply window_congr
  intro n _ hn
  by_cases hdone : (s.slots n).cmd.command = command ∧ (s.slots n).cmd.status = .processed
  · simp only [moved, if_pos hdone]
    rw [sum_onKey (h (mem_participants hn (.inl rfl)))]
    simp [hdone]
  · have hnone : ¬((s.slots n).cmd.command = command ∧ (s.slots n).cmd.status = .processed ∧
        truncate 16 (s.slots n).cmd.marketId = assetId) := fun h => hdone ⟨h.1, h.2.1⟩
    simp only [moved, if_neg hdone, if_neg hnone]
    exact Finset.sum_const_zero

section Settled

variable (ho : (pipeline config).Ordered s) (hsettled : Settled s)

include ho hsettled

theorem Settled.seq_eq (g h : Fin numRiskEngines) :
    s.seq (.settlement g) = s.seq (.settlement h) := by
  have hgh := (ho.staged (.risk h) (.settlement g) (Nat.zero_lt_succ 1)).trans (hsettled h h)
  have hhg := (ho.staged (.risk g) (.settlement h) (Nat.zero_lt_succ 1)).trans (hsettled g g)
  omega

theorem sum_settledOn (measure : Move → Nat) (assetId : Nat) :
    ∑ userId ∈ participants s, settledOn config measure s ⟨userId, assetId⟩ =
      window (fun n => tallyAt measure (planOf config (s.slots n).cmd)
        fun k => decide (k.assetId = assetId)) 0 (s.seq (.settlement 0)) := by
  unfold settledOn
  simp only [hsettled.seq_eq ho _ 0]
  rw [sum_window]
  apply window_congr
  intro n _ hn
  exact sum_tally measure (planOf_participants (hn.trans_le (ho.published _)))

theorem sum_withheldBy (assetId : Nat) :
    ∑ shard, withheldBy config s assetId shard =
      window (fun n => tallyAt Move.withheld (planOf config (s.slots n).cmd)
        fun k => decide (k.assetId = assetId)) 0 (s.seq (.settlement 0)) := by
  unfold withheldBy
  simp only [hsettled.seq_eq ho _ 0]
  rw [sum_window]
  apply window_congr
  intro n _ _
  exact sum_tallyAt_shards _ _ _

end Settled

theorem spec_of_lookup {marketId : Nat} {spec : CoreMarketSpecification}
    (h : config.symbolSpecs.lookup marketId = some spec) : (marketId, spec) ∈ config.markets := by
  unfold Config.symbolSpecs at h
  rw [Finmap.dlookup_list_toFinmap] at h
  obtain ⟨entry, hentry, heq⟩ := List.mem_map.mp (List.of_mem_dlookup (Option.mem_def.mpr h))
  cases heq
  exact hentry

section Fees

variable (hfees : ∀ m ∈ config.markets, FeesBounded m.2)

include hfees

theorem feesFit_of_bounded (h : Handler) (s : State) : FeesFit config h s :=
  fun _ _ _ hspec event _ => (hfees _ (spec_of_lookup hspec)).net (found s h) event

theorem planOf_conserves (cmd : OrderCommand) (assetId : Nat) :
    Conserves (planOf config cmd) fun k => decide (k.assetId = assetId) := by
  cases hspec : config.symbolSpecs.lookup cmd.marketId with
  | none =>
    rw [planOf_of_none hspec]
    exact .nil _
  | some spec =>
    rw [planOf_of_spec hspec]
    exact settlementPlan_conserves
      (fun event _ => (hfees _ (spec_of_lookup hspec)).net cmd event) assetId

theorem LedgerInvariant.conserved {exact : Prop} (inv : LedgerInvariant config exact s)
    (ho : (pipeline config).Ordered s) (hsettled : Settled s) (assetId : Nat) :
    s.shared.total assetId + movedIn .withdrawFunds s assetId +
        feesIn s.shared.settlements assetId = movedIn .depositFunds s assetId := by
  have hflow : ∑ userId ∈ participants s,
      ((s.shared.account ⟨userId, assetId⟩).available +
        (s.shared.account ⟨userId, assetId⟩).locked +
        settledOn config Move.spent s ⟨userId, assetId⟩ +
        movedOn .withdrawFunds s ⟨userId, assetId⟩) =
      ∑ userId ∈ participants s, (settledOn config Move.received s ⟨userId, assetId⟩ +
        movedOn .depositFunds s ⟨userId, assetId⟩) :=
    Finset.sum_congr rfl fun userId _ => inv.flow ⟨userId, assetId⟩
  have htotal := Core.total_superset (users_subset_participants s) assetId
  -- what the settled plans spend they hand on, fees apart
  have hplans : window (fun n => tallyAt Move.spent (planOf config (s.slots n).cmd)
      fun k => decide (k.assetId = assetId)) 0 (s.seq (.settlement 0)) =
      window (fun n => tallyAt Move.received (planOf config (s.slots n).cmd)
        fun k => decide (k.assetId = assetId)) 0 (s.seq (.settlement 0)) +
      window (fun n => tallyAt Move.withheld (planOf config (s.slots n).cmd)
        fun k => decide (k.assetId = assetId)) 0 (s.seq (.settlement 0)) := by
    rw [← window_add]
    apply window_congr
    intro n _ _
    exact planOf_conserves hfees (s.slots n).cmd assetId
  have hwithheld := inv.fees assetId
  rw [sum_withheldBy ho hsettled] at hwithheld
  simp only [Finset.sum_add_distrib, sum_movedOn (Finset.Subset.refl _),
    sum_settledOn ho hsettled] at hflow htotal
  omega

/-- In every run in range, with fees of at most the whole, no settlement and no release fails,
whatever way the stages overlap. Whenever all started commands are settled, what the users have
of an asset is what was deposited less what was withdrawn and what was withheld as fees. -/
theorem run_solvent {replayEnabled : Bool}
    (run : Reaches config (fun h s => IdsIncrease h s ∧ InRange config h s) replayEnabled s) :
    (∀ e ∈ s.shared.settlements, e.result = .ok ()) ∧
      (Settled s → ∀ assetId, s.shared.total assetId + movedIn .withdrawFunds s assetId +
        feesIn s.shared.settlements assetId = movedIn .depositFunds s assetId) := by
  obtain ⟨ho, -, -, inv⟩ := @Reaches.ledger config s False _ _ run (fun _ _ h => h.1)
    (fun _ _ h => h.2) (fun h s _ => feesFit_of_bounded hfees h s) False.elim
  exact ⟨inv.settled, inv.conserved hfees ho⟩

end Fees

/-- Market 1 with a maker fee of one per cent and a taker fee of two. -/
def feeConfig : Config :=
  { plainConfig [1] with markets := [(1, ⟨1, 1, 1, 200, 100, 0⟩)] }

/-- User 3 buys from user 4 what it has bid for, and takes back the rest of its deposit. -/
def tradeCommands : List OrderCommand :=
  [.funds .depositFunds 3 0 1000, .funds .depositFunds 4 1 500, .limit .bid .gtc 0 3 2 100,
    .limit .ask .ioc 0 4 2 150, .funds .withdrawFunds 3 0 800]

/-- Commands are published and taken through R2, one stage after the other. -/
def staged (cmds : List OrderCommand) : List (Pipeline.Action Handler Slot) :=
  cmds.map (fun cmd => .publish (Slot.of cmd)) ++
    (Handler.journaling :: riskHandlers ++ matchingHandlers ++ settlementHandlers).flatMap fun h =>
      cmds.map fun _ => .advance h

def traded : State :=
  (pipeline feeConfig).execute (start feeConfig false) (staged tradeCommands)

theorem traded_reaches :
    Reaches feeConfig (fun h s => IdsIncrease h s ∧ InRange feeConfig h s) false traded :=
  @Reaches.of_schedule _ tradeCommands _ _ _ (by decide) (by decide +kernel)

theorem traded_settled : Settled traded := by
  unfold Settled
  decide +kernel

/-- Both sides settle, and nothing of the thousand deposited is lost. -/
theorem run_solvent_traded :
    (∀ e ∈ traded.shared.settlements, e.result = .ok ()) ∧
      traded.shared.total 0 + movedIn .withdrawFunds traded 0 +
        feesIn traded.shared.settlements 0 = 1000 := by
  have hdeposited : movedIn .depositFunds traded 0 = 1000 := by decide +kernel
  have h := run_solvent (by decide) traded_reaches
  exact ⟨h.1, (h.2 traded_settled 0).trans hdeposited⟩

/-- Eight hundred are withdrawn, and four of the two hundred that user 4 receives withheld. -/
example : movedIn .withdrawFunds traded 0 = 800 ∧ feesIn traded.shared.settlements 0 = 4 := by
  decide +kernel

end Engine

end VexCore
