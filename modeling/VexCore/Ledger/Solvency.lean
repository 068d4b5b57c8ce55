import VexCore.Ledger.Reserving

/-!
# Solvency

R2 finds its plans covered, so every call it makes succeeds and moves what the plan says. With
R1 and matching the ledger then holds in every state of a run.
-/

namespace VexCore

open Framework

namespace Engine

variable {config : Config} {s : State} {exact : Prop}

theorem riskR2Handler_idle {engine : RiskEngine} {cmd : OrderCommand} (hevents : cmd.events = [])
    (hkeeps : shouldHandleCancellation cmd = false) :
    (riskR2Handler engine cmd).1 = engine.balances ∧ (riskR2Handler engine cmd).2.2 = [] := by
  have hsame (events : List MatcherTradeEvent) :
      shouldHandleCancellation { cmd with events } = false := hkeeps
  unfold riskR2Handler
  rw [hevents]
  by_cases hdone : cmd.status = .rejected ∨ cmd.status = .processed
  · simp [hdone]
  · by_cases howns : engine.userIdForThisHandler cmd.userId = true
    · simp [hdone, howns, settleEvents, finishTaker, hsame]
    · simp [hdone, howns, settleEvents]

section Settlement

variable (shard : Fin numRiskEngines)

theorem LedgerInvariant.debit_le (inv : LedgerInvariant config exact s)
    (ready : (pipeline config).Ready s (.settlement shard))
    {k : BalanceKey} (hk : userShard k.userId = shard) :
    tally Move.debit (planOf config (found s (.settlement shard))) k ≤
      (s.shared.account k).locked := by
  obtain ⟨lost, -, hcovered⟩ := inv.covered k
  have hlast : s.seq (.settlement shard) < s.seq (.risk shard) :=
    ready.2 (.risk shard) (Nat.zero_lt_succ 1)
  have hdue : due config s k (s.seq (.settlement shard)) =
      tally Move.debit (planOf config (found s (.settlement shard))) k :=
    if_pos (matched_of_settlement ready)
  rw [pending, hk, window_drop _ hlast, hdue] at hcovered
  omega

/-- The accounts of a shard cover its part of the plan. -/
theorem LedgerInvariant.covers (inv : LedgerInvariant config exact s)
    (ready : (pipeline config).Ready s (.settlement shard))
    (range : SettlementInRange config shard s) :
    Covers (2 ^ 64) (s.shared.balances shard).accounts
      (ownPart (s.shared.riskEngine config shard)
        (planOf config (found s (.settlement shard)))) := by
  intro k
  by_cases hk : userShard k.userId = shard
  · have hown : (s.shared.riskEngine config shard).userIdForThisHandler k.userId = true :=
      ownsUser_iff.mpr hk.symm
    have hdebit := inv.debit_le shard ready hk
    have haccount : (s.shared.balances shard).accounts k = s.shared.account k := by
      rw [Core.account, hk]
    rw [haccount]
    rw [tally_ownPart _ _ hown, tally_ownPart _ _ hown]
    refine ⟨hdebit, ?_⟩
    by_cases hmem : ∃ e ∈ planOf config (found s (.settlement shard)), e.1 = k
    · obtain ⟨e, he, rfl⟩ := hmem
      cases hspec : config.symbolSpecs.lookup (found s (.settlement shard)).marketId with
      | none =>
        rw [planOf_of_none hspec] at he
        cases he
      | some spec =>
        rw [planOf_of_spec hspec] at he ⊢
        have hdone : ¬((found s (.settlement shard)).status = .rejected ∨
            (found s (.settlement shard)).status = .processed) := by
          intro hdone
          rw [settlementPlan, if_pos hdone] at he
          cases he
        exact (range spec hspec hdone).2 e (List.mem_filter.mpr ⟨he, hown⟩)
    · have hnone : tally Move.credit (planOf config (found s (.settlement shard))) k = 0 := by
        apply tally_of_not_mem
        intro e he heq
        exact hmem ⟨e, he, heq⟩
      rw [hnone, Nat.add_zero, ← haccount]
      exact inv.words shard k
  · have hown : (s.shared.riskEngine config shard).userIdForThisHandler k.userId = false := by
      apply Bool.eq_false_iff.mpr
      intro howns
      exact hk (ownsUser_iff.mp howns).symm
    rw [tally_ownPart_of_not _ _ hown, tally_ownPart_of_not _ _ hown]
    exact ⟨Nat.zero_le _, inv.words shard k⟩

theorem LedgerInvariant.carriesOut (inv : LedgerInvariant config exact s)
    (hc : CommandsInvariant config s)
    (ready : (pipeline config).Ready s (.settlement shard))
    (range : SettlementInRange config shard s) (fees : FeesFit config (.settlement shard) s) :
    CarriesOut (s.shared.balances shard)
      (ownPart (s.shared.riskEngine config shard) (planOf config (found s (.settlement shard))))
      (riskR2Handler (s.shared.riskEngine config shard) (found s (.settlement shard))).1
      (riskR2Handler (s.shared.riskEngine config shard) (found s (.settlement shard))).2.2 := by
  have hcovers := inv.covers shard ready range
  cases hspec : config.symbolSpecs.lookup (found s (.settlement shard)).marketId with
  | none =>
    -- without a specification nothing was matched, and there is nothing to settle
    obtain ⟨hevents, hkeeps⟩ := hc.idle (s.seq (.settlement shard)) (.inr hspec)
    obtain ⟨hstore, hlog⟩ :=
      @riskR2Handler_idle (s.shared.riskEngine config shard) _ hevents hkeeps
    have hplan : planOf config (found s (.settlement shard)) = [] := planOf_of_none hspec
    rw [hplan, ownPart_nil]
    change CarriesOut _ [] (riskR2Handler _ (s.slots (s.seq (.settlement shard))).cmd).1
      (riskR2Handler _ (s.slots (s.seq (.settlement shard))).cmd).2.2
    rw [hstore, hlog]
    exact .nil _
  | some spec =>
    rw [planOf_of_spec hspec] at hcovers ⊢
    exact riskR2Handler_carriesOut hspec (hc.makers _) (fun hdone => (range spec hspec hdone).1)
      (fees shard rfl spec hspec) hcovers

theorem pending_advance_settlement (ready : (pipeline config).Ready s (.settlement shard))
    {k : BalanceKey} (hk : userShard k.userId = shard) :
    pending config ((pipeline config).advance s (.settlement shard)) k +
        tally Move.debit (planOf config (found s (.settlement shard))) k =
      pending config s k := by
  have hlast : s.seq (.settlement shard) < s.seq (.risk shard) :=
    ready.2 (.risk shard) (Nat.zero_lt_succ 1)
  have hdue : due config s k (s.seq (.settlement shard)) =
      tally Move.debit (planOf config (found s (.settlement shard))) k :=
    if_pos (matched_of_settlement ready)
  have hrisk : ((pipeline config).advance s (.settlement shard)).seq (.risk shard) =
      s.seq (.risk shard) := Pipeline.advance_seq_ne s _ Handler.noConfusion
  have hrest : window (due config ((pipeline config).advance s (.settlement shard)) k)
      (s.seq (.settlement shard) + 1) (s.seq (.risk shard)) =
        window (due config s k) (s.seq (.settlement shard) + 1) (s.seq (.risk shard)) := by
    apply window_congr
    intro i hi _
    exact due_advance_ne _ (Nat.ne_of_gt hi) k
  rw [pending, pending, hk, Pipeline.advance_seq_self, hrisk, hrest, window_drop _ hlast, hdue]
  exact Nat.add_comm _ _

theorem settledOn_advance_settlement (measure : Move → Nat) (k : BalanceKey) :
    settledOn config measure ((pipeline config).advance s (.settlement shard)) k =
      settledOn config measure s k + (if userShard k.userId = shard then
        tally measure (planOf config (found s (.settlement shard))) k else 0) := by
  have hplan (i : Nat) : planOf config
      (((pipeline config).advance s (.settlement shard)).slots i).cmd =
        planOf config (s.slots i).cmd := by
    apply planOf_advance (.settlement shard) _ (Nat.lt_succ_self i)
    intro _
    exact (settlementHandler_owesSame shard _ _).planOf_eq
  unfold settledOn
  simp only [hplan]
  by_cases hk : userShard k.userId = shard
  · rw [if_pos hk, hk, Pipeline.advance_seq_self, window_succ _ (Nat.zero_le _)]
    rfl
  · have hseq : ((pipeline config).advance s (.settlement shard)).seq
        (.settlement (userShard k.userId)) = s.seq (.settlement (userShard k.userId)) := by
      apply Pipeline.advance_seq_ne s _
      intro heq
      exact hk (Handler.settlement.inj heq)
    rw [if_neg hk, hseq, Nat.add_zero]

theorem withheldBy_advance_settlement (assetId : Nat) (other : Fin numRiskEngines) :
    withheldBy config ((pipeline config).advance s (.settlement shard)) assetId other =
      withheldBy config s assetId other + (if other = shard then
        tallyAt Move.withheld (planOf config (found s (.settlement shard))) fun k =>
          ownsUser shard k.userId && decide (k.assetId = assetId) else 0) := by
  have hplan (i : Nat) : planOf config
      (((pipeline config).advance s (.settlement shard)).slots i).cmd =
        planOf config (s.slots i).cmd := by
    apply planOf_advance (.settlement shard) _ (Nat.lt_succ_self i)
    intro _
    exact (settlementHandler_owesSame shard _ _).planOf_eq
  unfold withheldBy
  simp only [hplan]
  by_cases hother : other = shard
  · subst hother
    rw [if_pos rfl, Pipeline.advance_seq_self, window_succ _ (Nat.zero_le _)]
    rfl
  · have hseq : ((pipeline config).advance s (.settlement shard)).seq (.settlement other) =
        s.seq (.settlement other) := by
      apply Pipeline.advance_seq_ne s _
      intro heq
      exact hother (Handler.settlement.inj heq)
    rw [if_neg hother, hseq, Nat.add_zero]

/-- R2 credits and debits the accounts of its shard as the plan says. -/
theorem LedgerInvariant.account_advance_settlement (inv : LedgerInvariant config exact s)
    (hc : CommandsInvariant config s) (ready : (pipeline config).Ready s (.settlement shard))
    (range : SettlementInRange config shard s) (fees : FeesFit config (.settlement shard) s)
    {k : BalanceKey} (hk : userShard k.userId = shard) :
    (((pipeline config).advance s (.settlement shard)).shared.account k).available =
        (s.shared.account k).available +
          tally Move.credit (planOf config (found s (.settlement shard))) k ∧
      (((pipeline config).advance s (.settlement shard)).shared.account k).locked +
          tally Move.debit (planOf config (found s (.settlement shard))) k =
        (s.shared.account k).locked := by
  have hcarried := inv.carriesOut shard hc ready range fees
  have hdebit := inv.debit_le shard ready hk
  have hown : (s.shared.riskEngine config shard).userIdForThisHandler k.userId = true :=
    ownsUser_iff.mpr hk.symm
  have hstore : ((pipeline config).advance s (.settlement shard)).shared.balances shard =
      (riskR2Handler (s.shared.riskEngine config shard) (found s (.settlement shard))).1 :=
    Function.update_self shard _ s.shared.balances
  have hafter : ((pipeline config).advance s (.settlement shard)).shared.account k =
      settle (s.shared.balances shard).accounts (ownPart (s.shared.riskEngine config shard)
        (planOf config (found s (.settlement shard)))) k := by
    rw [Core.account, hk, hstore]
    exact congrFun hcarried.executes k
  have hbefore : s.shared.account k = (s.shared.balances shard).accounts k := by
    rw [Core.account, hk]
  rw [hafter, settle, tally_ownPart _ _ hown, tally_ownPart _ _ hown, ← hbefore]
  exact ⟨rfl, Nat.sub_add_cancel hdebit⟩

theorem LedgerInvariant.advance_settlement (inv : LedgerInvariant config exact s)
    (hc : CommandsInvariant config s) (ready : (pipeline config).Ready s (.settlement shard))
    (range : SettlementInRange config shard s) (fees : FeesFit config (.settlement shard) s) :
    LedgerInvariant config exact ((pipeline config).advance s (.settlement shard)) := by
  have hcovers := inv.covers shard ready range
  have hcarried := inv.carriesOut shard hc ready range fees
  have hstore : ((pipeline config).advance s (.settlement shard)).shared.balances shard =
      (riskR2Handler (s.shared.riskEngine config shard) (found s (.settlement shard))).1 :=
    Function.update_self shard _ s.shared.balances
  have hother {g : Fin numRiskEngines} (hg : g ≠ shard) :
      ((pipeline config).advance s (.settlement shard)).shared.balances g =
        s.shared.balances g := Function.update_of_ne hg _ s.shared.balances
  have hlog : ((pipeline config).advance s (.settlement shard)).shared.settlements =
      s.shared.settlements ++
        (riskR2Handler (s.shared.riskEngine config shard) (found s (.settlement shard))).2.2 := rfl
  have hsame : OwesSame (found s (.settlement shard)) (handed config s (.settlement shard)) :=
    settlementHandler_owesSame shard _ _
  have hbooks (k : BalanceKey) :
      reserved config ((pipeline config).advance s (.settlement shard)).shared k =
        reserved config s.shared k := reserved_congr rfl k
  have hfar {k : BalanceKey} (hk : userShard k.userId ≠ shard) :
      ((pipeline config).advance s (.settlement shard)).shared.account k =
        s.shared.account k := by
    rw [Core.account, hother hk, Core.account]
  refine ⟨?_, ?_, ?_, ?_, ?_⟩
  · intro k
    obtain ⟨lost, hlost, hcovered⟩ := inv.covered k
    refine ⟨lost, hlost, ?_⟩
    rw [hbooks]
    by_cases hk : userShard k.userId = shard
    · have hpending := pending_advance_settlement shard ready hk
      have haccount := inv.account_advance_settlement shard hc ready range fees hk
      omega
    · have hpending : pending config ((pipeline config).advance s (.settlement shard)) k =
          pending config s k := by
        apply pending_advance_same _ _ (Pipeline.advance_seq_ne s _ Handler.noConfusion)
          (due_advance_same _ Handler.noConfusion hsame k)
        apply Pipeline.advance_seq_ne s _
        intro heq
        exact hk (Handler.settlement.inj heq)
      rw [hpending, hfar hk]
      exact hcovered
  · intro k
    have hflow := inv.flow k
    rw [settledOn_advance_settlement, settledOn_advance_settlement,
      movedOn_advance_same _ ready hsame, movedOn_advance_same _ ready hsame]
    by_cases hk : userShard k.userId = shard
    · have haccount := inv.account_advance_settlement shard hc ready range fees hk
      have hmoves := tallyAt_debit_add_received (planOf config (found s (.settlement shard)))
        fun k' => decide (k' = k)
      rw [if_pos hk, if_pos hk]
      unfold tally at haccount ⊢
      omega
    · rw [if_neg hk, if_neg hk, hfar hk]
      exact hflow
  · intro g k
    by_cases hg : g = shard
    · subst hg
      rw [hstore, hcarried.executes]
      exact (hcovers k).2
    · rw [hother hg]
      exact inv.words g k
  · rw [hlog]
    intro e he
    exact (List.mem_append.mp he).elim (inv.settled e) (hcarried.ok e)
  · intro assetId
    have hfees := hcarried.fees assetId
    rw [tallyAt_ownPart] at hfees
    rw [hlog, feesIn_append, inv.fees, hfees]
    simp only [withheldBy_advance_settlement, Finset.sum_add_distrib, Finset.sum_ite_eq',
      Finset.mem_univ, if_true]
    rfl

end Settlement

theorem LedgerInvariant.advance (inv : LedgerInvariant config exact s)
    (ho : (pipeline config).Ordered s) (hb : BooksInvariant config s)
    (hc : CommandsInvariant config s) {h : Handler} (ready : (pipeline config).Ready s h)
    (range : InRange config h s) (fees : FeesFit config h s)
    (splits : exact → SplitsExactly config h s) :
    LedgerInvariant config exact ((pipeline config).advance s h) := by
  cases h with
  | journaling => exact inv.advance_aside (.inl rfl) ready
  | risk shard => exact inv.advance_risk ho hc shard ready range
  | matching shard => exact inv.advance_matching ho hb hc shard ready splits
  | settlement shard => exact inv.advance_settlement shard hc ready range fees
  | events => exact inv.advance_aside (.inr rfl) ready

/-- The ledger of every state that a run in range reaches. -/
theorem Reaches.ledger {guard : Handler → State → Prop} {replayEnabled : Bool}
    (run : Reaches config guard replayEnabled s)
    (increase : ∀ h s, guard h s → IdsIncrease h s) (range : ∀ h s, guard h s → InRange config h s)
    (fees : ∀ h s, guard h s → FeesFit config h s)
    (splits : exact → ∀ h s, guard h s → SplitsExactly config h s) :
    (pipeline config).Ordered s ∧ BooksInvariant config s ∧ CommandsInvariant config s ∧
      LedgerInvariant config exact s := by
  apply run.invariant (Pipeline.Ordered.start _ _)
    ⟨.start replayEnabled, .start replayEnabled, .start replayEnabled⟩
  · rintro s slot ho ⟨hb, hc, inv⟩ ⟨cmd, hfresh, rfl⟩
    exact ⟨hb.publish ho cmd, hc.publish hfresh, inv.publish ho hfresh⟩
  · rintro s h ho ⟨hb, hc, inv⟩ ready admitted
    exact ⟨hb.advance ho ready (increase h s admitted), hc.advance ho hb ready,
      inv.advance ho hb hc ready (range h s admitted) (fees h s admitted)
        fun hexact => splits hexact h s admitted⟩

end Engine

end VexCore
