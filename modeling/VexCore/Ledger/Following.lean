import VexCore.Ledger.Reference
import VexCore.Ledger.Solvency

/-!
# Runs that follow the commands taken one at a time

As long as R1 answers every command as it would with all earlier ones settled, the slots, the
books and the accounts of a run are those of the commands taken one at a time, as far as the
handlers have come.
-/

namespace VexCore

open Framework

namespace Engine

variable (config : Config) (cmds : Nat → OrderCommand)

/-- What a slot holds, against the command taken alone: R1 has answered it, and matching made of
it the same. -/
structure SlotFollows (s : State) (n : Nat) : Prop where
  fresh : ¬Passed s n → identify config s n (s.slots n).cmd = cmds n
  answered : Passed s n → ¬Matched s n → identify config s n (s.slots n).cmd =
    { admittedAt config cmds n with balance := (s.slots n).cmd.balance }
  balance : ¬Matched s n → ¬IsFunds (s.slots n).cmd → (s.slots n).cmd.balance = (cmds n).balance
  stamped : ¬Matched s n → n < s.seq .journaling →
    identify config s n (s.slots n).cmd = (s.slots n).cmd
  matched : Matched s n → OwesSame (matchedAt config cmds n) (s.slots n).cmd

/-- Every matching shard has the books of the commands it has passed. -/
def BooksFollow (s : State) : Prop :=
  ∀ shard, s.shared.orderBooks shard =
    (reference config cmds (s.seq (.matching shard))).orderBooks shard

/-- An account lacks what the commands between R1 and R2 will credit, and still holds locked
what they will debit. -/
structure AccountsFollow (s : State) : Prop where
  available : ∀ k, (s.shared.account k).available +
      window (fun n => tally Move.credit (planOf config (matchedAt config cmds n)) k)
        (s.seq (.settlement (userShard k.userId))) (s.seq (.risk (userShard k.userId))) =
    (reference config cmds (s.seq (.risk (userShard k.userId)))).available k
  locked : ∀ k, (s.shared.account k).locked +
      window (fun n => tally Move.debit (planOf config (matchedAt config cmds n)) k) 0
        (s.seq (.settlement (userShard k.userId))) =
    window (fun n => lockedFor config (admittedAt config cmds n) k) 0
      (s.seq (.risk (userShard k.userId)))

/-- R1, on the shard of the user, sees a best ask and funds that make it answer as it would with
all earlier commands settled. -/
def Timely (h : Handler) (s : State) : Prop :=
  ∀ shard, h = .risk shard → ownsUser shard (found s h).userId = true →
    ((found s h).command = .placeOrder → MarketBid (found s h) →
      (config.view (s.seq h) s.shared.priceCache).getBestAsk (found s h).marketId =
        (config.view (s.seq h) (reference config (identified config s)
          (s.seq h)).priceCache).getBestAsk (found s h).marketId) ∧
    ∀ amount ∈ asked config.symbolSpecs ((config.view (s.seq h) (reference config
        (identified config s) (s.seq h)).priceCache).getBestAsk (found s h).marketId) (found s h),
      (Allows (found s h).command (s.shared.account (askedKey (found s h))).available amount ↔
        Allows (found s h).command ((reference config (identified config s)
          (s.seq h)).available (askedKey (found s h))) amount)

instance (h : Handler) (s : State) : Decidable (Timely config h s) :=
  inferInstanceAs (Decidable (∀ shard, h = .risk shard → _ = true →
    (_ = _ → MarketBid _ → _ = _) ∧ ∀ amount ∈ asked _ _ _, (Allows _ _ _ ↔ Allows _ _ _)))

variable {config cmds} {s : State} {n : Nat}

namespace SlotFollows

/-- A slot that keeps its command and its stage. -/
theorem transfer (h : SlotFollows config cmds s n) {s' : State}
    (hcmd : (s'.slots n).cmd = (s.slots n).cmd)
    (hreplay : s'.shared.replayEnabled = s.shared.replayEnabled)
    (hpassed : Passed s' n ↔ Passed s n) (hmatched : Matched s' n ↔ Matched s n)
    (hjournaled : n < s'.seq .journaling ↔ n < s.seq .journaling) :
    SlotFollows config cmds s' n := by
  refine ⟨?_, ?_, ?_, ?_, ?_⟩
  · rw [hcmd, hpassed, identify_congr hreplay]
    exact h.fresh
  · rw [hcmd, hpassed, hmatched, identify_congr hreplay]
    exact h.answered
  · rw [hcmd, hmatched]
    exact h.balance
  · rw [hcmd, hmatched, hjournaled, identify_congr hreplay]
    exact h.stamped
  · rw [hcmd, hmatched]
    exact h.matched

theorem advance_ne (h : SlotFollows config cmds s n) {g : Handler} (hn : n ≠ s.seq g) :
    SlotFollows config cmds ((pipeline config).advance s g) n := by
  apply h.transfer _ (process_replayEnabled _ _ _ _) (passed_advance_ne hn) (matched_advance_ne hn)
  · by_cases hg : Handler.journaling = g
    · subst hg
      rw [Pipeline.advance_seq_self]
      omega
    · rw [Pipeline.advance_seq_ne s g hg]
  · rw [Pipeline.advance_slots_ne s g hn]

theorem advance_skip {g : Handler} (h : SlotFollows config cmds s (s.seq g))
    (hcmd : handed config s g = found s g) (hjournaling : g ≠ .journaling)
    (hrisk : g ≠ .risk (userShard (found s g).userId))
    (hmatching : g ≠ .matching (marketShard (found s g).marketId)) :
    SlotFollows config cmds ((pipeline config).advance s g) (s.seq g) := by
  apply h.transfer _ (process_replayEnabled _ _ _ _)
    (passed_advance_self hrisk (congrArg OrderCommand.userId hcmd)) (matched_advance_self hmatching)
  · rw [Pipeline.advance_seq_ne s g hjournaling.symm]
  · rw [advance_cmd_found, hcmd]
    rfl

theorem marketId (h : SlotFollows config cmds s n) (hpassed : Passed s n) :
    (s.slots n).cmd.marketId = (cmds n).marketId := by
  by_cases hmatched : Matched s n
  · rw [(h.matched hmatched).marketId, matchedAt_marketId]
  · have hanswered := congrArg OrderCommand.marketId (h.answered hpassed hmatched)
    rw [(identify_owesSame _).marketId, admittedAt_eq] at hanswered
    exact hanswered

theorem userId (h : SlotFollows config cmds s n) (hmatched : ¬Matched s n) :
    (s.slots n).cmd.userId = (cmds n).userId := by
  have hstamped := (@identify_owesSame config n s (s.slots n).cmd).userId
  by_cases hpassed : Passed s n
  · rw [h.answered hpassed hmatched, admittedAt_eq] at hstamped
    exact hstamped.symm
  · rw [h.fresh hpassed] at hstamped
    exact hstamped.symm

theorem answered_stamped (h : SlotFollows config cmds s n) (hpassed : Passed s n)
    (hmatched : ¬Matched s n) (hjournaled : n < s.seq .journaling) :
    (s.slots n).cmd = { admittedAt config cmds n with balance := (s.slots n).cmd.balance } :=
  (h.stamped hmatched hjournaled).symm.trans (h.answered hpassed hmatched)

end SlotFollows

theorem routerHandler_follows {shard : Fin numMatchingEngines} {cmd : OrderCommand}
    (hbooks : s.shared.orderBooks shard = (reference config cmds n).orderBooks shard)
    (hshard : shard = marketShard cmd.marketId)
    (hcmd : cmd = { admittedAt config cmds n with balance := cmd.balance })
    (hbalance : ¬IsFunds cmd → cmd.balance = (cmds n).balance) :
    (routerHandler shard s.shared cmd).1.orderBooks shard =
        ((reference config cmds n).routed (admittedAt config cmds n)).1 ∧
      OwesSame (matchedAt config cmds n) (routerHandler shard s.shared cmd).2 := by
  have hfields : cmd.command = (admittedAt config cmds n).command ∧
      cmd.marketId = (admittedAt config cmds n).marketId := by
    rw [hcmd]
    exact ⟨rfl, rfl⟩
  have hself : (routerHandler shard s.shared cmd).1.orderBooks shard =
      (matchingHandler (s.shared.router shard) cmd s.shared.priceCache).1 :=
    Function.update_self _ _ _
  rw [hself]
  by_cases hfunds : IsFunds cmd
  · have hskip : cmd.command = .depositFunds ∨ cmd.command = .withdrawFunds ∨
        cmd.status = .rejected := hfunds.elim .inl fun h => .inr (.inl h)
    have hskip' : (admittedAt config cmds n).command = .depositFunds ∨
        (admittedAt config cmds n).command = .withdrawFunds ∨
          (admittedAt config cmds n).status = .rejected := by
      rw [← hfields.1]
      exact hfunds.elim .inl fun h => .inr (.inl h)
    have hsame : OwesSame (admittedAt config cmds n) cmd := by
      rw [hcmd]
      exact .withBalance _ _
    constructor
    · rw [matchingHandler, if_pos hskip, Reference.routed, matchingHandler, if_pos hskip',
        ← hfields.2, ← hshard, ← hbooks]
      rfl
    · show OwesSame _ (matchingHandler _ cmd _).2.1
      rw [matchedAt, Reference.routed, matchingHandler, if_pos hskip', matchingHandler,
        if_pos hskip]
      exact hsame
  · have heq : cmd = admittedAt config cmds n := by
      have hbal : (admittedAt config cmds n).balance = (cmds n).balance := by rw [admittedAt_eq]
      rw [hbalance hfunds, ← hbal] at hcmd
      exact hcmd
    have hrouter : s.shared.router shard = ⟨(reference config cmds n).orderBooks
        (marketShard cmd.marketId), marketShard cmd.marketId, numMatchingEngines - 1⟩ := by
      rw [← hshard, ← hbooks]
      rfl
    obtain ⟨hout, houtCmd⟩ := matchingHandler_cache (s.shared.router shard) cmd
      s.shared.priceCache (reference config cmds n).priceCache
    constructor
    · rw [hout, hrouter, heq]
      rfl
    · show OwesSame _ (matchingHandler _ cmd _).2.1
      rw [houtCmd, hrouter, heq]
      exact .refl _

theorem SlotFollows.advance_journaling (ho : (pipeline config).Ordered s)
    (h : SlotFollows config cmds s (s.seq .journaling)) :
    SlotFollows config cmds ((pipeline config).advance s .journaling) (s.seq .journaling) := by
  have hcmd : (((pipeline config).advance s .journaling).slots (s.seq .journaling)).cmd =
      identify config s (s.seq .journaling) (s.slots (s.seq .journaling)).cmd :=
    advance_cmd_self _ _
  have hid (cmd : OrderCommand) : identify config ((pipeline config).advance s .journaling)
      (s.seq .journaling) cmd = identify config s (s.seq .journaling) cmd :=
    identify_congr (process_replayEnabled _ _ _ _) cmd
  have hpassed := @passed_advance_self config s .journaling Handler.noConfusion
    (journalingHandler_owesSame _ _ _).userId
  have hunmatched : ¬Matched s (s.seq .journaling) := by
    have hle := ho.staged .journaling
      (.matching (marketShard (s.slots (s.seq .journaling)).cmd.marketId)) Nat.zero_lt_one
    unfold Matched
    omega
  have hunmatched' := (not_congr (@matched_advance_self config s .journaling
    Handler.noConfusion)).mpr hunmatched
  refine ⟨?_, ?_, ?_, ?_, fun hmatched => absurd hmatched hunmatched'⟩
  · rw [hpassed, hcmd, hid, identify_idem]
    exact h.fresh
  · rw [hpassed, hcmd, hid, identify_idem, identify_balance]
    exact fun hp _ => h.answered hp hunmatched
  · rw [hcmd, identify_balance]
    intro _ hnot
    apply h.balance hunmatched
    rwa [IsFunds, (identify_owesSame _).command] at hnot
  · rw [hcmd, hid, identify_idem]
    exact fun _ _ => rfl

theorem Timely.handed_eq {shard : Fin numRiskEngines} (timely : Timely config (.risk shard) s)
    (howns : ownsUser shard (found s (.risk shard)).userId = true)
    (hcmds : ∀ i ≤ s.seq (.risk shard), identified config s i = cmds i)
    (hfresh : identify config s (s.seq (.risk shard)) (found s (.risk shard)) =
      cmds (s.seq (.risk shard))) :
    handed config s (.risk shard) = { found s (.risk shard) with
      price := (admittedAt config cmds (s.seq (.risk shard))).price
      status := (admittedAt config cmds (s.seq (.risk shard))).status
      balance := (handed config s (.risk shard)).balance } := by
  have hsame : OwesSame (found s (.risk shard)) (cmds (s.seq (.risk shard))) := by
    rw [← hfresh]
    exact identify_owesSame _
  have href : reference config (identified config s) (s.seq (.risk shard)) =
      reference config cmds (s.seq (.risk shard)) :=
    reference_congr config _ fun i hi => hcmds i hi.le
  obtain ⟨hask, hallows⟩ := timely shard rfl howns
  rw [href] at hask hallows
  have hkey : userShard (askedKey (found s (.risk shard))).userId = shard := by
    rw [askedKey]
    split <;> exact (ownsUser_iff.mp howns).symm
  have haccount : ((s.shared.riskEngine config shard).balances.getBalance
      (askedKey (found s (.risk shard))).userId
        (askedKey (found s (.risk shard))).assetId).available =
      (s.shared.account (askedKey (found s (.risk shard)))).available := by
    rw [Core.account, hkey]
    rfl
  have hanswer := @RiskEngine.preProcessCommand_answer (s.shared.riskEngine config shard)
    (found s (.risk shard)) (config.view (s.seq (.risk shard)) s.shared.priceCache) howns
  rw [haccount] at hanswer
  have hadmit := answer_congr hask hallows
  have hout : handed config s (.risk shard) =
      { (reference config cmds (s.seq (.risk shard))).admitted config (s.seq (.risk shard))
          (found s (.risk shard)) with
        balance := (handed config s (.risk shard)).balance } := by
    rw [Reference.admitted, ← hadmit]
    exact hanswer
  rw [admitted_owesSame config hsame] at hout
  exact hout

theorem order_of_not_funds {cmd : OrderCommand} (h : ¬IsFunds cmd) :
    cmd.command = .placeOrder ∨ cmd.command = .cancelOrder := by
  unfold IsFunds at h
  cases hcommand : cmd.command <;> simp_all

/-- R1 on the shard of the user. -/
theorem SlotFollows.advance_risk (ho : (pipeline config).Ordered s) {shard : Fin numRiskEngines}
    (h : SlotFollows config cmds s (s.seq (.risk shard)))
    (howns : ownsUser shard (found s (.risk shard)).userId = true)
    (timely : Timely config (.risk shard) s)
    (hcmds : ∀ i ≤ s.seq (.risk shard), identified config s i = cmds i) :
    SlotFollows config cmds ((pipeline config).advance s (.risk shard)) (s.seq (.risk shard)) := by
  have hshard : shard = userShard (s.slots (s.seq (.risk shard))).cmd.userId :=
    ownsUser_iff.mp howns
  have hunpassed : ¬Passed s (s.seq (.risk shard)) := by
    rw [Passed, ← hshard]
    exact Nat.lt_irrefl _
  have huser : (handed config s (.risk shard)).userId = (found s (.risk shard)).userId :=
    riskHandler_userId shard _ _ _
  have hpassed' : Passed ((pipeline config).advance s (.risk shard)) (s.seq (.risk shard)) := by
    rw [Passed, advance_cmd_found, huser, ← ownsUser_iff.mp howns, Pipeline.advance_seq_self]
    exact Nat.lt_succ_self _
  have hunmatched := not_matched_of_risk ho shard
  have hunmatched' := not_matched_after_risk ho shard
  have hid (cmd : OrderCommand) : identify config ((pipeline config).advance s (.risk shard))
      (s.seq (.risk shard)) cmd = identify config s (s.seq (.risk shard)) cmd :=
    identify_congr (process_replayEnabled _ _ _ _) cmd
  have hfresh := h.fresh hunpassed
  have hhanded := timely.handed_eq howns hcmds hfresh
  have hcommand : (handed config s (.risk shard)).command = (found s (.risk shard)).command :=
    process_command _ _ _ _
  obtain ⟨balance, hbalance⟩ : ∃ b, (handed config s (.risk shard)).balance = b := ⟨_, rfl⟩
  rw [hbalance] at hhanded
  refine ⟨fun hnot => absurd hpassed' hnot, ?_, ?_, ?_, fun hmatched => absurd hmatched hunmatched'⟩
  · intro _ _
    rw [advance_cmd_found, hid, hbalance, hhanded, identify_with, found, hfresh]
    exact congrArg (fun cmd : OrderCommand => { cmd with balance }) (admittedAt_eq config).symm
  · intro _ hnot
    rw [advance_cmd_found] at hnot ⊢
    have hnot' : ¬IsFunds (found s (.risk shard)) := by
      rwa [IsFunds, hcommand] at hnot
    have hkept := @RiskEngine.preProcessCommand_balance (s.shared.riskEngine config shard)
      (found s (.risk shard)) (config.view (s.seq (.risk shard)) s.shared.priceCache) howns
      (order_of_not_funds hnot')
    exact hkept.trans (h.balance hunmatched hnot')
  · intro _ hjournaled
    rw [Pipeline.advance_seq_ne s _ Handler.noConfusion] at hjournaled
    have hstamped := h.stamped hunmatched hjournaled
    rw [advance_cmd_found, hid, hhanded, identify_with, found, hstamped]

/-- Matching on the shard of the market. -/
theorem SlotFollows.advance_matching {shard : Fin numMatchingEngines}
    (h : SlotFollows config cmds s (s.seq (.matching shard))) (hbooks : BooksFollow config cmds s)
    (ready : (pipeline config).Ready s (.matching shard))
    (hshard : shard = marketShard (found s (.matching shard)).marketId) :
    SlotFollows config cmds ((pipeline config).advance s (.matching shard))
        (s.seq (.matching shard)) ∧
      ((pipeline config).advance s (.matching shard)).shared.orderBooks shard =
        (reference config cmds (s.seq (.matching shard) + 1)).orderBooks shard := by
  obtain ⟨hunmatched, hmatched'⟩ := @matched_of_matching config s shard hshard
  have hpassed : Passed s (s.seq (.matching shard)) := ready.2 (.risk _) Nat.zero_lt_one
  have hpassed' : Passed ((pipeline config).advance s (.matching shard))
      (s.seq (.matching shard)) := by
    rw [Passed, Pipeline.advance_seq_ne s _ Handler.noConfusion]
    exact ready.2 (.risk _) Nat.zero_lt_one
  have hjournaled : s.seq (.matching shard) < s.seq .journaling :=
    ready.2 .journaling Nat.zero_lt_one
  have hcmd := h.answered_stamped hpassed hunmatched hjournaled
  obtain ⟨hout, hsame⟩ := routerHandler_follows (hbooks shard) hshard hcmd
    (h.balance hunmatched)
  have hmarket : (admittedAt config cmds (s.seq (.matching shard))).marketId =
      (found s (.matching shard)).marketId := by
    rw [found, h.marketId hpassed, admittedAt_eq]
  constructor
  · refine ⟨fun hnot => absurd hpassed' hnot, fun _ hnot => absurd hmatched' hnot,
      fun hnot => absurd hmatched' hnot, fun hnot => absurd hmatched' hnot, fun _ => ?_⟩
    rw [advance_cmd_self]
    exact hsame
  · have hnext : (reference config cmds (s.seq (.matching shard) + 1)).orderBooks shard =
        ((reference config cmds (s.seq (.matching shard))).routed
          (admittedAt config cmds (s.seq (.matching shard)))).1 := by
      show Function.update _ (marketShard (admittedAt config cmds _).marketId) _ shard = _
      rw [hmarket, ← hshard, Function.update_self]
      rfl
    rw [hnext, ← hout]
    rfl

/-- R2 keeps what its command owes. -/
theorem SlotFollows.advance_settlement {shard : Fin numRiskEngines}
    (h : SlotFollows config cmds s (s.seq (.settlement shard)))
    (ready : (pipeline config).Ready s (.settlement shard)) :
    SlotFollows config cmds ((pipeline config).advance s (.settlement shard))
      (s.seq (.settlement shard)) := by
  have hsame : OwesSame (found s (.settlement shard)) (handed config s (.settlement shard)) :=
    settlementHandler_owesSame shard _ _
  have hmatched := matched_of_settlement ready
  have hmatched' := (@matched_advance_self config s (.settlement shard)
    Handler.noConfusion).mpr hmatched
  have hpassed : Passed s (s.seq (.settlement shard)) := ready.2 (.risk _) (Nat.zero_lt_succ 1)
  have hpassed' := (@passed_advance_self config s (.settlement shard) Handler.noConfusion
    hsame.userId).mpr hpassed
  refine ⟨fun hnot => absurd hpassed' hnot, fun _ hnot => absurd hmatched' hnot,
    fun hnot => absurd hmatched' hnot, fun hnot => absurd hmatched' hnot, fun _ => ?_⟩
  rw [advance_cmd_found]
  exact (h.matched hmatched).trans hsame

theorem risk_skip {shard : Fin numRiskEngines}
    (hother : ownsUser shard (found s (.risk shard)).userId = false) :
    handed config s (.risk shard) = found s (.risk shard) ∧
      ((pipeline config).advance s (.risk shard)).shared = s.shared := by
  have hskip := @riskHandler_skip config shard _ hother (s.seq (.risk shard)) s.shared
  exact ⟨congrArg Prod.snd hskip, congrArg Prod.fst hskip⟩

theorem matching_skip {shard : Fin numMatchingEngines}
    (haway : shard ≠ marketShard (found s (.matching shard)).marketId) :
    handed config s (.matching shard) = found s (.matching shard) ∧
      ((pipeline config).advance s (.matching shard)).shared = s.shared := by
  have hskip := routerHandler_skip (.inr haway) s.shared
  exact ⟨congrArg Prod.snd hskip, congrArg Prod.fst hskip⟩

theorem SlotFollows.advance (ho : (pipeline config).Ordered s) {g : Handler}
    (ready : (pipeline config).Ready s g) (h : SlotFollows config cmds s n)
    (hbooks : BooksFollow config cmds s) (timely : Timely config g s)
    (hcmds : ∀ i < s.published, identified config s i = cmds i) :
    SlotFollows config cmds ((pipeline config).advance s g) n := by
  by_cases hn : n = s.seq g
  · subst hn
    cases g with
    | journaling => exact h.advance_journaling ho
    | risk shard =>
      cases howns : ownsUser shard (found s (.risk shard)).userId with
      | true =>
        apply h.advance_risk ho howns timely
        exact fun i hi => hcmds i (hi.trans_lt ready.1)
      | false =>
        apply h.advance_skip (risk_skip howns).1 Handler.noConfusion _ Handler.noConfusion
        intro heq
        rw [ownsUser_iff.mpr (Handler.risk.inj heq)] at howns
        cases howns
    | matching shard =>
      by_cases hshard : shard = marketShard (found s (.matching shard)).marketId
      · exact (h.advance_matching hbooks ready hshard).1
      · apply h.advance_skip (matching_skip hshard).1 Handler.noConfusion Handler.noConfusion
        exact fun heq => hshard (Handler.matching.inj heq)
    | settlement shard => exact h.advance_settlement ready
    | events =>
      exact h.advance_skip rfl Handler.noConfusion Handler.noConfusion Handler.noConfusion
  · exact h.advance_ne hn

theorem BooksFollow.advance (h : BooksFollow config cmds s) {g : Handler}
    (ready : (pipeline config).Ready s g) (hslot : SlotFollows config cmds s (s.seq g)) :
    BooksFollow config cmds ((pipeline config).advance s g) := by
  intro shard
  by_cases hg : g = .matching shard
  · subst hg
    rw [Pipeline.advance_seq_self]
    by_cases hshard : shard = marketShard (found s (.matching shard)).marketId
    · exact (hslot.advance_matching h ready hshard).2
    · have hpassed : Passed s (s.seq (.matching shard)) := ready.2 (.risk _) Nat.zero_lt_one
      have hne : shard ≠ marketShard (cmds (s.seq (.matching shard))).marketId := by
        rw [← hslot.marketId hpassed]
        exact hshard
      rw [reference_orderBooks_ne config hne, (matching_skip hshard).2]
      exact h shard
  · rw [Pipeline.advance_seq_ne s g (Ne.symm hg), ← h shard]
    cases g with
    | matching other =>
      exact Function.update_of_ne (fun heq => hg (congrArg Handler.matching heq.symm)) _ _
    | journaling => rfl
    | risk other => rfl
    | settlement other => rfl
    | events => rfl

theorem SlotFollows.handed_owesSame (ho : (pipeline config).Ordered s) {shard : Fin numRiskEngines}
    (h : SlotFollows config cmds ((pipeline config).advance s (.risk shard)) (s.seq (.risk shard)))
    (howns : ownsUser shard (found s (.risk shard)).userId = true) :
    OwesSame (admittedAt config cmds (s.seq (.risk shard))) (handed config s (.risk shard)) := by
  have huser : (handed config s (.risk shard)).userId = (found s (.risk shard)).userId :=
    riskHandler_userId shard _ _ _
  have hpassed : Passed ((pipeline config).advance s (.risk shard)) (s.seq (.risk shard)) := by
    rw [Passed, advance_cmd_found, huser, ← ownsUser_iff.mp howns, Pipeline.advance_seq_self]
    exact Nat.lt_succ_self _
  have hanswered := h.answered hpassed (not_matched_after_risk ho shard)
  rw [advance_cmd_found] at hanswered
  have hstamped := @identify_owesSame config (s.seq (.risk shard))
    ((pipeline config).advance s (.risk shard)) (handed config s (.risk shard))
  rw [hanswered] at hstamped
  exact (OwesSame.withBalance _ _).trans hstamped.symm

namespace AccountsFollow

/-- A visit that neither R1 nor R2 of an account's shard makes. -/
theorem advance_still (h : AccountsFollow config cmds s) {g : Handler}
    (hrisk : ∀ shard, g ≠ .risk shard) (hsettlement : ∀ shard, g ≠ .settlement shard)
    (haccount : ((pipeline config).advance s g).shared.account = s.shared.account) :
    AccountsFollow config cmds ((pipeline config).advance s g) := by
  constructor
  · intro k
    rw [Pipeline.advance_seq_ne s g (hrisk _).symm, Pipeline.advance_seq_ne s g (hsettlement _).symm,
      haccount]
    exact h.available k
  · intro k
    rw [Pipeline.advance_seq_ne s g (hrisk _).symm, Pipeline.advance_seq_ne s g (hsettlement _).symm,
      haccount]
    exact h.locked k

theorem risk_account {exact : Prop} (inv : LedgerInvariant config exact s)
    (ho : (pipeline config).Ordered s) (hc : CommandsInvariant config s)
    {shard : Fin numRiskEngines} (range : ReservationInRange config shard s)
    (hslot : SlotFollows config cmds s (s.seq (.risk shard)))
    (hslot' : SlotFollows config cmds ((pipeline config).advance s (.risk shard))
      (s.seq (.risk shard))) {k : BalanceKey} (hk : userShard k.userId = shard) :
    (((pipeline config).advance s (.risk shard)).shared.account k).locked =
        (s.shared.account k).locked +
          lockedFor config (admittedAt config cmds (s.seq (.risk shard))) k ∧
      (((pipeline config).advance s (.risk shard)).shared.account k).available +
          (moved .withdrawFunds (admittedAt config cmds (s.seq (.risk shard))) k +
            lockedFor config (admittedAt config cmds (s.seq (.risk shard))) k) =
        (s.shared.account k).available +
          moved .depositFunds (admittedAt config cmds (s.seq (.risk shard))) k := by
  cases howns : ownsUser shard (found s (.risk shard)).userId with
  | true =>
    have hmoves := inv.accounts_moved hc shard howns range
    have hsame := hslot'.handed_owesSame ho howns
    have hlocked := hmoves.locked k
    have htotal := hmoves.total k
    rw [hsame.lockedFor_eq] at hlocked
    rw [hsame.moved_eq, hsame.moved_eq] at htotal
    exact ⟨hlocked, by omega⟩
  | false =>
    have huser : (admittedAt config cmds (s.seq (.risk shard))).userId ≠ k.userId := by
      rw [admittedAt_eq]
      intro heq
      have hfound := (hslot.userId (not_matched_of_risk ho shard)).trans heq
      rw [found, hfound, ownsUser_iff.mpr hk.symm] at howns
      cases howns
    rw [lockedFor_of_user huser, moved_of_user huser, moved_of_user huser, (risk_skip howns).2]
    exact ⟨rfl, rfl⟩

theorem advance_risk {exact : Prop} (h : AccountsFollow config cmds s)
    (inv : LedgerInvariant config exact s) (ho : (pipeline config).Ordered s)
    (hc : CommandsInvariant config s) {shard : Fin numRiskEngines}
    (range : ReservationInRange config shard s)
    (hslot : SlotFollows config cmds s (s.seq (.risk shard)))
    (hslot' : SlotFollows config cmds ((pipeline config).advance s (.risk shard))
      (s.seq (.risk shard))) :
    AccountsFollow config cmds ((pipeline config).advance s (.risk shard)) := by
  have hsettled (g : Fin numRiskEngines) : ((pipeline config).advance s (.risk shard)).seq
      (.settlement g) = s.seq (.settlement g) := Pipeline.advance_seq_ne s _ Handler.noConfusion
  have hfar {k : BalanceKey} (hk : userShard k.userId ≠ shard) :
      ((pipeline config).advance s (.risk shard)).shared.account k = s.shared.account k ∧
        ((pipeline config).advance s (.risk shard)).seq (.risk (userShard k.userId)) =
          s.seq (.risk (userShard k.userId)) :=
    ⟨account_setBalances_ne hk _,
      Pipeline.advance_seq_ne s _ fun heq => hk (Handler.risk.inj heq)⟩
  constructor
  · intro k
    have havailable := h.available k
    rw [hsettled]
    by_cases hk : userShard k.userId = shard
    · have hmoves := (risk_account inv ho hc range hslot hslot' hk).2
      have hle := settlement_le_risk ho shard shard
      rw [hk] at havailable ⊢
      rw [Pipeline.advance_seq_self, window_succ _ hle, reference_available]
      omega
    · rw [(hfar hk).1, (hfar hk).2]
      exact havailable
  · intro k
    have hlocked := h.locked k
    rw [hsettled]
    by_cases hk : userShard k.userId = shard
    · have hmoves := (risk_account inv ho hc range hslot hslot' hk).1
      rw [hk] at hlocked ⊢
      rw [Pipeline.advance_seq_self, window_succ _ (Nat.zero_le _)]
      omega
    · rw [(hfar hk).1, (hfar hk).2]
      exact hlocked

theorem advance_settlement {exact : Prop} (h : AccountsFollow config cmds s)
    (inv : LedgerInvariant config exact s) (hc : CommandsInvariant config s)
    {shard : Fin numRiskEngines} (ready : (pipeline config).Ready s (.settlement shard))
    (range : SettlementInRange config shard s) (fees : FeesFit config (.settlement shard) s)
    (hslot : SlotFollows config cmds s (s.seq (.settlement shard))) :
    AccountsFollow config cmds ((pipeline config).advance s (.settlement shard)) := by
  have hpassed (g : Fin numRiskEngines) : ((pipeline config).advance s (.settlement shard)).seq
      (.risk g) = s.seq (.risk g) := Pipeline.advance_seq_ne s _ Handler.noConfusion
  have hplan : planOf config (found s (.settlement shard)) =
      planOf config (matchedAt config cmds (s.seq (.settlement shard))) :=
    (hslot.matched (matched_of_settlement ready)).planOf_eq
  have hfar {k : BalanceKey} (hk : userShard k.userId ≠ shard) :
      ((pipeline config).advance s (.settlement shard)).shared.account k = s.shared.account k ∧
        ((pipeline config).advance s (.settlement shard)).seq (.settlement (userShard k.userId)) =
          s.seq (.settlement (userShard k.userId)) := by
    refine ⟨?_, Pipeline.advance_seq_ne s _ fun heq => hk (Handler.settlement.inj heq)⟩
    have hother : ((pipeline config).advance s (.settlement shard)).shared.balances
        (userShard k.userId) = s.shared.balances (userShard k.userId) :=
      Function.update_of_ne hk _ s.shared.balances
    rw [Core.account, hother, Core.account]
  constructor
  · intro k
    have havailable := h.available k
    rw [hpassed]
    by_cases hk : userShard k.userId = shard
    · have hmoves := (inv.account_advance_settlement shard hc ready range fees hk).1
      have hlt : s.seq (.settlement shard) < s.seq (.risk shard) :=
        ready.2 (.risk shard) (Nat.zero_lt_succ 1)
      rw [hk, window_drop _ hlt] at havailable
      rw [hk, Pipeline.advance_seq_self, hmoves, hplan]
      omega
    · rw [(hfar hk).1, (hfar hk).2]
      exact havailable
  · intro k
    have hlocked := h.locked k
    rw [hpassed]
    by_cases hk : userShard k.userId = shard
    · have hmoves := (inv.account_advance_settlement shard hc ready range fees hk).2
      rw [hk] at hlocked
      rw [hplan] at hmoves
      rw [hk, Pipeline.advance_seq_self, window_succ _ (Nat.zero_le _)]
      omega
    · rw [(hfar hk).1, (hfar hk).2]
      exact hlocked

end AccountsFollow

end Engine

end VexCore
