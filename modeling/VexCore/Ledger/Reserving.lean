import VexCore.Ledger.Runs

/-!
# R1 keeps the ledger

What R1 locks for a placement becomes pending on the account it locks it on. Deposits and
withdrawals move the account they name, and nothing is owed for them.
-/

namespace VexCore

open Framework

namespace Engine

variable {config : Config} {s : State} {exact : Prop}

namespace LedgerInvariant

theorem start (replayEnabled : Bool) : LedgerInvariant config exact (start config replayEnabled) where
  covered k := by
    refine ⟨0, fun _ => rfl, ?_⟩
    have hreserved : reserved config (Core.init config replayEnabled) k = 0 := by
      apply Finset.sum_eq_zero
      intro m _
      unfold marketReserve
      cases hspec : config.symbolSpecs.lookup m with
      | none => rfl
      | some spec =>
        cases hbook : ((Core.init config replayEnabled).orderBooks (marketShard m)).lookup m with
        | none => rfl
        | some book =>
          obtain ⟨-, rfl, -⟩ := lookup_openBooks hbook
          rfl
    show window _ 0 0 + reserved config (Core.init config replayEnabled) k + 0 = 0
    rw [hreserved, window_self]
  flow k := rfl
  words shard k := Nat.two_pow_pos 64
  settled e he := by cases he
  fees assetId := by
    symm
    apply Finset.sum_eq_zero
    intro shard _
    exact window_self _ 0

theorem publish (inv : LedgerInvariant config exact s) (ho : (pipeline config).Ordered s)
    {cmd : OrderCommand} (hfresh : cmd.Fresh) :
    LedgerInvariant config exact (s.publish (Slot.of cmd)) := by
  have hslot {i : Nat} (h : Handler) (hi : i < s.seq h) :
      (s.publish (Slot.of cmd)).slots i = s.slots i :=
    Pipeline.State.publish_slots_ne s _ (hi.trans_le (ho.published h)).ne
  have hpending (k : BalanceKey) : pending config (s.publish (Slot.of cmd)) k =
      pending config s k := by
    apply window_congr
    intro i _ hi
    have hmatched : Matched (s.publish (Slot.of cmd)) i ↔ Matched s i := by
      unfold Matched
      rw [hslot _ hi]
      rfl
    rw [due, due, hslot _ hi]
    simp only [hmatched]
  have hsettled (measure : Move → Nat) (k : BalanceKey) :
      settledOn config measure (s.publish (Slot.of cmd)) k = settledOn config measure s k := by
    apply window_congr
    intro i _ hi
    rw [hslot _ hi]
  have hmoved (command : OrderCommandType) (k : BalanceKey) :
      movedOn command (s.publish (Slot.of cmd)) k = movedOn command s k := by
    have hnone : moved command cmd k = 0 :=
      moved_of_status (by rw [hfresh.status]; exact Status.noConfusion) command k
    have hnew : ((s.publish (Slot.of cmd)).slots s.published).cmd = cmd := by
      rw [Pipeline.State.publish_slots_self]
      rfl
    rw [movedOn, Pipeline.State.publish_published, window_succ _ (Nat.zero_le _), hnew, hnone,
      Nat.add_zero]
    apply window_congr
    intro i _ hi
    rw [Pipeline.State.publish_slots_ne s _ hi.ne]
  have hwithheld (assetId : Nat) (shard : Fin numRiskEngines) :
      withheldBy config (s.publish (Slot.of cmd)) assetId shard =
        withheldBy config s assetId shard := by
    apply window_congr
    intro i _ hi
    rw [hslot _ hi]
  refine ⟨?_, ?_, inv.words, inv.settled, ?_⟩
  · intro k
    rw [hpending]
    exact inv.covered k
  · intro k
    rw [hsettled, hsettled, hmoved, hmoved]
    exact inv.flow k
  · intro assetId
    simp only [hwithheld]
    exact inv.fees assetId

end LedgerInvariant

section Risk

variable (ho : (pipeline config).Ordered s) (shard : Fin numRiskEngines)

include ho

/-- The slot R1 visits is not settled anywhere. -/
theorem settlement_le_risk (g : Fin numRiskEngines) :
    s.seq (.settlement g) ≤ s.seq (.risk shard) :=
  ho.staged (.risk shard) (.settlement g) (Nat.zero_lt_succ 1)

theorem not_matched_after_risk :
    ¬Matched ((pipeline config).advance s (.risk shard)) (s.seq (.risk shard)) := by
  rw [matched_advance_self Handler.noConfusion]
  exact not_matched_of_risk ho shard

theorem pending_advance_risk {k : BalanceKey} (hk : userShard k.userId = shard) :
    pending config ((pipeline config).advance s (.risk shard)) k =
      pending config s k + lockedFor config (handed config s (.risk shard)) k := by
  have hsettlement : ((pipeline config).advance s (.risk shard)).seq (.settlement shard) =
      s.seq (.settlement shard) := Pipeline.advance_seq_ne s _ Handler.noConfusion
  have hnew : due config ((pipeline config).advance s (.risk shard)) k (s.seq (.risk shard)) =
      lockedFor config (handed config s (.risk shard)) k := by
    rw [due, if_neg (not_matched_after_risk ho shard), advance_cmd_found]
  unfold pending
  rw [hk, hsettlement, Pipeline.advance_seq_self, window_succ _ (settlement_le_risk ho shard shard),
    hnew]
  congr 1
  apply window_congr
  intro i _ hi
  exact due_advance_ne _ (Nat.ne_of_lt hi) k

/-- On its own shard, R1 locks for accounts of that shard only. -/
theorem pending_advance_risk_owned
    (howns : ownsUser shard (found s (.risk shard)).userId = true) (k : BalanceKey) :
    pending config ((pipeline config).advance s (.risk shard)) k =
      pending config s k + lockedFor config (handed config s (.risk shard)) k := by
  by_cases hk : userShard k.userId = shard
  · exact pending_advance_risk ho shard hk
  · have huser : (handed config s (.risk shard)).userId = (found s (.risk shard)).userId :=
      riskHandler_userId shard _ _ _
    have hother : (found s (.risk shard)).userId ≠ k.userId := by
      intro heq
      rw [heq] at howns
      exact hk (ownsUser_iff.mp howns).symm
    have hnone : lockedFor config (handed config s (.risk shard)) k = 0 :=
      lockedFor_of_user (by rw [huser]; exact hother)
    have hdue : due config ((pipeline config).advance s (.risk shard)) k (s.seq (.risk shard)) =
        due config s k (s.seq (.risk shard)) := by
      rw [due, due, if_neg (not_matched_after_risk ho shard), if_neg (not_matched_of_risk ho shard),
        advance_cmd_found, hnone]
      exact (lockedFor_of_user hother).symm
    rw [hnone, Nat.add_zero]
    apply pending_advance_same _ (Pipeline.advance_seq_ne s _ Handler.noConfusion) ?_ hdue
    apply Pipeline.advance_seq_ne s _
    intro heq
    exact hk (Handler.risk.inj heq)

end Risk

/-- What a visit of R1 does to the accounts: it locks for the placement it lets through, carries
out a deposit or withdrawal, and takes no account of its shard above its range. -/
structure AccountsMoved (config : Config) (shard : Fin numRiskEngines) (s : State) : Prop where
  locked : ∀ k, (((pipeline config).advance s (.risk shard)).shared.account k).locked =
    (s.shared.account k).locked + lockedFor config (handed config s (.risk shard)) k
  total : ∀ k, (((pipeline config).advance s (.risk shard)).shared.account k).available +
      (((pipeline config).advance s (.risk shard)).shared.account k).locked +
      moved .withdrawFunds (handed config s (.risk shard)) k =
    (s.shared.account k).available + (s.shared.account k).locked +
      moved .depositFunds (handed config s (.risk shard)) k
  words : ∀ k, ((((pipeline config).advance s (.risk shard)).shared.balances
    shard).accounts k).available < 2 ^ 64

namespace LedgerInvariant

theorem advance_owned (inv : LedgerInvariant config exact s) (ho : (pipeline config).Ordered s)
    (shard : Fin numRiskEngines) (ready : (pipeline config).Ready s (.risk shard))
    (howns : ownsUser shard (found s (.risk shard)).userId = true)
    (hfresh : (found s (.risk shard)).status = .processing)
    (hmoves : AccountsMoved config shard s) :
    LedgerInvariant config exact ((pipeline config).advance s (.risk shard)) := by
  have hseq (g : Fin numRiskEngines) : ((pipeline config).advance s (.risk shard)).seq
      (.settlement g) = s.seq (.settlement g) :=
    Pipeline.advance_seq_ne s _ Handler.noConfusion
  have hplan (g : Fin numRiskEngines) (hlt : s.seq (.risk shard) < s.seq (.settlement g)) :
      planOf config (handed config s (.risk shard)) =
        planOf config (found s (.risk shard)) :=
    absurd hlt (Nat.not_lt.mpr (settlement_le_risk ho shard g))
  have hnone (command : OrderCommandType) (k : BalanceKey) :
      moved command (found s (.risk shard)) k = 0 :=
    moved_of_status (by rw [hfresh]; exact Status.noConfusion) command k
  have hmoved (command : OrderCommandType) (k : BalanceKey) :
      movedOn command ((pipeline config).advance s (.risk shard)) k =
        movedOn command s k + moved command (handed config s (.risk shard)) k := by
    have hchange := @movedOn_advance config s (.risk shard) ready.1 command k
    rwa [hnone, Nat.add_zero] at hchange
  refine ⟨?_, ?_, ?_, inv.settled, ?_⟩
  · intro k
    obtain ⟨lost, hlost, hcovered⟩ := inv.covered k
    refine ⟨lost, hlost, ?_⟩
    have hbooks : reserved config ((pipeline config).advance s (.risk shard)).shared k =
        reserved config s.shared k := reserved_congr rfl k
    rw [pending_advance_risk_owned ho shard howns, hbooks, hmoves.locked]
    omega
  · intro k
    have hflow := inv.flow k
    have htotal := hmoves.total k
    rw [settledOn_advance _ hseq hplan, settledOn_advance _ hseq hplan, hmoved, hmoved]
    omega
  · intro other k
    by_cases hother : other = shard
    · subst hother
      exact hmoves.words k
    · have hsame : ((pipeline config).advance s (.risk shard)).shared.balances other =
          s.shared.balances other := Function.update_of_ne hother _ _
      rw [hsame]
      exact inv.words other k
  · intro assetId
    simp only [withheldBy_advance _ hseq hplan]
    exact inv.fees assetId

theorem advance_passed (inv : LedgerInvariant config exact s) (ho : (pipeline config).Ordered s)
    (shard : Fin numRiskEngines) (ready : (pipeline config).Ready s (.risk shard))
    (hother : ownsUser shard (found s (.risk shard)).userId = false) :
    LedgerInvariant config exact ((pipeline config).advance s (.risk shard)) := by
  have hskip : process config (.risk shard) (s.seq (.risk shard)) s.shared
      (found s (.risk shard)) = (s.shared, found s (.risk shard)) :=
    riskHandler_skip hother _ _
  have hhanded : handed config s (.risk shard) = found s (.risk shard) := congrArg Prod.snd hskip
  have hsame : OwesSame (found s (.risk shard)) (handed config s (.risk shard)) := by
    rw [hhanded]
    exact .refl _
  have hshared : ((pipeline config).advance s (.risk shard)).shared = s.shared :=
    congrArg Prod.fst hskip
  apply inv.advance_still
  · rw [hshared]
    exact fun _ => rfl
  · rw [hshared]
  · exact fun _ => Pipeline.advance_seq_ne s _ Handler.noConfusion
  · exact fun _ _ => hsame.planOf_eq
  · intro k
    exact ⟨movedOn_advance_same _ ready hsame _ k, movedOn_advance_same _ ready hsame _ k⟩
  · intro k
    obtain ⟨lost, hlost, hcovered⟩ := inv.covered k
    refine ⟨lost, hlost, ?_⟩
    have hpending : pending config ((pipeline config).advance s (.risk shard)) k =
        pending config s k := by
      by_cases hk : userShard k.userId = shard
      · have hne : (found s (.risk shard)).userId ≠ k.userId := by
          intro heq
          rw [heq, ownsUser_iff.mpr hk.symm] at hother
          cases hother
        rw [pending_advance_risk ho shard hk, hhanded, lockedFor_of_user hne, Nat.add_zero]
      · apply pending_advance_same _ (Pipeline.advance_seq_ne s _ Handler.noConfusion)
        · apply Pipeline.advance_seq_ne s _
          intro heq
          exact hk (Handler.risk.inj heq)
        · exact due_advance_same _ Handler.noConfusion hsame k
    rw [hpending, hshared]
    exact hcovered

end LedgerInvariant

theorem account_setBalance {core : Core} {shard : Fin numRiskEngines} {userId : Nat}
    (howns : ownsUser shard userId = true) (assetId : Nat) (balance : UserBalance) :
    (core.setBalances shard ((core.balances shard).setBalance userId assetId balance)).account =
      Function.update core.account ⟨userId, assetId⟩ ⟨balance.available, balance.locked⟩ := by
  have hshard := ownsUser_iff.mp howns
  funext k
  by_cases hk : userShard k.userId = shard
  · rw [account_setBalances_self hk, BalanceStore.accounts_setBalance]
    by_cases hkey : k = ⟨userId, assetId⟩
    · subst hkey
      rw [Function.update_self, Function.update_self]
    · rw [Function.update_of_ne hkey, Function.update_of_ne hkey, ← hk, Core.account]
  · have hkey : k ≠ ⟨userId, assetId⟩ := by
      rintro rfl
      exact hk hshard.symm
    rw [account_setBalances_ne hk, Function.update_of_ne hkey]

theorem account_owned {core : Core} {shard : Fin numRiskEngines} {userId : Nat}
    (howns : ownsUser shard userId = true) (assetId : Nat) :
    core.account ⟨userId, assetId⟩ =
      ⟨((core.balances shard).getBalance userId assetId).available,
        ((core.balances shard).getBalance userId assetId).locked⟩ := by
  rw [Core.account, ← ownsUser_iff.mp howns]
  rfl

namespace LedgerInvariant

theorem accounts_written (inv : LedgerInvariant config exact s) (shard : Fin numRiskEngines)
    (howns : ownsUser shard (found s (.risk shard)).userId = true)
    {assetId : Nat} {balance : UserBalance}
    (hstore : ((pipeline config).advance s (.risk shard)).shared.balances shard =
      (s.shared.balances shard).setBalance (found s (.risk shard)).userId assetId balance)
    (hword : balance.available < 2 ^ 64) {locked deposited withdrawn : Nat}
    (hlockedFor : ∀ k, lockedFor config (handed config s (.risk shard)) k =
      onKey ⟨(found s (.risk shard)).userId, assetId⟩ k locked)
    (hdeposited : ∀ k, moved .depositFunds (handed config s (.risk shard)) k =
      onKey ⟨(found s (.risk shard)).userId, assetId⟩ k deposited)
    (hwithdrawn : ∀ k, moved .withdrawFunds (handed config s (.risk shard)) k =
      onKey ⟨(found s (.risk shard)).userId, assetId⟩ k withdrawn)
    (hlocked : balance.locked =
      ((s.shared.balances shard).getBalance (found s (.risk shard)).userId assetId).locked + locked)
    (htotal : balance.available + balance.locked + withdrawn =
      ((s.shared.balances shard).getBalance (found s (.risk shard)).userId assetId).available +
        ((s.shared.balances shard).getBalance (found s (.risk shard)).userId assetId).locked +
        deposited) : AccountsMoved config shard s := by
  have haccount : ((pipeline config).advance s (.risk shard)).shared.account =
      Function.update s.shared.account ⟨(found s (.risk shard)).userId, assetId⟩
        ⟨balance.available, balance.locked⟩ := by
    obtain ⟨store, hshared⟩ : ∃ store, ((pipeline config).advance s (.risk shard)).shared =
        s.shared.setBalances shard store := ⟨_, rfl⟩
    rw [hshared, Core.setBalances_self] at hstore
    rw [hshared, hstore, account_setBalance howns]
  have hold := @account_owned s.shared _ _ howns assetId
  have hmoves (k : BalanceKey) :
      (((pipeline config).advance s (.risk shard)).shared.account k).locked =
          (s.shared.account k).locked + lockedFor config (handed config s (.risk shard)) k ∧
        (((pipeline config).advance s (.risk shard)).shared.account k).available +
            (((pipeline config).advance s (.risk shard)).shared.account k).locked +
            moved .withdrawFunds (handed config s (.risk shard)) k =
          (s.shared.account k).available + (s.shared.account k).locked +
            moved .depositFunds (handed config s (.risk shard)) k := by
    rw [haccount, hlockedFor, hdeposited, hwithdrawn]
    by_cases hkey : k = ⟨(found s (.risk shard)).userId, assetId⟩
    · subst hkey
      rw [Function.update_self, hold, onKey_of_eq rfl, onKey_of_eq rfl, onKey_of_eq rfl]
      exact ⟨hlocked, htotal⟩
    · rw [Function.update_of_ne hkey, onKey_of_ne (Ne.symm hkey), onKey_of_ne (Ne.symm hkey),
        onKey_of_ne (Ne.symm hkey)]
      exact ⟨rfl, rfl⟩
  refine ⟨fun k => (hmoves k).1, fun k => (hmoves k).2, ?_⟩
  intro k
  rw [hstore, BalanceStore.accounts_setBalance]
  by_cases hkey : k = ⟨(found s (.risk shard)).userId, assetId⟩
  · subst hkey
    rw [Function.update_self]
    exact hword
  · rw [Function.update_of_ne hkey]
    exact inv.words shard k

theorem accounts_refused (inv : LedgerInvariant config exact s) (shard : Fin numRiskEngines)
    (hstore : (s.shared.balances shard).Same
      (((pipeline config).advance s (.risk shard)).shared.balances shard))
    (hlocks : ¬((handed config s (.risk shard)).command = .placeOrder ∧
      (handed config s (.risk shard)).status ≠ .rejected))
    (hstatus : (handed config s (.risk shard)).status ≠ .processed) :
    AccountsMoved config shard s := by
  have haccount (k : BalanceKey) :
      ((pipeline config).advance s (.risk shard)).shared.account k = s.shared.account k := by
    obtain ⟨store, hshared⟩ : ∃ store, ((pipeline config).advance s (.risk shard)).shared =
        s.shared.setBalances shard store := ⟨_, rfl⟩
    rw [hshared, Core.setBalances_self] at hstore
    rw [hshared]
    by_cases hk : userShard k.userId = shard
    · rw [account_setBalances_self hk, hstore.accounts, Core.account, hk]
    · exact account_setBalances_ne hk store
  refine ⟨?_, ?_, ?_⟩
  · intro k
    rw [haccount, lockedFor_of_not hlocks]
    rfl
  · intro k
    rw [haccount, moved_of_status hstatus, moved_of_status hstatus]
  · intro k
    rw [hstore.accounts]
    exact inv.words shard k

theorem accounts_reserved (inv : LedgerInvariant config exact s) (shard : Fin numRiskEngines)
    (howns : ownsUser shard (found s (.risk shard)).userId = true)
    (hfresh : (found s (.risk shard)).status = .processing)
    (range : ReservationInRange config shard s)
    (h : (s.shared.riskEngine config shard).Reserved (found s (.risk shard))
      (((pipeline config).advance s (.risk shard)).shared.balances shard,
        handed config s (.risk shard))) : AccountsMoved config shard s := by
  obtain ⟨spec, price, amount, balance, hspec, -, hamount, hbalance, hle, heq⟩ := h.locked
  rw [Prod.mk.injEq] at heq
  obtain ⟨hstore, hcmd⟩ := heq
  have hprocessing : (handed config s (.risk shard)).status = .processing := by
    rw [hcmd]
    exact hfresh
  have hstatus : (handed config s (.risk shard)).status ≠ .rejected := by
    rw [hprocessing]
    exact Status.noConfusion
  have hstatus' : (handed config s (.risk shard)).status ≠ .processed := by
    rw [hprocessing]
    exact Status.noConfusion
  change balance = (s.shared.balances shard).getBalance (found s (.risk shard)).userId
    (escrowAsset (found s (.risk shard)).side (found s (.risk shard)).marketId) at hbalance
  have hword : balance.available < 2 ^ 64 := by
    rw [hbalance]
    exact inv.words shard ⟨_, _⟩
  -- in range, the machine computes the cost and adds it to what is locked
  obtain ⟨hcost, hlocked⟩ := range howns h.command hstatus spec hspec
  rw [account_owned howns, ← hbalance, hcmd] at hlocked
  rw [hcmd] at hcost
  rw [escrowAmount_eq hcost] at hamount
  have hsum : wrappingAdd 64 balance.locked amount = balance.locked + amount := by
    apply wrappingAdd_of_lt
    rw [hamount]
    exact hlocked
  have hlockedFor (k : BalanceKey) : lockedFor config (handed config s (.risk shard)) k =
      onKey ⟨(found s (.risk shard)).userId,
        escrowAsset (found s (.risk shard)).side (found s (.risk shard)).marketId⟩ k amount := by
    rw [hcmd] at hstatus
    rw [hcmd, hamount]
    exact @lockedFor_of_spec config { found s (.risk shard) with price } spec hspec h.command
      hstatus k
  have hmoved (command : OrderCommandType) (k : BalanceKey) :
      moved command (handed config s (.risk shard)) k =
        onKey ⟨(found s (.risk shard)).userId,
          escrowAsset (found s (.risk shard)).side (found s (.risk shard)).marketId⟩ k 0 := by
    rw [onKey_zero]
    exact moved_of_status hstatus' command k
  refine inv.accounts_written shard howns hstore ?_ hlockedFor (hmoved _) (hmoved _) ?_ ?_
  · exact (Nat.sub_le _ _).trans_lt hword
  · rw [← hbalance]
    exact hsum
  · rw [← hbalance]
    dsimp only
    omega

theorem accounts_funded (inv : LedgerInvariant config exact s) (shard : Fin numRiskEngines)
    (howns : ownsUser shard (found s (.risk shard)).userId = true)
    (hfunds : (found s (.risk shard)).command = .depositFunds ∨
      (found s (.risk shard)).command = .withdrawFunds) {available : Nat}
    (h : RiskEngine.Funded (s.shared.balances shard) (found s (.risk shard)) available
      (((pipeline config).advance s (.risk shard)).shared.balances shard,
        handed config s (.risk shard)))
    (hword : available < 2 ^ 64)
    (htotal : available + (if (found s (.risk shard)).command = .withdrawFunds then
        (found s (.risk shard)).size else 0) =
      ((s.shared.balances shard).getBalance (found s (.risk shard)).userId
          (truncate 16 (found s (.risk shard)).marketId)).available +
        (if (found s (.risk shard)).command = .depositFunds then
          (found s (.risk shard)).size else 0)) : AccountsMoved config shard s := by
  have hcmd := h.cmd
  dsimp only at hcmd
  have hlockedFor (k : BalanceKey) : lockedFor config (handed config s (.risk shard)) k =
      onKey ⟨(found s (.risk shard)).userId, truncate 16 (found s (.risk shard)).marketId⟩ k 0 := by
    rw [onKey_zero]
    apply lockedFor_of_not
    rw [hcmd]
    rintro ⟨hplace, -⟩
    change (found s (.risk shard)).command = .placeOrder at hplace
    rw [hplace] at hfunds
    exact hfunds.elim OrderCommandType.noConfusion OrderCommandType.noConfusion
  have hmoved (command : OrderCommandType) (k : BalanceKey) :
      moved command (handed config s (.risk shard)) k =
        onKey ⟨(found s (.risk shard)).userId, truncate 16 (found s (.risk shard)).marketId⟩ k
          (if (found s (.risk shard)).command = command then (found s (.risk shard)).size
            else 0) := by
    rw [hcmd]
    by_cases hcommand : (found s (.risk shard)).command = command
    · rw [if_pos hcommand]
      exact if_pos ⟨hcommand, rfl⟩
    · rw [if_neg hcommand, onKey_zero]
      exact if_neg fun hboth => hcommand hboth.1
  refine inv.accounts_written shard howns h.store hword hlockedFor (hmoved _) (hmoved _) rfl ?_
  dsimp only
  omega

/-- What R1 does to the accounts on the shard of the user. -/
theorem accounts_moved (inv : LedgerInvariant config exact s) (hc : CommandsInvariant config s)
    (shard : Fin numRiskEngines) (howns : ownsUser shard (found s (.risk shard)).userId = true)
    (range : ReservationInRange config shard s) : AccountsMoved config shard s := by
  have hshard := ownsUser_iff.mp howns
  have hfresh : (found s (.risk shard)).status = .processing :=
    hc.fresh _ (Nat.le_of_eq (congrArg (fun g => s.seq (.risk g)) hshard.symm))
  have hout : (s.shared.riskEngine config shard).preProcessCommand (found s (.risk shard))
      (config.view (s.seq (.risk shard)) s.shared.priceCache) =
      (((pipeline config).advance s (.risk shard)).shared.balances shard,
        handed config s (.risk shard)) :=
    Prod.ext (Function.update_self shard _ s.shared.balances).symm rfl
  have hcases := (s.shared.riskEngine config shard).preProcessCommand_cases
    (found s (.risk shard)) (config.view (s.seq (.risk shard)) s.shared.priceCache) howns
  rw [hout] at hcases
  rcases hcases with h | h | ⟨hcommand, hlt, h⟩ | ⟨hcommand, hle, h⟩ | ⟨hcommand, h⟩
  · obtain ⟨price, hcmd⟩ := h.cmd
    dsimp only at hcmd
    apply inv.accounts_refused shard h.balances
    · rw [hcmd]
      simp
    · rw [hcmd]
      exact Status.noConfusion
  · exact inv.accounts_reserved shard howns hfresh range h
  · apply inv.accounts_funded shard howns (.inl hcommand) h hlt
    simp [hcommand]
    rfl
  · have hword := inv.words shard
      ⟨(found s (.risk shard)).userId, truncate 16 (found s (.risk shard)).marketId⟩
    apply inv.accounts_funded shard howns (.inr hcommand) h ((Nat.sub_le _ _).trans_lt hword)
    simp only [hcommand, if_true, reduceCtorEq, if_false, Nat.add_zero]
    exact Nat.sub_add_cancel hle
  · rw [Prod.mk.injEq] at h
    apply inv.accounts_refused shard
    · rw [h.1]
      exact .refl _
    · rw [h.2, hcommand]
      simp
    · rw [h.2, hfresh]
      exact Status.noConfusion

theorem advance_risk (inv : LedgerInvariant config exact s) (ho : (pipeline config).Ordered s)
    (hc : CommandsInvariant config s) (shard : Fin numRiskEngines)
    (ready : (pipeline config).Ready s (.risk shard))
    (range : ReservationInRange config shard s) :
    LedgerInvariant config exact ((pipeline config).advance s (.risk shard)) := by
  cases howns : ownsUser shard (found s (.risk shard)).userId with
  | false => exact inv.advance_passed ho shard ready howns
  | true =>
    have hfresh : (found s (.risk shard)).status = .processing :=
      hc.fresh _ (Nat.le_of_eq (congrArg (fun g => s.seq (.risk g)) (ownsUser_iff.mp howns).symm))
    exact inv.advance_owned ho shard ready howns hfresh (inv.accounts_moved hc shard howns range)

end LedgerInvariant

end Engine

end VexCore
