import VexCore.Ledger.Stages
import VexCore.Server.EventStory

/-!
# The balance stream against the balances

A reader of the published balances of a key holds what the store holds, unless R2 changes the
balance after a later deposit or withdrawal has taken its snapshot: snapshots are published in
the order of the slots, not in the order in which they were taken.
-/

namespace VexCore

open Framework BalanceStore

def Core.balance (core : Core) (k : BalanceKey) : UserBalance :=
  (core.balances (Engine.userShard k.userId)).read k

namespace Engine

variable (config : Config)

/-- What has been recorded of a key in a slot: by R2, or by R1 for a deposit or withdrawal. -/
def recorded (s : State) (k : BalanceKey) (n : Nat) : List UserBalance :=
  if n < s.seq (.settlement (userShard k.userId)) ∨ (s.slots n).cmd.status = .processed then
    snapshots k (s.slots n).cmd
  else []

/-- A slot for which R1 has locked funds of a user whose balances R2 is still to record, and no
later slot has a record. -/
structure Awaited (s : State) (k : BalanceKey) (n : Nat) : Prop where
  unsettled : s.seq (.settlement (userShard k.userId)) ≤ n
  passed : n < s.seq (.risk (userShard k.userId))
  command : (s.slots n).cmd.command = .placeOrder
  status : (s.slots n).cmd.status ≠ .rejected
  holds : Holds k (s.slots n).cmd.userId (s.slots n).cmd.marketId
  listed : ∃ spec, config.symbolSpecs.lookup (s.slots n).cmd.marketId = some spec
  last : ∀ i, n < i → i < s.seq (.risk (userShard k.userId)) → recorded s k i = []

/-- The last record of a key is its balance, or a record is still to come. -/
def Mirrors (untouched : Prop) (s : State) (k : BalanceKey) : Prop :=
  latest (recorded s k) (s.seq (.risk (userShard k.userId))) = some (s.shared.balance k) ∨
    (untouched ∧ latest (recorded s k) (s.seq (.risk (userShard k.userId))) = none ∧
      s.shared.balance k = {}) ∨
    ∃ n, Awaited config s k n

/-- R2 leaves alone the balances that later deposits and withdrawals have already recorded. -/
def SparesSnapshots (h : Handler) (s : State) : Prop :=
  ∀ shard, h = .settlement shard → ∀ n < s.seq (.risk shard), s.seq h < n →
    (s.slots n).cmd.status = .processed →
    ((pipeline config).advance s h).shared.balance
        ⟨(s.slots n).cmd.userId, truncate 16 (s.slots n).cmd.marketId⟩ =
      s.shared.balance ⟨(s.slots n).cmd.userId, truncate 16 (s.slots n).cmd.marketId⟩

instance (h : Handler) (s : State) : Decidable (SparesSnapshots config h s) :=
  inferInstanceAs (Decidable (∀ shard, h = .settlement shard → ∀ n < s.seq (.risk shard),
    s.seq h < n → _ = _ → _ = _))

variable {config} {s : State} {k : BalanceKey}

theorem recorded_of_user {n : Nat} (hn : s.seq (.settlement (userShard k.userId)) ≤ n)
    (huser : (s.slots n).cmd.userId ≠ k.userId) : recorded s k n = [] := by
  unfold recorded
  split
  · rename_i h
    rw [snapshots_of_processed k (h.resolve_left (Nat.not_lt.mpr hn)), if_neg fun heq => huser heq.1]
  · rfl

theorem recorded_of_status {n : Nat} (hn : s.seq (.settlement (userShard k.userId)) ≤ n)
    (hstatus : (s.slots n).cmd.status ≠ .processed) : recorded s k n = [] :=
  if_neg (not_or.mpr ⟨Nat.not_lt.mpr hn, hstatus⟩)

theorem journalingHandler_snapshots (n : Nat) (core : Core) (cmd : OrderCommand) :
    snapshots k (journalingHandler config n core cmd).2 = snapshots k cmd := by
  show snapshots k (journalCommand core.replayEnabled (config.stamp n)
    (config.publications .journaling n) cmd).1 = _
  unfold journalCommand
  split
  · rfl
  · dsimp only [Stamp.apply]
    split <;> exact @snapshots_congr k cmd _ rfl rfl rfl rfl (fun _ => rfl) rfl

theorem recorded_advance_other (ho : (pipeline config).Ordered s) (hb : BooksInvariant config s)
    (hc : CommandsInvariant config s) (hs : StagesInvariant config s) {g : Handler}
    (ready : (pipeline config).Ready s g) (hrisk : g ≠ .risk (userShard k.userId))
    (hsettlement : g ≠ .settlement (userShard k.userId)) (n : Nat) :
    recorded ((pipeline config).advance s g) k n = recorded s k n := by
  have hseq : ((pipeline config).advance s g).seq (.settlement (userShard k.userId)) =
      s.seq (.settlement (userShard k.userId)) := Pipeline.advance_seq_ne s g hsettlement.symm
  by_cases hn : n = s.seq g
  · subst hn
    have hkeep (hcmd : (process config g (s.seq g) s.shared (s.slots (s.seq g)).cmd).2.status =
          (s.slots (s.seq g)).cmd.status)
        (hsnapshots : snapshots k (process config g (s.seq g) s.shared
          (s.slots (s.seq g)).cmd).2 = snapshots k (s.slots (s.seq g)).cmd) :
        recorded ((pipeline config).advance s g) k (s.seq g) = recorded s k (s.seq g) := by
      rw [recorded, recorded, advance_cmd_self, hseq, hcmd, hsnapshots]
    cases g with
    | journaling =>
      exact hkeep (journalingHandler_owesSame _ _ _).status (journalingHandler_snapshots _ _ _)
    | risk shard =>
      have hle : s.seq (.settlement (userShard k.userId)) ≤ s.seq (.risk shard) :=
        ho.staged (.risk shard) _ (Nat.zero_lt_succ 1)
      by_cases howns : ownsUser shard (s.slots (s.seq (.risk shard))).cmd.userId = true
      · -- a user of this shard does not hold the key
        have huser : (s.slots (s.seq (.risk shard))).cmd.userId ≠ k.userId := by
          intro heq
          rw [heq] at howns
          exact hrisk (congrArg Handler.risk (ownsUser_iff.mp howns))
        have hfresh := hc.fresh (s.seq (.risk shard)) (by rw [← ownsUser_iff.mp howns])
        have hsame : (process config (.risk shard) (s.seq (.risk shard)) s.shared
            (s.slots (s.seq (.risk shard))).cmd).2.userId =
              (s.slots (s.seq (.risk shard))).cmd.userId :=
          (preProcessCommand_outcome (s.shared.riskEngine config shard) _ _ howns hfresh).1
        rw [recorded_of_user hle huser, recorded_of_user (hseq ▸ hle)]
        rw [advance_cmd_self, hsame]
        exact huser
      · have hskip := @riskHandler_skip config shard _ (Bool.eq_false_iff.mpr howns)
          (s.seq (.risk shard)) s.shared
        exact hkeep (congrArg (fun out => out.2.status) hskip)
          (congrArg (fun out => snapshots k out.2) hskip)
    | matching shard =>
      have hle : s.seq (.settlement (userShard k.userId)) ≤ s.seq (.matching shard) :=
        ho.staged (.matching shard) _ (Nat.lt_succ_self 1)
      -- orders are not processed, neither before nor after
      have horder (hcommand : (s.slots (s.seq (.matching shard))).cmd.command = .placeOrder ∨
          (s.slots (s.seq (.matching shard))).cmd.command = .cancelOrder) :
          recorded ((pipeline config).advance s (.matching shard)) k (s.seq (.matching shard)) =
            recorded s k (s.seq (.matching shard)) := by
        have hnot : ¬IsFunds (s.slots (s.seq (.matching shard))).cmd := not_funds hcommand
        have hnot' : ¬IsFunds (((pipeline config).advance s (.matching shard)).slots
            (s.seq (.matching shard))).cmd := by
          rw [advance_cmd_self]
          apply not_funds
          rw [process_command]
          exact hcommand
        rw [recorded_of_status hle ((hs _).not_processed hnot),
          recorded_of_status (hseq ▸ hle) ((hs.advance ho hb hc ready _).not_processed hnot')]
      rcases routerHandler_cases shard s.shared (s.slots (s.seq (.matching shard))).cmd with
        ⟨heq, -⟩ | ⟨-, -, hcommand, -⟩ | ⟨_, -, -, -, ⟨hcommand, -⟩ | ⟨hcommand, -⟩⟩
      · exact hkeep (congrArg (fun out => out.2.status) heq)
          (congrArg (fun out => snapshots k out.2) heq)
      · exact horder hcommand
      · exact horder (.inl hcommand)
      · exact horder (.inr hcommand)
    | settlement shard =>
      have hother : (s.shared.riskEngine config shard).userIdForThisHandler k.userId = false := by
        apply Bool.eq_false_iff.mpr
        intro howns
        exact hsettlement (congrArg Handler.settlement (ownsUser_iff.mp howns))
      exact hkeep (settlementHandler_owesSame shard _ _).status
        (riskR2Handler_snapshots_other hother)
    | events => exact hkeep rfl rfl
  · rw [recorded, recorded, hseq, Pipeline.advance_slots_ne s g hn]

/-- A slot with locked funds stays one until R2 of its shard visits it. -/
theorem Awaited.visited (hb : BooksInvariant config s) (hc : CommandsInvariant config s)
    {g : Handler} (h : Awaited config s k (s.seq g)) (hrisk : g ≠ .risk (userShard k.userId)) :
    (process config g (s.seq g) s.shared (s.slots (s.seq g)).cmd).2.userId =
        (s.slots (s.seq g)).cmd.userId ∧
      (process config g (s.seq g) s.shared (s.slots (s.seq g)).cmd).2.status ≠ .rejected := by
  have hlive := h.status
  have hsame {cmd' : OrderCommand} (hsame : OwesSame (s.slots (s.seq g)).cmd cmd') :
      cmd'.userId = (s.slots (s.seq g)).cmd.userId ∧ cmd'.status ≠ .rejected :=
    ⟨hsame.userId, hsame.status ▸ hlive⟩
  cases g with
  | journaling => exact hsame (journalingHandler_owesSame _ _ _)
  | risk shard =>
    have hskip := @riskHandler_skip config shard (s.slots (s.seq (.risk shard))).cmd
      (Bool.eq_false_iff.mpr fun howns => hrisk
        (congrArg Handler.risk ((ownsUser_iff.mp howns).trans (congrArg userShard h.holds.1))))
      (s.seq (.risk shard)) s.shared
    rw [show process config (.risk shard) (s.seq (.risk shard)) s.shared _ = _ from hskip]
    exact hsame (.refl _)
  | matching shard =>
    change (routerHandler shard s.shared _).2.userId = _ ∧ (routerHandler shard s.shared _).2.status ≠ _
    rcases routerHandler_cases shard s.shared (s.slots (s.seq (.matching shard))).cmd with
      ⟨heq, -⟩ | ⟨hshard, hnone, -, -⟩ |
        ⟨book, hshard, hstatus, hbook, ⟨-, heq⟩ | ⟨hcommand, -⟩⟩
    · rw [heq]
      exact ⟨rfl, hlive⟩
    · obtain ⟨spec, hspec⟩ := h.listed
      obtain ⟨book, hbook⟩ := hb.opened _ spec hspec shard (homeShard_iff.mpr hshard)
      rw [hnone] at hbook
      cases hbook
    · obtain ⟨hraw, -⟩ := hc.idle _ (.inl (@matched_of_matching config _ _ hshard).1)
      have hplaced := OrderBook.placeOrder_placed (hb.shape shard _ book hbook) hstatus hraw
        s.shared.priceCache
      rw [heq]
      exact ⟨hplaced.userId, hplaced.status.1⟩
    · rw [h.command] at hcommand
      cases hcommand
  | settlement shard => exact hsame (settlementHandler_owesSame shard _ _)
  | events => exact hsame (.refl _)

/-- The slot is awaited as long as its command is, records come in no later slot, and R2 of the
shard is not past it. -/
theorem Awaited.advance {g : Handler} {n : Nat} (h : Awaited config s k n)
    (hvisited : n = s.seq g → (process config g (s.seq g) s.shared (s.slots (s.seq g)).cmd).2.userId =
        (s.slots (s.seq g)).cmd.userId ∧
      (process config g (s.seq g) s.shared (s.slots (s.seq g)).cmd).2.status ≠ .rejected)
    (hunsettled : ((pipeline config).advance s g).seq (.settlement (userShard k.userId)) ≤ n)
    (hlast : ∀ i, n < i → i < ((pipeline config).advance s g).seq (.risk (userShard k.userId)) →
      recorded ((pipeline config).advance s g) k i = []) :
    Awaited config ((pipeline config).advance s g) k n := by
  have hpassed : n < ((pipeline config).advance s g).seq (.risk (userShard k.userId)) :=
    h.passed.trans_le (Pipeline.le_advance_seq s g _)
  by_cases hn : n = s.seq g
  · subst hn
    obtain ⟨huser, hstatus⟩ := hvisited rfl
    have hcmd := @advance_cmd_self config s g
    refine ⟨hunsettled, hpassed, ?_, ?_, ?_, ?_, hlast⟩
    · rw [hcmd, process_command]
      exact h.command
    · rw [hcmd]
      exact hstatus
    · rw [hcmd, huser, process_marketId]
      exact h.holds
    · rw [hcmd, process_marketId]
      exact h.listed
  · have hslot : ((pipeline config).advance s g).slots n = s.slots n :=
      Pipeline.advance_slots_ne s g hn
    refine ⟨hunsettled, hpassed, ?_, ?_, ?_, ?_, hlast⟩
    · rw [hslot]
      exact h.command
    · rw [hslot]
      exact h.status
    · rw [hslot]
      exact h.holds
    · rw [hslot]
      exact h.listed

theorem balance_advance_other {g : Handler} (hrisk : g ≠ .risk (userShard k.userId))
    (hsettlement : g ≠ .settlement (userShard k.userId)) :
    ((pipeline config).advance s g).shared.balance k = s.shared.balance k := by
  cases g with
  | risk shard =>
    have hne : userShard k.userId ≠ shard := fun heq => hrisk (congrArg Handler.risk heq.symm)
    show BalanceStore.read (Function.update s.shared.balances shard _ (userShard k.userId)) k = _
    rw [Function.update_of_ne hne]
    rfl
  | settlement shard =>
    have hne : userShard k.userId ≠ shard :=
      fun heq => hsettlement (congrArg Handler.settlement heq.symm)
    show BalanceStore.read (Function.update s.shared.balances shard _ (userShard k.userId)) k = _
    rw [Function.update_of_ne hne]
    rfl
  | journaling => rfl
  | matching shard => rfl
  | events => rfl

namespace Mirrors

variable {untouched : Prop}

theorem mono (h : Mirrors config untouched s k) {untouched' : Prop} (himp : untouched → untouched') :
    Mirrors config untouched' s k :=
  h.imp_right fun h => h.imp_left fun ⟨hu, h⟩ => ⟨himp hu, h⟩

theorem start (k : BalanceKey) (replayEnabled : Bool) :
    Mirrors config True (start config replayEnabled) k := .inr (.inl ⟨trivial, rfl, rfl⟩)

theorem publish (h : Mirrors config untouched s k) (ho : (pipeline config).Ordered s)
    (slot : Slot) : Mirrors config untouched (s.publish slot) k := by
  have hslot {n : Nat} (hn : n < s.seq (.risk (userShard k.userId))) :
      (s.publish slot).slots n = s.slots n :=
    Pipeline.State.publish_slots_ne s slot (Nat.ne_of_lt (hn.trans_le (ho.published _)))
  have hrecorded {n : Nat} (hn : n < s.seq (.risk (userShard k.userId))) :
      recorded (s.publish slot) k n = recorded s k n := by
    rw [recorded, recorded, hslot hn]
    rfl
  have hlatest : latest (recorded (s.publish slot) k) (s.seq (.risk (userShard k.userId))) =
      latest (recorded s k) (s.seq (.risk (userShard k.userId))) :=
    latest_congr fun n hn => hrecorded hn
  unfold Mirrors
  rw [Pipeline.State.publish_seq, Pipeline.State.publish_shared, hlatest]
  refine h.imp_right (Or.imp_right ?_)
  rintro ⟨n, hawaited⟩
  have hn := hslot hawaited.passed
  refine ⟨n, hawaited.unsettled, hawaited.passed, ?_, ?_, ?_, ?_, ?_⟩
  · rw [hn]
    exact hawaited.command
  · rw [hn]
    exact hawaited.status
  · rw [hn]
    exact hawaited.holds
  · rw [hn]
    exact hawaited.listed
  · intro i hni hi
    rw [hrecorded hi]
    exact hawaited.last i hni hi

theorem advance_other (h : Mirrors config untouched s k) (ho : (pipeline config).Ordered s)
    (hb : BooksInvariant config s) (hc : CommandsInvariant config s)
    (hs : StagesInvariant config s) {g : Handler} (ready : (pipeline config).Ready s g)
    (hrisk : g ≠ .risk (userShard k.userId)) (hsettlement : g ≠ .settlement (userShard k.userId)) :
    Mirrors config untouched ((pipeline config).advance s g) k := by
  have hrecorded := recorded_advance_other ho hb hc hs ready hrisk hsettlement
  have hbalance := @balance_advance_other config s k g hrisk hsettlement
  have hpassed := Pipeline.advance_seq_ne (P := pipeline config) s g hrisk.symm
  have hsettled := Pipeline.advance_seq_ne (P := pipeline config) s g hsettlement.symm
  have hlatest : latest (recorded ((pipeline config).advance s g) k)
      (((pipeline config).advance s g).seq (.risk (userShard k.userId))) =
        latest (recorded s k) (s.seq (.risk (userShard k.userId))) := by
    rw [hpassed]
    exact latest_congr fun n _ => hrecorded n
  unfold Mirrors
  rw [hlatest, hbalance]
  refine h.imp_right (Or.imp_right ?_)
  rintro ⟨n, hawaited⟩
  refine ⟨n, hawaited.advance ?_ (hsettled ▸ hawaited.unsettled) ?_⟩
  · rintro rfl
    exact hawaited.visited hb hc hrisk
  · intro i hni hi
    rw [hpassed] at hi
    rw [hrecorded]
    exact hawaited.last i hni hi

theorem advance_risk_unrecorded {shard : Fin numRiskEngines} (hshard : shard = userShard k.userId)
    (h : Mirrors config untouched s k)
    (hnone : recorded ((pipeline config).advance s (.risk shard)) k (s.seq (.risk shard)) = [])
    (hvisit : ((pipeline config).advance s (.risk shard)).shared.balance k = s.shared.balance k ∨
      Awaited config ((pipeline config).advance s (.risk shard)) k (s.seq (.risk shard))) :
    Mirrors config (untouched ∧ ((pipeline config).advance s (.risk shard)).shared.balance k =
      s.shared.balance k) ((pipeline config).advance s (.risk shard)) k := by
  subst hshard
  rcases hvisit with hsame | hawaited
  · have hseq : ((pipeline config).advance s (.risk (userShard k.userId))).seq
        (.risk (userShard k.userId)) = s.seq (.risk (userShard k.userId)) + 1 :=
      Pipeline.advance_seq_self _ _
    have hsettled : ((pipeline config).advance s (.risk (userShard k.userId))).seq
        (.settlement (userShard k.userId)) = s.seq (.settlement (userShard k.userId)) :=
      Pipeline.advance_seq_ne s _ Handler.noConfusion
    have hrecorded : ∀ n < s.seq (.risk (userShard k.userId)),
        recorded ((pipeline config).advance s (.risk (userShard k.userId))) k n =
          recorded s k n := by
      intro n hn
      rw [recorded, recorded, hsettled, Pipeline.advance_slots_ne s _ (Nat.ne_of_lt hn)]
    have hlatest : latest (recorded ((pipeline config).advance s (.risk (userShard k.userId))) k)
        (((pipeline config).advance s (.risk (userShard k.userId))).seq
          (.risk (userShard k.userId))) =
        latest (recorded s k) (s.seq (.risk (userShard k.userId))) := by
      rw [hseq, latest_succ_of_nil hnone]
      exact latest_congr hrecorded
    unfold Mirrors
    rw [hlatest, hsame]
    refine h.imp_right (Or.imp (And.imp_left fun hu => ⟨hu, rfl⟩) ?_)
    rintro ⟨n, hawaited⟩
    refine ⟨n, hawaited.advance ?_ (hsettled ▸ hawaited.unsettled) ?_⟩
    · intro hn
      exact absurd hawaited.passed (hn ▸ Nat.lt_irrefl _)
    · intro i hni hi
      rw [hseq] at hi
      by_cases hlast : i = s.seq (.risk (userShard k.userId))
      · rw [hlast]
        exact hnone
      · rw [hrecorded i (by omega)]
        exact hawaited.last i hni (by omega)
  · exact .inr (.inr ⟨_, hawaited⟩)

/-- A step of R1 on the shard of the key. -/
theorem advance_risk (h : Mirrors config untouched s k) (ho : (pipeline config).Ordered s)
    (hc : CommandsInvariant config s) :
    Mirrors config (untouched ∧ ((pipeline config).advance s
        (.risk (userShard k.userId))).shared.balance k = s.shared.balance k)
      ((pipeline config).advance s (.risk (userShard k.userId))) k := by
  obtain ⟨shard, hshard⟩ : ∃ shard, shard = userShard k.userId := ⟨_, rfl⟩
  rw [← hshard]
  have hle : s.seq (.settlement (userShard k.userId)) ≤ s.seq (.risk shard) :=
    ho.staged (.risk shard) _ (Nat.zero_lt_succ 1)
  have hsettled : ((pipeline config).advance s (.risk shard)).seq
      (.settlement (userShard k.userId)) = s.seq (.settlement (userShard k.userId)) :=
    Pipeline.advance_seq_ne s _ Handler.noConfusion
  have hcmd := @advance_cmd_self config s (.risk shard)
  by_cases howns : ownsUser shard (s.slots (s.seq (.risk shard))).cmd.userId = true
  · have hfresh := hc.fresh (s.seq (.risk shard)) (by rw [← ownsUser_iff.mp howns])
    have hbalance : ((pipeline config).advance s (.risk shard)).shared.balance k =
        ((s.shared.riskEngine config shard).preProcessCommand (s.slots (s.seq (.risk shard))).cmd
          (config.view (s.seq (.risk shard)) s.shared.priceCache)).1.read k := by
      rw [Core.balance, ← hshard]
      exact congrArg (fun store => BalanceStore.read store k) (Function.update_self _ _ _)
    have hold : s.shared.balance k = (s.shared.riskEngine config shard).balances.read k := by
      rw [Core.balance, ← hshard]
      rfl
    have hout : (process config (.risk shard) (s.seq (.risk shard)) s.shared
        (s.slots (s.seq (.risk shard))).cmd).2 = ((s.shared.riskEngine config shard).preProcessCommand
          (s.slots (s.seq (.risk shard))).cmd
          (config.view (s.seq (.risk shard)) s.shared.priceCache)).2 := rfl
    rw [hout] at hcmd
    have hquiet (hstatus : ((s.shared.riskEngine config shard).preProcessCommand
          (s.slots (s.seq (.risk shard))).cmd
          (config.view (s.seq (.risk shard)) s.shared.priceCache)).2.status ≠ .processed) :
        recorded ((pipeline config).advance s (.risk shard)) k (s.seq (.risk shard)) = [] := by
      apply recorded_of_status (hsettled ▸ hle)
      rwa [hcmd]
    have hfunds {available : Nat} (hfunded : RiskEngine.Funded
          (s.shared.riskEngine config shard).balances (s.slots (s.seq (.risk shard))).cmd available
          ((s.shared.riskEngine config shard).preProcessCommand (s.slots (s.seq (.risk shard))).cmd
            (config.view (s.seq (.risk shard)) s.shared.priceCache))) :
        Mirrors config (untouched ∧ ((pipeline config).advance s (.risk shard)).shared.balance k =
          s.shared.balance k) ((pipeline config).advance s (.risk shard)) k := by
      have hrecord : recorded ((pipeline config).advance s (.risk shard)) k
          (s.seq (.risk shard)) =
            if (s.slots (s.seq (.risk shard))).cmd.userId = k.userId ∧
                truncate 16 (s.slots (s.seq (.risk shard))).cmd.marketId = k.assetId then
              [((s.shared.riskEngine config shard).preProcessCommand
                (s.slots (s.seq (.risk shard))).cmd (config.view (s.seq (.risk shard))
                  s.shared.priceCache)).1.getBalance (s.slots (s.seq (.risk shard))).cmd.userId
                    (truncate 16 (s.slots (s.seq (.risk shard))).cmd.marketId)]
            else [] := by
        rw [hfunded.cmd] at hcmd
        rw [recorded, hcmd, if_pos (.inr rfl), snapshots_of_processed k rfl]
        rfl
      by_cases hkey : (s.slots (s.seq (.risk shard))).cmd.userId = k.userId ∧
          truncate 16 (s.slots (s.seq (.risk shard))).cmd.marketId = k.assetId
      · left
        rw [if_pos hkey] at hrecord
        have hseq : ((pipeline config).advance s (.risk shard)).seq (.risk (userShard k.userId)) =
            s.seq (.risk shard) + 1 := by
          rw [← hshard]
          exact Pipeline.advance_seq_self _ _
        rw [hseq, hbalance]
        apply latest_succ_of_getLast?
        rw [hrecord, hkey.1, hkey.2]
        rfl
      · rw [if_neg hkey] at hrecord
        apply h.advance_risk_unrecorded hshard hrecord (.inl ?_)
        rw [hbalance, hold, hfunded.store]
        exact read_setBalance_ne _ hkey _
    rcases (s.shared.riskEngine config shard).preProcessCommand_cases _ _ howns with
      hdown | hreserved | ⟨-, -, hfunded⟩ | ⟨-, -, hfunded⟩ | ⟨-, heq⟩
    · obtain ⟨price, heq⟩ := hdown.cmd
      apply h.advance_risk_unrecorded hshard (hquiet ?_) (.inl ?_)
      · rw [heq]
        exact Status.noConfusion
      · rw [hbalance, hold]
        exact hdown.balances _ _
    · obtain ⟨spec, price, amount, balance, hspec, -, -, -, -, heq⟩ := hreserved.locked
      rw [heq] at hquiet hbalance hcmd
      have hnone := hquiet (by rw [hfresh]; exact Status.noConfusion)
      by_cases hkey : (s.slots (s.seq (.risk shard))).cmd.userId = k.userId ∧
          escrowAsset (s.slots (s.seq (.risk shard))).cmd.side
            (s.slots (s.seq (.risk shard))).cmd.marketId = k.assetId
      · apply h.advance_risk_unrecorded hshard hnone (.inr ?_)
        have hholds : Holds k (s.slots (s.seq (.risk shard))).cmd.userId
            (s.slots (s.seq (.risk shard))).cmd.marketId := by
          refine ⟨hkey.1, ?_⟩
          have hasset := hkey.2
          cases hside : (s.slots (s.seq (.risk shard))).cmd.side with
          | bid =>
            rw [hside] at hasset
            exact .inr hasset
          | ask =>
            rw [hside] at hasset
            exact .inl hasset
        have hseq : ((pipeline config).advance s (.risk shard)).seq (.risk (userShard k.userId)) =
            s.seq (.risk shard) + 1 := by
          rw [← hshard]
          exact Pipeline.advance_seq_self _ _
        refine ⟨hsettled ▸ hle, ?_, ?_, ?_, ?_, ?_, ?_⟩
        · rw [hseq]
          exact Nat.lt_succ_self _
        · rw [hcmd]
          exact hreserved.command
        · rw [hcmd]
          exact fun hrejected => Status.noConfusion (hfresh.symm.trans hrejected)
        · rw [hcmd]
          exact hholds
        · rw [hcmd]
          exact ⟨spec, hspec⟩
        · intro i hi hlt
          rw [hseq] at hlt
          omega
      · apply h.advance_risk_unrecorded hshard hnone (.inl ?_)
        rw [hbalance, hold]
        exact read_setBalance_ne _ hkey _
    · exact hfunds hfunded
    · exact hfunds hfunded
    · apply h.advance_risk_unrecorded hshard (hquiet ?_) (.inl ?_)
      · rw [heq, hfresh]
        exact Status.noConfusion
      · rw [hbalance, hold, heq]
  · have hskip : process config (.risk shard) (s.seq (.risk shard)) s.shared
        (s.slots (s.seq (.risk shard))).cmd = _ :=
      riskHandler_skip (Bool.eq_false_iff.mpr howns) _ _
    apply h.advance_risk_unrecorded hshard _ (.inl _)
    · apply recorded_of_user (hsettled ▸ hle)
      rw [hcmd, hskip]
      intro heq
      exact howns (ownsUser_iff.mpr (hshard.trans (congrArg userShard heq.symm)))
    · exact congrArg (fun out => Core.balance out.1 k) hskip

/-- A step of R2 on the shard of the key. -/
theorem advance_settlement (h : Mirrors config untouched s k) (hc : CommandsInvariant config s)
    (hs : StagesInvariant config s)
    (ready : (pipeline config).Ready s (.settlement (userShard k.userId)))
    (hok : AllOk ((pipeline config).advance s
      (.settlement (userShard k.userId))).shared.settlements)
    (spares : SparesSnapshots config (.settlement (userShard k.userId)) s) :
    Mirrors config (untouched ∧ ((pipeline config).advance s
        (.settlement (userShard k.userId))).shared.balance k = s.shared.balance k)
      ((pipeline config).advance s (.settlement (userShard k.userId))) k := by
  obtain ⟨g, hg⟩ : ∃ g, g = Handler.settlement (userShard k.userId) := ⟨_, rfl⟩
  obtain ⟨cmd, hcmd⟩ : ∃ cmd, (s.slots (s.seq (.settlement (userShard k.userId)))).cmd = cmd :=
    ⟨_, rfl⟩
  obtain ⟨out, hout⟩ : ∃ out, riskR2Handler (s.shared.riskEngine config (userShard k.userId)) cmd =
    out := ⟨_, rfl⟩
  have hdecided := hs.decided hc ready
  have hlt : s.seq (.settlement (userShard k.userId)) < s.seq (.risk (userShard k.userId)) :=
    ready.2 (.risk _) (Nat.zero_lt_succ 1)
  have hnew : ((pipeline config).advance s (.settlement (userShard k.userId))).shared.balance k =
      out.1.read k := by
    rw [← hout, ← hcmd]
    exact congrArg (fun store => BalanceStore.read store k) (Function.update_self _ _ _)
  have hslot : (((pipeline config).advance s (.settlement (userShard k.userId))).slots
      (s.seq (.settlement (userShard k.userId)))).cmd = out.2.1 := by
    rw [advance_cmd_self, hcmd, ← hout]
    rfl
  have hrisk : ((pipeline config).advance s (.settlement (userShard k.userId))).seq
      (.risk (userShard k.userId)) = s.seq (.risk (userShard k.userId)) :=
    Pipeline.advance_seq_ne s _ Handler.noConfusion
  have hseq : ((pipeline config).advance s (.settlement (userShard k.userId))).seq
      (.settlement (userShard k.userId)) = s.seq (.settlement (userShard k.userId)) + 1 :=
    Pipeline.advance_seq_self _ _
  have hself : recorded ((pipeline config).advance s (.settlement (userShard k.userId))) k
      (s.seq (.settlement (userShard k.userId))) = snapshots k out.2.1 := by
    rw [recorded, hseq, hslot, if_pos (.inl (Nat.lt_succ_self _))]
  have hother : ∀ n, n ≠ s.seq (.settlement (userShard k.userId)) →
      recorded ((pipeline config).advance s (.settlement (userShard k.userId))) k n =
        recorded s k n := by
    intro n hn
    have hiff : n < s.seq (.settlement (userShard k.userId)) + 1 ↔
        n < s.seq (.settlement (userShard k.userId)) := by omega
    rw [recorded, recorded, hseq, Pipeline.advance_slots_ne s _ hn]
    simp only [hiff]
  -- what is kept if the latest record and the balance are
  have hkept (hlatest : latest (recorded ((pipeline config).advance s
          (.settlement (userShard k.userId))) k) (s.seq (.risk (userShard k.userId))) =
        latest (recorded s k) (s.seq (.risk (userShard k.userId))))
      (hbalance : out.1.read k = s.shared.balance k)
      (hnot : ¬Awaited config s k (s.seq (.settlement (userShard k.userId)))) :
      Mirrors config (untouched ∧ ((pipeline config).advance s
          (.settlement (userShard k.userId))).shared.balance k = s.shared.balance k)
        ((pipeline config).advance s (.settlement (userShard k.userId))) k := by
    unfold Mirrors
    rw [hrisk, hlatest, hnew, hbalance]
    refine h.imp_right (Or.imp (And.imp_left fun hu => ⟨hu, rfl⟩) ?_)
    rintro ⟨n, hawaited⟩
    have hne : n ≠ s.seq (.settlement (userShard k.userId)) := by
      rintro rfl
      exact hnot hawaited
    have hle := hawaited.unsettled
    refine ⟨n, hawaited.advance (fun heq => absurd heq hne) (by rw [hseq]; omega) ?_⟩
    intro i hni hi
    rw [hrisk] at hi
    rw [hother i (by omega)]
    exact hawaited.last i hni hi
  rw [hcmd] at hdecided
  by_cases hdone : cmd.status = .rejected ∨ cmd.status = .processed
  · rw [riskR2Handler, if_pos hdone] at hout
    subst hout
    apply hkept
    · apply latest_congr
      intro n _
      by_cases hn : n = s.seq (.settlement (userShard k.userId))
      · rw [hn, hself]
        dsimp only
        rcases hdone with hrejected | hprocessed
        · rw [snapshots_of_rejected k hrejected, recorded_of_status le_rfl]
          rw [hcmd, hrejected]
          exact Status.noConfusion
        · rw [recorded, hcmd, if_pos (.inr hprocessed)]
      · exact hother n hn
    · rfl
    · intro hawaited
      have hlive := hawaited.status
      have hnot := (hs _).not_processed (not_funds (.inl hawaited.command))
      rw [hcmd] at hlive hnot
      exact hdone.elim hlive hnot
  · obtain ⟨hdec, spec, hspec⟩ := hdecided hdone
    have howns : (s.shared.riskEngine config (userShard k.userId)).userIdForThisHandler k.userId =
        true := ownsUser_iff.mpr rfl
    have hlog : AllOk (riskR2Handler (s.shared.riskEngine config (userShard k.userId)) cmd).2.2 := by
      rw [← hcmd]
      exact (AllOk.of_append hok).2
    have hfollows := riskR2Handler_follows hdec hspec howns hlog
    rw [hout] at hfollows
    have hraw : recorded s k (s.seq (.settlement (userShard k.userId))) = [] := by
      apply recorded_of_status le_rfl
      rw [hcmd]
      exact hdec.status.2.1
    by_cases hlater : ∃ i, s.seq (.settlement (userShard k.userId)) < i ∧
        i < s.seq (.risk (userShard k.userId)) ∧ recorded s k i ≠ []
    · obtain ⟨i, hi, hlast, hrecord⟩ := hlater
      apply hkept
      · apply latest_congr_of_later hlast
        · rw [hother i (Nat.ne_of_gt hi)]
          exact hrecord
        · intro j hj _
          exact hother j (by omega)
      · -- the later record is a deposit's or withdrawal's, so R2 may not change the balance
        have hprocessed : (s.slots i).cmd.status = .processed := by
          by_contra hstatus
          exact hrecord (recorded_of_status hi.le hstatus)
        rw [recorded, if_pos (.inr hprocessed), snapshots_of_processed k hprocessed] at hrecord
        have hspared := spares (userShard k.userId) rfl i hlast hi hprocessed
        by_cases hkey : (s.slots i).cmd.userId = k.userId ∧
            truncate 16 (s.slots i).cmd.marketId = k.assetId
        · rw [hkey.1, hkey.2] at hspared
          rw [← hnew]
          exact hspared
        · exact absurd (if_neg hkey) hrecord
      · intro hawaited
        exact hrecord (hawaited.last i hi hlast)
    · have hnil : ∀ i, s.seq (.settlement (userShard k.userId)) < i →
          i < s.seq (.risk (userShard k.userId)) → recorded s k i = [] := by
        intro i hi hlast
        by_contra hrecord
        exact hlater ⟨i, hi, hlast, hrecord⟩
      rcases hfollows with hlast | ⟨hnone, hsame⟩
      · left
        rw [hrisk, hnew]
        apply latest_eq_of_last hlt
        · rw [hself]
          exact hlast
        · intro i hi hlast
          rw [hother i (Nat.ne_of_gt hi)]
          exact hnil i hi hlast
      · apply hkept
        · apply latest_congr
          intro n _
          by_cases hn : n = s.seq (.settlement (userShard k.userId))
          · rw [hn, hself, hraw, hnone]
          · exact hother n hn
        · exact hsame
        · intro hawaited
          have hholds := hawaited.holds
          have hsettles := (riskR2Handler_settles
            (s.shared.riskEngine config (userShard k.userId)) cmd).fields
          rw [hcmd] at hholds
          rw [hout] at hsettles
          rw [hsettles, hdec.snapshots_eq] at hnone
          exact pairOf_ne_nil hholds _ (List.append_eq_nil_iff.mp hnone).2

theorem advance (h : Mirrors config untouched s k) (ho : (pipeline config).Ordered s)
    (hb : BooksInvariant config s) (hc : CommandsInvariant config s)
    (hs : StagesInvariant config s) {g : Handler} (ready : (pipeline config).Ready s g)
    (hok : AllOk ((pipeline config).advance s g).shared.settlements)
    (spares : SparesSnapshots config g s) :
    Mirrors config (untouched ∧ ((pipeline config).advance s g).shared.balance k =
      s.shared.balance k) ((pipeline config).advance s g) k := by
  by_cases hrisk : g = .risk (userShard k.userId)
  · subst hrisk
    exact h.advance_risk ho hc
  · by_cases hsettlement : g = .settlement (userShard k.userId)
    · subst hsettlement
      exact h.advance_settlement hc hs ready hok spares
    · apply (h.advance_other ho hb hc hs ready hrisk hsettlement).mono
      exact fun hu => ⟨hu, balance_advance_other hrisk hsettlement⟩

end Mirrors

end Engine

end VexCore
