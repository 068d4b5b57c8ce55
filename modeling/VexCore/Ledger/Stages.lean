import VexCore.Ledger.Runs
import VexCore.Server.Snapshots

/-!
# The status of a command on its way

What its status says of a command between publication and R2: R1 settles deposits and
withdrawals, matching decides orders, and a status is given once.
-/

namespace VexCore

open Framework

namespace OrderBook

variable {book : OrderBook} {cmd : OrderCommand}

theorem placeByTimeInForce_status (book : OrderBook) (cmd : OrderCommand) :
    (book.placeByTimeInForce cmd).2.status ≠ .processing ∧
      ((book.placeByTimeInForce cmd).2.status = .placed →
        cmd.timeInForce = .gtc ∧ (book.matchOrder cmd).2.2 = cmd.size) := by
  unfold placeByTimeInForce
  cases htif : cmd.timeInForce with
  | gtc =>
    simp only
    split
    · rename_i hall
      exact ⟨Status.noConfusion, fun _ => ⟨trivial, hall⟩⟩
    · split <;> simp
  | fok =>
    simp only
    split
    · simp
    · split <;> simp
  | ioc =>
    simp only
    split
    · simp
    · split <;> simp

theorem status_placeOrder (hstatus : cmd.status ≠ .rejected) (cache : PriceCache) :
    (book.placeOrder cmd cache).cmd.status = (book.placeByTimeInForce cmd).2.status := by
  obtain ⟨price, hexecution⟩ := executionPrice_eq (book.placeByTimeInForce cmd).2
  rw [placeOrder, if_neg hstatus]
  simp only [hexecution, recordSnapshot]

theorem placeOrder_zero (h : book.Shape) (hstatus : cmd.status ≠ .rejected)
    (hevents : cmd.events = []) (cache : PriceCache)
    (hplaced : (book.placeOrder cmd cache).cmd.status = .placed) :
    ∀ event ∈ (book.placeOrder cmd cache).cmd.events, event.size = 0 := by
  rw [status_placeOrder hstatus] at hplaced
  obtain ⟨htif, hall⟩ := (placeByTimeInForce_status book cmd).2 hplaced
  have hmatched : book.executed cmd = book.referenceFills cmd :=
    executed_of_matched (by simp [htif])
  have hle := filled_executed_le book cmd
  rw [matchOrder_remaining h, ← hmatched] at hall
  have hsum : filled (book.executed cmd) = 0 := by omega
  intro event hevent
  rw [(placeOrder_placed h hstatus hevents cache).events] at hevent
  obtain ⟨f, hf, rfl⟩ := List.mem_map.mp hevent
  exact List.sum_eq_zero_iff.mp hsum _ (List.mem_map_of_mem hf)

theorem status_cancelOrder (h : book.Shape) (hstatus : cmd.status ≠ .rejected)
    (cache : PriceCache) : (book.cancelOrder cmd cache).cmd.status = .rejected ∨
      (book.cancelOrder cmd cache).cmd.status = .cancelled := by
  rw [cancelOrder, if_neg hstatus]
  rcases cancelByIndex_cases h cmd with ⟨_, heq⟩ | ⟨_, heq⟩ | ⟨s, level, order, _, _, _, _, heq⟩
  · rw [heq]
    exact .inl rfl
  · rw [heq]
    exact .inl rfl
  · rw [heq]
    exact .inr rfl

end OrderBook

namespace Engine

variable {config : Config} {s : State}

/-- A deposit or a withdrawal. -/
def IsFunds (cmd : OrderCommand) : Prop :=
  cmd.command = .depositFunds ∨ cmd.command = .withdrawFunds

theorem not_funds {cmd : OrderCommand}
    (h : cmd.command = .placeOrder ∨ cmd.command = .cancelOrder) : ¬IsFunds cmd := by
  rintro (hfunds | hfunds) <;> rw [hfunds] at h <;> simp at h

/-- What the status of a command says, given whether R1 has passed it on the shard of its user
and matching on the shard of its market. -/
structure Stage (config : Config) (passed matched : Prop) (cmd : OrderCommand) : Prop where
  funds : IsFunds cmd → (cmd.status = .processing ∧ ¬passed) ∨ cmd.status = .processed ∨
    cmd.status = .rejected
  waiting : ¬IsFunds cmd → ¬matched → cmd.status = .processing ∨ cmd.status = .rejected
  decided : ¬IsFunds cmd → matched → cmd.status ≠ .rejected →
    (cmd.status ≠ .processing ∧ cmd.status ≠ .processed) ∧
      ∃ spec, config.symbolSpecs.lookup cmd.marketId = some spec
  zero : cmd.status = .placed → ∀ event ∈ cmd.events, event.size = 0

/-- Only deposits and withdrawals end processed. -/
theorem Stage.not_processed {cmd : OrderCommand} {passed matched : Prop}
    (h : Stage config passed matched cmd) (hnot : ¬IsFunds cmd) : cmd.status ≠ .processed := by
  intro hprocessed
  by_cases hmatched : matched
  · have hlive : cmd.status ≠ .rejected := by simp [hprocessed]
    exact (h.decided hnot hmatched hlive).1.2 hprocessed
  · rcases h.waiting hnot hmatched with hw | hw <;> rw [hprocessed] at hw <;> cases hw

/-- R1 of the shard of its user has passed a slot. -/
def Passed (s : State) (n : Nat) : Prop :=
  n < s.seq (.risk (userShard (s.slots n).cmd.userId))

theorem passed_advance_ne {g : Handler} {n : Nat} (hn : n ≠ s.seq g) :
    Passed ((pipeline config).advance s g) n ↔ Passed s n := by
  unfold Passed
  rw [Pipeline.advance_slots_ne s g hn]
  by_cases hg : Handler.risk (userShard (s.slots n).cmd.userId) = g
  · subst hg
    rw [Pipeline.advance_seq_self]
    omega
  · rw [Pipeline.advance_seq_ne s g hg]

/-- Only the shard of its user passes a command. -/
theorem passed_advance_self {g : Handler} (hg : g ≠ .risk (userShard (found s g).userId))
    (huser : (handed config s g).userId = (found s g).userId) :
    Passed ((pipeline config).advance s g) (s.seq g) ↔ Passed s (s.seq g) := by
  unfold Passed
  rw [advance_cmd_found, huser, Pipeline.advance_seq_ne s g hg.symm]
  rfl

def StagesInvariant (config : Config) (s : State) : Prop :=
  ∀ n, Stage config (Passed s n) (Matched s n) (s.slots n).cmd

theorem Stage.fresh {cmd : OrderCommand} {passed : Prop} (hpassed : ¬passed) {matched : Prop}
    (hmatched : ¬matched) (hstatus : cmd.status = .processing) :
    Stage config passed matched cmd where
  funds _ := .inl ⟨hstatus, hpassed⟩
  waiting _ _ := .inl hstatus
  decided _ h := absurd h hmatched
  zero h := Status.noConfusion (hstatus.symm.trans h)

theorem sizes_rebalanced {events events' : List MatcherTradeEvent}
    (he : List.Forall₂ Rebalanced events events') (hzero : ∀ e ∈ events, e.size = 0) :
    ∀ e ∈ events', e.size = 0 := by
  induction he with
  | nil => simp
  | cons hevent _ ih =>
    obtain ⟨balance, rfl⟩ := hevent
    rw [List.forall_mem_cons] at hzero ⊢
    exact ⟨hzero.1, ih hzero.2⟩

theorem Stage.same {cmd cmd' : OrderCommand} {passed matched passed' matched' : Prop}
    (h : Stage config passed matched cmd) (hsame : OwesSame cmd cmd')
    (hpassed : passed' ↔ passed) (hmatched : matched' ↔ matched) :
    Stage config passed' matched' cmd' := by
  have hfunds : IsFunds cmd' ↔ IsFunds cmd := by
    unfold IsFunds
    rw [hsame.command]
  refine ⟨?_, ?_, ?_, ?_⟩
  · rw [hfunds, hsame.status, hpassed]
    exact h.funds
  · rw [hfunds, hsame.status, hmatched]
    exact h.waiting
  · rw [hfunds, hsame.status, hmatched, hsame.marketId]
    exact h.decided
  · rw [hsame.status]
    exact fun hplaced => sizes_rebalanced hsame.events (h.zero hplaced)

namespace StagesInvariant

theorem start (replayEnabled : Bool) : StagesInvariant config (start config replayEnabled) :=
  fun n => Stage.fresh (Nat.not_lt_zero n) (Nat.not_lt_zero n) rfl

theorem publish (h : StagesInvariant config s) (ho : (pipeline config).Ordered s)
    {cmd : OrderCommand} (hfresh : cmd.Fresh) :
    StagesInvariant config (s.publish (Slot.of cmd)) := by
  intro n
  by_cases hn : n = s.published
  · subst hn
    have hself : ((s.publish (Slot.of cmd)).slots s.published).cmd = cmd := by
      rw [Pipeline.State.publish_slots_self]
      rfl
    unfold Passed Matched
    rw [hself]
    exact Stage.fresh (Nat.not_lt.mpr (ho.published _)) (Nat.not_lt.mpr (ho.published _))
      hfresh.status
  · unfold Passed Matched
    rw [Pipeline.State.publish_slots_ne s _ hn]
    exact h n

/-- The slots that a visit leaves alone. -/
theorem advance_slot (h : StagesInvariant config s) {g : Handler}
    (hslot : Stage config (Passed ((pipeline config).advance s g) (s.seq g))
      (Matched ((pipeline config).advance s g) (s.seq g))
      (process config g (s.seq g) s.shared (s.slots (s.seq g)).cmd).2) :
    StagesInvariant config ((pipeline config).advance s g) := by
  intro n
  by_cases hn : n = s.seq g
  · subst hn
    rw [advance_cmd_self]
    exact hslot
  · rw [Pipeline.advance_slots_ne s g hn]
    exact (h n).same (.refl _) (passed_advance_ne hn) (matched_advance_ne hn)

/-- A visit that gives no status, by a handler whose visits the stage does not count. -/
theorem advance_same (h : StagesInvariant config s) {g : Handler}
    (hsame : OwesSame (s.slots (s.seq g)).cmd
      (process config g (s.seq g) s.shared (s.slots (s.seq g)).cmd).2)
    (hrisk : g ≠ .risk (userShard (s.slots (s.seq g)).cmd.userId))
    (hmatching : g ≠ .matching (marketShard (s.slots (s.seq g)).cmd.marketId)) :
    StagesInvariant config ((pipeline config).advance s g) := by
  have hpassed := @passed_advance_self config s g hrisk hsame.userId
  exact h.advance_slot ((h (s.seq g)).same hsame hpassed (matched_advance_self hmatching))

/-- R1 decides deposits and withdrawals, and no order except against it. -/
theorem advance_risk (ho : (pipeline config).Ordered s) (hc : CommandsInvariant config s)
    (h : StagesInvariant config s) (shard : Fin numRiskEngines) :
    StagesInvariant config ((pipeline config).advance s (.risk shard)) := by
  by_cases howns : ownsUser shard (s.slots (s.seq (.risk shard))).cmd.userId = true
  · have hshard := ownsUser_iff.mp howns
    have hfresh := hc.fresh (s.seq (.risk shard)) (by rw [← hshard])
    have hunmatched : ¬Matched ((pipeline config).advance s (.risk shard)) (s.seq (.risk shard)) :=
      fun hmatched => not_matched_of_risk ho shard
        ((matched_advance_self Handler.noConfusion).mp hmatched)
    apply h.advance_slot
    have hcmd : (process config (.risk shard) (s.seq (.risk shard)) s.shared
        (s.slots (s.seq (.risk shard))).cmd).2 = ((s.shared.riskEngine config shard).preProcessCommand
          (s.slots (s.seq (.risk shard))).cmd
          (config.view (s.seq (.risk shard)) s.shared.priceCache)).2 := rfl
    rw [hcmd]
    rcases (s.shared.riskEngine config shard).preProcessCommand_cases _ _ howns with
      hdown | hreserved | ⟨hcommand, -, hfunded⟩ | ⟨hcommand, -, hfunded⟩ | ⟨hcommand, heq⟩
    · obtain ⟨price, heq⟩ := hdown.cmd
      rw [heq]
      exact ⟨fun _ => .inr (.inr rfl), fun _ _ => .inr rfl,
        fun _ hmatched => absurd hmatched hunmatched, fun hplaced => Status.noConfusion hplaced⟩
    · obtain ⟨spec, price, amount, balance, -, -, -, -, -, heq⟩ := hreserved.locked
      rw [heq]
      have hcommand := hreserved.command
      refine ⟨?_, fun _ _ => .inl hfresh, fun _ hmatched => absurd hmatched hunmatched, ?_⟩
      · rintro (hfunds | hfunds) <;> exact absurd (hcommand.symm.trans hfunds) (by decide)
      · exact fun hplaced => Status.noConfusion (hfresh.symm.trans hplaced)
    · rw [hfunded.cmd]
      exact ⟨fun _ => .inr (.inl rfl), fun hnot => absurd (.inl hcommand) hnot,
        fun hnot => absurd (.inl hcommand) hnot, fun hplaced => Status.noConfusion hplaced⟩
    · rw [hfunded.cmd]
      exact ⟨fun _ => .inr (.inl rfl), fun hnot => absurd (.inr hcommand) hnot,
        fun hnot => absurd (.inr hcommand) hnot, fun hplaced => Status.noConfusion hplaced⟩
    · rw [heq]
      refine ⟨?_, fun _ _ => .inl hfresh, fun _ hmatched => absurd hmatched hunmatched, ?_⟩
      · rintro (hfunds | hfunds) <;> exact absurd (hcommand.symm.trans hfunds) (by decide)
      · exact fun hplaced => Status.noConfusion (hfresh.symm.trans hplaced)
  · have hskip : process config (.risk shard) (s.seq (.risk shard)) s.shared
        (s.slots (s.seq (.risk shard))).cmd = _ :=
      riskHandler_skip (Bool.eq_false_iff.mpr howns) _ _
    apply h.advance_same _ _ Handler.noConfusion
    · rw [hskip]
      exact .refl _
    · intro heq
      exact howns (ownsUser_iff.mpr (Handler.risk.inj heq))

theorem advance_matching (hb : BooksInvariant config s) (hc : CommandsInvariant config s)
    (h : StagesInvariant config s) (shard : Fin numMatchingEngines)
    (ready : (pipeline config).Ready s (.matching shard)) :
    StagesInvariant config ((pipeline config).advance s (.matching shard)) := by
  have hcmd : (process config (.matching shard) (s.seq (.matching shard)) s.shared
      (s.slots (s.seq (.matching shard))).cmd).2 =
        (routerHandler shard s.shared (s.slots (s.seq (.matching shard))).cmd).2 := rfl
  rcases routerHandler_cases shard s.shared (s.slots (s.seq (.matching shard))).cmd with
    ⟨heq, hskip⟩ | ⟨hshard, -, hcommand, heq⟩ |
      ⟨book, hshard, hstatus, hbook, ⟨hcommand, heq⟩ | ⟨hcommand, heq⟩⟩
  · by_cases hshard : shard = marketShard (s.slots (s.seq (.matching shard))).cmd.marketId
    · apply h.advance_slot
      rw [hcmd, heq]
      have hstage := h (s.seq (.matching shard))
      have hpassed : Passed s (s.seq (.matching shard)) := ready.2 (.risk _) Nat.zero_lt_one
      refine ⟨?_, ?_, ?_, hstage.zero⟩
      · intro hfunds
        exact .inr ((hstage.funds hfunds).resolve_left fun hraw => hraw.2 hpassed)
      · intro _ hunmatched
        exact absurd (matched_of_matching hshard).2 hunmatched
      · intro hnot _ hstatus
        exact ((hskip hshard).elim hstatus hnot).elim
    · apply h.advance_same _ Handler.noConfusion
      · intro heq'
        exact hshard (Handler.matching.inj heq')
      · rw [hcmd, heq]
        exact .refl _
  · apply h.advance_slot
    rw [hcmd, heq]
    exact ⟨fun hfunds => absurd hfunds (not_funds hcommand), fun _ _ => .inr rfl,
      fun _ _ hstatus => absurd rfl hstatus, fun hplaced => Status.noConfusion hplaced⟩
  · obtain ⟨hraw, -⟩ := hc.idle _ (.inl (@matched_of_matching config _ _ hshard).1)
    have hshape := hb.shape shard _ book hbook
    have hsame := OrderBook.placeOrder_same book (s.slots (s.seq (.matching shard))).cmd
      s.shared.priceCache
    have hplaced := OrderBook.placeOrder_placed hshape hstatus hraw s.shared.priceCache
    apply h.advance_slot
    rw [hcmd, heq]
    dsimp only
    refine ⟨?_, ?_, ?_, OrderBook.placeOrder_zero hshape hstatus hraw _⟩
    · intro hfunds
      exact absurd hfunds (not_funds (.inl (hsame.command.trans hcommand)))
    · intro _ hunmatched
      exact absurd (matched_of_matching hshard).2 hunmatched
    · intro _ _ _
      rw [hsame.marketId]
      refine ⟨⟨?_, hplaced.status.2⟩, hc.listed shard _ book hbook⟩
      rw [OrderBook.status_placeOrder hstatus]
      exact (OrderBook.placeByTimeInForce_status _ _).1
  · have hsame := OrderBook.cancelOrder_same book (s.slots (s.seq (.matching shard))).cmd
      s.shared.priceCache
    have hdecided := OrderBook.status_cancelOrder (hb.shape shard _ book hbook) hstatus
      s.shared.priceCache
    apply h.advance_slot
    rw [hcmd, heq]
    dsimp only
    refine ⟨?_, ?_, ?_, ?_⟩
    · intro hfunds
      exact absurd hfunds (not_funds (.inr (hsame.command.trans hcommand)))
    · intro _ hunmatched
      exact absurd (matched_of_matching hshard).2 hunmatched
    · intro _ _ hlive
      rw [hsame.marketId, hdecided.resolve_left hlive]
      exact ⟨⟨Status.noConfusion, Status.noConfusion⟩, hc.listed shard _ book hbook⟩
    · intro hplaced
      rcases hdecided with hdecided | hdecided <;> rw [hplaced] at hdecided <;> cases hdecided

theorem advance (ho : (pipeline config).Ordered s) (hb : BooksInvariant config s)
    (hc : CommandsInvariant config s) (h : StagesInvariant config s) {g : Handler}
    (ready : (pipeline config).Ready s g) :
    StagesInvariant config ((pipeline config).advance s g) := by
  cases g with
  | journaling =>
    exact h.advance_same (journalingHandler_owesSame _ _ _) Handler.noConfusion Handler.noConfusion
  | risk shard => exact h.advance_risk ho hc shard
  | matching shard => exact h.advance_matching hb hc shard ready
  | settlement shard =>
    exact h.advance_same (settlementHandler_owesSame shard _ _) Handler.noConfusion
      Handler.noConfusion
  | events => exact h.advance_same (.refl _) Handler.noConfusion Handler.noConfusion

/-- What R2 settles has been decided by matching, in a listed market. -/
theorem decided (hc : CommandsInvariant config s) (h : StagesInvariant config s)
    {shard : Fin numRiskEngines} (ready : (pipeline config).Ready s (.settlement shard))
    (hlive : ¬((s.slots (s.seq (.settlement shard))).cmd.status = .rejected ∨
      (s.slots (s.seq (.settlement shard))).cmd.status = .processed)) :
    Decided (s.slots (s.seq (.settlement shard))).cmd ∧ ∃ spec,
      config.symbolSpecs.lookup (s.slots (s.seq (.settlement shard))).cmd.marketId = some spec := by
  have hstage := h (s.seq (.settlement shard))
  have hpassed : Passed s (s.seq (.settlement shard)) := ready.2 (.risk _) (Nat.zero_lt_succ 1)
  obtain ⟨hrejected, hprocessed⟩ := not_or.mp hlive
  have hnot : ¬IsFunds (s.slots (s.seq (.settlement shard))).cmd := by
    intro hfunds
    rcases hstage.funds hfunds with hraw | hdone | hdone
    · exact hraw.2 hpassed
    · exact hprocessed hdone
    · exact hrejected hdone
  obtain ⟨⟨hprocessing, -⟩, hspec⟩ :=
    hstage.decided hnot (matched_of_settlement ready) hrejected
  refine ⟨⟨?_, ⟨hrejected, hprocessed, hprocessing⟩, hc.makers _, hstage.zero⟩, hspec⟩
  unfold IsFunds at hnot
  cases hcommand : (s.slots (s.seq (.settlement shard))).cmd.command <;> simp_all

end StagesInvariant

end Engine

end VexCore
