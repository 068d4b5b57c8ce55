import VexCore.Ledger.Accounts

/-!
# Commands on their way through the pipeline

What is known of a command from the handlers that have and have not seen it: R1 finds it as it
was published, matching finds it without events, and nobody trades with itself.
-/

namespace VexCore

open Framework

namespace OrderBook

theorem cancelOrder_events {book : OrderBook} (h : book.Shape) {cmd : OrderCommand}
    (hstatus : cmd.status ≠ .rejected) (cache : PriceCache) :
    (book.cancelOrder cmd cache).cmd.events = cmd.events := by
  rw [cancelOrder, if_neg hstatus]
  rcases cancelByIndex_cases h cmd with ⟨_, heq⟩ | ⟨_, heq⟩ | ⟨s, level, order, _, _, _, _, heq⟩
  · rw [heq]
  · rw [heq]
    rfl
  · rw [heq]
    rfl

end OrderBook

namespace Engine

variable {config : Config} {s : State}

theorem process_marketId (h : Handler) (n : Nat) (core : Core) (cmd : OrderCommand) :
    (process config h n core cmd).2.marketId = cmd.marketId := by
  by_cases hj : h = .journaling
  · subst hj
    exact (journalingHandler_owesSame n core cmd).marketId
  · exact (process_same hj n core cmd).marketId

theorem matched_advance_ne {h : Handler} {i : Nat} (hi : i ≠ s.seq h) :
    Matched ((pipeline config).advance s h) i ↔ Matched s i := by
  unfold Matched
  rw [Pipeline.advance_slots_ne s h hi]
  by_cases hg : Handler.matching (marketShard (s.slots i).cmd.marketId) = h
  · subst hg
    rw [Pipeline.advance_seq_self]
    omega
  · rw [Pipeline.advance_seq_ne s h hg]

/-- Only the shard of its market matches a command. -/
theorem matched_advance_self {h : Handler}
    (hh : h ≠ .matching (marketShard (s.slots (s.seq h)).cmd.marketId)) :
    Matched ((pipeline config).advance s h) (s.seq h) ↔ Matched s (s.seq h) := by
  unfold Matched
  rw [advance_cmd_self, process_marketId, Pipeline.advance_seq_ne s h hh.symm]

theorem matched_of_matching {shard : Fin numMatchingEngines}
    (hshard : shard = marketShard (s.slots (s.seq (.matching shard))).cmd.marketId) :
    ¬Matched s (s.seq (.matching shard)) ∧
      Matched ((pipeline config).advance s (.matching shard)) (s.seq (.matching shard)) := by
  unfold Matched
  rw [advance_cmd_self, process_marketId, ← hshard, Pipeline.advance_seq_self]
  omega

theorem not_matched_of_risk (ho : (pipeline config).Ordered s) (shard : Fin numRiskEngines) :
    ¬Matched s (s.seq (.risk shard)) := by
  have hle := ho.staged (.risk shard)
    (.matching (marketShard (s.slots (s.seq (.risk shard))).cmd.marketId)) Nat.zero_lt_one
  unfold Matched
  omega

theorem matched_of_settlement {shard : Fin numRiskEngines}
    (ready : (pipeline config).Ready s (.settlement shard)) :
    Matched s (s.seq (.settlement shard)) :=
  ready.2 (.matching _) (Nat.lt_succ_self 1)

structure CommandsInvariant (config : Config) (s : State) : Prop where
  fresh : ∀ n, s.seq (.risk (userShard (s.slots n).cmd.userId)) ≤ n →
    (s.slots n).cmd.status = .processing
  idle : ∀ n, ¬Matched s n ∨ config.symbolSpecs.lookup (s.slots n).cmd.marketId = none →
    (s.slots n).cmd.events = [] ∧ shouldHandleCancellation (s.slots n).cmd = false
  makers : ∀ n, ∀ e ∈ (s.slots n).cmd.events, e.makerUserId ≠ (s.slots n).cmd.userId
  listed : ∀ shard m book, (s.shared.orderBooks shard).lookup m = some book →
    ∃ spec, config.symbolSpecs.lookup m = some spec

theorem shouldHandleCancellation_of_status {cmd : OrderCommand}
    (h : cmd.status = .processing ∨ cmd.status = .rejected ∨ cmd.status = .processed) :
    shouldHandleCancellation cmd = false := by
  unfold shouldHandleCancellation
  rcases h with h | h | h <;> simp [h]

/-- What R1 leaves of a fresh command on the shard of its user. -/
theorem preProcessCommand_outcome (engine : RiskEngine) (cmd : OrderCommand) (cache : PriceCache)
    (howns : engine.userIdForThisHandler cmd.userId = true) (hfresh : cmd.status = .processing) :
    (engine.preProcessCommand cmd cache).2.userId = cmd.userId ∧
      (engine.preProcessCommand cmd cache).2.events = cmd.events ∧
      ((engine.preProcessCommand cmd cache).2.status = .processing ∨
        (engine.preProcessCommand cmd cache).2.status = .rejected ∨
        (engine.preProcessCommand cmd cache).2.status = .processed) := by
  rcases engine.preProcessCommand_cases cmd cache howns with
    h | h | ⟨_, _, h⟩ | ⟨_, _, h⟩ | ⟨_, h⟩
  · obtain ⟨price, hcmd⟩ := h.cmd
    rw [hcmd]
    exact ⟨rfl, rfl, .inr (.inl rfl)⟩
  · obtain ⟨spec, price, amount, balance, _, _, _, _, _, hout⟩ := h.locked
    rw [hout]
    exact ⟨rfl, rfl, .inl hfresh⟩
  · rw [h.cmd]
    exact ⟨rfl, rfl, .inr (.inr rfl)⟩
  · rw [h.cmd]
    exact ⟨rfl, rfl, .inr (.inr rfl)⟩
  · rw [h]
    exact ⟨rfl, rfl, .inl hfresh⟩

namespace CommandsInvariant

theorem start (replayEnabled : Bool) : CommandsInvariant config (start config replayEnabled) := by
  refine ⟨fun _ _ => rfl, fun _ _ => ⟨rfl, rfl⟩, ?_, ?_⟩
  · intro n e he
    cases he
  · intro shard m book hbook
    obtain ⟨-, -, spec, hmem⟩ := lookup_openBooks hbook
    apply Option.isSome_iff_exists.mp
    unfold Config.symbolSpecs
    rw [Finmap.dlookup_list_toFinmap, List.dlookup_isSome]
    exact List.mem_map.mpr ⟨⟨m, spec⟩, List.mem_map.mpr ⟨(m, spec), hmem, rfl⟩, rfl⟩

theorem publish (h : CommandsInvariant config s) {cmd : OrderCommand} (hfresh : cmd.Fresh) :
    CommandsInvariant config (s.publish (Slot.of cmd)) := by
  have hself : ((s.publish (Slot.of cmd)).slots s.published).cmd = cmd := by
    rw [Pipeline.State.publish_slots_self]
    rfl
  have hother {n : Nat} (hn : n ≠ s.published) :
      ((s.publish (Slot.of cmd)).slots n).cmd = (s.slots n).cmd := by
    rw [Pipeline.State.publish_slots_ne s _ hn]
  refine ⟨?_, ?_, ?_, h.listed⟩
  · intro n
    by_cases hn : n = s.published
    · subst hn
      rw [hself]
      exact fun _ => hfresh.status
    · rw [hother hn]
      exact h.fresh n
  · intro n
    by_cases hn : n = s.published
    · subst hn
      rw [hself]
      exact fun _ => ⟨hfresh.events, shouldHandleCancellation_of_status (.inl hfresh.status)⟩
    · unfold Matched
      rw [hother hn]
      exact h.idle n
  · intro n
    by_cases hn : n = s.published
    · subst hn
      rw [hself, hfresh.events]
      simp
    · rw [hother hn]
      exact h.makers n

/-- The invariant from what is known of the slot that was visited. -/
theorem advance_slot (h : CommandsInvariant config s) (g : Handler) {cmd : OrderCommand}
    (hcmd : (process config g (s.seq g) s.shared (s.slots (s.seq g)).cmd).2 = cmd)
    (hfresh : ((pipeline config).advance s g).seq (.risk (userShard cmd.userId)) ≤ s.seq g →
      cmd.status = .processing)
    (hidle : ¬Matched ((pipeline config).advance s g) (s.seq g) ∨
        config.symbolSpecs.lookup cmd.marketId = none →
      cmd.events = [] ∧ shouldHandleCancellation cmd = false)
    (hmakers : ∀ e ∈ cmd.events, e.makerUserId ≠ cmd.userId)
    (hlisted : ∀ shard m book,
      (((pipeline config).advance s g).shared.orderBooks shard).lookup m = some book →
        ∃ spec, config.symbolSpecs.lookup m = some spec) :
    CommandsInvariant config ((pipeline config).advance s g) := by
  have hself : (((pipeline config).advance s g).slots (s.seq g)).cmd = cmd := by
    rw [advance_cmd_self, hcmd]
  refine ⟨?_, ?_, ?_, hlisted⟩
  · intro n
    by_cases hn : n = s.seq g
    · subst hn
      rw [hself]
      exact hfresh
    · rw [Pipeline.advance_slots_ne s g hn]
      exact fun hle => h.fresh n ((Pipeline.le_advance_seq s g _).trans hle)
  · intro n
    by_cases hn : n = s.seq g
    · subst hn
      rw [hself]
      exact hidle
    · rw [matched_advance_ne hn, Pipeline.advance_slots_ne s g hn]
      exact h.idle n
  · intro n
    by_cases hn : n = s.seq g
    · subst hn
      rw [hself]
      exact hmakers
    · rw [Pipeline.advance_slots_ne s g hn]
      exact h.makers n

/-- A visit that changes nothing of what a command owes, and no book. -/
theorem advance_same (h : CommandsInvariant config s) {g : Handler}
    (hsame : OwesSame (s.slots (s.seq g)).cmd
      (process config g (s.seq g) s.shared (s.slots (s.seq g)).cmd).2)
    (hbooks : ((pipeline config).advance s g).shared.orderBooks = s.shared.orderBooks) :
    CommandsInvariant config ((pipeline config).advance s g) := by
  apply h.advance_slot g rfl
  · intro hle
    rw [hsame.userId] at hle
    rw [hsame.status]
    exact h.fresh _ ((Pipeline.le_advance_seq s g _).trans hle)
  · intro hidle
    have hold : ¬Matched s (s.seq g) ∨
        config.symbolSpecs.lookup (s.slots (s.seq g)).cmd.marketId = none := by
      rw [hsame.marketId] at hidle
      refine hidle.imp_left ?_
      intro hnot hmatched
      apply hnot
      unfold Matched at hmatched ⊢
      rw [advance_cmd_self, hsame.marketId]
      exact hmatched.trans_le (Pipeline.le_advance_seq s g _)
    obtain ⟨hevents, hkeeps⟩ := h.idle _ hold
    exact ⟨hsame.noEvents hevents, hsame.shouldHandleCancellation_eq.trans hkeeps⟩
  · exact hsame.makers (h.makers _)
  · rw [hbooks]
    exact h.listed

/-- R1 on the shard of the user. -/
theorem advance_risk (ho : (pipeline config).Ordered s) (h : CommandsInvariant config s)
    (shard : Fin numRiskEngines) :
    CommandsInvariant config ((pipeline config).advance s (.risk shard)) := by
  by_cases howns : ownsUser shard (s.slots (s.seq (.risk shard))).cmd.userId = true
  · have hshard := ownsUser_iff.mp howns
    have hraw := (h.idle _ (.inl (not_matched_of_risk ho shard))).1
    have hfresh := h.fresh (s.seq (.risk shard)) (by rw [← hshard])
    obtain ⟨huser, hevents, hstatus⟩ := preProcessCommand_outcome
      (s.shared.riskEngine config shard) (s.slots (s.seq (.risk shard))).cmd
      (config.view (s.seq (.risk shard)) s.shared.priceCache) howns hfresh
    apply h.advance_slot _ rfl
    · intro hle
      have hseq : ((pipeline config).advance s (.risk shard)).seq (.risk shard) =
          s.seq (.risk shard) + 1 := Pipeline.advance_seq_self s _
      have huser' : (process config (.risk shard) (s.seq (.risk shard)) s.shared
          (s.slots (s.seq (.risk shard))).cmd).2.userId =
            (s.slots (s.seq (.risk shard))).cmd.userId := huser
      rw [huser', ← hshard, hseq] at hle
      omega
    · intro _
      exact ⟨hevents.trans hraw, shouldHandleCancellation_of_status hstatus⟩
    · intro e he
      have hnone : (process config (.risk shard) (s.seq (.risk shard)) s.shared
          (s.slots (s.seq (.risk shard))).cmd).2.events = [] := hevents.trans hraw
      rw [hnone] at he
      cases he
    · exact h.listed
  · apply h.advance_same _ rfl
    rw [show process config (.risk shard) (s.seq (.risk shard)) s.shared
      (s.slots (s.seq (.risk shard))).cmd = _ from
        riskHandler_skip (Bool.eq_false_iff.mpr howns) _ _]
    exact .refl _

theorem listed_withBook (h : CommandsInvariant config s) {shard : Fin numMatchingEngines}
    {marketId : Nat} {book : OrderBook}
    (hbook : (s.shared.orderBooks shard).lookup marketId = some book) (after : OrderBook)
    (cache : PriceCache) (other : Fin numMatchingEngines) (m : Nat) (b : OrderBook)
    (hb : ((Core.withBook s.shared shard marketId after cache).orderBooks other).lookup m =
      some b) : ∃ spec, config.symbolSpecs.lookup m = some spec := by
  by_cases hm : m = marketId
  · subst hm
    exact h.listed shard m book hbook
  · by_cases hother : other = shard
    · subst hother
      simp only [Core.withBook, Function.update_self, Finmap.lookup_insert_of_ne _ hm] at hb
      exact h.listed other m b hb
    · simp only [Core.withBook, Function.update_of_ne hother] at hb
      exact h.listed other m b hb

theorem advance_matching (hb : BooksInvariant config s) (h : CommandsInvariant config s)
    (shard : Fin numMatchingEngines) (ready : (pipeline config).Ready s (.matching shard)) :
    CommandsInvariant config ((pipeline config).advance s (.matching shard)) := by
  -- R1 has passed the slot on every shard
  have hpast : ∀ g : Fin numRiskEngines,
      s.seq (.matching shard) <
        ((pipeline config).advance s (.matching shard)).seq (.risk g) := by
    intro g
    rw [Pipeline.advance_seq_ne s _ Handler.noConfusion]
    exact ready.2 (.risk g) Nat.zero_lt_one
  have hvisit : ((pipeline config).advance s (.matching shard)).shared =
      (routerHandler shard s.shared (s.slots (s.seq (.matching shard))).cmd).1 := rfl
  have hcmd : (process config (.matching shard) (s.seq (.matching shard)) s.shared
      (s.slots (s.seq (.matching shard))).cmd).2 =
        (routerHandler shard s.shared (s.slots (s.seq (.matching shard))).cmd).2 := rfl
  rcases routerHandler_cases shard s.shared (s.slots (s.seq (.matching shard))).cmd with
    ⟨heq, -⟩ | ⟨hshard, -, -, heq⟩ | ⟨book, hshard, hstatus, hbook, ⟨hcommand, heq⟩ | ⟨-, heq⟩⟩
  · apply h.advance_same
    · rw [hcmd, heq]
      exact .refl _
    · rw [hvisit, heq]
  · obtain ⟨hraw, -⟩ := h.idle _ (.inl (@matched_of_matching config _ _ hshard).1)
    apply h.advance_slot _ (hcmd.trans (congrArg Prod.snd heq))
    · intro hle
      exact absurd (hpast _) (Nat.not_lt.mpr hle)
    · intro _
      exact ⟨hraw, shouldHandleCancellation_of_status (.inr (.inl rfl))⟩
    · dsimp only
      rw [hraw]
      simp
    · rw [hvisit, heq]
      exact h.listed
  · obtain ⟨hraw, -⟩ := h.idle _ (.inl (@matched_of_matching config _ _ hshard).1)
    have hplaced := OrderBook.placeOrder_placed (hb.shape shard _ book hbook) hstatus hraw
      s.shared.priceCache
    obtain ⟨hmatched, hspec⟩ : Matched ((pipeline config).advance s (.matching shard))
        (s.seq (.matching shard)) ∧ config.symbolSpecs.lookup
          (s.slots (s.seq (.matching shard))).cmd.marketId ≠ none := by
      obtain ⟨spec, hspec⟩ := h.listed shard _ book hbook
      exact ⟨(matched_of_matching hshard).2, by simp [hspec]⟩
    apply h.advance_slot _ (hcmd.trans (congrArg Prod.snd heq))
    · intro hle
      exact absurd (hpast _) (Nat.not_lt.mpr hle)
    · intro hidle
      dsimp only at hidle
      rw [(OrderBook.placeOrder_same book _ _).marketId] at hidle
      exact hidle.elim (fun hnot => absurd hmatched hnot) fun hnone => absurd hnone hspec
    · dsimp only
      rw [hplaced.events, hplaced.userId]
      intro e he
      obtain ⟨f, hf, rfl⟩ := List.mem_map.mp he
      exact (OrderBook.executed_maker hf).2
    · rw [hvisit, heq]
      exact h.listed_withBook hbook _ _
  · obtain ⟨hraw, -⟩ := h.idle _ (.inl (@matched_of_matching config _ _ hshard).1)
    have hevents := OrderBook.cancelOrder_events (hb.shape shard _ book hbook) hstatus
      s.shared.priceCache
    rw [hraw] at hevents
    obtain ⟨hmatched, hspec⟩ : Matched ((pipeline config).advance s (.matching shard))
        (s.seq (.matching shard)) ∧ config.symbolSpecs.lookup
          (s.slots (s.seq (.matching shard))).cmd.marketId ≠ none := by
      obtain ⟨spec, hspec⟩ := h.listed shard _ book hbook
      exact ⟨(matched_of_matching hshard).2, by simp [hspec]⟩
    apply h.advance_slot _ (hcmd.trans (congrArg Prod.snd heq))
    · intro hle
      exact absurd (hpast _) (Nat.not_lt.mpr hle)
    · intro hidle
      dsimp only at hidle
      rw [(OrderBook.cancelOrder_same book _ _).marketId] at hidle
      exact hidle.elim (fun hnot => absurd hmatched hnot) fun hnone => absurd hnone hspec
    · dsimp only
      rw [hevents]
      simp
    · rw [hvisit, heq]
      exact h.listed_withBook hbook _ _

theorem advance (ho : (pipeline config).Ordered s) (hb : BooksInvariant config s)
    (h : CommandsInvariant config s) {g : Handler} (ready : (pipeline config).Ready s g) :
    CommandsInvariant config ((pipeline config).advance s g) := by
  cases g with
  | journaling => exact h.advance_same (journalingHandler_owesSame _ _ _) rfl
  | risk shard => exact h.advance_risk ho shard
  | matching shard => exact h.advance_matching hb shard ready
  | settlement shard => exact h.advance_same (settlementHandler_owesSame shard _ _) rfl
  | events => exact h.advance_same (.refl _) rfl

end CommandsInvariant

end Engine

end VexCore
