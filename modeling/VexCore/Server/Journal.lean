import VexCore.Server.Frames

/-!
# What the journal holds

Journaling and R1 share the first stage, so nothing orders them on one slot. While the offers to
the archive succeed, the journal holds the commands as they were ingested, and R1 acts only on
journaled commands, exactly in the runs where the owning R1 shard happens to come after journaling
on every slot that it acts on.
-/

namespace VexCore.Engine

open Framework

variable {config : Config}

/-- The record a command should leave: as ingested, with its stamp. -/
def expectedRecord (config : Config) (s : State) (n : Nat) : OrderRecord :=
  encodeOrderCommand ((config.stamp n).apply (s.slots n).ingested)

/-- Every record is the stamped command as it was ingested, and the R1 shard of a command's
user acts on it only when its record is there. On cancellations R1 does not act. -/
structure JournalFaithful (config : Config) (s : State) : Prop where
  records : ∀ n record, (n, record) ∈ s.shared.archive → record = expectedRecord config s n
  journaledFirst : ∀ shard n, ownsUser shard (s.slots n).ingested.userId = true →
    (s.slots n).ingested.command ≠ .cancelOrder → n < s.seq (.risk shard) →
      ∃ record, (n, record) ∈ s.shared.archive

/-- The R1 shard of the command's user comes after journaling, unless it is a cancellation. -/
def AfterJournaling (h : Handler) (s : State) : Prop :=
  ∀ shard, h = .risk shard → ownsUser shard (s.slots (s.seq h)).ingested.userId = true →
    (s.slots (s.seq h)).ingested.command ≠ .cancelOrder → s.seq h < s.seq .journaling

/-- Where journaling stands: its records, and the untouched commands ahead of it. -/
structure JournalProgress (config : Config) (s : State) : Prop where
  live : s.shared.replayEnabled = false
  written : ∀ n record, (n, record) ∈ s.shared.archive →
    n < s.seq .journaling ∧ record = expectedRecord config s n
  complete : ∀ n, n < s.seq .journaling → ∃ record, (n, record) ∈ s.shared.archive
  ahead : ∀ n, s.seq .journaling ≤ n → n < s.published → (s.slots n).cmd = (s.slots n).ingested
  behind : ∀ shard n, ownsUser shard (s.slots n).ingested.userId = true →
    (s.slots n).ingested.command ≠ .cancelOrder → n < s.seq (.risk shard) → n < s.seq .journaling

theorem JournalProgress.faithful {s : State} (h : JournalProgress config s) :
    JournalFaithful config s where
  records n record hmem := (h.written n record hmem).2
  journaledFirst shard n howns hcommand hn := h.complete n (h.behind shard n howns hcommand hn)

theorem JournalProgress.start : JournalProgress config (start config false) where
  live := rfl
  written n record h := by cases h
  complete n h := absurd h (Nat.not_lt_zero n)
  ahead n _ _ := rfl
  behind shard n _ _ h := absurd h (Nat.not_lt_zero n)

theorem JournalProgress.publish {s : State} (ho : (pipeline config).Ordered s)
    (h : JournalProgress config s) {slot : Slot} (hslot : Offered s.published slot) :
    JournalProgress config (s.publish slot) := by
  obtain ⟨cmd, _, rfl⟩ := hslot
  have hold {n : Nat} (g : Handler) (hn : n < s.seq g) :
      (s.publish (Slot.of cmd)).slots n = s.slots n := by
    apply Pipeline.State.publish_slots_ne
    have hle := ho.published g
    omega
  refine ⟨h.live, ?_, h.complete, ?_, ?_⟩
  · intro n record hmem
    obtain ⟨hn, heq⟩ := h.written n record hmem
    refine ⟨hn, ?_⟩
    rw [heq, expectedRecord, expectedRecord, hold _ hn]
  · intro n hle hlt
    by_cases hn : n = s.published
    · subst hn
      rw [Pipeline.State.publish_slots_self]
      rfl
    · rw [Pipeline.State.publish_slots_ne _ _ hn]
      rw [Pipeline.State.publish_published] at hlt
      exact h.ahead n hle (by omega)
  · intro shard n howns hcommand hn
    rw [Pipeline.State.publish_seq] at hn ⊢
    rw [hold _ hn] at howns hcommand
    exact h.behind shard n howns hcommand hn

theorem JournalProgress.advance_journaling (archives : config.Archives) {s : State}
    (h : JournalProgress config s)
    (ready : (pipeline config).Ready s .journaling) :
    JournalProgress config ((pipeline config).advance s .journaling) := by
  have hcmd := h.ahead _ le_rfl ready.1
  have hshared : ((pipeline config).advance s .journaling).shared =
      (journalingHandler config (s.seq .journaling) s.shared
        (s.slots (s.seq .journaling)).cmd).1 := rfl
  have hrecord (n : Nat) : expectedRecord config ((pipeline config).advance s .journaling) n =
      expectedRecord config s n := by
    rw [expectedRecord, expectedRecord, advance_ingested]
  have harchive : ((pipeline config).advance s .journaling).shared.archive =
      s.shared.archive ++ [(s.seq .journaling, expectedRecord config s (s.seq .journaling))] := by
    rw [hshared, journalingHandler, h.live, hcmd]
    simp [journalCommand, archives.published, expectedRecord]
  refine ⟨?_, ?_, ?_, ?_, ?_⟩
  · rw [hshared]
    exact h.live
  · intro n record hmem
    rw [harchive] at hmem
    rw [hrecord, Pipeline.advance_seq_self]
    rcases List.mem_append.mp hmem with hmem | hmem
    · obtain ⟨hn, heq⟩ := h.written n record hmem
      exact ⟨by omega, heq⟩
    · rw [List.mem_singleton, Prod.mk.injEq] at hmem
      obtain ⟨rfl, rfl⟩ := hmem
      exact ⟨Nat.lt_succ_self _, rfl⟩
  · intro n hn
    rw [Pipeline.advance_seq_self] at hn
    rw [harchive]
    by_cases heq : n = s.seq .journaling
    · subst heq
      exact ⟨_, List.mem_append_right _ (List.mem_singleton.mpr rfl)⟩
    · obtain ⟨record, hmem⟩ := h.complete n (by omega)
      exact ⟨record, List.mem_append_left _ hmem⟩
  · intro n hle hlt
    rw [Pipeline.advance_seq_self] at hle
    rw [Pipeline.advance_slots_ne _ _ (by omega)]
    exact h.ahead n (by omega) hlt
  · intro shard n howns hcommand hn
    have hne : Handler.risk shard ≠ .journaling := Handler.noConfusion
    rw [advance_ingested] at howns hcommand
    rw [Pipeline.advance_seq_ne _ _ hne] at hn
    rw [Pipeline.advance_seq_self]
    have hlt := h.behind shard n howns hcommand hn
    omega

theorem advance_ahead {s : State} (h : JournalProgress config s) {g : Handler}
    (hne : g ≠ .journaling) (ready : (pipeline config).Ready s g) (after : AfterJournaling g s)
    (hle : s.seq .journaling ≤ s.seq g) :
    (((pipeline config).advance s g).slots (s.seq g)).cmd = (s.slots (s.seq g)).ingested := by
  have hcmd := h.ahead _ hle ready.1
  rw [advance_cmd_self]
  have hlater (hstage : (pipeline config).stage .journaling < (pipeline config).stage g) : False := by
    have hlt := ready.2 .journaling hstage
    omega
  cases g with
  | journaling => exact absurd rfl hne
  | risk shard =>
    by_cases hcancel : (s.slots (s.seq (.risk shard))).cmd.command = .cancelOrder
    · rw [process, riskHandler_cancel hcancel]
      exact hcmd
    have howns : ownsUser shard (s.slots (s.seq (.risk shard))).cmd.userId = false := by
      cases hown : ownsUser shard (s.slots (s.seq (.risk shard))).cmd.userId with
      | false => rfl
      | true =>
        rw [hcmd] at hown hcancel
        have hlt := after shard rfl hown hcancel
        omega
    rw [process, riskHandler_skip howns]
    exact hcmd
  | matching shard => exact (hlater Nat.zero_lt_one).elim
  | settlement shard => exact (hlater Nat.zero_lt_two).elim
  | events => exact (hlater (Nat.zero_lt_succ 2)).elim

theorem JournalProgress.advance_other {s : State} (h : JournalProgress config s) {g : Handler}
    (hne : g ≠ .journaling) (ready : (pipeline config).Ready s g) (after : AfterJournaling g s) :
    JournalProgress config ((pipeline config).advance s g) := by
  have hproc := @process_archive config _ hne (s.seq g) s.shared (s.slots (s.seq g)).cmd
  have hflag := @process_replayEnabled config g (s.seq g) s.shared
    (s.slots (s.seq g)).cmd
  have hseq : ((pipeline config).advance s g).seq .journaling = s.seq .journaling :=
    Pipeline.advance_seq_ne s g hne.symm
  have harchive : ((pipeline config).advance s g).shared.archive = s.shared.archive := hproc
  refine ⟨hflag.trans h.live, ?_, ?_, ?_, ?_⟩
  · intro n record hmem
    rw [harchive] at hmem
    rw [hseq, expectedRecord, advance_ingested]
    exact h.written n record hmem
  · intro n hn
    rw [hseq] at hn
    rw [harchive]
    exact h.complete n hn
  · intro n hle hlt
    rw [hseq] at hle
    rw [advance_ingested]
    by_cases hn : n = s.seq g
    · subst hn
      exact advance_ahead h hne ready after hle
    · rw [Pipeline.advance_slots_ne _ _ hn]
      exact h.ahead n hle hlt
  · intro shard n howns hcommand hn
    rw [advance_ingested] at howns hcommand
    rw [hseq]
    by_cases hg : Handler.risk shard = g
    · subst hg
      rw [Pipeline.advance_seq_self] at hn
      by_cases heq : n = s.seq (.risk shard)
      · subst heq
        exact after shard rfl howns hcommand
      · exact h.behind shard n howns hcommand (by omega)
    · rw [Pipeline.advance_seq_ne _ _ hg] at hn
      exact h.behind shard n howns hcommand hn

theorem Reaches.journalProgress (archives : config.Archives) {s : State}
    (run : Reaches config AfterJournaling false s) :
    JournalProgress config s := by
  refine (run.invariant (Pipeline.Ordered.start _ _) JournalProgress.start ?_ ?_).2
  · intro s slot ho hinv offered
    exact hinv.publish ho offered
  · intro s g ho hinv ready after
    by_cases hg : g = .journaling
    · subst hg
      exact hinv.advance_journaling archives ready
    · exact hinv.advance_other hg ready after

theorem afterJournaling_of_faithful {s : State} (hinv : JournalProgress config s) {g : Handler}
    (faithful : JournalFaithful config ((pipeline config).advance s g)) : AfterJournaling g s := by
  intro shard hg howns hcommand
  subst hg
  have hne : Handler.risk shard ≠ .journaling := Handler.noConfusion
  have hingested := @advance_ingested config s (.risk shard) (s.seq (.risk shard))
  obtain ⟨record, hmem⟩ := faithful.journaledFirst shard (s.seq (.risk shard))
    (by rw [hingested]; exact howns) (by rw [hingested]; exact hcommand)
    (by rw [Pipeline.advance_seq_self]; exact Nat.lt_succ_self _)
  have harchive := @process_archive config _ hne (s.seq (.risk shard)) s.shared
    (s.slots (s.seq (.risk shard))).cmd
  change (_, record) ∈ (process config (.risk shard) (s.seq (.risk shard)) s.shared
    (s.slots (s.seq (.risk shard))).cmd).1.archive at hmem
  rw [harchive] at hmem
  exact (hinv.written _ _ hmem).1

/-- While the offers to the archive succeed, the journal is faithful in every state of a run exactly
when, in every step of the run, the R1 shard of a command's user comes after journaling. -/
theorem journal_faithful_iff (archives : config.Archives) (s : State) :
    Reaches config (fun h s => JournalFaithful config ((pipeline config).advance s h)) false s ↔
      Reaches config AfterJournaling false s := by
  constructor
  · intro run
    induction run with
    | refl => exact .refl
    | tail _ step ih =>
      cases step with
      | publish slot offered => exact ih.tail (.publish slot offered)
      | advance h ready faithful =>
        exact ih.tail (.advance h ready
          (afterJournaling_of_faithful (ih.journalProgress archives) faithful))
  · intro run
    induction run with
    | refl => exact .refl
    | tail _ step ih =>
      rename_i b c prefix_run
      cases step with
      | publish slot offered => exact ih.tail (.publish slot offered)
      | advance h ready after =>
        have hafter : Reaches config AfterJournaling false ((pipeline config).advance b h) :=
          Relation.ReflTransGen.tail prefix_run (.advance h ready after)
        exact ih.tail (.advance h ready (hafter.journalProgress archives).faithful)

/-- R1 passes a cancellation that is not journaled yet, and journaling comes next. -/
theorem journal_faithful_iff_cancel :
    let s := (pipeline (plainConfig [1])).execute (start (plainConfig [1]) false)
      [.publish (Slot.of (.cancelOf 7)), .advance (.risk 0), .advance .journaling]
    Reaches (plainConfig [1])
      (fun h s => JournalFaithful (plainConfig [1]) ((pipeline (plainConfig [1])).advance s h))
      false s := by
  intro s
  apply (journal_faithful_iff (archives_plainConfig [1]) s).mpr
  have hcancel {s : State} (h : (s.slots 0).ingested = .cancelOf 7) (g : Handler)
      (hseq : s.seq g = 0) : AfterJournaling g s := by
    intro shard _ _ hcommand
    rw [hseq, h] at hcommand
    exact absurd rfl hcommand
  have hpossible : (pipeline (plainConfig [1])).Possible
      (fun _ slot => slot = Slot.of (.cancelOf 7)) AfterJournaling (start (plainConfig [1]) false)
      [.publish (Slot.of (.cancelOf 7)), .advance (.risk 0), .advance .journaling] :=
    ⟨rfl, ⟨by decide, hcancel rfl _ rfl⟩, ⟨by decide, hcancel rfl _ rfl⟩, trivial⟩
  have hfresh : (OrderCommand.cancelOf 7).Fresh := ⟨rfl, rfl, rfl, rfl, rfl⟩
  exact Reaches.of_possible _ hpossible fun _ slot hslot => ⟨_, hfresh, hslot⟩

/-- A bid without funds, whose R1 shard runs before journaling, is archived as rejected. -/
theorem journal_rejected_bid :
    ¬∀ s, Reaches (plainConfig [1]) (fun _ _ => True) false s →
      JournalFaithful (plainConfig [1]) s := by
  intro hall
  have hpossible : (pipeline (plainConfig [1])).Possible
      (fun _ slot => slot = Slot.of (.limit .bid .gtc 0 0 100 1)) (fun _ _ => True)
      (start (plainConfig [1]) false)
      [.publish (Slot.of (.limit .bid .gtc 0 0 100 1)), .advance (.risk 0), .advance .journaling] := by
    refine ⟨rfl, ⟨by decide, trivial⟩, ⟨by decide, trivial⟩, trivial⟩
  have hfresh : (OrderCommand.limit .bid .gtc 0 0 100 1).Fresh := ⟨rfl, rfl, rfl, rfl, rfl⟩
  have hrun := Reaches.of_possible _ hpossible fun _ slot hslot => ⟨_, hfresh, hslot⟩
  have hrecord := (hall _ hrun).records 0
    (encodeOrderCommand { OrderCommand.limit .bid .gtc 1 0 100 1 with status := .rejected })
    (by decide)
  revert hrecord
  decide

end VexCore.Engine
