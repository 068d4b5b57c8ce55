import VexCore.Server.Frames

/-!
# Replaying recorded commands

The server thread publishes every recorded command, returns from the server's constructor and
then clears the replay flag, while the handlers may still have replayed slots ahead of them. The
flag is read when a slot is visited, so what matters is how far the journaling and events
handlers have come when it is cleared.
-/

namespace VexCore.Engine

open Framework

/-- A recorded command as the replay publishes it. -/
def replayCommand (record : OrderRecord) : OrderCommand :=
  { decodeOrderCommand record with status := .processing }

/-- The engine and the server thread: the records still to publish, how many slots the replay has
filled, and where journaling and the events handler stood when the flag was cleared. -/
structure Replay where
  engine : State
  pending : List OrderRecord
  replayed : Nat
  cleared : Option (Nat × Nat)

namespace Replay

def start (config : Config) (records : List OrderRecord) : Replay :=
  { engine := Engine.start config true
    pending := records
    replayed := 0
    cleared := none }

def publishRecorded (r : Replay) (record : OrderRecord) (rest : List OrderRecord) : Replay :=
  { r with
    engine := r.engine.publish (Slot.of (replayCommand record))
    pending := rest
    replayed := r.replayed + 1 }

/-- `replay_control.disable()`. -/
def disable (r : Replay) : Replay :=
  { r with
    engine := { r.engine with shared := { r.engine.shared with replayEnabled := false } }
    cleared := some (r.engine.seq .journaling, r.engine.seq .events) }

def publishLive (r : Replay) (cmd : OrderCommand) : Replay :=
  { r with engine := r.engine.publish (Slot.of cmd) }

def visit (config : Config) (r : Replay) (h : Handler) : Replay :=
  { r with engine := (pipeline config).advance r.engine h }

/-- The runs of the server thread and the handlers; gateways are served after the replay. -/
inductive Run (config : Config) (records : List OrderRecord) : Replay → Prop
  | start : Run config records (start config records)
  | publishRecorded {r : Replay} {record : OrderRecord} {rest : List OrderRecord}
      (run : Run config records r) (pending : r.pending = record :: rest)
      (replaying : r.cleared = none) : Run config records (r.publishRecorded record rest)
  | disable {r : Replay} (run : Run config records r) (done : r.pending = [])
      (replaying : r.cleared = none) : Run config records r.disable
  | publishLive {r : Replay} (cmd : OrderCommand) (run : Run config records r)
      (live : r.cleared ≠ none) (fresh : cmd.Fresh) : Run config records (r.publishLive cmd)
  | visit {r : Replay} (h : Handler) (run : Run config records r)
      (ready : (pipeline config).Ready r.engine h) : Run config records (r.visit config h)

/-- Journaling visited slot `n` after the flag was cleared. -/
def JournaledLive (r : Replay) (n : Nat) : Prop :=
  ∃ p, r.cleared = some p ∧ p.1 ≤ n ∧ n < r.engine.seq .journaling

/-- The events handler visited slot `n` after the flag was cleared. -/
def PublishedLive (r : Replay) (n : Nat) : Prop :=
  ∃ p, r.cleared = some p ∧ p.2 ≤ n ∧ n < r.engine.seq .events

/-- What is promised of the replayed commands: they keep the id and timestamp they were recorded
with, they are not archived again, and they bring no events and no responses. -/
def Faithful (records : List OrderRecord) (r : Replay) : Prop :=
  ∀ n < r.replayed, ∃ record, records[n]? = some record ∧
    (r.engine.slots n).cmd.orderId = record.orderId ∧
    (r.engine.slots n).cmd.timestamp = record.timestamp ∧
    (∀ entry, (n, entry) ∉ r.engine.shared.archive) ∧
    (∀ output, (n, output) ∉ r.engine.shared.emitted) ∧
    ∀ response, (n, response) ∉ r.engine.shared.responses

/-- Every replayed slot that journaling or the events handler has visited, it visited before the
flag was cleared. -/
def VisitedBeforeClearing (r : Replay) : Prop :=
  ∀ journaling events, r.cleared = some (journaling, events) → ∀ n < r.replayed,
    (n < r.engine.seq .journaling → n < journaling) ∧ (n < r.engine.seq .events → n < events)

/-- An event or a response came out of the slot. -/
def Told (core : Core) (n : Nat) : Prop :=
  (∃ output, (n, output) ∈ core.emitted) ∨ ∃ response, (n, response) ∈ core.responses

/-- What relates the thread, the flag and the outputs in every state. -/
structure Invariant (config : Config) (records : List OrderRecord) (r : Replay) : Prop where
  order : (pipeline config).Ordered r.engine
  flag : r.engine.shared.replayEnabled = r.cleared.isNone
  positions : ∀ p, r.cleared = some p →
    p.1 ≤ r.engine.seq .journaling ∧ p.2 ≤ r.engine.seq .events
  replayed : r.replayed ≤ r.engine.published
  replaying : r.cleared = none → r.replayed = r.engine.published
  pending : r.pending = records.drop r.replayed
  source : ∀ n < r.replayed, ∃ record, records[n]? = some record ∧
    (r.engine.slots n).ingested = replayCommand record
  archived : ∀ n, (∃ entry, (n, entry) ∈ r.engine.shared.archive) → r.JournaledLive n
  kept : config.Archives → ∀ n, r.JournaledLive n → ∃ entry, (n, entry) ∈ r.engine.shared.archive
  told : ∀ n, Told r.engine.shared n → r.PublishedLive n
  identity : ∀ n < r.engine.published, ¬r.JournaledLive n →
    (r.engine.slots n).cmd.orderId = (r.engine.slots n).ingested.orderId ∧
      (r.engine.slots n).cmd.timestamp = (r.engine.slots n).ingested.timestamp

variable {config : Config} {records : List OrderRecord} {r : Replay}

theorem Invariant.start : Invariant config records (start config records) where
  order := Pipeline.Ordered.start _ _
  flag := rfl
  positions p h := by cases h
  replayed := le_rfl
  replaying _ := rfl
  pending := rfl
  source n h := absurd h (Nat.not_lt_zero n)
  archived n := by
    rintro ⟨entry, h⟩
    cases h
  kept _ n := by
    rintro ⟨p, h, _⟩
    cases h
  told n := by
    rintro (⟨output, h⟩ | ⟨response, h⟩) <;> cases h
  identity n h := absurd h (Nat.not_lt_zero n)

theorem Invariant.identity_publish (h : Invariant config records r) (cmd : OrderCommand) {n : Nat}
    (hn : n < (r.engine.publish (Slot.of cmd)).published) (hlive : ¬r.JournaledLive n) :
    ((r.engine.publish (Slot.of cmd)).slots n).cmd.orderId =
        ((r.engine.publish (Slot.of cmd)).slots n).ingested.orderId ∧
      ((r.engine.publish (Slot.of cmd)).slots n).cmd.timestamp =
        ((r.engine.publish (Slot.of cmd)).slots n).ingested.timestamp := by
  rw [Pipeline.State.publish_published] at hn
  by_cases heq : n = r.engine.published
  · subst heq
    rw [Pipeline.State.publish_slots_self]
    exact ⟨rfl, rfl⟩
  · rw [Pipeline.State.publish_slots_ne _ _ heq]
    exact h.identity n (by omega) hlive

theorem Invariant.publishRecorded (h : Invariant config records r) {record : OrderRecord}
    {rest : List OrderRecord} (hpending : r.pending = record :: rest)
    (hreplaying : r.cleared = none) :
    Invariant config records (r.publishRecorded record rest) := by
  have hslot := h.replaying hreplaying
  have hdrop : records.drop r.replayed = record :: rest := h.pending.symm.trans hpending
  have hget : records[r.replayed]? = some record := by
    rw [← List.head?_drop, hdrop]
    rfl
  refine ⟨h.order.publish _, h.flag, h.positions, ?_, ?_, ?_, ?_, h.archived, h.kept, h.told, ?_⟩
  · change r.replayed + 1 ≤ r.engine.published + 1
    omega
  · intro _
    change r.replayed + 1 = r.engine.published + 1
    omega
  · change rest = records.drop (r.replayed + 1)
    rw [← List.drop_drop, hdrop]
    rfl
  · intro n hn
    change n < r.replayed + 1 at hn
    by_cases heq : n = r.replayed
    · subst heq
      refine ⟨record, hget, ?_⟩
      change ((r.engine.publish _).slots r.replayed).ingested = _
      rw [hslot, Pipeline.State.publish_slots_self]
      rfl
    · change ∃ record', _ ∧ ((r.engine.publish _).slots n).ingested = _
      rw [Pipeline.State.publish_slots_ne _ _ (by omega)]
      exact h.source n (by omega)
  · intro n hn hlive
    exact h.identity_publish _ hn hlive

theorem Invariant.publishLive (h : Invariant config records r) (hlive : r.cleared ≠ none)
    (cmd : OrderCommand) : Invariant config records (r.publishLive cmd) := by
  refine ⟨h.order.publish _, h.flag, h.positions, h.replayed.trans (Nat.le_succ _), ?_, h.pending,
    ?_, h.archived, h.kept, h.told, ?_⟩
  · intro hnone
    exact absurd hnone hlive
  · intro n hn
    have hlt : n < r.engine.published := lt_of_lt_of_le hn h.replayed
    change ∃ record, _ ∧ ((r.engine.publish _).slots n).ingested = _
    rw [Pipeline.State.publish_slots_ne _ _ (Nat.ne_of_lt hlt)]
    exact h.source n hn
  · intro n hn hjournal
    exact h.identity_publish cmd hn hjournal

/-- Clearing the flag by itself touches no slot and no output. -/
theorem Invariant.disable (h : Invariant config records r) (hreplaying : r.cleared = none) :
    Invariant config records r.disable := by
  have hnoJournal (n : Nat) : ¬r.disable.JournaledLive n := by
    rintro ⟨p, hp, hle, hlt⟩
    have heq : p = (r.engine.seq .journaling, r.engine.seq .events) := (Option.some.inj hp).symm
    subst heq
    exact absurd hlt (Nat.not_lt.mpr hle)
  have hbefore (n : Nat) : ¬r.JournaledLive n ∧ ¬r.PublishedLive n := by
    constructor <;>
    · rintro ⟨p, hp, _⟩
      rw [hreplaying] at hp
      cases hp
  refine ⟨h.order.setShared _, rfl, ?_, h.replayed, ?_, h.pending, h.source, ?_, ?_, ?_, ?_⟩
  · intro p hp
    have heq : p = (r.engine.seq .journaling, r.engine.seq .events) := (Option.some.inj hp).symm
    subst heq
    exact ⟨le_rfl, le_rfl⟩
  · intro hnone
    cases hnone
  · intro n hentry
    exact absurd (h.archived n hentry) (hbefore n).1
  · intro _ n hlive
    exact absurd hlive (hnoJournal n)
  · intro n htold
    exact absurd (h.told n htold) (hbefore n).2
  · intro n hn _
    exact h.identity n hn (hbefore n).1

theorem journaledLive_visit_ne {h : Handler} (hne : h ≠ .journaling) (n : Nat) :
    (r.visit config h).JournaledLive n ↔ r.JournaledLive n := by
  have hseq : (r.visit config h).engine.seq .journaling = r.engine.seq .journaling :=
    Pipeline.advance_seq_ne _ _ hne.symm
  unfold JournaledLive
  rw [hseq]
  rfl

theorem publishedLive_visit_ne {h : Handler} (hne : h ≠ .events) (n : Nat) :
    (r.visit config h).PublishedLive n ↔ r.PublishedLive n := by
  have hseq : (r.visit config h).engine.seq .events = r.engine.seq .events :=
    Pipeline.advance_seq_ne _ _ hne.symm
  unfold PublishedLive
  rw [hseq]
  rfl

/-- While the flag is set, journaling passes a command through. -/
theorem journalingHandler_replay {core : Core} (hflag : core.replayEnabled = true) (n : Nat)
    (cmd : OrderCommand) : journalingHandler config n core cmd = (core, cmd) := by
  have hpass : journalCommand core.replayEnabled (config.stamp n)
      (config.publications .journaling n) cmd = (cmd, none) := by
    rw [hflag]
    rfl
  unfold journalingHandler
  rw [hpass]
  simp

theorem journalingHandler_live {core : Core} (hflag : core.replayEnabled = false) (n : Nat)
    (cmd : OrderCommand) : (journalingHandler config n core cmd).1.archive = core.archive ++
      (((config.publications .journaling n).publishToArchive ((config.stamp n).apply cmd)).map
        fun record => (n, record)).toList := by
  unfold journalingHandler journalCommand
  rw [hflag]
  rfl

/-- While the flag is set, the events handler lets nothing out. -/
theorem eventsHandler_replay {core : Core} (hflag : core.replayEnabled = true) (n : Nat)
    (cmd : OrderCommand) : (eventsHandler config n core cmd).1 = core := by
  have hsilent : handleProcessedCommand core.replayEnabled (config.publications .events n) cmd =
      ([], none) := by
    rw [hflag]
    rfl
  unfold eventsHandler
  simp [hsilent]

theorem told_eventsHandler {core : Core} {n m : Nat} {cmd : OrderCommand}
    (h : Told (eventsHandler config n core cmd).1 m) : Told core m ∨ m = n := by
  rcases h with ⟨output, h⟩ | ⟨response, h⟩
  · rcases List.mem_append.mp h with h | h
    · exact .inl (.inl ⟨output, h⟩)
    · obtain ⟨_, _, heq⟩ := List.mem_map.mp h
      exact .inr (Prod.mk.inj heq).1.symm
  · rcases List.mem_append.mp h with h | h
    · exact .inl (.inr ⟨response, h⟩)
    · obtain ⟨_, _, heq⟩ := Option.map_eq_some_iff.mp (Option.mem_toList.mp h)
      exact .inr (Prod.mk.inj heq).1.symm

theorem journaledLive_visit (h : Invariant config records r) {n : Nat} :
    (r.visit config .journaling).JournaledLive n ↔
      r.JournaledLive n ∨ r.cleared ≠ none ∧ n = r.engine.seq .journaling := by
  have hseq : (r.visit config .journaling).engine.seq .journaling =
      r.engine.seq .journaling + 1 := Pipeline.advance_seq_self _ _
  have hclear : (r.visit config .journaling).cleared = r.cleared := rfl
  unfold JournaledLive
  rw [hseq, hclear]
  constructor
  · rintro ⟨p, hp, hle, hlt⟩
    by_cases hn : n = r.engine.seq .journaling
    · exact .inr ⟨by rw [hp]; exact Option.some_ne_none p, hn⟩
    · exact .inl ⟨p, hp, hle, by omega⟩
  · rintro (⟨p, hp, hle, hlt⟩ | ⟨hcleared, rfl⟩)
    · exact ⟨p, hp, hle, by omega⟩
    · obtain ⟨p, hp⟩ := Option.ne_none_iff_exists'.mp hcleared
      exact ⟨p, hp, (h.positions p hp).1, Nat.lt_succ_self _⟩

theorem Invariant.visit_archived (h : Invariant config records r) (g : Handler) (n : Nat)
    (hentry : ∃ entry, (n, entry) ∈ (r.visit config g).engine.shared.archive) :
    (r.visit config g).JournaledLive n := by
  by_cases hg : g = .journaling
  · subst hg
    rw [journaledLive_visit h]
    have hshared : (r.visit config .journaling).engine.shared = (journalingHandler config
        (r.engine.seq .journaling) r.engine.shared
        (r.engine.slots (r.engine.seq .journaling)).cmd).1 := rfl
    rw [hshared] at hentry
    have hflag := h.flag
    cases hcleared : r.cleared with
    | none =>
      rw [hcleared] at hflag
      rw [journalingHandler_replay hflag] at hentry
      exact .inl (h.archived n hentry)
    | some p =>
      rw [hcleared] at hflag
      rw [journalingHandler_live hflag] at hentry
      obtain ⟨entry, hmem⟩ := hentry
      rcases List.mem_append.mp hmem with hold | hnew
      · exact .inl (h.archived n ⟨entry, hold⟩)
      · obtain ⟨_, _, heq⟩ := Option.map_eq_some_iff.mp (Option.mem_toList.mp hnew)
        exact .inr ⟨Option.some_ne_none p, (Prod.mk.inj heq).1.symm⟩
  · have harchive : (r.visit config g).engine.shared.archive = r.engine.shared.archive :=
      process_archive hg _ _ _
    rw [harchive] at hentry
    rw [journaledLive_visit_ne hg]
    exact h.archived n hentry

theorem Invariant.visit_kept (h : Invariant config records r) (archives : config.Archives)
    (g : Handler) (n : Nat) (hlive : (r.visit config g).JournaledLive n) :
    ∃ entry, (n, entry) ∈ (r.visit config g).engine.shared.archive := by
  by_cases hg : g = .journaling
  · subst hg
    have hshared : (r.visit config .journaling).engine.shared = (journalingHandler config
        (r.engine.seq .journaling) r.engine.shared
        (r.engine.slots (r.engine.seq .journaling)).cmd).1 := rfl
    rw [hshared]
    have hflag := h.flag
    rcases (journaledLive_visit h).mp hlive with hold | ⟨hcleared, rfl⟩
    · obtain ⟨entry, hmem⟩ := h.kept archives n hold
      exact ⟨entry, List.mem_append_left _ hmem⟩
    · rw [Option.isNone_eq_false_iff.mpr (Option.isSome_iff_ne_none.mpr hcleared)] at hflag
      rw [journalingHandler_live hflag, archives.published]
      exact ⟨_, List.mem_append_right _ (List.mem_singleton.mpr rfl)⟩
  · have harchive : (r.visit config g).engine.shared.archive = r.engine.shared.archive :=
      process_archive hg _ _ _
    rw [harchive]
    exact h.kept archives n ((journaledLive_visit_ne hg n).mp hlive)

theorem Invariant.visit_told (h : Invariant config records r) (g : Handler) (n : Nat)
    (htold : Told (r.visit config g).engine.shared n) : (r.visit config g).PublishedLive n := by
  by_cases hg : g = .events
  · subst hg
    have hseq : (r.visit config .events).engine.seq .events = r.engine.seq .events + 1 :=
      Pipeline.advance_seq_self _ _
    have hold (hbefore : Told r.engine.shared n) : (r.visit config .events).PublishedLive n := by
      obtain ⟨p, hp, hle, hlt⟩ := h.told n hbefore
      exact ⟨p, hp, hle, by omega⟩
    have hshared : (r.visit config .events).engine.shared = (eventsHandler config
        (r.engine.seq .events) r.engine.shared (r.engine.slots (r.engine.seq .events)).cmd).1 := rfl
    rw [hshared] at htold
    have hflag := h.flag
    cases hcleared : r.cleared with
    | none =>
      rw [hcleared] at hflag
      rw [eventsHandler_replay hflag] at htold
      exact hold htold
    | some p =>
      rcases told_eventsHandler htold with hbefore | rfl
      · exact hold hbefore
      · exact ⟨p, hcleared, (h.positions p hcleared).2, by omega⟩
  · have hemitted : (r.visit config g).engine.shared.emitted = r.engine.shared.emitted :=
      process_emitted hg _ _ _
    have hresponses : (r.visit config g).engine.shared.responses = r.engine.shared.responses :=
      process_responses hg _ _ _
    rw [Told, hemitted, hresponses] at htold
    rw [publishedLive_visit_ne hg]
    exact h.told n htold

theorem Invariant.visit_identity (h : Invariant config records r) (g : Handler) {n : Nat}
    (hn : n < r.engine.published) (hlive : ¬(r.visit config g).JournaledLive n) :
    ((r.visit config g).engine.slots n).cmd.orderId =
        ((r.visit config g).engine.slots n).ingested.orderId ∧
      ((r.visit config g).engine.slots n).cmd.timestamp =
        ((r.visit config g).engine.slots n).ingested.timestamp := by
  have hingested : ((r.visit config g).engine.slots n).ingested = (r.engine.slots n).ingested :=
    advance_ingested r.engine g n
  rw [hingested]
  by_cases hslot : n = r.engine.seq g
  · have hcmd : ((r.visit config g).engine.slots n).cmd = (process config g (r.engine.seq g)
        r.engine.shared (r.engine.slots (r.engine.seq g)).cmd).2 := by
      rw [hslot]
      exact advance_cmd_self r.engine g
    rw [hcmd, ← hslot]
    by_cases hg : g = .journaling
    · subst hg
      -- a slot journaled after the clearing is excluded, so the flag is still set
      have hflag : r.engine.shared.replayEnabled = true := by
        rw [h.flag]
        cases hcleared : r.cleared with
        | none => rfl
        | some p =>
          exfalso
          apply hlive
          have hseq : (r.visit config .journaling).engine.seq .journaling =
              r.engine.seq .journaling + 1 := Pipeline.advance_seq_self _ _
          refine ⟨p, hcleared, ?_, ?_⟩
          · rw [hslot]
            exact (h.positions p hcleared).1
          · rw [hseq, hslot]
            exact Nat.lt_succ_self _
      have hbefore : ¬r.JournaledLive n := by
        rintro ⟨_, _, _, hlt⟩
        omega
      rw [process, journalingHandler_replay hflag]
      exact h.identity n hn hbefore
    · have hbefore : ¬r.JournaledLive n := fun hold =>
        hlive ((journaledLive_visit_ne hg n).mpr hold)
      have hsame := @process_same config _ hg n r.engine.shared (r.engine.slots n).cmd
      obtain ⟨hid, htime⟩ := h.identity n hn hbefore
      exact ⟨hsame.orderId.trans hid, hsame.timestamp.trans htime⟩
  · have hcmd : (r.visit config g).engine.slots n = r.engine.slots n :=
      Pipeline.advance_slots_ne _ _ hslot
    have hbefore : ¬r.JournaledLive n := by
      intro hold
      by_cases hg : g = .journaling
      · subst hg
        apply hlive
        obtain ⟨p, hp, hle, hlt⟩ := hold
        exact ⟨p, hp, hle, hlt.trans_le (Pipeline.le_advance_seq _ _ _)⟩
      · exact hlive ((journaledLive_visit_ne hg n).mpr hold)
    rw [hcmd]
    exact h.identity n hn hbefore

theorem Invariant.visit (h : Invariant config records r) {g : Handler}
    (ready : (pipeline config).Ready r.engine g) :
    Invariant config records (r.visit config g) where
  order := h.order.advance ready
  flag := (@process_replayEnabled config g _ _ _).trans h.flag
  positions p hp := by
    obtain ⟨hj, he⟩ := h.positions p hp
    exact ⟨hj.trans (Pipeline.le_advance_seq _ _ _), he.trans (Pipeline.le_advance_seq _ _ _)⟩
  replayed := h.replayed
  replaying := h.replaying
  pending := h.pending
  source n hn := by
    obtain ⟨record, hget, hsource⟩ := h.source n hn
    exact ⟨record, hget, (advance_ingested r.engine g n).trans hsource⟩
  archived := h.visit_archived g
  kept archives := h.visit_kept archives g
  told := h.visit_told g
  identity _ hn hlive := h.visit_identity g hn hlive

theorem Run.invariant (run : Run config records r) : Invariant config records r := by
  induction run with
  | start => exact .start
  | publishRecorded _ pending replaying ih => exact ih.publishRecorded pending replaying
  | disable _ _ replaying ih => exact ih.disable replaying
  | publishLive cmd _ live _ ih => exact ih.publishLive live cmd
  | visit h _ ready ih => exact ih.visit ready

/-- In every state the server thread and the handlers can reach, the replayed commands have kept
their identity if journaling and the events handler have visited them before the flag was cleared,
as far as they have visited them at all. Where the archive takes what it is offered, they have kept
it only if journaling has. -/
theorem replay_faithful (run : Run config records r) :
    (VisitedBeforeClearing r → Faithful records r) ∧
      (config.Archives → Faithful records r → ∀ journaling events,
        r.cleared = some (journaling, events) → ∀ n < r.replayed, n < r.engine.seq .journaling →
          n < journaling) := by
  have h := run.invariant
  constructor
  · intro visited n hn
    obtain ⟨record, hget, hsource⟩ := h.source n hn
    have hnoJournal : ¬r.JournaledLive n := by
      rintro ⟨p, hp, hle, hlt⟩
      have hearly := (visited p.1 p.2 hp n hn).1 hlt
      omega
    have hnoEvents : ¬r.PublishedLive n := by
      rintro ⟨p, hp, hle, hlt⟩
      have hearly := (visited p.1 p.2 hp n hn).2 hlt
      omega
    obtain ⟨hid, htime⟩ := h.identity n (lt_of_lt_of_le hn h.replayed) hnoJournal
    rw [hsource] at hid htime
    refine ⟨record, hget, hid, htime, ?_, ?_, ?_⟩
    · intro entry hentry
      exact hnoJournal (h.archived n ⟨entry, hentry⟩)
    · intro output houtput
      exact hnoEvents (h.told n (.inl ⟨output, houtput⟩))
    · intro response hresponse
      exact hnoEvents (h.told n (.inr ⟨response, hresponse⟩))
  · intro archives faithful journaling events hcleared n hn hvisited
    obtain ⟨record, _, _, _, harchive, _⟩ := faithful n hn
    by_contra hlate
    obtain ⟨entry, hentry⟩ :=
      h.kept archives n ⟨_, hcleared, Nat.le_of_not_lt hlate, hvisited⟩
    exact harchive entry hentry

/-- A recorded bid, journaled before the flag is cleared. -/
theorem replay_faithful_journaledFirst :
    let record := encodeOrderCommand (.limit .bid .gtc 7 0 100 1)
    Faithful [record] (((start (plainConfig [1]) [record]).publishRecorded record []).visit
      (plainConfig [1]) .journaling).disable := by
  intro record
  have started : Run (plainConfig [1]) [record] (start (plainConfig [1]) [record]) := .start
  have published := Run.publishRecorded started rfl rfl
  have visited := Run.visit .journaling published (by decide)
  have cleared := Run.disable visited rfl rfl
  apply (replay_faithful cleared).1
  intro journaling events hcleared n hn
  have hpos : (journaling, events) = (1, 0) := (Option.some.inj hcleared).symm
  obtain ⟨rfl, rfl⟩ := Prod.mk.inj hpos
  change n < 1 at hn
  exact ⟨fun _ => hn, fun h => absurd h (Nat.not_lt_zero n)⟩

/-- The same bid, still ahead of journaling when the flag is cleared, is given a new id. -/
theorem replay_cleared_early :
    ¬∀ r, Run (plainConfig [1]) [encodeOrderCommand (.limit .bid .gtc 7 0 100 1)] r →
      Faithful [encodeOrderCommand (.limit .bid .gtc 7 0 100 1)] r := by
  intro hall
  have started : Run (plainConfig [1]) [encodeOrderCommand (.limit .bid .gtc 7 0 100 1)]
      (start (plainConfig [1]) [encodeOrderCommand (.limit .bid .gtc 7 0 100 1)]) := .start
  have published := Run.publishRecorded started rfl rfl
  have cleared := Run.disable published rfl rfl
  have visited := Run.visit .journaling cleared (by decide)
  obtain ⟨record, hget, hid, _⟩ := hall _ visited 0 Nat.zero_lt_one
  have hrecord : record = encodeOrderCommand (.limit .bid .gtc 7 0 100 1) :=
    (Option.some.inj hget).symm
  subst hrecord
  revert hid
  decide

end Replay

end VexCore.Engine
