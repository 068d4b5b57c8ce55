import VexCore.Ledger.Stream

/-!
# The balance stream over whole runs

Once the pipeline is drained, the last balance emitted for a key that some command has changed
is the balance in the store, as long as R2 never changes a balance that a later deposit or
withdrawal has already recorded.
-/

namespace VexCore

open Framework

/-- The balance that was emitted last for a key. -/
def Core.lastPublished (core : Core) (k : BalanceKey) : Option UserBalance :=
  (balancesOf k (core.emitted.map Prod.snd)).getLast?

namespace Engine

variable {config : Config} {s t : State} {k : BalanceKey}

/-- The events of a slot, under its number. -/
def outputsOf (s : State) (n : Nat) : List (Nat × Output) :=
  (publishEvents (s.slots n).cmd).map fun output => (n, output)

/-- The response to a slot, under its number, as far as one is sent. -/
def responseOf (config : Config) (s : State) (n : Nat) : Option (Nat × Nat × OrderRecord) :=
  ((config.publications .events n).publishResponse (s.slots n).cmd).map fun response =>
    (n, response)

/-- Live, the events handler has published the slots it has visited, in their order. -/
structure PublishedInvariant (config : Config) (s : State) : Prop where
  live : s.shared.replayEnabled = false
  emitted : s.shared.emitted = (List.range (s.seq .events)).flatMap (outputsOf s)
  responses : s.shared.responses = (List.range (s.seq .events)).filterMap (responseOf config s)

theorem PublishedInvariant.of_slots {s s' : State} (h : PublishedInvariant config s)
    (hlive : s'.shared.replayEnabled = s.shared.replayEnabled)
    (hemitted : s'.shared.emitted = s.shared.emitted)
    (hresponses : s'.shared.responses = s.shared.responses)
    (hseq : s'.seq .events = s.seq .events)
    (hslots : ∀ n < s.seq .events, s'.slots n = s.slots n) : PublishedInvariant config s' := by
  refine ⟨hlive.trans h.live, ?_, ?_⟩
  · rw [hemitted, h.emitted, hseq]
    apply List.flatMap_congr
    intro n hn
    rw [outputsOf, outputsOf, hslots n (List.mem_range.mp hn)]
  · rw [hresponses, h.responses, hseq]
    apply List.filterMap_congr
    intro n hn
    rw [responseOf, responseOf, hslots n (List.mem_range.mp hn)]

theorem PublishedInvariant.publish (h : PublishedInvariant config s)
    (ho : (pipeline config).Ordered s) (slot : Slot) :
    PublishedInvariant config (s.publish slot) := by
  refine @of_slots config s (s.publish slot) h rfl rfl rfl rfl ?_
  intro n hn
  have hlt := hn.trans_le (ho.published .events)
  exact Pipeline.State.publish_slots_ne s slot (Nat.ne_of_lt hlt)

theorem PublishedInvariant.advance (h : PublishedInvariant config s)
    (ho : (pipeline config).Ordered s) (g : Handler) :
    PublishedInvariant config ((pipeline config).advance s g) := by
  by_cases hg : g = .events
  · subst hg
    have hseq : ((pipeline config).advance s .events).seq .events = s.seq .events + 1 :=
      Pipeline.advance_seq_self _ _
    have hslots (n : Nat) :
        (((pipeline config).advance s .events).slots n).cmd = (s.slots n).cmd := by
      by_cases hn : n = s.seq .events
      · subst hn
        rw [advance_cmd_self]
        rfl
      · rw [Pipeline.advance_slots_ne s _ hn]
    have houtputs : outputsOf ((pipeline config).advance s .events) = outputsOf s := by
      funext n
      rw [outputsOf, outputsOf, hslots]
    have hresponse :
        responseOf config ((pipeline config).advance s .events) = responseOf config s := by
      funext n
      rw [responseOf, responseOf, hslots]
    have hemitted : ((pipeline config).advance s .events).shared.emitted =
        s.shared.emitted ++ (handleProcessedCommand s.shared.replayEnabled
          (config.publications .events (s.seq .events))
          (s.slots (s.seq .events)).cmd).1.map fun output => (s.seq .events, output) := rfl
    have hresponses : ((pipeline config).advance s .events).shared.responses =
        s.shared.responses ++ ((handleProcessedCommand s.shared.replayEnabled
          (config.publications .events (s.seq .events)) (s.slots (s.seq .events)).cmd).2.map
            fun response => (s.seq .events, response)).toList := rfl
    refine ⟨h.live, ?_, ?_⟩
    · rw [hemitted, h.live, hseq, houtputs, List.range_succ, List.flatMap_append,
        List.flatMap_singleton, h.emitted]
      rfl
    · have hlast : [s.seq .events].filterMap (responseOf config s) =
          (responseOf config s (s.seq .events)).toList := by
        rw [List.filterMap_cons]
        cases responseOf config s (s.seq .events) <;> rfl
      rw [hresponses, h.live, hseq, hresponse, List.range_succ, List.filterMap_append, hlast,
        h.responses]
      rfl
  · apply h.of_slots (process_replayEnabled _ _ _ _) (process_emitted hg _ _ _)
      (process_responses hg _ _ _) (Pipeline.advance_seq_ne s g (Ne.symm hg))
    intro n hn
    apply Pipeline.advance_slots_ne s g
    have hstaged : s.seq .events ≤ s.seq g := by
      apply ho.staged g .events
      cases g with
      | events => exact absurd rfl hg
      | journaling => exact Nat.zero_lt_succ 2
      | risk shard => exact Nat.zero_lt_succ 2
      | matching shard => exact Nat.one_lt_succ_succ 1
      | settlement shard => exact Nat.lt_succ_self _
    exact Nat.ne_of_lt (hn.trans_le hstaged)

theorem balancesOf_outputsOf (n : Nat) :
    balancesOf k ((outputsOf s n).map Prod.snd) = snapshots k (s.slots n).cmd := by
  rw [outputsOf, List.map_map]
  show balancesOf k (List.map id _) = _
  rw [List.map_id]
  rfl

theorem PublishedInvariant.lastPublished_eq (h : PublishedInvariant config s) :
    s.shared.lastPublished k =
      latest (fun n => snapshots k (s.slots n).cmd) (s.seq .events) := by
  rw [latest_eq_getLast?, Core.lastPublished, h.emitted, List.map_flatMap]
  congr 1
  induction List.range (s.seq .events) with
  | nil => rfl
  | cons n rest ih =>
    rw [List.flatMap_cons, List.flatMap_cons, balancesOf_append, balancesOf_outputsOf, ih]

structure StreamInvariant (config : Config) (untouched : Prop) (k : BalanceKey) (s : State) :
    Prop where
  books : BooksInvariant config s
  commands : CommandsInvariant config s
  stages : StagesInvariant config s
  published : PublishedInvariant config s
  mirrors : Mirrors config untouched s k

/-- Order ids increase, every settlement succeeds, and R2 spares the snapshots already taken. -/
def Spared (config : Config) (h : Handler) (s : State) : Prop :=
  IdsIncrease h s ∧ AllOk ((pipeline config).advance s h).shared.settlements ∧
    SparesSnapshots config h s

instance (h : Handler) (s : State) : Decidable (Spared config h s) :=
  inferInstanceAs (Decidable (_ ∧ _ ∧ _))

namespace StreamInvariant

variable {untouched : Prop}

theorem start (k : BalanceKey) : StreamInvariant config True k (start config false) where
  books := .start false
  commands := .start false
  stages := .start false
  published := ⟨rfl, rfl, rfl⟩
  mirrors := .start k false

theorem publish (h : StreamInvariant config untouched k s) (ho : (pipeline config).Ordered s)
    {cmd : OrderCommand} (hfresh : cmd.Fresh) :
    StreamInvariant config untouched k (s.publish (Slot.of cmd)) where
  books := h.books.publish ho cmd
  commands := h.commands.publish hfresh
  stages := h.stages.publish ho hfresh
  published := h.published.publish ho (Slot.of cmd)
  mirrors := h.mirrors.publish ho (Slot.of cmd)

theorem advance (h : StreamInvariant config untouched k s) (ho : (pipeline config).Ordered s)
    {g : Handler} (ready : (pipeline config).Ready s g) (spared : Spared config g s) :
    StreamInvariant config (untouched ∧ ((pipeline config).advance s g).shared.balance k =
      s.shared.balance k) k ((pipeline config).advance s g) where
  books := h.books.advance ho ready spared.1
  commands := h.commands.advance ho h.books ready
  stages := h.stages.advance ho h.books h.commands ready
  published := h.published.advance ho g
  mirrors := h.mirrors.advance ho h.books h.commands h.stages ready spared.2.1 spared.2.2

theorem mono (h : StreamInvariant config untouched k s) {untouched' : Prop}
    (himp : untouched → untouched') : StreamInvariant config untouched' k s :=
  { h with mirrors := h.mirrors.mono himp }

/-- A run keeps the invariant, whether or not the balance has been changed before it. -/
theorem run (h : StreamInvariant config untouched k s) (ho : (pipeline config).Ordered s)
    (hrun : (pipeline config).Reaches Offered (Spared config) s t) :
    (pipeline config).Ordered t ∧ StreamInvariant config untouched k t := by
  apply hrun.invariant ho h
  · rintro s slot ho h ⟨cmd, hfresh, rfl⟩
    exact h.publish ho hfresh
  · intro s g ho h ready spared
    exact (h.advance ho ready spared).mono And.left

/-- Once all is published, the stream ends with the balance, unless nothing changed it. -/
theorem lastPublished_eq (h : StreamInvariant config False k s)
    (drained : Pipeline.Drained s) :
    s.shared.lastPublished k = some (s.shared.balance k) := by
  have hrisk := drained (.risk (userShard k.userId))
  have hsettled := drained (.settlement (userShard k.userId))
  have hrecorded : latest (recorded s k) s.published =
      latest (fun n => snapshots k (s.slots n).cmd) s.published := by
    apply latest_congr
    intro n hn
    exact if_pos (.inl (hsettled ▸ hn))
  rw [h.published.lastPublished_eq, drained .events, ← hrecorded, ← hrisk]
  rcases h.mirrors with hlatest | ⟨hfalse, -⟩ | ⟨n, hawaited⟩
  · exact hlatest
  · exact hfalse.elim
  · have hlt := hawaited.unsettled.trans_lt hawaited.passed
    rw [hrisk, hsettled] at hlt
    exact absurd hlt (Nat.lt_irrefl _)

end StreamInvariant

/-- In every run that spares the snapshots already taken, once the pipeline is drained the last
balance published for a key that some step has changed is the balance held. -/
theorem stream_converges {g : Handler} (run : Reaches config (Spared config) false s)
    (ready : (pipeline config).Ready s g) (spared : Spared config g s)
    (changed : ((pipeline config).advance s g).shared.balance k ≠ s.shared.balance k)
    (rest : (pipeline config).Reaches Offered (Spared config) ((pipeline config).advance s g) t)
    (drained : Pipeline.Drained t) :
    t.shared.lastPublished k = some (t.shared.balance k) := by
  obtain ⟨ho, hinv⟩ := (StreamInvariant.start k).run (Pipeline.Ordered.start _ _) run
  have hchanged : StreamInvariant config False k ((pipeline config).advance s g) :=
    (hinv.advance ho ready spared).mono fun ⟨_, heq⟩ => changed heq
  exact (hchanged.run (ho.advance ready) rest).2.lastPublished_eq drained

/-- The key whose stream is watched: the quote asset of market 1 for user 3. -/
def watched : BalanceKey := ⟨3, 0⟩

/-- The first deposit of user 3 is published. -/
def opened : State :=
  (start (plainConfig [1]) false).publish (Slot.of (.funds .depositFunds 3 0 100))

/-- Then the user bids without a match, and deposits again. -/
def bidThenDeposit : List OrderCommand :=
  [.limit .bid .ioc 0 3 10 1, .funds .depositFunds 3 0 5]

def otherHandlers : List Handler :=
  (Handler.journaling :: riskHandlers ++ matchingHandlers ++ settlementHandlers ++
    [Handler.events]).erase (.risk (userShard 3))

/-- R1 passes the first deposit, then the commands follow in the order of a schedule. -/
def endOf (actions : List (Pipeline.Action Handler Slot)) : State :=
  (pipeline (plainConfig [1])).execute
    ((pipeline (plainConfig [1])).advance opened (.risk (userShard 3))) actions

/-- R1 takes the bid before anything is settled, and the second deposit when R2 has released the
bid; nothing has been published by then. -/
def staggered : List (Pipeline.Action Handler Slot) :=
  bidThenDeposit.map (fun cmd => .publish (Slot.of cmd)) ++
    .advance (.risk (userShard 3)) ::
    ((otherHandlers.erase .events).flatMap fun h => List.replicate 2 (.advance h)) ++
    .advance (.risk (userShard 3)) ::
    otherHandlers.flatMap fun h => List.replicate (if h = .events then 3 else 1) (.advance h)

/-- R1 passes all commands before R2 sees the first. -/
def overlapping : List (Pipeline.Action Handler Slot) :=
  bidThenDeposit.map (fun cmd => .publish (Slot.of cmd)) ++
    bidThenDeposit.map (fun _ => .advance (.risk (userShard 3))) ++
    otherHandlers.flatMap fun h => List.replicate 3 (.advance h)

theorem opened_reaches {guard : Handler → State → Prop} :
    Reaches (plainConfig [1]) guard false opened :=
  .single (.publish _ ⟨_, by decide, rfl⟩)

theorem reaches_endOf {guard : Handler → State → Prop}
    {actions : List (Pipeline.Action Handler Slot)}
    (h : (pipeline (plainConfig [1])).Possible (offers bidThenDeposit) guard
      ((pipeline (plainConfig [1])).advance opened (.risk (userShard 3))) actions) :
    (pipeline (plainConfig [1])).Reaches Offered guard
      ((pipeline (plainConfig [1])).advance opened (.risk (userShard 3))) (endOf actions) :=
  h.reaches.mono (fun _ _ => offers.offered (by decide)) fun _ _ hguard => hguard

/-- With stages that overlap, but not around the released bid, the stream ends with the balance. -/
theorem stream_converges_staggered :
    (endOf staggered).shared.lastPublished watched =
      some ((endOf staggered).shared.balance watched) := by
  have hspared : Spared (plainConfig [1]) (.risk (userShard 3)) opened := by decide +kernel
  have hchanged : ((pipeline (plainConfig [1])).advance opened
      (.risk (userShard 3))).shared.balance watched ≠ opened.shared.balance watched := by
    decide +kernel
  have hrest := @reaches_endOf (Spared (plainConfig [1])) staggered (by decide +kernel)
  exact stream_converges opened_reaches (by decide +kernel) hspared hchanged hrest
    (by unfold Pipeline.Drained; decide +kernel)

/-- With the stages overlapping, the stream ends with a balance that R2 has released since. -/
theorem stream_diverges :
    ¬∀ (config : Config) (k : BalanceKey) (s t : State) (g : Handler),
      Reaches config (fun h s => IdsIncrease h s ∧
        AllOk ((pipeline config).advance s h).shared.settlements) false s →
      (pipeline config).Ready s g →
      (IdsIncrease g s ∧ AllOk ((pipeline config).advance s g).shared.settlements) →
      ((pipeline config).advance s g).shared.balance k ≠ s.shared.balance k →
      (pipeline config).Reaches Offered (fun h s => IdsIncrease h s ∧
        AllOk ((pipeline config).advance s h).shared.settlements)
        ((pipeline config).advance s g) t →
      Pipeline.Drained t → t.shared.lastPublished k = some (t.shared.balance k) := by
  intro hall
  have hadmitted : IdsIncrease (.risk (userShard 3)) opened ∧
      AllOk ((pipeline (plainConfig [1])).advance opened
        (.risk (userShard 3))).shared.settlements := by
    decide +kernel
  have hchanged : ((pipeline (plainConfig [1])).advance opened
      (.risk (userShard 3))).shared.balance watched ≠ opened.shared.balance watched := by
    decide +kernel
  have hrest := @reaches_endOf (fun h s => IdsIncrease h s ∧
    AllOk ((pipeline (plainConfig [1])).advance s h).shared.settlements) overlapping
      (by decide +kernel)
  have hlast := hall (plainConfig [1]) watched opened (endOf overlapping)
    (.risk (userShard 3)) opened_reaches (by decide +kernel) hadmitted hchanged hrest
    (by unfold Pipeline.Drained; decide +kernel)
  revert hlast
  decide +kernel

/-- What was emitted last, and what the store holds. -/
example : (endOf overlapping).shared.lastPublished watched = some ⟨95, 10⟩ ∧
    (endOf overlapping).shared.balance watched = ⟨105, 0⟩ := by
  decide +kernel

end Engine

end VexCore
