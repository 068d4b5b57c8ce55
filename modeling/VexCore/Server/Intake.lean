import VexCore.Order.Codec
import VexCore.Server.Engine

/-!
# Taking frames in

The fragment handlers decode a frame and offer the command to the ring. A full ring refuses it,
and then the handler only writes a log line. Frames are numbered in the order they are received,
and with every slot of the ring the number of its frame is kept.
-/

namespace VexCore.Engine

open Framework

/-- Who feeds the ring. -/
inductive Source
  | gateway (id : Nat)
  | replay
deriving DecidableEq

/-- Slots of the ring. -/
def bufferSize : Nat := 1024

/-- The command a fragment handler makes of a frame. -/
def Source.command (source : Source) (buffer : List UInt8) : Except Wire.Fault OrderCommand :=
  match source with
  | .gateway id => (Wire.decodeOrderCommand buffer).map fun cmd =>
      { cmd with status := .processing, routeGatewayId := id }
  | .replay => (Wire.decodeOrderCommand buffer).map fun cmd => { cmd with status := .processing }

structure Intake where
  engine : State
  received : List (Source × List UInt8)
  /-- The frame of each published slot. -/
  entered : List Nat

namespace Intake

def start (config : Config) (replayEnabled : Bool) : Intake :=
  { engine := Engine.start config replayEnabled
    received := []
    entered := [] }

/-- `handle_aeron_fragment_handler` of either handler. -/
def receive (capacity : Nat) (s : Intake) (source : Source) (buffer : List UInt8) : Intake :=
  let received := s.received ++ [(source, buffer)]
  match source.command buffer with
  | .ok cmd =>
      match s.engine.tryPublish capacity (Slot.of cmd) with
      | some engine => { engine, received, entered := s.entered ++ [s.received.length] }
      -- "failed to publish order command to ring buffer"
      | none => { s with received }
  | .error _ => { s with received }

inductive Action
  | frame (source : Source) (buffer : List UInt8)
  | visit (h : Handler)
  | endReplay

/-- One step of the publishing thread or of a handler; a handler that is not ready waits. -/
def perform (config : Config) (capacity : Nat) (s : Intake) : Action → Intake
  | .frame source buffer => s.receive capacity source buffer
  | .visit h =>
      if (pipeline config).Ready s.engine h then
        { s with engine := (pipeline config).advance s.engine h }
      else s
  | .endReplay =>
      { s with engine := { s.engine with
          shared := { s.engine.shared with replayEnabled := false } } }

/-- The state after an interleaving of the publishing thread with the handlers. -/
def after (config : Config) (capacity : Nat) (replayEnabled : Bool) (actions : List Action) :
    Intake :=
  actions.foldl (perform config capacity) (start config replayEnabled)

theorem after_concat (config : Config) (capacity : Nat) (replayEnabled : Bool)
    (actions : List Action) (action : Action) :
    after config capacity replayEnabled (actions ++ [action]) =
      perform config capacity (after config capacity replayEnabled actions) action := by
  rw [after, List.foldl_append]
  rfl

/-- Frame `i` is in exactly one slot, as `cmd`. -/
def EnteredOnce (s : Intake) (i : Nat) (cmd : OrderCommand) : Prop :=
  ∃ n, s.entered[n]? = some i ∧ (s.engine.slots n).ingested = cmd ∧
    ∀ m, s.entered[m]? = some i → m = n

/-- A response for frame `i` was sent to the gateway. -/
def Answered (s : Intake) (i gatewayId : Nat) : Prop :=
  ∃ n record, s.entered[n]? = some i ∧
    (n, gatewayId, record) ∈ s.engine.shared.responses

/-- Every frame that decodes enters the ring once and in order, or its gateway is answered. -/
structure Lossless (s : Intake) : Prop where
  accounted : ∀ i source buffer cmd, s.received[i]? = some (source, buffer) →
    source.command buffer = .ok cmd →
      s.EnteredOnce i cmd ∨ ∃ id, source = .gateway id ∧ s.Answered i id
  ordered : s.entered.Pairwise (· < ·)

structure Invariant (s : Intake) : Prop where
  length : s.entered.length = s.engine.published
  increasing : s.entered.Pairwise (· < ·)
  below : ∀ i ∈ s.entered, i < s.received.length
  carried : ∀ n i, s.entered[n]? = some i → ∃ frame cmd, s.received[i]? = some frame ∧
    frame.1.command frame.2 = .ok cmd ∧ (s.engine.slots n).ingested = cmd

/-- The three things a received frame can do. -/
theorem receive_cases (capacity : Nat) (s : Intake) (source : Source) (buffer : List UInt8) :
    (∃ cmd, source.command buffer = .ok cmd ∧ ¬s.engine.Full capacity ∧
      s.receive capacity source buffer =
        { engine := s.engine.publish (Slot.of cmd)
          received := s.received ++ [(source, buffer)]
          entered := s.entered ++ [s.received.length] }) ∨
    (∃ cmd, source.command buffer = .ok cmd ∧ s.engine.Full capacity ∧
      s.receive capacity source buffer =
        { s with received := s.received ++ [(source, buffer)] }) ∨
    (∃ fault, source.command buffer = .error fault ∧
      s.receive capacity source buffer =
        { s with received := s.received ++ [(source, buffer)] }) := by
  cases hcmd : source.command buffer with
  | error fault =>
    refine .inr (.inr ⟨fault, rfl, ?_⟩)
    simp only [receive, hcmd]
  | ok cmd =>
    by_cases hfull : s.engine.Full capacity
    · refine .inr (.inl ⟨cmd, rfl, hfull, ?_⟩)
      simp only [receive, hcmd, Pipeline.State.tryPublish, if_pos hfull]
    · refine .inl ⟨cmd, rfl, hfull, ?_⟩
      simp only [receive, hcmd, Pipeline.State.tryPublish, if_neg hfull]

theorem Invariant.start (config : Config) (replayEnabled : Bool) :
    (start config replayEnabled).Invariant where
  length := rfl
  increasing := List.Pairwise.nil
  below i h := by cases h
  carried n i h := by cases h

/-- A frame that does not enter the ring leaves everything else as it is. -/
theorem Invariant.dropped {s : Intake} (h : s.Invariant) (frame : Source × List UInt8) :
    { s with received := s.received ++ [frame] }.Invariant where
  length := h.length
  increasing := h.increasing
  below i hi := by
    rw [List.length_append]
    exact Nat.lt_add_right _ (h.below i hi)
  carried n i hn := by
    obtain ⟨old, cmd, hold, hcmd, hslot⟩ := h.carried n i hn
    refine ⟨old, cmd, ?_, hcmd, hslot⟩
    show (s.received ++ [frame])[i]? = some old
    rw [List.getElem?_append_left (h.below i (List.mem_of_getElem? hn)), hold]

theorem getElem?_concat_cases {α : Type} {xs : List α} {x y : α} {i : Nat}
    (h : (xs ++ [x])[i]? = some y) : xs[i]? = some y ∨ (i = xs.length ∧ x = y) := by
  rcases Nat.lt_or_ge i xs.length with hlt | hge
  · rw [List.getElem?_append_left hlt] at h
    exact .inl h
  · rw [List.getElem?_append_right hge] at h
    obtain ⟨hzero, heq⟩ := List.getElem?_eq_some_iff.mp h
    rw [List.length_singleton] at hzero
    have hi : i - xs.length = 0 := by omega
    refine .inr ⟨by omega, ?_⟩
    simp only [hi] at heq
    exact heq

theorem Invariant.entered {s : Intake} (h : s.Invariant) {source : Source} {buffer : List UInt8}
    {cmd : OrderCommand} (hcmd : source.command buffer = .ok cmd) :
    Invariant
      { engine := s.engine.publish (Slot.of cmd)
        received := s.received ++ [(source, buffer)]
        entered := s.entered ++ [s.received.length] } where
  length := by
    rw [List.length_append, h.length]
    rfl
  increasing := by
    refine List.pairwise_append.mpr ⟨h.increasing, List.pairwise_singleton _ _, ?_⟩
    intro i hi j hj
    rw [List.mem_singleton.mp hj]
    exact h.below i hi
  below i hi := by
    rw [List.length_append, List.length_singleton]
    rcases List.mem_append.mp hi with hi | hi
    · exact Nat.lt_add_right _ (h.below i hi)
    · rw [List.mem_singleton.mp hi]
      exact Nat.lt_succ_self _
  carried n i hn := by
    rcases getElem?_concat_cases hn with hn | ⟨rfl, rfl⟩
    · obtain ⟨old, cmd', hold, hcmd', hslot⟩ := h.carried n i hn
      have hlt := (List.getElem?_eq_some_iff.mp hn).1
      refine ⟨old, cmd', ?_, hcmd', ?_⟩
      · show (s.received ++ [(source, buffer)])[i]? = some old
        rw [List.getElem?_append_left (h.below i (List.mem_of_getElem? hn)), hold]
      · rw [h.length] at hlt
        show ((s.engine.publish (Slot.of cmd)).slots n).ingested = cmd'
        rw [Pipeline.State.publish_slots_ne s.engine _ (Nat.ne_of_lt hlt), hslot]
    · -- the new slot
      refine ⟨(source, buffer), cmd, List.getElem?_concat_length, hcmd, ?_⟩
      show ((s.engine.publish (Slot.of cmd)).slots s.entered.length).ingested = cmd
      rw [h.length, Pipeline.State.publish_slots_self]
      rfl

theorem Invariant.perform {s : Intake} (h : s.Invariant) (config : Config) (capacity : Nat)
    (action : Action) : (perform config capacity s action).Invariant := by
  cases action with
  | frame source buffer =>
    show (s.receive capacity source buffer).Invariant
    rcases receive_cases capacity s source buffer with ⟨cmd, hcmd, _, heq⟩ | ⟨_, _, _, heq⟩ |
      ⟨_, _, heq⟩
    · rw [heq]
      exact h.entered hcmd
    · rw [heq]
      exact h.dropped _
    · rw [heq]
      exact h.dropped _
  | visit g =>
    by_cases hready : (pipeline config).Ready s.engine g
    · rw [Intake.perform, if_pos hready]
      refine ⟨h.length, h.increasing, h.below, ?_⟩
      intro n i hn
      obtain ⟨frame, cmd, hframe, hcmd, hslot⟩ := h.carried n i hn
      exact ⟨frame, cmd, hframe, hcmd, (advance_ingested s.engine g n).trans hslot⟩
    · rw [Intake.perform, if_neg hready]
      exact h
  | endReplay => exact ⟨h.length, h.increasing, h.below, h.carried⟩

theorem Invariant.after (config : Config) (capacity : Nat) (replayEnabled : Bool)
    (actions : List Action) : (after config capacity replayEnabled actions).Invariant := by
  induction actions using List.reverseRecOn with
  | nil => exact Invariant.start config replayEnabled
  | append_singleton actions action ih =>
    rw [after_concat]
    exact ih.perform config capacity action

/-- Every frame that decodes has a slot. -/
def AllEntered (s : Intake) : Prop :=
  ∀ i source buffer cmd, s.received[i]? = some (source, buffer) →
    source.command buffer = .ok cmd → i ∈ s.entered

/-- Responses are sent for slots only, so nothing but entering the ring accounts for a frame. -/
theorem lossless_iff_allEntered {s : Intake} (h : s.Invariant) : s.Lossless ↔ s.AllEntered := by
  constructor
  · intro hall i source buffer cmd hi hcmd
    rcases hall.accounted i source buffer cmd hi hcmd with ⟨n, hn, _⟩ | ⟨_, _, n, _, hn, _⟩
    · exact List.mem_of_getElem? hn
    · exact List.mem_of_getElem? hn
  · intro hall
    refine ⟨?_, h.increasing⟩
    intro i source buffer cmd hi hcmd
    obtain ⟨n, hn⟩ := List.mem_iff_getElem?.mp (hall i source buffer cmd hi hcmd)
    obtain ⟨frame, cmd', hframe, hcmd', hslot⟩ := h.carried n i hn
    rw [hi, Option.some.injEq] at hframe
    subst hframe
    rw [hcmd, Except.ok.injEq] at hcmd'
    subst hcmd'
    refine .inl ⟨n, hn, hslot, ?_⟩
    intro m hm
    have hnodup : s.entered.Nodup := h.increasing.imp Nat.ne_of_lt
    have hlt := (List.getElem?_eq_some_iff.mp hm).1
    exact (List.getElem?_inj hlt hnodup).mp (hm.trans hn.symm)

theorem allEntered_receive {s : Intake} (h : s.Invariant) (capacity : Nat) (source : Source)
    (buffer : List UInt8) :
    (s.receive capacity source buffer).AllEntered ↔
      s.AllEntered ∧ ∀ cmd, source.command buffer = .ok cmd → ¬s.engine.Full capacity := by
  have hnew : s.received.length ∉ s.entered := fun hmem => Nat.lt_irrefl _ (h.below _ hmem)
  have hkept {i : Nat} {frame : Source × List UInt8} (hi : s.received[i]? = some frame) :
      (s.received ++ [(source, buffer)])[i]? = some frame := by
    rw [List.getElem?_append_left (List.getElem?_eq_some_iff.mp hi).1, hi]
  rcases receive_cases capacity s source buffer with ⟨cmd, hcmd, hroom, heq⟩ |
    ⟨cmd, hcmd, hfull, heq⟩ | ⟨fault, hfault, heq⟩
  · rw [heq]
    constructor
    · intro hall
      refine ⟨?_, fun _ _ => hroom⟩
      intro i source' buffer' cmd' hi hcmd'
      rcases List.mem_append.mp (hall i source' buffer' cmd' (hkept hi) hcmd') with hmem | hmem
      · exact hmem
      · rw [List.mem_singleton.mp hmem, List.getElem?_eq_none le_rfl] at hi
        cases hi
    · intro ⟨hall, _⟩ i source' buffer' cmd' hi hcmd'
      rcases getElem?_concat_cases hi with hi | ⟨rfl, _⟩
      · exact List.mem_append_left _ (hall i source' buffer' cmd' hi hcmd')
      · exact List.mem_append_right _ (List.mem_singleton.mpr rfl)
  · rw [heq]
    constructor
    · intro hall
      exact absurd (hall _ source buffer cmd List.getElem?_concat_length hcmd) hnew
    · intro ⟨_, hroom⟩
      exact absurd hfull (hroom cmd hcmd)
  · rw [heq]
    constructor
    · intro hall
      refine ⟨fun i source' buffer' cmd' hi hcmd' => hall i source' buffer' cmd' (hkept hi) hcmd', ?_⟩
      intro cmd hcmd
      rw [hfault] at hcmd
      cases hcmd
    · intro ⟨hall, _⟩ i source' buffer' cmd' hi hcmd'
      rcases getElem?_concat_cases hi with hi | ⟨_, hframe⟩
      · exact hall i source' buffer' cmd' hi hcmd'
      · obtain ⟨rfl, rfl⟩ := Prod.mk.inj hframe
        rw [hfault] at hcmd'
        cases hcmd'

/-- The ring has room whenever a frame that decodes is received. -/
def RoomThroughout (config : Config) (capacity : Nat) (replayEnabled : Bool)
    (actions : List Action) : Prop :=
  ∀ earlier source buffer cmd, earlier ++ [.frame source buffer] <+: actions →
    source.command buffer = .ok cmd →
      ¬(after config capacity replayEnabled earlier).engine.Full capacity

theorem roomThroughout_concat (config : Config) (capacity : Nat) (replayEnabled : Bool)
    (actions : List Action) (action : Action) :
    RoomThroughout config capacity replayEnabled (actions ++ [action]) ↔
      RoomThroughout config capacity replayEnabled actions ∧
        ∀ source buffer cmd, action = .frame source buffer → source.command buffer = .ok cmd →
          ¬(after config capacity replayEnabled actions).engine.Full capacity := by
  constructor
  · intro h
    constructor
    · intro earlier source buffer cmd hearlier
      exact h earlier source buffer cmd (hearlier.trans (List.prefix_append _ _))
    · intro source buffer cmd haction
      subst haction
      exact h actions source buffer cmd (List.prefix_refl _)
  · intro ⟨hearly, hlast⟩ earlier source buffer cmd hearlier
    rcases List.prefix_concat_iff.mp hearlier with heq | hearlier
    · obtain ⟨rfl, haction⟩ := List.append_inj' heq rfl
      exact hlast source buffer cmd (List.singleton_inj.mp haction).symm
    · exact hearly earlier source buffer cmd hearlier

/-- Under every interleaving no command is lost exactly if every frame meets a ring with room. -/
theorem lossless_iff_room (config : Config) (capacity : Nat) (replayEnabled : Bool)
    (actions : List Action) :
    (after config capacity replayEnabled actions).Lossless ↔
      RoomThroughout config capacity replayEnabled actions := by
  rw [lossless_iff_allEntered (Invariant.after config capacity replayEnabled actions)]
  induction actions using List.reverseRecOn with
  | nil =>
    constructor
    · intro _ earlier source buffer cmd hearlier
      have hnil := List.prefix_nil.mp hearlier
      cases List.append_ne_nil_of_right_ne_nil earlier (List.cons_ne_nil _ _) hnil
    · intro _ i source buffer cmd hi
      cases hi
  | append_singleton actions action ih =>
    have hinv := Invariant.after config capacity replayEnabled actions
    rw [roomThroughout_concat, ← ih, after_concat]
    cases action with
    | frame source buffer =>
      show (receive capacity _ source buffer).AllEntered ↔ _
      rw [allEntered_receive hinv]
      refine and_congr_right fun _ => ⟨?_, ?_⟩
      · intro h source' buffer' cmd haction
        obtain ⟨rfl, rfl⟩ := Action.frame.inj haction
        exact h cmd
      · intro h cmd
        exact h source buffer cmd rfl
    | visit g =>
      refine ⟨fun h => ⟨?_, fun _ _ _ haction => Action.noConfusion haction⟩, fun h => ?_⟩
      · by_cases hready : (pipeline config).Ready
            (after config capacity replayEnabled actions).engine g
        · rw [perform, if_pos hready] at h
          exact h
        · rw [perform, if_neg hready] at h
          exact h
      · by_cases hready : (pipeline config).Ready
            (after config capacity replayEnabled actions).engine g
        · rw [perform, if_pos hready]
          exact h.1
        · rw [perform, if_neg hready]
          exact h.1
    | endReplay => exact ⟨fun h => ⟨h, fun _ _ _ haction => Action.noConfusion haction⟩, And.left⟩

/-- A frame that carries the command. -/
def frameOf (cmd : OrderCommand) : List UInt8 :=
  overwriteAll (List.replicate 64 0) (Wire.writes cmd)

theorem command_frameOf {cmd : OrderCommand} (h : Wire.Representable cmd) :
    Source.command .replay (frameOf cmd) =
      .ok { Wire.carried cmd with status := .processing } := by
  have hbuf : 64 ≤ (List.replicate 64 (0 : UInt8)).length := by rw [List.length_replicate]
  rw [Source.command, frameOf, Wire.decodeOrderCommand_encoded h hbuf]
  rfl

theorem replay_fills {config : Config} {capacity : Nat} {record : List UInt8} {cmd : OrderCommand}
    (hcmd : Source.command .replay record = .ok cmd) {k : Nat} (hk : k ≤ capacity) :
    (after config capacity true (List.replicate k (.frame .replay record))).engine.published = k ∧
      ∀ h, (after config capacity true
        (List.replicate k (.frame .replay record))).engine.seq h = 0 := by
  induction k with
  | zero => exact ⟨rfl, fun _ => rfl⟩
  | succ k ih =>
    obtain ⟨hpublished, hseq⟩ := ih (Nat.le_of_succ_le hk)
    have hroom : ¬(after config capacity true
        (List.replicate k (.frame .replay record))).engine.Full capacity := by
      intro ⟨h, hfull⟩
      rw [hpublished, hseq h] at hfull
      omega
    rw [List.replicate_succ', after_concat, perform]
    rcases receive_cases capacity (after config capacity true
        (List.replicate k (.frame .replay record))) .replay record with
      ⟨_, _, _, heq⟩ | ⟨_, _, hfull, _⟩ | ⟨_, hfault, _⟩
    · rw [heq]
      exact ⟨congrArg (· + 1) hpublished, hseq⟩
    · exact absurd hfull hroom
    · rw [hcmd] at hfault
      cases hfault

/-- A recording of one command more than the ring has slots, replayed before any handler runs. -/
theorem replay_overruns_ring :
    ¬∀ config actions, (after config bufferSize true actions).Lossless := by
  intro hall
  have hdecode := @command_frameOf (.limit .bid .gtc 1 0 100 1)
    ⟨by decide, by decide, by decide, by decide, by decide, by decide, by decide⟩
  generalize frameOf (.limit .bid .gtc 1 0 100 1) = record at hdecode
  obtain ⟨hpublished, hseq⟩ := @replay_fills (plainConfig [1]) bufferSize _ _ hdecode _ le_rfl
  have hfull : (after (plainConfig [1]) bufferSize true
      (List.replicate bufferSize (.frame .replay record))).engine.Full bufferSize := by
    refine ⟨.events, ?_⟩
    rw [hseq, hpublished, Nat.zero_add]
  generalize List.replicate bufferSize (Action.frame .replay record) = actions at hfull
  have hlast := hall (plainConfig [1]) (actions ++ [.frame .replay record])
  rw [lossless_iff_allEntered (Invariant.after _ _ _ _), after_concat, perform,
    allEntered_receive (Invariant.after _ _ _ _)] at hlast
  exact hlast.2 _ hdecode hfull

end Intake

end VexCore.Engine
