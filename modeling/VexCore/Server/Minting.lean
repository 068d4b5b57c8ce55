import VexCore.Common.Snowflake
import VexCore.Server.Books

/-!
# Where order ids come from

Journaling takes the id of everything but a cancellation from its id generator. Whatever the
schedule, placements then reach matching with increasing ids, which is what the books rely on.
-/

namespace VexCore.Engine

open Framework

variable {checked : Bool} {config : Config} {generator : Snowflake} {clock : List Nat}
  {s t : State} {n : Nat}

/-- The first slots for which journaling asks for an id. -/
def idSlots (s : State) (n : Nat) : List Nat :=
  (List.range n).filter fun i => (s.slots i).ingested.command ≠ .cancelOrder

/-- The stamps of the first slots carry what the generator answers, call after call. -/
def Minted (checked : Bool) (config : Config) (generator : Snowflake) (clock : List Nat)
    (s : State) (n : Nat) : Prop :=
  (generator.run checked ((idSlots s n).map fun i => (s.slots i).ingested.routeGatewayId) clock).map
      Snowflake.Call.id? =
    (idSlots s n).map fun i => some (config.stamp i).orderId

instance (config : Config) (generator : Snowflake) (clock : List Nat) (s : State) (n : Nat) :
    Decidable (Minted checked config generator clock s n) := inferInstanceAs (Decidable (_ = _))

/-- Journaling takes its ids from the generator. -/
def MintedBy (checked : Bool) (config : Config) (generator : Snowflake) (clock : List Nat)
    (h : Handler) (s : State) : Prop :=
  h = .journaling → Minted checked config generator clock s (s.seq h + 1)

instance (config : Config) (generator : Snowflake) (clock : List Nat) (h : Handler) (s : State) :
    Decidable (MintedBy checked config generator clock h s) := inferInstanceAs (Decidable (_ → _))

theorem Minted.congr (h : ∀ i < n, (t.slots i).ingested = (s.slots i).ingested)
    (minted : Minted checked config generator clock s n) :
    Minted checked config generator clock t n := by
  have hasked : idSlots t n = idSlots s n := by
    apply List.filter_congr
    intro i hi
    rw [h i (List.mem_range.mp hi)]
  have hgateways : (idSlots s n).map (fun i => (t.slots i).ingested.routeGatewayId) =
      (idSlots s n).map fun i => (s.slots i).ingested.routeGatewayId := by
    apply List.map_congr_left
    intro i hi
    rw [h i (List.mem_range.mp (List.mem_of_mem_filter hi))]
  rw [Minted, hasked, hgateways]
  exact minted

/-- Minted ids increase from slot to slot. -/
theorem Minted.lt (minted : Minted checked config generator clock s n)
    (ready : generator.Ready checked clock) {i j : Nat} (hij : i < j) (hj : j < n)
    (hi : (s.slots i).ingested.command ≠ .cancelOrder)
    (hj' : (s.slots j).ingested.command ≠ .cancelOrder) :
    (config.stamp i).orderId < (config.stamp j).orderId := by
  have hids := (Snowflake.run_increases ready
    ((idSlots s n).map fun i => (s.slots i).ingested.routeGatewayId)).2
  have hall : ((generator.run checked ((idSlots s n).map fun i =>
      (s.slots i).ingested.routeGatewayId) clock).filterMap Snowflake.Call.id?) =
      (idSlots s n).map fun i => (config.stamp i).orderId := by
    have hsome := congrArg (List.filterMap id) minted
    simpa [List.filterMap_map, Function.comp_def] using hsome
  rw [hall, List.pairwise_map, idSlots, List.pairwise_filter, List.pairwise_iff_getElem] at hids
  have hlt := hids i j (by simp [hij.trans hj]) (by simp [hj]) hij
  simp only [List.getElem_range, decide_eq_true_eq] at hlt
  exact hlt hi hj'

/-- What journaling has left of the commands it has visited. -/
structure Stamped (checked : Bool) (config : Config) (generator : Snowflake) (clock : List Nat)
    (s : State) : Prop where
  live : s.shared.replayEnabled = false
  command : ∀ n, (s.slots n).cmd.command = (s.slots n).ingested.command
  stamped : ∀ n < s.seq .journaling, (s.slots n).ingested.command ≠ .cancelOrder →
    (s.slots n).cmd.orderId = (config.stamp n).orderId
  minted : Minted checked config generator clock s (s.seq .journaling)

namespace Stamped

theorem start : Stamped checked config generator clock (start config false) where
  live := rfl
  command _ := rfl
  stamped n hn := absurd hn (Nat.not_lt_zero n)
  minted := rfl

theorem publish (h : Stamped checked config generator clock s) (ho : (pipeline config).Ordered s)
    (cmd : OrderCommand) : Stamped checked config generator clock (s.publish (Slot.of cmd)) := by
  have hold {i : Nat} (hi : i < s.seq .journaling) :
      (s.publish (Slot.of cmd)).slots i = s.slots i :=
    Pipeline.State.publish_slots_ne _ _ (Nat.ne_of_lt (hi.trans_le (ho.published _)))
  refine ⟨h.live, ?_, ?_, h.minted.congr fun i hi => by rw [hold hi]⟩
  · intro n
    by_cases hn : n = s.published
    · rw [hn, Pipeline.State.publish_slots_self]
      rfl
    · rw [Pipeline.State.publish_slots_ne _ _ hn]
      exact h.command n
  · intro n hn
    rw [hold hn]
    exact h.stamped n hn

theorem advance (h : Stamped checked config generator clock s) {g : Handler}
    (minted : MintedBy checked config generator clock g s) :
    Stamped checked config generator clock ((pipeline config).advance s g) := by
  have hcommand := @advance_command config s h.command g
  have hlive := (@process_replayEnabled config g (s.seq g) s.shared
    (s.slots (s.seq g)).cmd).trans h.live
  by_cases hg : g = .journaling
  · subst hg
    refine ⟨hlive, hcommand, ?_, ?_⟩
    · intro n hn hcancel
      rw [Pipeline.advance_seq_self] at hn
      rw [advance_ingested] at hcancel
      by_cases hself : n = s.seq .journaling
      · subst hself
        rw [advance_cmd_self]
        show (journalCommand s.shared.replayEnabled _ _ _).1.orderId = _
        rw [h.live]
        simp [journalCommand, Stamp.apply, h.command, hcancel]
      · rw [Pipeline.advance_slots_ne s _ hself]
        exact h.stamped n (by omega) hcancel
    · rw [Pipeline.advance_seq_self]
      exact (minted rfl).congr fun i _ => advance_ingested s _ i
  · have hseq : ((pipeline config).advance s g).seq .journaling = s.seq .journaling :=
      Pipeline.advance_seq_ne s g fun heq => hg heq.symm
    refine ⟨hlive, hcommand, ?_, ?_⟩
    · intro n hn hcancel
      rw [hseq] at hn
      rw [advance_ingested] at hcancel
      by_cases hself : n = s.seq g
      · subst hself
        rw [advance_cmd_self, (process_same hg _ _ _).orderId]
        exact h.stamped _ hn hcancel
      · rw [Pipeline.advance_slots_ne s _ hself]
        exact h.stamped n hn hcancel
    · rw [hseq]
      exact h.minted.congr fun i _ => advance_ingested s _ i

theorem idsIncrease (h : Stamped checked config generator clock s)
    (hready : generator.Ready checked clock) {g : Handler}
    (ready : (pipeline config).Ready s g) : IdsIncrease g s := by
  intro shard hshard hplace i hi hplace'
  subst hshard
  have hjournaled : s.seq (.matching shard) < s.seq .journaling :=
    ready.2 .journaling Nat.zero_lt_one
  have hcancel {n : Nat} (hplace : (s.slots n).ingested.command = .placeOrder) :
      (s.slots n).ingested.command ≠ .cancelOrder := by simp [hplace]
  rw [h.stamped _ hjournaled (hcancel hplace), h.stamped _ (hi.trans hjournaled) (hcancel hplace')]
  exact h.minted.lt hready hi hjournaled (hcancel hplace') (hcancel hplace)

end Stamped

/-- A live run whose ids come from the generator of journaling, with a clock that does not go
back, is a run in which placements reach matching with increasing ids. -/
theorem minted_ids_increase {currentUnixNs : Nat} {epoch : Option Nat}
    (hnew : Snowflake.new currentUnixNs epoch = .ok generator)
    (hclock : clock.Pairwise (generator.Forward checked))
    (run : Reaches config (MintedBy checked config generator clock) false s) :
    Reaches config IdsIncrease false s := by
  apply Pipeline.Reaches.guarded run (Pipeline.Ordered.start _ _)
    (@Stamped.start checked config generator clock)
  · intro s slot ho h offered
    obtain ⟨cmd, _, rfl⟩ := offered
    exact h.publish ho cmd
  · exact fun s g _ h _ minted => h.advance minted
  · exact fun s g h ready _ => h.idsIncrease (Snowflake.ready_of_new hnew hclock) ready

/-- One market, and the ids of a generator whose clock stands still. -/
def mintedConfig : Config := { plainConfig [1] with stamp := fun n => ⟨16 * (n + 1), n⟩ }

/-- Two orders are journaled before the first of them is admitted and matched, then the second. -/
def mintedActions : List (Pipeline.Action Handler Slot) :=
  [.publish (Slot.of (.limit .ask .gtc 0 4 5 10)), .publish (Slot.of (.limit .bid .gtc 0 3 5 4)),
    .advance .journaling, .advance .journaling, .advance (.risk 0), .advance (.risk 1),
    .advance (.risk 2), .advance (.risk 3), .advance (.matching 1), .advance (.risk 0),
    .advance (.risk 1), .advance (.risk 2), .advance (.risk 3), .advance (.matching 1)]

theorem minted_ids_increase_still :
    Reaches mintedConfig IdsIncrease false
      ((pipeline mintedConfig).execute (start mintedConfig false) mintedActions) :=
  minted_ids_increase (rfl : Snowflake.new (2 ^ 61) (some (2 ^ 61)) = .ok ⟨2 ^ 61, 2 ^ 61, 0, 0⟩)
    (by decide : [0, 0, 0].Pairwise (Snowflake.Forward false ⟨2 ^ 61, 2 ^ 61, 0, 0⟩))
    (@Reaches.of_schedule _ [.limit .ask .gtc 0 4 5 10, .limit .bid .gtc 0 3 5 4] _ _ _ (by decide)
      (by decide +kernel))

end VexCore.Engine
