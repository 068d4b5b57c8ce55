import VexCore.Ledger.Conservation
import VexCore.Ledger.Following
import VexCore.Ledger.Stream

/-!
# What depends on the commands only

Two runs over the same commands, live or replayed, end in the same books, balances and statuses
if R1 sees in each of them what it would see with all earlier commands settled. Otherwise the
schedule decides: funds that R2 has still to release may be missing.
-/

namespace VexCore

open Framework

namespace Engine

variable {config : Config} {s t : State}

structure Follows (config : Config) (cmds : Nat → OrderCommand) (s : State) : Prop where
  slots : ∀ n < s.published, SlotFollows config cmds s n
  books : BooksFollow config cmds s
  accounts : AccountsFollow config cmds s

/-- Order ids increase, no amount leaves its word, and R1 sees what it needs of the earlier
commands. -/
def InStep (config : Config) (h : Handler) (s : State) : Prop :=
  (IdsIncrease h s ∧ InRange config h s ∧ FeesFit config h s) ∧ Timely config h s

instance (h : Handler) (s : State) : Decidable (InStep config h s) :=
  inferInstanceAs (Decidable ((_ ∧ _ ∧ _) ∧ _))

namespace Follows

variable {cmds : Nat → OrderCommand}

theorem start (replayEnabled : Bool) : Follows config cmds (start config replayEnabled) where
  slots n hn := absurd hn (Nat.not_lt_zero n)
  books _ := rfl
  accounts := by
    refine ⟨fun k => ?_, fun k => ?_⟩
    · show 0 + window _ 0 0 = 0
      rw [window_self]
    · show 0 + window _ 0 0 = window _ 0 0
      rw [window_self, window_self]

theorem publish (h : Follows config cmds s) (ho : (pipeline config).Ordered s) {cmd : OrderCommand}
    (hcmd : identified config (s.publish (Slot.of cmd)) s.published = cmds s.published) :
    Follows config cmds (s.publish (Slot.of cmd)) where
  slots n hn := by
    by_cases hlast : n = s.published
    · subst hlast
      have hself : (s.publish (Slot.of cmd)).slots s.published = Slot.of cmd :=
        Pipeline.State.publish_slots_self s _
      have hpassed : ¬Passed (s.publish (Slot.of cmd)) s.published :=
        Nat.not_lt.mpr (ho.published _)
      have hmatched : ¬Matched (s.publish (Slot.of cmd)) s.published :=
        Nat.not_lt.mpr (ho.published _)
      have hjournaled : ¬s.published < (s.publish (Slot.of cmd)).seq .journaling :=
        Nat.not_lt.mpr (ho.published .journaling)
      have hfresh : identify config (s.publish (Slot.of cmd)) s.published cmd =
          cmds s.published := by
        rw [identified, hself] at hcmd
        exact hcmd
      refine ⟨fun _ => ?_, fun hp => absurd hp hpassed, fun _ _ => ?_,
        fun _ hj => absurd hj hjournaled, fun hm => absurd hm hmatched⟩
      · rw [hself]
        exact hfresh
      · rw [hself, ← hfresh, identify_balance]
        rfl
    · have hother : (s.publish (Slot.of cmd)).slots n = s.slots n :=
        Pipeline.State.publish_slots_ne s _ hlast
      have hlt : n < s.published := Nat.lt_of_le_of_ne (Nat.le_of_lt_succ hn) hlast
      refine (h.slots n hlt).transfer ?_ rfl ?_ ?_ Iff.rfl
      · rw [hother]
      · unfold Passed
        rw [hother]
        rfl
      · unfold Matched
        rw [hother]
        rfl
  books := h.books
  accounts := ⟨h.accounts.available, h.accounts.locked⟩

theorem advance {exact : Prop} (h : Follows config cmds s) (ho : (pipeline config).Ordered s)
    (hc : CommandsInvariant config s) (inv : LedgerInvariant config exact s) {g : Handler}
    (ready : (pipeline config).Ready s g) (inStep : InStep config g s)
    (hcmds : ∀ i < s.published, identified config s i = cmds i) :
    Follows config cmds ((pipeline config).advance s g) := by
  obtain ⟨⟨-, range, fees⟩, timely⟩ := inStep
  have hslots : ∀ n < s.published,
      SlotFollows config cmds ((pipeline config).advance s g) n :=
    fun n hn => (h.slots n hn).advance ho ready h.books timely hcmds
  refine ⟨hslots, h.books.advance ready (h.slots _ ready.1), ?_⟩
  cases g with
  | risk shard =>
    exact h.accounts.advance_risk inv ho hc range (h.slots _ ready.1) (hslots _ ready.1)
  | settlement shard =>
    exact h.accounts.advance_settlement inv hc ready range fees (h.slots _ ready.1)
  | journaling =>
    exact h.accounts.advance_still (fun _ => Handler.noConfusion) (fun _ => Handler.noConfusion) rfl
  | matching shard =>
    exact h.accounts.advance_still (fun _ => Handler.noConfusion) (fun _ => Handler.noConfusion) rfl
  | events =>
    exact h.accounts.advance_still (fun _ => Handler.noConfusion) (fun _ => Handler.noConfusion) rfl

end Follows

theorem identified_publish {slot : Slot} {n : Nat} (hn : n < s.published) :
    identified config (s.publish slot) n = identified config s n := by
  rw [identified, identified, Pipeline.State.publish_slots_ne s slot (Nat.ne_of_lt hn)]
  rfl

/-- What a run in step keeps beside the commands it follows. -/
structure Steady (config : Config) (s : State) : Prop where
  books : BooksInvariant config s
  commands : CommandsInvariant config s
  ledger : LedgerInvariant config False s

theorem Steady.start (replayEnabled : Bool) : Steady config (Engine.start config replayEnabled) :=
  ⟨.start replayEnabled, .start replayEnabled, .start replayEnabled⟩

/-- A run in step goes on following the commands it has followed. -/
theorem follows_of_reaches {init : State} {cmds : Nat → OrderCommand}
    (run : (pipeline config).Reaches Offered (InStep config) init s)
    (order : (pipeline config).Ordered init) (steady : Steady config init)
    (hfollows : Follows config cmds init)
    (hcmds : ∀ n < s.published, identified config s n = cmds n) :
    Steady config s ∧ Follows config cmds s := by
  have hall : (pipeline config).Ordered s ∧ (Steady config s ∧
      ((∀ n < s.published, identified config s n = cmds n) → Follows config cmds s)) := by
    apply run.invariant order ⟨steady, fun _ => hfollows⟩
    · intro s slot ho ⟨⟨hb, hc, inv⟩, hf⟩ ⟨cmd, hfresh, hslot⟩
      subst hslot
      refine ⟨⟨hb.publish ho cmd, hc.publish hfresh, inv.publish ho hfresh⟩, fun hcmds => ?_⟩
      have hearlier : ∀ n < s.published, identified config s n = cmds n := by
        intro n hn
        rw [← hcmds n (Nat.lt_succ_of_lt hn), identified_publish hn]
      exact (hf hearlier).publish ho (hcmds s.published (Nat.lt_succ_self _))
    · intro s h ho ⟨⟨hb, hc, inv⟩, hf⟩ ready inStep
      refine ⟨⟨hb.advance ho ready inStep.1.1, hc.advance ho hb ready,
        inv.advance ho hb hc ready inStep.1.2.1 inStep.1.2.2 False.elim⟩, fun hcmds => ?_⟩
      have hbefore : ∀ n < s.published, identified config s n = cmds n := by
        intro n hn
        rw [← hcmds n hn, identified_advance]
      exact (hf hbefore).advance ho hc inv ready inStep hbefore
  exact ⟨hall.2.1, hall.2.2 hcmds⟩

/-- A run in step follows its commands. -/
theorem Reaches.follows {replayEnabled : Bool} {cmds : Nat → OrderCommand}
    (run : Reaches config (InStep config) replayEnabled s)
    (hcmds : ∀ n < s.published, identified config s n = cmds n) : Follows config cmds s :=
  (follows_of_reaches run (Pipeline.Ordered.start _ _) (.start replayEnabled)
    (.start replayEnabled) hcmds).2

/-- The same books, balances and statuses. -/
structure SameOutcome (s t : State) : Prop where
  books : s.shared.orderBooks = t.shared.orderBooks
  balances : ∀ k, s.shared.balance k = t.shared.balance k
  statuses : ∀ n < s.published, (s.slots n).cmd.status = (t.slots n).cmd.status

namespace Follows

variable {cmds : Nat → OrderCommand}

/-- What a drained run leaves, by its commands. -/
theorem drained (h : Follows config cmds s) (drained : Pipeline.Drained s) :
    (∀ shard, s.shared.orderBooks shard = (reference config cmds s.published).orderBooks shard) ∧
      (∀ k, (s.shared.account k).available = (reference config cmds s.published).available k ∧
        (s.shared.account k).locked +
            window (fun n => tally Move.debit (planOf config (matchedAt config cmds n)) k) 0
              s.published =
          window (fun n => lockedFor config (admittedAt config cmds n) k) 0 s.published) ∧
      ∀ n < s.published, (s.slots n).cmd.status = (matchedAt config cmds n).status := by
  refine ⟨?_, ?_, ?_⟩
  · intro shard
    rw [h.books shard, drained]
  · intro k
    have havailable := h.accounts.available k
    have hlocked := h.accounts.locked k
    rw [drained, drained, window_self] at havailable
    rw [drained, drained] at hlocked
    exact ⟨havailable, hlocked⟩
  · intro n hn
    have hmatched : Matched s n := by
      rw [Matched, drained]
      exact hn
    exact ((h.slots n hn).matched hmatched).status

/-- Commands that matter alike lead to the same outcome. -/
theorem sameOutcome_of {cmds' : Nat → OrderCommand} (h : Follows config cmds s)
    (h' : Follows config cmds' t) (hs : Pipeline.Drained s) (ht : Pipeline.Drained t)
    (hpublished : s.published = t.published)
    (hreference : reference config cmds' s.published = reference config cmds s.published)
    (hplan : ∀ n, planOf config (matchedAt config cmds' n) = planOf config (matchedAt config cmds n))
    (hlockedFor : ∀ n,
      lockedFor config (admittedAt config cmds' n) = lockedFor config (admittedAt config cmds n))
    (hstatus : ∀ n, (matchedAt config cmds' n).status = (matchedAt config cmds n).status) :
    SameOutcome s t := by
  obtain ⟨hbooks, haccounts, hstatuses⟩ := h.drained hs
  obtain ⟨hbooks', haccounts', hstatuses'⟩ := h'.drained ht
  rw [← hpublished] at hbooks' haccounts' hstatuses'
  simp only [hreference, hplan, hlockedFor] at hbooks' haccounts'
  refine ⟨?_, ?_, ?_⟩
  · funext shard
    rw [hbooks, hbooks']
  · intro k
    obtain ⟨havailable, hlocked⟩ := haccounts k
    obtain ⟨havailable', hlocked'⟩ := haccounts' k
    have hsame : (s.shared.account k).available = (t.shared.account k).available ∧
        (s.shared.account k).locked = (t.shared.account k).locked := by
      constructor <;> omega
    exact congrArg₂ UserBalance.mk hsame.1 hsame.2
  · intro n hn
    rw [hstatuses n hn, hstatuses' n hn, hstatus]

theorem sameOutcome (h : Follows config cmds s) (h' : Follows config cmds t)
    (hs : Pipeline.Drained s) (ht : Pipeline.Drained t) (hpublished : s.published = t.published) :
    SameOutcome s t :=
  h.sameOutcome_of h' hs ht hpublished rfl (fun _ => rfl) (fun _ => rfl) fun _ => rfl

end Follows

/-- Drained runs over the same commands, live or replayed, leave the same books, balances and
statuses, whatever their schedules, if both are in step. -/
theorem outcome_determined {replayEnabled replayEnabled' : Bool}
    (run : Reaches config (InStep config) replayEnabled s)
    (run' : Reaches config (InStep config) replayEnabled' t) (hs : Pipeline.Drained s)
    (ht : Pipeline.Drained t) (hpublished : s.published = t.published)
    (hcmds : ∀ n < s.published, identified config s n = identified config t n) :
    SameOutcome s t := by
  have h := run.follows hcmds
  have h' := run'.follows fun n _ => rfl
  exact h.sameOutcome h' hs ht hpublished

/-- Every command leaves the pipeline before the next one enters it. -/
def separately (cmds : List OrderCommand) : List (Pipeline.Action Handler Slot) :=
  cmds.flatMap fun cmd => staged [cmd] ++ [.advance .events]

/-- Every stage takes all commands before the next stage takes the first. -/
def together (cmds : List OrderCommand) : List (Pipeline.Action Handler Slot) :=
  staged cmds ++ cmds.map fun _ => .advance .events

/-- User 3 deposits, bids at once without a match, and bids again. -/
def bidTwice (deposit : Nat) : List OrderCommand :=
  [.funds .depositFunds 3 0 deposit, .limit .bid .ioc 0 3 10 1, .limit .bid .gtc 0 3 10 1]

def afterBids (deposit : Nat)
    (schedule : List OrderCommand → List (Pipeline.Action Handler Slot)) : State :=
  (pipeline (plainConfig [1])).execute (start (plainConfig [1]) false) (schedule (bidTwice deposit))

/-- With funds for both bids, both schedules end alike. -/
theorem outcome_determined_bids : SameOutcome (afterBids 20 separately) (afterBids 20 together) := by
  have hseparately : Reaches (plainConfig [1]) (InStep (plainConfig [1])) false
      (afterBids 20 separately) := @Reaches.of_schedule _ (bidTwice 20) _ _ _ (by decide) (by decide +kernel)
  have htogether : Reaches (plainConfig [1]) (InStep (plainConfig [1])) false
      (afterBids 20 together) := @Reaches.of_schedule _ (bidTwice 20) _ _ _ (by decide) (by decide +kernel)
  exact outcome_determined hseparately htogether (by unfold Pipeline.Drained; decide +kernel)
    (by unfold Pipeline.Drained; decide +kernel) (by decide +kernel) (by decide +kernel)

/-- With funds for one, the second bid rests if R2 has released the first before, and is rejected
if not. -/
theorem outcome_undetermined :
    ¬∀ (config : Config) (replayEnabled replayEnabled' : Bool) (s t : State),
      Reaches config (fun h s => IdsIncrease h s ∧ InRange config h s ∧ FeesFit config h s)
        replayEnabled s →
      Reaches config (fun h s => IdsIncrease h s ∧ InRange config h s ∧ FeesFit config h s)
        replayEnabled' t →
      Pipeline.Drained s → Pipeline.Drained t → s.published = t.published →
      (∀ n < s.published, identified config s n = identified config t n) → SameOutcome s t := by
  intro hall
  have hstatus := (hall (plainConfig [1]) false false (afterBids 10 separately)
    (afterBids 10 together)
    (@Reaches.of_schedule _ (bidTwice 10) _ _ _ (by decide) (by decide +kernel))
    (@Reaches.of_schedule _ (bidTwice 10) _ _ _ (by decide) (by decide +kernel))
    (by unfold Pipeline.Drained; decide +kernel) (by unfold Pipeline.Drained; decide +kernel)
    (by decide +kernel) (by decide +kernel)).statuses 2 (by decide +kernel)
  revert hstatus
  decide +kernel

/-- The second bid, in either schedule. -/
example : ((afterBids 10 separately).slots 2).cmd.status = .placed ∧
    ((afterBids 10 together).slots 2).cmd.status = .rejected := by
  decide +kernel

end Engine

end VexCore
