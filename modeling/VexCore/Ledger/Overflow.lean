import VexCore.Ledger.Backing

/-!
# Volumes over whole runs

The volumes of the books are exact in every state of a run exactly when what each placement
leaves on the book fits its level. While the arithmetic stays in range, the reserves of R1 see
to that for asks, and for bids where a unit of base costs a unit of quote: what rests there was
deposited. Cheaper bids hold less in reserve than their size, so that nothing but their own sizes
bounds them.
-/

namespace VexCore

open Framework

namespace Engine

variable (config : Config)

/-- The deposits of each asset so far fit a word. -/
def DepositsFit (s : State) : Prop := ∀ assetId, movedIn .depositFunds s assetId < 2 ^ 64

/-- A run in range can reach the state: no cost, fee or balance was truncated on the way. -/
def RangeKept (replayEnabled : Bool) (s : State) : Prop :=
  Reaches config (fun h s => IdsIncrease h s ∧ InRange config h s ∧ FeesFit config h s)
    replayEnabled s

/-- What a placement exceeds the eligible orders by fits its level, when a matching shard is to
visit it. At a backed price the reserves of a run in range see to it. -/
def LevelRoom (replayEnabled : Bool) (h : Handler) (s : State) : Prop :=
  ∀ shard, h = .matching shard → (found s h).command = .placeOrder →
    (found s h).status ≠ .rejected → (found s h).timeInForce = .gtc →
    ∀ spec ∈ config.symbolSpecs.lookup (found s h).marketId,
    ∀ book ∈ (s.shared.orderBooks shard).lookup (found s h).marketId,
      RangeKept config replayEnabled s ∧ Backed spec (found s h).side (found s h).price ∨
      book.restingAt (found s h).side (found s h).price +
        ((found s h).size - OrderBook.totalSize (book.eligible (found s h))) < 2 ^ 64

/-- The volumes of every book are exact. -/
def VolumesHold (core : Core) : Prop :=
  ∀ shard m book, (core.orderBooks shard).lookup m = some book → book.VolumesExact

variable {config} {s : State}

namespace VolumesHold

theorem start (replayEnabled : Bool) : VolumesHold (start config replayEnabled).shared := by
  intro shard m book hbook
  obtain ⟨-, rfl, -⟩ := lookup_openBooks hbook
  exact OrderBook.new_volumesExact m

theorem withBook {core : Core} (hv : VolumesHold core) (shard : Fin numMatchingEngines)
    {marketId : Nat} {book : OrderBook} (hbook : book.VolumesExact) (cache : PriceCache) :
    VolumesHold (Core.withBook core shard marketId book cache) := by
  intro other m b hb
  by_cases hother : other = shard
  · subst hother
    by_cases hm : m = marketId
    · subst hm
      rw [lookup_withBook, Option.some.injEq] at hb
      subst hb
      exact hbook
    · simp only [Core.withBook, Function.update_self, Finmap.lookup_insert_of_ne _ hm] at hb
      exact hv other m b hb
  · simp only [Core.withBook, Function.update_of_ne hother] at hb
    exact hv other m b hb

theorem levelRoom (hv : VolumesHold s.shared) {h : Handler} (replayEnabled : Bool)
    (hb : BooksInvariant config s)
    (hafter : VolumesHold ((pipeline config).advance s h).shared) :
    LevelRoom config replayEnabled h s := by
  rintro shard rfl hcommand hstatus htif spec - book hbook
  have hshard := homeShard_iff.mp (hb.home _ _ book hbook).1
  have hexact := hv shard _ book hbook
  have hshared : ((pipeline config).advance s (.matching shard)).shared =
      (routerHandler shard s.shared (found s (.matching shard))).1 := rfl
  rw [hshared] at hafter
  right
  rcases routerHandler_cases shard s.shared (found s (.matching shard)) with
    ⟨-, hskip⟩ | ⟨-, hnone, -⟩ | ⟨other, -, -, hother, ⟨-, heq⟩ | ⟨hcancel, -⟩⟩
  · rcases hskip hshard with hrej | hfunds | hfunds
    · exact absurd hrej hstatus
    · rw [hcommand] at hfunds
      cases hfunds
    · rw [hcommand] at hfunds
      cases hfunds
  · have hcontra := hbook.symm.trans hnone
    cases hcontra
  · obtain rfl : book = other := Option.some.inj (hbook.symm.trans hother)
    rw [heq] at hafter
    rw [← OrderBook.matchOrder_remaining_eligible (hb.shape shard _ book hbook)]
    exact hexact.rest_fits (hafter shard _ _ (lookup_withBook _ _ _ _ _)) hstatus htif
  · rw [hcommand] at hcancel
    cases hcancel

/-- One visit of a matching shard: the deposits bound what rests at a backed price, the guard
what rests elsewhere. -/
theorem advance_matching {replayEnabled : Bool} (hv : VolumesHold s.shared)
    (ho : (pipeline config).Ordered s) (hb : BooksInvariant config s)
    (hc : CommandsInvariant config s) (shard : Fin numMatchingEngines)
    (ready : (pipeline config).Ready s (.matching shard)) (hdeposits : DepositsFit s)
    (hrests : LevelRoom config replayEnabled (.matching shard) s) :
    VolumesHold ((pipeline config).advance s (.matching shard)).shared := by
  have hshared : ((pipeline config).advance s (.matching shard)).shared =
      (routerHandler shard s.shared (found s (.matching shard))).1 := rfl
  rw [hshared]
  rcases routerHandler_cases shard s.shared (found s (.matching shard)) with
    ⟨heq, -⟩ | ⟨-, -, -, heq⟩ | ⟨book, hshard, hstatus, hbook, ⟨hcommand, heq⟩ | ⟨-, heq⟩⟩
  · rw [heq]
    exact hv
  · rw [heq]
    exact hv
  · have hshape := hb.shape shard _ book hbook
    obtain ⟨spec, hspec⟩ := hc.listed shard _ book hbook
    rw [heq]
    apply hv.withBook
    apply (hv shard _ book hbook).placeOrder hshape
    intro htif
    rcases hrests shard rfl hcommand hstatus htif spec hspec book hbook with
      ⟨kept, hbacked⟩ | hfits
    · have inv := (@Reaches.ledger config s False _ replayEnabled kept (fun _ _ hg => hg.1)
        (fun _ _ hg => hg.2.1) (fun _ _ hg => hg.2.2) False.elim).2.2.2
      have hroom := restingAt_add_size_le ho hc ready hshard inv hb hspec hbook hcommand hstatus
        hbacked
      have hdeposited := hdeposits (escrowAsset (found s (.matching shard)).side
        (found s (.matching shard)).marketId)
      have hremaining := OrderBook.matchOrder_remaining_le book hshape (found s (.matching shard))
      omega
    · rwa [← OrderBook.matchOrder_remaining_eligible hshape] at hfits
  · rw [heq]
    exact hv.withBook shard ((hv shard _ book hbook).cancelOrder (hb.shape shard _ book hbook) _ _) _

/-- No other stage touches a book. -/
theorem advance {replayEnabled : Bool} (hv : VolumesHold s.shared)
    (ho : (pipeline config).Ordered s) (hb : BooksInvariant config s)
    (hc : CommandsInvariant config s) {h : Handler} (ready : (pipeline config).Ready s h)
    (hdeposits : DepositsFit s) (hrests : LevelRoom config replayEnabled h s) :
    VolumesHold ((pipeline config).advance s h).shared := by
  cases h with
  | matching shard => exact hv.advance_matching ho hb hc shard ready hdeposits hrests
  | journaling => exact hv
  | risk shard => exact hv
  | settlement shard => exact hv
  | events => exact hv

end VolumesHold

theorem Reaches.volumesHold {guard : Handler → State → Prop} {replayEnabled : Bool}
    (run : Reaches config guard replayEnabled s) (increase : ∀ h s, guard h s → IdsIncrease h s)
    (deposits : ∀ h s, guard h s → DepositsFit s)
    (rests : ∀ h s, guard h s → LevelRoom config replayEnabled h s) : VolumesHold s.shared := by
  have hall : (pipeline config).Ordered s ∧
      (BooksInvariant config s ∧ CommandsInvariant config s ∧ VolumesHold s.shared) := by
    apply run.invariant (Pipeline.Ordered.start _ _)
      ⟨.start replayEnabled, .start replayEnabled, .start replayEnabled⟩
    · rintro s slot ho ⟨hb, hc, hv⟩ ⟨cmd, hfresh, rfl⟩
      exact ⟨hb.publish ho cmd, hc.publish hfresh, hv⟩
    · rintro s h ho ⟨hb, hc, hv⟩ ready admitted
      exact ⟨hb.advance ho ready (increase h s admitted), hc.advance ho hb ready,
        hv.advance ho hb hc ready (deposits h s admitted) (rests h s admitted)⟩
  exact hall.2.2.2

/-- In every run whose deposits fit a word, the volumes of the books stay exact exactly when
every placement leaves what fits its level. -/
theorem volumes_hold_iff (config : Config) (replayEnabled : Bool) (s : State) :
    Reaches config (fun h s => (IdsIncrease h s ∧ DepositsFit s) ∧
        VolumesHold ((pipeline config).advance s h).shared) replayEnabled s ↔
      Reaches config (fun h s => (IdsIncrease h s ∧ DepositsFit s) ∧
        LevelRoom config replayEnabled h s) replayEnabled s := by
  constructor
  · intro run
    induction run with
    | refl => exact .refl
    | tail _ step ih =>
      cases step with
      | publish slot offered => exact ih.tail (.publish slot offered)
      | advance h ready admitted =>
        have hb := Reaches.books ih fun _ _ hg => hg.1.1
        have hv := ih.volumesHold (fun _ _ hg => hg.1.1) (fun _ _ hg => hg.1.2) fun _ _ hg => hg.2
        exact ih.tail (.advance h ready ⟨admitted.1, hv.levelRoom replayEnabled hb admitted.2⟩)
  · intro run
    induction run with
    | refl => exact .refl
    | tail run step ih =>
      rename_i b c
      cases step with
      | publish slot offered => exact ih.tail (.publish slot offered)
      | advance h ready admitted =>
        have hafter : Reaches config (fun h s => (IdsIncrease h s ∧ DepositsFit s) ∧
            LevelRoom config replayEnabled h s) replayEnabled ((pipeline config).advance b h) :=
          Relation.ReflTransGen.tail run (.advance h ready admitted)
        have hv := hafter.volumesHold (fun _ _ hg => hg.1.1) (fun _ _ hg => hg.1.2)
          fun _ _ hg => hg.2
        exact ih.tail (.advance h ready ⟨admitted.1, hv⟩)

/-- Two bids at price zero cost nothing, so that R1 admits them without any funds. -/
def freeCommands : List OrderCommand :=
  [.limit .bid .gtc 0 3 0 (2 ^ 63), .limit .bid .gtc 0 4 0 (2 ^ 63)]

def free : State :=
  (pipeline (plainConfig [1])).execute (start (plainConfig [1]) false) (staged freeCommands)

theorem movedIn_of_no_command {command : OrderCommandType} {assetId : Nat}
    (h : ∀ n < s.published, (s.slots n).cmd.command ≠ command) :
    movedIn command s assetId = 0 := by
  apply window_eq_zero
  intro n _ hn
  exact if_neg fun hmoved => h n hn hmoved.1

/-- The volume of their level wraps to zero, although no arithmetic of the ledger does. -/
theorem free_overflows :
    ¬∀ config replayEnabled s, Reaches config (fun h s => IdsIncrease h s ∧
        InRange config h s ∧ FeesFit config h s ∧ DepositsFit s) replayEnabled s →
      VolumesHold s.shared := by
  intro hall
  have hreaches : Reaches (plainConfig [1]) (fun h s => IdsIncrease h s ∧
      InRange (plainConfig [1]) h s ∧ FeesFit (plainConfig [1]) h s ∧
      ∀ n < s.published, (s.slots n).cmd.command ≠ .depositFunds) false free :=
    @Reaches.of_schedule _ freeCommands _ _ _ (by decide) (by decide +kernel)
  have hvolumes : VolumesHold free.shared := by
    apply hall (plainConfig [1]) false free
    refine hreaches.mono (fun _ _ hoffer => hoffer) ?_
    intro h s admitted
    refine ⟨admitted.1, admitted.2.1, admitted.2.2.1, ?_⟩
    intro assetId
    rw [movedIn_of_no_command admitted.2.2.2]
    exact Nat.two_pow_pos 64
  have hresting : ((free.shared.orderBooks 1).lookup 1).map (fun book => book.restingAt .bid 0) =
      some (2 ^ 64) := by
    decide +kernel
  obtain ⟨book, hbook, hsum⟩ := Option.map_eq_some_iff.mp hresting
  unfold OrderBook.restingAt at hsum
  cases hlevel : (book.side .bid).getLevel 0 with
  | none => simp [hlevel] at hsum
  | some level =>
    have hfits := (hvolumes 1 1 book hbook .bid 0 level hlevel).fits
    rw [hlevel] at hsum
    exact absurd hsum (Nat.ne_of_lt hfits)

end Engine

end VexCore
