import VexCore.Ledger.Determinism
import VexCore.Server.Journal
import VexCore.Server.Replay

/-!
# Recovery from the recording

What the archive holds after a live run brings a restarted engine back to the same books,
balances and statuses. A recorded command has lost the gateway it came from, which matters to
nothing but its answer.
-/

namespace VexCore

open Framework

/-- The command without the gateway it came from. -/
def OrderCommand.unrouted (cmd : OrderCommand) : OrderCommand := { cmd with routeGatewayId := 0 }

@[simp] theorem OrderCommand.unrouted_size (cmd : OrderCommand) : cmd.unrouted.size = cmd.size := rfl

namespace OrderBook

variable (book : OrderBook) (cmd : OrderCommand)

theorem matchLevels_unrouted (levels : List (Nat × PriceLevel)) (st : MatchState) :
    matchLevels cmd.unrouted levels st = matchLevels cmd levels st := by
  induction levels generalizing st with
  | nil => rfl
  | cons e rest ih =>
    obtain ⟨price, level⟩ := e
    simp only [matchLevels, ih]
    rfl

theorem matchOrder_unrouted : book.matchOrder cmd.unrouted =
    ((book.matchOrder cmd).1, (book.matchOrder cmd).2.1.unrouted, (book.matchOrder cmd).2.2) := by
  have hside {s : Side} (side : BookSide s) (orders : HashMap Nat Nat) :
      matchSide side cmd.unrouted orders = matchSide side cmd orders := by
    simp only [matchSide, matchLevels_unrouted]
    rfl
  simp only [matchOrder, hside]
  rfl

theorem canFillCompletely_unrouted :
    book.canFillCompletely cmd.unrouted = book.canFillCompletely cmd := by
  have hlevels (levels : List (Nat × PriceLevel)) (remaining : Nat) :
      canFillLevels cmd.unrouted levels remaining = canFillLevels cmd levels remaining := by
    induction levels generalizing remaining with
    | nil => rfl
    | cons e rest ih =>
      rw [canFillLevels, canFillLevels, ih]
      rfl
  exact hlevels _ _

theorem placeByTimeInForce_unrouted : book.placeByTimeInForce cmd.unrouted =
    ((book.placeByTimeInForce cmd).1, (book.placeByTimeInForce cmd).2.unrouted) := by
  have htif : cmd.unrouted.timeInForce = cmd.timeInForce := rfl
  unfold placeByTimeInForce
  rw [htif]
  cases cmd.timeInForce with
  | gtc =>
    simp only [matchOrder_unrouted, OrderCommand.unrouted_size]
    split_ifs <;> rfl
  | fok =>
    simp only [canFillCompletely_unrouted, matchOrder_unrouted]
    split_ifs <;> rfl
  | ioc =>
    simp only [matchOrder_unrouted]
    rfl

theorem placeOrder_unrouted (cache : PriceCache) : book.placeOrder cmd.unrouted cache =
    { book.placeOrder cmd cache with cmd := (book.placeOrder cmd cache).cmd.unrouted } := by
  have hexecution (cmd : OrderCommand) :
      executionPrice cmd.unrouted = (executionPrice cmd).unrouted := by
    unfold executionPrice
    split <;> rename_i h
    · rw [if_pos (show cmd.price = 0 ∧ cmd.side = .ask from h)]
      cases hevents : cmd.events with
      | nil => simp only [OrderCommand.unrouted, hevents]
      | cons event rest => simp only [OrderCommand.unrouted, hevents]
    · rw [if_neg (show ¬(cmd.price = 0 ∧ cmd.side = .ask) from h)]
  have hstatus : cmd.unrouted.status = cmd.status := rfl
  unfold placeOrder
  rw [hstatus]
  by_cases h : cmd.status = .rejected
  · rw [if_pos h, if_pos h]
  · rw [if_neg h, if_neg h]
    simp only [placeByTimeInForce_unrouted, hexecution]
    rfl

theorem cancelOrder_unrouted (cache : PriceCache) : book.cancelOrder cmd.unrouted cache =
    { book.cancelOrder cmd cache with cmd := (book.cancelOrder cmd cache).cmd.unrouted } := by
  have hremove (level : PriceLevel) : level.removeOrder cmd.orderId cmd.unrouted =
      ((level.removeOrder cmd.orderId cmd).1, (level.removeOrder cmd.orderId cmd).2.unrouted) := by
    unfold PriceLevel.removeOrder
    cases binarySearchByKey level.orders cmd.orderId Order.orderId with
    | none => rfl
    | some pos =>
      simp only
      cases level.orders[pos]? with
      | none => rfl
      | some removed => rfl
  have hside (book : OrderBook) (s : Side) (price : Nat) (level : PriceLevel) :
      book.cancelOnSide s price level cmd.unrouted =
        ((book.cancelOnSide s price level cmd).1,
          (book.cancelOnSide s price level cmd).2.unrouted) := by
    have hid : cmd.unrouted.orderId = cmd.orderId := rfl
    simp only [cancelOnSide, hid, hremove]
    rfl
  have hindex : book.cancelByIndex cmd.unrouted =
      ((book.cancelByIndex cmd).1, (book.cancelByIndex cmd).2.unrouted) := by
    have hid : cmd.unrouted.orderId = cmd.orderId := rfl
    unfold cancelByIndex
    rw [hid]
    cases book.orders.lookup cmd.orderId with
    | none => rfl
    | some price =>
      simp only
      cases book.bids.getLevel price with
      | some level => exact hside _ _ _ _
      | none => cases book.asks.getLevel price with
        | some level => exact hside _ _ _ _
        | none => rfl
  have hstatus : cmd.unrouted.status = cmd.status := rfl
  unfold cancelOrder
  rw [hstatus]
  by_cases h : cmd.status = .rejected
  · rw [if_pos h, if_pos h]
  · rw [if_neg h, if_neg h]
    simp only [hindex]

end OrderBook

theorem matchingHandler_unrouted (router : MatchingEngineRouter) (cmd : OrderCommand)
    (cache : PriceCache) : matchingHandler router cmd.unrouted cache =
      ((matchingHandler router cmd cache).1, (matchingHandler router cmd cache).2.1.unrouted,
        (matchingHandler router cmd cache).2.2) := by
  have hfields : cmd.unrouted.command = cmd.command ∧ cmd.unrouted.status = cmd.status ∧
      cmd.unrouted.marketId = cmd.marketId := ⟨rfl, rfl, rfl⟩
  obtain ⟨hcommand, hstatus, hmarket⟩ := hfields
  unfold matchingHandler MatchingEngineRouter.processOrder
  rw [hcommand, hstatus, hmarket]
  by_cases hskip : cmd.command = .depositFunds ∨ cmd.command = .withdrawFunds ∨ cmd.status = .rejected
  · rw [if_pos hskip, if_pos hskip]
  · rw [if_neg hskip, if_neg hskip]
    by_cases howns : router.marketForThisHandler cmd.marketId = true
    · rw [if_pos howns, if_pos howns]
      cases router.orderBooks.lookup cmd.marketId with
      | none => rfl
      | some book =>
        cases cmd.command with
        | placeOrder => simp only [OrderBook.placeOrder_unrouted]
        | cancelOrder => simp only [OrderBook.cancelOrder_unrouted]
        | depositFunds => rfl
        | withdrawFunds => rfl
    · rw [if_neg howns, if_neg howns]

theorem answer_unrouted (specs : HashMap Nat CoreMarketSpecification) (bestAsk available : Nat)
    (cmd : OrderCommand) :
    answer specs bestAsk available cmd.unrouted = (answer specs bestAsk available cmd).unrouted := by
  have hreservation : reservation specs bestAsk cmd.unrouted = reservation specs bestAsk cmd := rfl
  have hcommand' : cmd.unrouted.command = cmd.command := rfl
  cases hcommand : cmd.command with
  | cancelOrder => rw [answer_cancel hcommand, answer_cancel (hcommand'.trans hcommand)]
  | depositFunds =>
    rw [answer_deposit hcommand, answer_deposit (hcommand'.trans hcommand)]
    rfl
  | withdrawFunds =>
    rw [answer_withdraw hcommand, answer_withdraw (hcommand'.trans hcommand)]
    rfl
  | placeOrder =>
    rw [answer_place hcommand, answer_place (hcommand'.trans hcommand), hreservation]
    cases reservation specs bestAsk cmd with
    | none => rfl
    | some reserved =>
      simp only
      split_ifs <;> rfl

namespace Engine

variable (config : Config)

theorem next_unrouted (ref : Reference) (n : Nat) (cmd : OrderCommand) :
    ref.next config n cmd.unrouted = ref.next config n cmd := by
  have hadmitted : ref.admitted config n cmd.unrouted = (ref.admitted config n cmd).unrouted :=
    answer_unrouted _ _ _ _
  have hrouted (cmd : OrderCommand) : ref.routed cmd.unrouted =
      ((ref.routed cmd).1, (ref.routed cmd).2.1.unrouted, (ref.routed cmd).2.2) :=
    matchingHandler_unrouted _ _ _
  simp only [Reference.next, hadmitted, hrouted]
  rfl

theorem reference_unrouted (cmds : Nat → OrderCommand) (n : Nat) :
    reference config (fun n => (cmds n).unrouted) n = reference config cmds n := by
  induction n with
  | zero => rfl
  | succ n ih => rw [reference, reference, ih, next_unrouted]

theorem admittedAt_unrouted (cmds : Nat → OrderCommand) (n : Nat) :
    admittedAt config (fun n => (cmds n).unrouted) n = (admittedAt config cmds n).unrouted := by
  rw [admittedAt, reference_unrouted]
  exact answer_unrouted _ _ _ _

theorem matchedAt_unrouted (cmds : Nat → OrderCommand) (n : Nat) :
    matchedAt config (fun n => (cmds n).unrouted) n = (matchedAt config cmds n).unrouted := by
  rw [matchedAt, reference_unrouted, admittedAt_unrouted]
  exact congrArg (fun routed => routed.2.1) (matchingHandler_unrouted _ _ _)

theorem OwesSame.unrouted (cmd : OrderCommand) : OwesSame cmd cmd.unrouted :=
  ⟨rfl, rfl, rfl, rfl, rfl, rfl, rfl, rfl, (OwesSame.refl cmd).events⟩

theorem stamp_same {cmd cmd' : OrderCommand} (h : SameCommand cmd cmd') (stamp : Stamp) :
    SameCommand (stamp.apply cmd) (stamp.apply cmd') := by
  have hcommand := h.command
  unfold Stamp.apply
  split_ifs with hcmd' hcmd hcmd
  · exact ⟨hcommand, rfl, h.marketId, h.timeInForce, rfl⟩
  · exact absurd (hcommand ▸ hcmd') hcmd
  · exact absurd (hcommand.symm ▸ hcmd) hcmd'
  · exact ⟨hcommand, h.orderId, h.marketId, h.timeInForce, rfl⟩

theorem identify_eq (s : State) (n : Nat) (cmd : OrderCommand) : identify config s n cmd =
    if s.shared.replayEnabled then cmd else (config.stamp n).apply cmd := by
  unfold identify journalCommand
  split <;> rfl

/-- What journaling has stamped and archived: every slot it has visited in a live run, in their
order, and nothing while a replay is on. -/
structure Recorded (config : Config) (replayEnabled : Bool) (s : State) : Prop where
  flag : s.shared.replayEnabled = replayEnabled
  fresh : ∀ n, (s.slots n).ingested.Fresh
  waiting : ∀ n, s.seq .journaling ≤ n → SameCommand (s.slots n).ingested (s.slots n).cmd
  stamped : ∀ n < s.seq .journaling, SameCommand (identified config s n) (s.slots n).cmd
  archived : config.Archives → s.shared.archive.map Prod.fst =
    if replayEnabled then [] else List.range (s.seq .journaling)
  silent : replayEnabled = true →
    s.shared.archive = [] ∧ s.shared.emitted = [] ∧ s.shared.responses = []

namespace Recorded

variable {config} {replayEnabled : Bool} {s : State}

theorem start : Recorded config replayEnabled (start config replayEnabled) where
  flag := rfl
  fresh _ := show OrderCommand.Fresh {} by decide
  waiting _ _ := .refl _
  stamped n h := absurd h (Nat.not_lt_zero n)
  archived _ := by cases replayEnabled <;> rfl
  silent _ := ⟨rfl, rfl, rfl⟩

theorem publish (h : Recorded config replayEnabled s) (ho : (pipeline config).Ordered s)
    {cmd : OrderCommand} (hfresh : cmd.Fresh) :
    Recorded config replayEnabled (s.publish (Slot.of cmd)) := by
  have hother {n : Nat} (hn : n ≠ s.published) :
      (s.publish (Slot.of cmd)).slots n = s.slots n := Pipeline.State.publish_slots_ne s _ hn
  refine ⟨h.flag, ?_, ?_, ?_, h.archived, h.silent⟩
  · intro n
    by_cases hn : n = s.published
    · simpa [hn, Slot.of] using hfresh
    · rw [hother hn]
      exact h.fresh n
  · intro n hle
    by_cases hn : n = s.published
    · rw [hn, Pipeline.State.publish_slots_self]
      exact .refl _
    · rw [hother hn]
      exact h.waiting n hle
  · intro n hlt
    have hn : n < s.published := hlt.trans_le (ho.published .journaling)
    rw [identified_publish hn, hother hn.ne]
    exact h.stamped n hlt

theorem advance_journaling (h : Recorded config replayEnabled s) :
    Recorded config replayEnabled ((pipeline config).advance s .journaling) := by
  have hseq : ((pipeline config).advance s .journaling).seq .journaling =
      s.seq .journaling + 1 := Pipeline.advance_seq_self _ _
  have hother {n : Nat} (hn : n ≠ s.seq .journaling) :
      ((pipeline config).advance s .journaling).slots n = s.slots n :=
    Pipeline.advance_slots_ne _ _ hn
  refine ⟨h.flag, ?_, ?_, ?_, ?_, ?_⟩
  · intro n
    rw [advance_ingested]
    exact h.fresh n
  · intro n hle
    rw [hseq] at hle
    rw [hother (by omega)]
    exact h.waiting n (by omega)
  · intro n hlt
    rw [hseq] at hlt
    rw [identified_advance]
    by_cases hn : n = s.seq .journaling
    · subst hn
      rw [advance_cmd_self]
      change SameCommand (identify config s _ _) (identify config s _ _)
      rw [identify_eq, identify_eq]
      split
      · exact h.waiting _ le_rfl
      · exact stamp_same (h.waiting _ le_rfl) _
    · rw [hother hn]
      exact h.stamped n (by omega)
  · intro archives
    rw [hseq]
    change (s.shared.archive ++ ((journalCommand s.shared.replayEnabled
      (config.stamp (s.seq .journaling)) (config.publications .journaling (s.seq .journaling))
      (s.slots (s.seq .journaling)).cmd).2.map
        fun record => (s.seq .journaling, record)).toList).map Prod.fst = _
    rw [List.map_append, h.archived archives, h.flag]
    cases replayEnabled with
    | true => rfl
    | false =>
      simp only [journalCommand, Bool.false_eq_true, if_false, archives.published]
      exact List.range_succ.symm
  · intro hreplay
    have hshared : ((pipeline config).advance s .journaling).shared = (journalingHandler config
        (s.seq .journaling) s.shared (s.slots (s.seq .journaling)).cmd).1 := rfl
    rw [hshared, Replay.journalingHandler_replay (h.flag.trans hreplay)]
    exact h.silent hreplay

theorem advance_other (h : Recorded config replayEnabled s) {g : Handler} (hne : g ≠ .journaling) :
    Recorded config replayEnabled ((pipeline config).advance s g) := by
  have hseq : ((pipeline config).advance s g).seq .journaling = s.seq .journaling :=
    Pipeline.advance_seq_ne s g hne.symm
  have hsame (n : Nat) :
      SameCommand (s.slots n).cmd (((pipeline config).advance s g).slots n).cmd := by
    by_cases hn : n = s.seq g
    · rw [hn, advance_cmd_self]
      exact process_same hne _ _ _
    · rw [Pipeline.advance_slots_ne s g hn]
      exact .refl _
  refine ⟨(process_replayEnabled g _ _ _).trans h.flag, ?_, ?_, ?_, ?_, ?_⟩
  · intro n
    rw [advance_ingested]
    exact h.fresh n
  · intro n hle
    rw [advance_ingested]
    rw [hseq] at hle
    exact (h.waiting n hle).trans (hsame n)
  · intro n hlt
    rw [identified_advance]
    rw [hseq] at hlt
    exact (h.stamped n hlt).trans (hsame n)
  · intro archives
    rw [hseq]
    exact (congrArg (List.map Prod.fst) (process_archive hne _ _ _)).trans (h.archived archives)
  · intro hreplay
    obtain ⟨harchive, hemitted, hresponses⟩ := h.silent hreplay
    refine ⟨(process_archive hne _ _ _).trans harchive, ?_⟩
    by_cases hg : g = .events
    · subst hg
      have hshared : ((pipeline config).advance s .events).shared = (eventsHandler config
          (s.seq .events) s.shared (s.slots (s.seq .events)).cmd).1 := rfl
      rw [hshared, Replay.eventsHandler_replay (h.flag.trans hreplay)]
      exact ⟨hemitted, hresponses⟩
    · exact ⟨(process_emitted hg _ _ _).trans hemitted,
        (process_responses hg _ _ _).trans hresponses⟩

end Recorded

variable {config} {s t : State}

theorem Reaches.recorded {guard : Handler → State → Prop} {replayEnabled : Bool}
    (run : Reaches config guard replayEnabled s) : Recorded config replayEnabled s := by
  refine (run.invariant (Pipeline.Ordered.start _ _) Recorded.start ?_ ?_).2
  · intro s slot ho h ⟨cmd, hfresh, hslot⟩
    subst hslot
    exact h.publish ho hfresh
  · intro s g _ h _ _
    by_cases hg : g = .journaling
    · subst hg
      exact h.advance_journaling
    · exact h.advance_other hg

theorem Follows.sameOutcome_of_unrouted {cmds cmds' : Nat → OrderCommand}
    (h : Follows config cmds s) (h' : Follows config cmds' t) (hs : Pipeline.Drained s)
    (ht : Pipeline.Drained t) (hpublished : s.published = t.published)
    (hcmds : ∀ n, (cmds' n).unrouted = (cmds n).unrouted) : SameOutcome s t := by
  have hunrouted : (fun n => (cmds' n).unrouted) = fun n => (cmds n).unrouted := funext hcmds
  have hadmitted (n : Nat) :
      (admittedAt config cmds' n).unrouted = (admittedAt config cmds n).unrouted := by
    rw [← admittedAt_unrouted, hunrouted, admittedAt_unrouted]
  have hmatched (n : Nat) :
      (matchedAt config cmds' n).unrouted = (matchedAt config cmds n).unrouted := by
    rw [← matchedAt_unrouted, hunrouted, matchedAt_unrouted]
  apply h.sameOutcome_of h' hs ht hpublished
  · rw [← reference_unrouted, hunrouted, reference_unrouted]
  · intro n
    show planOf config (matchedAt config cmds' n).unrouted =
      planOf config (matchedAt config cmds n).unrouted
    rw [hmatched]
  · intro n
    show lockedFor config (admittedAt config cmds' n).unrouted =
      lockedFor config (admittedAt config cmds n).unrouted
    rw [hadmitted]
  · intro n
    show (matchedAt config cmds' n).unrouted.status = (matchedAt config cmds n).unrouted.status
    rw [hmatched]

theorem replayCommand_encode {cmd : OrderCommand} (hfresh : cmd.Fresh) (stamp : Stamp) :
    replayCommand (encodeOrderCommand (stamp.apply cmd)) = (stamp.apply cmd).unrouted := by
  obtain ⟨hstatus, hevents, hbalance, hl2, hsize⟩ := hfresh
  unfold replayCommand decodeOrderCommand encodeOrderCommand OrderCommand.unrouted Stamp.apply
  split <;> simp [hstatus, hevents, hbalance, hl2, hsize]

/-- What the engine has published are the commands of a recording, in their order. -/
def Replays (records : List OrderRecord) (t : State) : Prop :=
  ∀ n < t.published, (records.map replayCommand)[n]? = some (t.slots n).ingested

instance (records : List OrderRecord) (t : State) : Decidable (Replays records t) :=
  inferInstanceAs (Decidable (∀ n < _, _ = _))

/-- What is replayed of a faithful recording are the commands of the recorded run. -/
theorem Replays.identified (archives : config.Archives)
    (replays : Replays (s.shared.archive.map Prod.snd) t) (hs : Recorded config false s)
    (hfaithful : JournalFaithful config s) (ht : Recorded config true t) {n : Nat}
    (hn : n < t.published) :
    n < s.seq .journaling ∧ identified config t n = (identified config s n).unrouted := by
  have hget := replays n hn
  rw [List.map_map, List.getElem?_map] at hget
  obtain ⟨entry, hentry, hingested⟩ := Option.map_eq_some_iff.mp hget
  have hfst : (List.range (s.seq .journaling))[n]? = some entry.1 := by
    have harchived := hs.archived archives
    simp only [Bool.false_eq_true, if_false] at harchived
    rw [← harchived, List.getElem?_map, hentry]
    rfl
  obtain ⟨hlt, hentry1⟩ := List.getElem?_eq_some_iff.mp hfst
  rw [List.getElem_range] at hentry1
  rw [List.length_range] at hlt
  have hmem : (n, entry.2) ∈ s.shared.archive := by
    rw [hentry1]
    exact List.mem_of_getElem? hentry
  refine ⟨hlt, ?_⟩
  have hlive : Engine.identified config s n = (config.stamp n).apply (s.slots n).ingested := by
    simp [Engine.identified, identify_eq, hs.flag]
  have hreplayed : Engine.identified config t n = (t.slots n).ingested := by
    simp [Engine.identified, identify_eq, ht.flag]
  rw [hlive, hreplayed, ← hingested, Function.comp_apply, hfaithful.records n entry.2 hmem,
    expectedRecord, replayCommand_encode (hs.fresh n)]

/-- In step, and R1 comes after journaling. -/
def InStepJournaled (config : Config) (h : Handler) (s : State) : Prop :=
  InStep config h s ∧ AfterJournaling h s

instance (h : Handler) (s : State) : Decidable (InStepJournaled config h s) :=
  inferInstanceAs (Decidable (InStep config h s ∧
    ∀ shard, h = .risk shard → ownsUser shard _ = true → _ ≠ _ → _ < _))

/-- Whenever a live run stops, an engine that replays its recording decides every command as it
was decided before, and has the same books where it has matched as many commands. If both come
to their ends, the outcome is the same. The replay archives and publishes nothing. -/
theorem recovery_restores (archives : config.Archives)
    (run : Reaches config (InStepJournaled config) false s)
    (run' : Reaches config (InStep config) true t)
    (replays : Replays (s.shared.archive.map Prod.snd) t) :
    (∀ n, Matched s n → Matched t n →
        SameCommand (s.slots n).cmd (t.slots n).cmd ∧ OwesSame (s.slots n).cmd (t.slots n).cmd) ∧
      (∀ shard, s.seq (.matching shard) = t.seq (.matching shard) →
        s.shared.orderBooks shard = t.shared.orderBooks shard) ∧
      (Pipeline.Drained s → Pipeline.Drained t → s.published = t.published → SameOutcome s t) ∧
      t.shared.archive = [] ∧ t.shared.emitted = [] ∧ t.shared.responses = [] := by
  have hs := run.recorded
  have ht := run'.recorded
  have hfaithful : JournalFaithful config s := (Reaches.journalProgress archives
    (run.mono (fun _ _ offered => offered) fun _ _ h => h.2)).faithful
  have hsame {n : Nat} (hn : n < t.published) := replays.identified archives hs hfaithful ht hn
  have hfollows : Follows config (identified config s) s :=
    Reaches.follows (run.mono (fun _ _ offered => offered) fun _ _ h => h.1) fun _ _ => rfl
  have hfollows' : Follows config (fun n => (identified config s n).unrouted) t :=
    run'.follows fun n hn => (hsame hn).2
  refine ⟨?_, ?_, ?_, ht.silent rfl⟩
  · intro n hmatched hmatched'
    have hn : n < t.published := hmatched'.trans_le (run'.ordered.published _)
    have hjournaled : n < t.seq .journaling :=
      hmatched'.trans_le (run'.ordered.staged .journaling _ Nat.zero_lt_one)
    obtain ⟨hrecorded, hidentified⟩ := hsame hn
    constructor
    · have hunrouted : SameCommand (identified config s n) (identified config t n) := by
        rw [hidentified]
        exact ⟨rfl, rfl, rfl, rfl, rfl⟩
      exact ((hs.stamped n hrecorded).symm.trans hunrouted).trans (ht.stamped n hjournaled)
    · have hreplayed := (hfollows'.slots n hn).matched hmatched'
      have hlive := (hfollows.slots n (hrecorded.trans_le (run.ordered.published _))).matched hmatched
      rw [matchedAt_unrouted] at hreplayed
      exact hlive.symm.trans ((OwesSame.unrouted _).trans hreplayed)
  · intro shard heq
    rw [hfollows.books shard, hfollows'.books shard, heq, reference_unrouted]
  · intro hdrained hdrained' hpublished
    exact hfollows.sameOutcome_of_unrouted hfollows' hdrained hdrained' hpublished fun _ => rfl

/-- User 3 has deposited and bid once; the second bid is in the archive, and not yet at R1. -/
def interrupted : State :=
  (pipeline (plainConfig [1])).execute (start (plainConfig [1]) false)
    (separately ((bidTwice 20).take 2) ++
      [.publish (Slot.of (.limit .bid .gtc 0 3 10 1)), .advance .journaling])

def recoveredCommands : List OrderCommand :=
  (interrupted.shared.archive.map Prod.snd).map replayCommand

def recovered : State :=
  (pipeline (plainConfig [1])).execute (start (plainConfig [1]) true)
    (separately recoveredCommands)

theorem recovery_restores_interrupted :
    (∀ n, Matched interrupted n → Matched recovered n →
        SameCommand (interrupted.slots n).cmd (recovered.slots n).cmd ∧
          OwesSame (interrupted.slots n).cmd (recovered.slots n).cmd) ∧
      (∀ shard, interrupted.seq (.matching shard) = recovered.seq (.matching shard) →
        interrupted.shared.orderBooks shard = recovered.shared.orderBooks shard) ∧
      (Pipeline.Drained interrupted → Pipeline.Drained recovered →
        interrupted.published = recovered.published → SameOutcome interrupted recovered) ∧
      recovered.shared.archive = [] ∧ recovered.shared.emitted = [] ∧
      recovered.shared.responses = [] := by
  have hlive : Reaches (plainConfig [1]) (InStepJournaled (plainConfig [1])) false interrupted :=
    @Reaches.of_schedule _ (bidTwice 20) _ _ _ (by decide) (by decide +kernel)
  have hreplay : Reaches (plainConfig [1]) (InStep (plainConfig [1])) true recovered :=
    @Reaches.of_schedule _ recoveredCommands _ _ _ (by decide +kernel) (by decide +kernel)
  exact recovery_restores (archives_plainConfig [1]) hlive hreplay (by decide +kernel)

/-- `replay_control.disable()`. -/
def disableReplay (s : State) : State :=
  { s with shared := { s.shared with replayEnabled := false } }

theorem Steady.disableReplay (h : Steady config s) : Steady config (disableReplay s) :=
  ⟨⟨h.books.command, h.books.home, h.books.shape, h.books.cached, h.books.origin, h.books.opened⟩,
    ⟨h.commands.fresh, h.commands.idle, h.commands.makers, h.commands.listed⟩,
    ⟨h.ledger.covered, h.ledger.flow, h.ledger.words, h.ledger.settled, h.ledger.fees⟩⟩

theorem Follows.disableReplay {cmds : Nat → OrderCommand} (h : Follows config cmds s)
    (hdrained : Pipeline.Drained s) : Follows config cmds (disableReplay s) where
  slots n hn := by
    have hmatched : Matched s n := by
      rw [Matched, hdrained]
      exact hn
    have hpassed : Passed s n := by
      rw [Passed, hdrained]
      exact hn
    exact ⟨fun hp => absurd hpassed hp, fun _ hm => absurd hmatched hm,
      fun hm => absurd hmatched hm, fun hm => absurd hmatched hm, (h.slots n hn).matched⟩
  books := h.books
  accounts := ⟨h.accounts.available, h.accounts.locked⟩

theorem ingested_of_reaches {guard : Handler → State → Prop} {init : State}
    (run : (pipeline config).Reaches Offered guard init s) :
    s.shared.replayEnabled = init.shared.replayEnabled ∧ init.published ≤ s.published ∧
      ∀ n < init.published, (s.slots n).ingested = (init.slots n).ingested := by
  induction run with
  | refl => exact ⟨rfl, le_rfl, fun _ _ => rfl⟩
  | tail _ step ih =>
    obtain ⟨hflag, hle, hkept⟩ := ih
    cases step with
    | publish slot _ =>
      refine ⟨hflag, hle.trans (Nat.le_succ _), fun n hn => ?_⟩
      rw [Pipeline.State.publish_slots_ne _ _ (Nat.ne_of_lt (hn.trans_le hle))]
      exact hkept n hn
    | advance h _ _ =>
      refine ⟨(process_replayEnabled h _ _ _).trans hflag, hle, fun n hn => ?_⟩
      rw [advance_ingested]
      exact hkept n hn

theorem stamp_unrouted_idem (stamp : Stamp) (cmd : OrderCommand) :
    stamp.apply (stamp.apply cmd).unrouted = (stamp.apply cmd).unrouted := by
  by_cases hcmd : cmd.command ≠ .cancelOrder
  · have hstamped : stamp.apply cmd =
        { cmd with orderId := stamp.orderId, timestamp := stamp.timestamp } := if_pos hcmd
    rw [hstamped]
    exact if_pos hcmd
  · have hstamped : stamp.apply cmd = { cmd with timestamp := stamp.timestamp } := if_neg hcmd
    rw [hstamped]
    exact if_neg hcmd

/-- A restart shows in nothing but the gateways of the replayed commands: an engine that has
replayed the recording of a stopped run, has come to its end and goes on with live commands
leaves what an engine leaves that was never stopped. -/
theorem restart_transparent {u r : State} (archives : config.Archives)
    (stopped : Reaches config (InStepJournaled config) false s)
    (replayed : Reaches config (InStep config) true t)
    (replays : Replays (s.shared.archive.map Prod.snd) t) (drained : Pipeline.Drained t)
    (restarted : (pipeline config).Reaches Offered (InStep config) (disableReplay t) r)
    (unstopped : Reaches config (InStep config) false u)
    (before : ∀ n < t.published, (u.slots n).ingested = (s.slots n).ingested)
    (later : ∀ n < r.published, t.published ≤ n →
      (r.slots n).ingested = (u.slots n).ingested)
    (hr : Pipeline.Drained r) (hu : Pipeline.Drained u) (hpublished : u.published = r.published) :
    SameOutcome u r := by
  have hs := stopped.recorded
  have ht := replayed.recorded
  have hfaithful : JournalFaithful config s := (Reaches.journalProgress archives
    (stopped.mono (fun _ _ offered => offered) fun _ _ h => h.2)).faithful
  have hlive {v : State} (hflag : v.shared.replayEnabled = false) (n : Nat) :
      identified config v n = (config.stamp n).apply (v.slots n).ingested := by
    simp [identified, identify_eq, hflag]
  have hreplayed (n : Nat) : identified config t n = (t.slots n).ingested := by
    simp [identified, identify_eq, ht.flag]
  obtain ⟨hflag, -, hkept⟩ := ingested_of_reaches restarted
  have hrecorded : ∀ n < t.published,
      identified config t n = (identified config u n).unrouted := by
    intro n hn
    obtain ⟨-, hsame⟩ := replays.identified archives hs hfaithful ht hn
    rw [hsame, hlive hs.flag, hlive unstopped.recorded.flag, before n hn]
  -- the commands as the restarted engine has them: those it has replayed have lost their gateways
  let cmds := fun n =>
    if n < t.published then (identified config u n).unrouted else identified config u n
  have hcmds : ∀ n < r.published, identified config r n = cmds n := by
    intro n hn
    rw [hlive hflag]
    by_cases hreplay : n < t.published
    · have hsame := (hkept n hreplay).trans ((hreplayed n).symm.trans (hrecorded n hreplay))
      rw [hlive unstopped.recorded.flag] at hsame
      simp only [cmds, if_pos hreplay, hlive unstopped.recorded.flag]
      rw [hsame, stamp_unrouted_idem]
    · simp only [cmds, if_neg hreplay, hlive unstopped.recorded.flag]
      rw [later n hn (Nat.le_of_not_lt hreplay)]
  obtain ⟨hsteady, hfollows⟩ := follows_of_reaches replayed (Pipeline.Ordered.start _ _)
    (.start true) (.start true) fun n hn => (hrecorded n hn).trans (if_pos hn).symm
  have hrestarted : Follows config cmds r := (follows_of_reaches restarted
    ⟨replayed.ordered.published, replayed.ordered.staged⟩ hsteady.disableReplay
    (hfollows.disableReplay drained) hcmds).2
  have hunstopped : Follows config (identified config u) u := unstopped.follows fun _ _ => rfl
  apply hunstopped.sameOutcome_of_unrouted hrestarted hu hr hpublished
  intro n
  by_cases hreplay : n < t.published
  · simp only [cmds, if_pos hreplay]
    rfl
  · simp only [cmds, if_neg hreplay]

/-- The first two commands of the recording are replayed, and the third is sent again. -/
def replayedTwo : State :=
  (pipeline (plainConfig [1])).execute (start (plainConfig [1]) true)
    (separately (recoveredCommands.take 2))

def resumed : State :=
  (pipeline (plainConfig [1])).execute (disableReplay replayedTwo)
    (separately [.limit .bid .gtc 0 3 10 1])

theorem restart_transparent_resumed : SameOutcome (afterBids 20 together) resumed := by
  have hstopped : Reaches (plainConfig [1]) (InStepJournaled (plainConfig [1])) false interrupted :=
    @Reaches.of_schedule _ (bidTwice 20) _ _ _ (by decide) (by decide +kernel)
  have hreplayed : Reaches (plainConfig [1]) (InStep (plainConfig [1])) true replayedTwo :=
    @Reaches.of_schedule _ recoveredCommands _ _ _ (by decide +kernel) (by decide +kernel)
  have hpossible : (pipeline (plainConfig [1])).Possible (offers (bidTwice 20))
      (InStep (plainConfig [1])) (disableReplay replayedTwo)
      (separately [.limit .bid .gtc 0 3 10 1]) := by decide +kernel
  have hresumed : (pipeline (plainConfig [1])).Reaches Offered (InStep (plainConfig [1]))
      (disableReplay replayedTwo) resumed :=
    hpossible.reaches.mono (fun _ _ => offers.offered (by decide)) fun _ _ h => h
  have htogether : Reaches (plainConfig [1]) (InStep (plainConfig [1])) false
      (afterBids 20 together) :=
    @Reaches.of_schedule _ (bidTwice 20) _ _ _ (by decide) (by decide +kernel)
  exact restart_transparent (archives_plainConfig [1]) hstopped hreplayed (by decide +kernel)
    (by unfold Pipeline.Drained; decide +kernel) hresumed htogether (by decide +kernel)
    (by decide +kernel) (by unfold Pipeline.Drained; decide +kernel)
    (by unfold Pipeline.Drained; decide +kernel) (by decide +kernel)

end Engine

end VexCore
