import VexCore.Ledger.Convergence
import VexCore.Ledger.Determinism
import VexCore.Server.EventRuns
import VexCore.Server.Sharding

/-!
# The pipeline against one matching engine

Four matching shards, pipelined with everything around them, against a single matching engine
that takes the same commands one at a time and publishes each before the next. Whatever R1 has
made of the commands, both have the same books and the same log of published events.
-/

namespace VexCore

open Framework

theorem Settles.trans {a b c : OrderCommand} (hab : Settles a b) (hbc : Settles b c) :
    Settles a c where
  fields := by
    have hb := hab.fields
    have hc := hbc.fields
    rw [hb] at hc
    exact hc
  events := Engine.OwesSame.rebalanced_trans hab.events hbc.events

/-- A matching engine without shards, before the first command. -/
def Config.openFloor (config : Config) : Floor where
  router :=
    { orderBooks := (config.markets.map fun m =>
        (⟨m.1, .new m.1⟩ : Sigma fun _ : Nat => OrderBook)).toFinmap
      shardId := 0
      shardMask := 0 }
  cache := config.openPriceCache
  arrived := []
  published := []
  log := []

namespace Engine

/-- What journaling and R1 may have made of a command: its stamp, its status and its balance are
theirs to write, and the price of a market bid. -/
structure Admits (cmd admitted : OrderCommand) : Prop where
  fields : admitted = { cmd with
    orderId := admitted.orderId
    timestamp := admitted.timestamp
    price := admitted.price
    status := admitted.status
    balance := admitted.balance }
  price : ¬MarketBid cmd → admitted.price = cmd.price

theorem Admits.refl (cmd : OrderCommand) : Admits cmd cmd := ⟨rfl, fun _ => rfl⟩

theorem Admits.trans {a b c : OrderCommand} (hab : Admits a b) (hbc : Admits b c) :
    Admits a c where
  fields := by
    rw [hbc.fields, hab.fields]
  price h := by
    have hlimit : ¬MarketBid b := by
      rw [MarketBid, hab.price h, hab.fields]
      exact h
    exact (hbc.price hlimit).trans (hab.price h)

theorem answer_price {specs : HashMap Nat CoreMarketSpecification} {bestAsk available : Nat}
    {cmd : OrderCommand} (h : ¬MarketBid cmd) :
    (answer specs bestAsk available cmd).price = cmd.price := by
  obtain ⟨command, hcommand⟩ : ∃ command, cmd.command = command := ⟨_, rfl⟩
  cases command with
  | cancelOrder => rw [answer_cancel hcommand]
  | depositFunds => rw [answer_deposit hcommand]
  | withdrawFunds => rw [answer_withdraw hcommand]
  | placeOrder =>
    rw [answer_place hcommand]
    unfold reservation reservedPrice
    cases specs.lookup cmd.marketId with
    | none => rfl
    | some spec =>
      simp only [if_neg h, Option.map_some, Option.bind_some]
      split <;> rfl

variable {config : Config} {s : State}

theorem journalingHandler_admits (n : Nat) (core : Core) (cmd : OrderCommand) :
    Admits cmd (journalingHandler config n core cmd).2 := by
  show Admits cmd (journalCommand core.replayEnabled (config.stamp n)
    (config.publications .journaling n) cmd).1
  unfold journalCommand Stamp.apply
  split
  · exact .refl cmd
  · simp only
    split <;> exact ⟨rfl, fun _ => rfl⟩

theorem riskHandler_admits (shard : Fin numRiskEngines) (n : Nat) (core : Core)
    (cmd : OrderCommand) : Admits cmd (riskHandler config shard n core cmd).2 := by
  cases howns : ownsUser shard cmd.userId with
  | false =>
    rw [riskHandler_skip howns]
    exact .refl cmd
  | true =>
    have hanswer := @RiskEngine.preProcessCommand_answer (core.riskEngine config shard) cmd
      (config.view n core.priceCache) howns
    show Admits cmd ((core.riskEngine config shard).preProcessCommand cmd
      (config.view n core.priceCache)).2
    rw [hanswer]
    refine ⟨?_, fun hlimit => answer_price hlimit⟩
    rw [answer_eq]

/-- The floor after `n` commands: as they arrive there, and as settlement hands them on. -/
def floorAt (config : Config) (arrived settled : Nat → OrderCommand) : Nat → Floor
  | 0 => config.openFloor
  | n + 1 => (floorAt config arrived settled n).step (arrived n) (settled n)

section FloorAt

variable {arrived arrived' settled settled' : Nat → OrderCommand} {n : Nat}

theorem floorAt_router (h : ∀ i < n, arrived i = arrived' i) :
    (floorAt config arrived settled n).router = (floorAt config arrived' settled' n).router ∧
      (floorAt config arrived settled n).cache = (floorAt config arrived' settled' n).cache := by
  induction n with
  | zero => exact ⟨rfl, rfl⟩
  | succ n ih =>
    obtain ⟨hrouter, hcache⟩ := ih fun i hi => h i (Nat.lt_succ_of_lt hi)
    simp only [floorAt, Floor.step, hrouter, hcache, h n (Nat.lt_succ_self n), and_self]

@[simp] theorem floorAt_arrived :
    (floorAt config arrived settled n).arrived = (List.range n).map arrived := by
  induction n with
  | zero => rfl
  | succ n ih => simp [floorAt, Floor.step, ih, List.range_succ]

@[simp] theorem floorAt_published :
    (floorAt config arrived settled n).published = (List.range n).map settled := by
  induction n with
  | zero => rfl
  | succ n ih => simp [floorAt, Floor.step, ih, List.range_succ]

@[simp] theorem floorAt_log : (floorAt config arrived settled n).log =
    (List.range n).flatMap fun i => publishEvents (settled i) := by
  induction n with
  | zero => rfl
  | succ n ih => simp [floorAt, Floor.step, ih, List.range_succ]

theorem mem_floorAt_placed {cmd : OrderCommand} :
    cmd ∈ (floorAt config arrived settled n).placed ↔
      ∃ i < n, arrived i = cmd ∧ cmd.command = .placeOrder := by
  simp only [Floor.placed, floorAt_arrived, List.mem_filter, List.mem_map, List.mem_range,
    decide_eq_true_eq]
  constructor
  · rintro ⟨⟨i, hi, harrived⟩, hplace⟩
    exact ⟨i, hi, harrived, hplace⟩
  · rintro ⟨i, hi, harrived, hplace⟩
    exact ⟨⟨i, hi, harrived⟩, hplace⟩

/-- It serves every market. -/
theorem floorAt_home (marketId : Nat) :
    (floorAt config arrived settled n).router.marketForThisHandler marketId = true := by
  have hmask : (floorAt config arrived settled n).router.shardMask = 0 := by
    induction n with
    | zero => rfl
    | succ n ih => exact ih
  simp [MatchingEngineRouter.marketForThisHandler, hmask]

end FloorAt

/-- The books by market. -/
abbrev byMarket (books : HashMap Nat OrderBook) (marketId : Nat) : Option OrderBook :=
  books.lookup marketId

/-- What the one matching engine makes of the command of slot `n`. -/
def decidedAt (config : Config) (arrived : Nat → OrderCommand) (n : Nat) : OrderCommand :=
  (matchingHandler (floorAt config arrived arrived n).router (arrived n)
    (floorAt config arrived arrived n).cache).2.1

theorem decidedAt_same (config : Config) (arrived : Nat → OrderCommand) (n : Nat) :
    SameCommand (arrived n) (decidedAt config arrived n) := matchingHandler_same _ _ _

/-- The run is that of one matching engine to which the commands came as in `arrived`, as far as
the matching shards have come. -/
structure Serial (config : Config) (arrived : Nat → OrderCommand) (s : State) : Prop where
  fresh : ∀ n, (s.slots n).ingested.Fresh
  admitted : ∀ n, Admits (s.slots n).ingested (arrived n)
  undecided : ∀ n, ¬IsFunds (arrived n) →
    (arrived n).status = .processing ∨ (arrived n).status = .rejected
  waiting : ∀ n, ¬Matched s n → (s.slots n).cmd = arrived n
  matched : ∀ n, Matched s n → Settles (decidedAt config arrived n) (s.slots n).cmd
  books : ∀ shard, AgreeOn byMarket (fun m => homeShard m shard) (s.shared.orderBooks shard)
    (floorAt config arrived arrived (s.seq (.matching shard))).router.orderBooks
  increasing : ∀ n, Matched s n → (arrived n).command = .placeOrder → ∀ i < n,
    (arrived i).command = .placeOrder → (arrived i).orderId < (arrived n).orderId

namespace Serial

variable {arrived : Nat → OrderCommand}

theorem same (h : Serial config arrived s) (n : Nat) : SameCommand (arrived n) (s.slots n).cmd := by
  by_cases hmatched : Matched s n
  · exact (decidedAt_same config arrived n).trans (h.matched n hmatched).same
  · rw [h.waiting n hmatched]
    exact .refl _

theorem command (h : Serial config arrived s) (n : Nat) :
    (arrived n).command = (s.slots n).ingested.command := by
  rw [(h.admitted n).fields]

theorem decidedAt_congr {arrived' : Nat → OrderCommand} {n : Nat}
    (h : ∀ i ≤ n, arrived i = arrived' i) :
    decidedAt config arrived n = decidedAt config arrived' n := by
  obtain ⟨hrouter, hcache⟩ := @floorAt_router config arrived arrived' arrived arrived' n
    fun i hi => h i hi.le
  rw [decidedAt, decidedAt, hrouter, hcache, h n le_rfl]

theorem start (replayEnabled : Bool) :
    Serial config (fun _ => {}) (start config replayEnabled) where
  fresh _ := show OrderCommand.Fresh {} by decide
  admitted _ := .refl _
  undecided _ _ := .inl rfl
  waiting _ _ := rfl
  matched n h := absurd h (Nat.not_lt_zero n)
  books shard m hhome := by
    have hshard := Shards.lookup_opened config.markets
      (fun id => id &&& (numMatchingEngines - 1) = shard.val) m
    have hall := Shards.lookup_opened config.markets (fun _ => true) m
    rw [decide_eq_true (show m &&& (numMatchingEngines - 1) = shard.val from hhome)] at hshard
    rw [List.filter_true] at hall
    exact hshard.trans hall.symm
  increasing n h := absurd h (Nat.not_lt_zero n)

theorem rewrite (h : Serial config arrived s) {t : State} {k : Nat} {slot : Slot}
    (hahead : ∀ shard, s.seq (.matching shard) ≤ k)
    (hslots : t.slots = Function.update s.slots k slot)
    (hseq : ∀ shard, t.seq (.matching shard) = s.seq (.matching shard))
    (hbooks : t.shared.orderBooks = s.shared.orderBooks) (hfresh : slot.ingested.Fresh)
    (hadmits : Admits slot.ingested slot.cmd)
    (hundecided : ¬IsFunds slot.cmd → slot.cmd.status = .processing ∨ slot.cmd.status = .rejected) :
    Serial config (Function.update arrived k slot.cmd) t := by
  have hself : t.slots k = slot := by simp [hslots]
  have hother {n : Nat} (hn : n ≠ k) : t.slots n = s.slots n := by simp [hslots, hn]
  have hunmatched : ¬Matched t k := by
    simp [Matched, hseq, hahead]
  have hmatched {n : Nat} (hn : n ≠ k) : Matched t n ↔ Matched s n := by
    simp [Matched, hother hn, hseq]
  have hlt {n : Nat} (hn : Matched s n) : n < k := hn.trans_le (hahead _)
  have hagree {n : Nat} (hn : n < k) : Function.update arrived k slot.cmd n = arrived n :=
    Function.update_of_ne (Nat.ne_of_lt hn) _ _
  refine ⟨?_, ?_, ?_, ?_, ?_, ?_, ?_⟩
  · intro n
    by_cases hn : n = k
    · rw [hn, hself]
      exact hfresh
    · rw [hother hn]
      exact h.fresh n
  · intro n
    by_cases hn : n = k
    · simp [hn, hself, hadmits]
    · simp [hn, hother hn, h.admitted n]
  · intro n
    by_cases hn : n = k
    · simpa [hn] using hundecided
    · simpa [hn] using h.undecided n
  · intro n
    by_cases hn : n = k
    · simp [hn, hself]
    · simpa [hn, hmatched hn, hother hn] using h.waiting n
  · intro n hpassed
    have hn : n ≠ k := by
      rintro rfl
      exact hunmatched hpassed
    have hold := (hmatched hn).mp hpassed
    have hsame : decidedAt config (Function.update arrived k slot.cmd) n =
        decidedAt config arrived n := decidedAt_congr fun i hi => hagree (hi.trans_lt (hlt hold))
    rw [hsame, hother hn]
    exact h.matched n hold
  · intro shard
    rw [hbooks, hseq, (floorAt_router fun i hi => hagree (hi.trans_le (hahead shard))).1]
    exact h.books shard
  · intro n hpassed hplace i hi hplace'
    have hn : n ≠ k := by
      rintro rfl
      exact hunmatched hpassed
    have hold := (hmatched hn).mp hpassed
    rw [hagree (hlt hold)] at hplace ⊢
    rw [hagree (hi.trans (hlt hold))] at hplace' ⊢
    exact h.increasing n hold hplace i hi hplace'

/-- A visit that leaves the books alone, and its command as settlement may. -/
theorem settle (h : Serial config arrived s) {g : Handler}
    (hsettles : Settles (found s g) (handed config s g))
    (hmatching : ∀ shard, g ≠ .matching shard) (hmatched : Matched s (s.seq g))
    (hbooks : ((pipeline config).advance s g).shared.orderBooks = s.shared.orderBooks) :
    Serial config arrived ((pipeline config).advance s g) := by
  have hslot (n : Nat) : Matched ((pipeline config).advance s g) n ↔ Matched s n := by
    by_cases hn : n = s.seq g
    · rw [hn]
      exact matched_advance_self (hmatching _)
    · exact matched_advance_ne hn
  refine ⟨?_, ?_, h.undecided, ?_, ?_, ?_, ?_⟩
  · simpa [advance_ingested] using h.fresh
  · simpa [advance_ingested] using h.admitted
  · intro n hn
    rw [hslot] at hn
    have hne : n ≠ s.seq g := by
      rintro rfl
      exact hn hmatched
    rw [Pipeline.advance_slots_ne s g hne]
    exact h.waiting n hn
  · intro n hn
    by_cases hself : n = s.seq g
    · subst hself
      rw [advance_cmd_found]
      exact (h.matched _ hmatched).trans hsettles
    · rw [Pipeline.advance_slots_ne s g hself]
      exact h.matched n ((hslot n).mp hn)
  · intro shard
    rw [hbooks, Pipeline.advance_seq_ne s g (hmatching shard).symm]
    exact h.books shard
  · intro n hn
    exact h.increasing n ((hslot n).mp hn)

theorem home_agrees (h : Serial config arrived s) {shard : Fin numMatchingEngines}
    (hshard : shard = marketShard (found s (.matching shard)).marketId) :
    handed config s (.matching shard) = decidedAt config arrived (s.seq (.matching shard)) ∧
      AgreeOn byMarket (homeShard · shard)
        (((pipeline config).advance s (.matching shard)).shared.orderBooks shard)
        (floorAt config arrived arrived (s.seq (.matching shard) + 1)).router.orderBooks := by
  obtain ⟨hunmatched, -⟩ := @matched_of_matching config s shard hshard
  have hcmd : found s (.matching shard) = arrived (s.seq (.matching shard)) :=
    h.waiting _ hunmatched
  have hhome : (s.shared.router shard).marketForThisHandler
      (arrived (s.seq (.matching shard))).marketId = true := by
    have hserves := marketForThisHandler_marketShard s.shared
      (found s (.matching shard)).marketId
    rw [← hshard, hcmd] at hserves
    exact hserves
  have hlocal := matchingHandler_local (s.shared.router shard) hhome
    (floorAt config arrived arrived (s.seq (.matching shard))).cache
  have hown : homeShard (arrived (s.seq (.matching shard))).marketId shard := by
    rw [← hcmd]
    exact homeShard_iff.mpr hshard
  obtain ⟨hbooks, hout⟩ := @Local.agree _ _ _ _ _ _ _ hlocal (homeShard · shard) hown _ _
    (h.books shard)
  -- neither its own mask nor the cache it reads makes a difference to the shard
  obtain ⟨hcacheBooks, hcacheCmd⟩ := matchingHandler_cache (s.shared.router shard)
    (arrived (s.seq (.matching shard))) s.shared.priceCache
      (floorAt config arrived arrived (s.seq (.matching shard))).cache
  have hone := @matchingHandler_congr
    { s.shared.router shard with
      orderBooks := (floorAt config arrived arrived (s.seq (.matching shard))).router.orderBooks }
    (floorAt config arrived arrived (s.seq (.matching shard))).router _ rfl hhome (floorAt_home _)
    (floorAt config arrived arrived (s.seq (.matching shard))).cache
  rw [hone] at hbooks hout
  have hdecided : handed config s (.matching shard) =
      decidedAt config arrived (s.seq (.matching shard)) := by
    show (matchingHandler (s.shared.router shard) (found s (.matching shard))
      s.shared.priceCache).2.1 = _
    rw [hcmd, hcacheCmd]
    exact congrArg Prod.fst hout
  have hvisited : ((pipeline config).advance s (.matching shard)).shared.orderBooks shard =
      (matchingHandler (s.shared.router shard) (arrived (s.seq (.matching shard)))
        (floorAt config arrived arrived (s.seq (.matching shard))).cache).1 := by
    rw [← hcacheBooks, ← hcmd]
    exact Function.update_self _ _ _
  rw [hvisited]
  exact ⟨hdecided, hbooks⟩

theorem advance_home (h : Serial config arrived s) {shard : Fin numMatchingEngines}
    (increase : IdsIncrease (.matching shard) s)
    (hshard : shard = marketShard (found s (.matching shard)).marketId) :
    Serial config arrived ((pipeline config).advance s (.matching shard)) := by
  obtain ⟨-, hmatched'⟩ := @matched_of_matching config s shard hshard
  obtain ⟨hdecided, hbooks⟩ := h.home_agrees hshard
  refine ⟨?_, ?_, h.undecided, ?_, ?_, ?_, ?_⟩
  · simpa [advance_ingested] using h.fresh
  · simpa [advance_ingested] using h.admitted
  · intro n hn
    have hne : n ≠ s.seq (.matching shard) := by
      rintro rfl
      exact hn hmatched'
    rw [matched_advance_ne hne] at hn
    rw [Pipeline.advance_slots_ne s _ hne]
    exact h.waiting n hn
  · intro n hn
    by_cases hself : n = s.seq (.matching shard)
    · rw [hself, advance_cmd_found, hdecided]
      exact .refl _
    · rw [Pipeline.advance_slots_ne s _ hself]
      exact h.matched n ((matched_advance_ne hself).mp hn)
  · intro other
    by_cases hother : other = shard
    · subst hother
      rw [Pipeline.advance_seq_self]
      exact hbooks
    · have hne : Handler.matching other ≠ .matching shard :=
        fun heq => hother (Handler.matching.inj heq)
      have hsame : ((pipeline config).advance s (.matching shard)).shared.orderBooks other =
          s.shared.orderBooks other := Function.update_of_ne hother _ _
      rw [Pipeline.advance_seq_ne s _ hne, hsame]
      exact h.books other
  · intro n hn hplace i hi hplace'
    by_cases hself : n = s.seq (.matching shard)
    · subst hself
      rw [← (h.same i).orderId, ← (h.same _).orderId]
      apply increase shard rfl _ i hi
      · rw [← h.command]
        exact hplace'
      · rw [← h.command]
        exact hplace
    · exact h.increasing n ((matched_advance_ne hself).mp hn) hplace i hi hplace'

theorem advance_away (h : Serial config arrived s) {shard : Fin numMatchingEngines}
    (haway : shard ≠ marketShard (found s (.matching shard)).marketId) :
    Serial config arrived ((pipeline config).advance s (.matching shard)) := by
  have hskip := routerHandler_skip (.inr haway) s.shared
  have hcmd : handed config s (.matching shard) = found s (.matching shard) :=
    congrArg Prod.snd hskip
  have hshared : ((pipeline config).advance s (.matching shard)).shared = s.shared :=
    congrArg Prod.fst hskip
  have hkept (n : Nat) : (((pipeline config).advance s (.matching shard)).slots n).cmd =
      (s.slots n).cmd := by
    by_cases hn : n = s.seq (.matching shard)
    · rw [hn, advance_cmd_found, hcmd]
      rfl
    · rw [Pipeline.advance_slots_ne s _ hn]
  have hslot (n : Nat) : Matched ((pipeline config).advance s (.matching shard)) n ↔
      Matched s n := by
    by_cases hn : n = s.seq (.matching shard)
    · rw [hn]
      exact matched_advance_self fun heq => haway (Handler.matching.inj heq)
    · exact matched_advance_ne hn
  refine ⟨?_, ?_, h.undecided, ?_, ?_, ?_, ?_⟩
  · simpa [advance_ingested] using h.fresh
  · simpa [advance_ingested] using h.admitted
  · simpa [hkept, hslot] using h.waiting
  · simpa [hkept, hslot] using h.matched
  · intro other
    rw [hshared]
    by_cases hother : other = shard
    · subst hother
      rw [Pipeline.advance_seq_self]
      apply (matchingHandler_local (floorAt config arrived arrived
        (s.seq (.matching other))).router (floorAt_home _) _).agree_right _ (h.books other)
      rw [← (h.same _).marketId, homeShard_iff]
      exact haway
    · have hne : Handler.matching other ≠ .matching shard :=
        fun heq => hother (Handler.matching.inj heq)
      rw [Pipeline.advance_seq_ne s _ hne]
      exact h.books other
  · intro n hn
    exact h.increasing n ((hslot n).mp hn)

theorem advance_admission (h : Serial config arrived s) (ho : (pipeline config).Ordered s)
    {g : Handler} (hstage : stage g = 0) (hg : ∀ shard, g ≠ .matching shard)
    (hstages : StagesInvariant config ((pipeline config).advance s g))
    (hadmits : Admits (found s g) (handed config s g))
    (hbooks : ((pipeline config).advance s g).shared.orderBooks = s.shared.orderBooks) :
    Serial config (Function.update arrived (s.seq g) (handed config s g))
      ((pipeline config).advance s g) := by
  have hahead (shard : Fin numMatchingEngines) : s.seq (.matching shard) ≤ s.seq g := by
    apply ho.staged g (.matching shard)
    show stage g < stage (.matching shard)
    rw [hstage]
    exact Nat.zero_lt_one
  have hunmatched : ¬Matched s (s.seq g) := Nat.not_lt.mpr (hahead _)
  have hunmatched' : ¬Matched ((pipeline config).advance s g) (s.seq g) := by
    rw [matched_advance_self (hg _)]
    exact hunmatched
  have hslot := hstages (s.seq g)
  rw [advance_cmd_found] at hslot
  refine @rewrite _ _ _ h _ _ ⟨(s.slots (s.seq g)).ingested, handed config s g⟩ hahead rfl ?_
    hbooks (h.fresh _) ?_ fun hnot => hslot.waiting hnot hunmatched'
  · intro shard
    exact Pipeline.advance_seq_ne s g (hg shard).symm
  · have hbefore := h.admitted (s.seq g)
    rw [← h.waiting _ hunmatched] at hbefore
    exact hbefore.trans hadmits

theorem advance (h : Serial config arrived s) (ho : (pipeline config).Ordered s) {g : Handler}
    (hstages : StagesInvariant config ((pipeline config).advance s g))
    (ready : (pipeline config).Ready s g) (increase : IdsIncrease g s) :
    ∃ arrived, Serial config arrived ((pipeline config).advance s g) := by
  cases g with
  | journaling =>
    exact ⟨_, h.advance_admission ho rfl (fun _ => Handler.noConfusion) hstages
      (journalingHandler_admits _ _ _) rfl⟩
  | risk shard =>
    exact ⟨_, h.advance_admission ho rfl (fun _ => Handler.noConfusion) hstages
      (riskHandler_admits shard _ _ _) rfl⟩
  | matching shard =>
    refine ⟨arrived, ?_⟩
    by_cases hshard : shard = marketShard (found s (.matching shard)).marketId
    · exact h.advance_home increase hshard
    · exact h.advance_away hshard
  | settlement shard =>
    exact ⟨arrived, h.settle (riskR2Handler_settles _ _) (fun _ => Handler.noConfusion)
      (matched_of_settlement ready) rfl⟩
  | events =>
    refine ⟨arrived, h.settle (.refl _) (fun _ => Handler.noConfusion) ?_ rfl⟩
    exact ready.2 (.matching _) (Nat.one_lt_succ_succ 1)

theorem publish (h : Serial config arrived s) (ho : (pipeline config).Ordered s)
    {cmd : OrderCommand} (hfresh : cmd.Fresh) :
    Serial config (Function.update arrived s.published cmd) (s.publish (Slot.of cmd)) := by
  apply @rewrite _ _ _ h (s.publish (Slot.of cmd)) _ (Slot.of cmd) (fun _ => ho.published _) rfl
    (fun _ => rfl) rfl hfresh
  · exact .refl cmd
  · exact fun _ => .inl hfresh.status

end Serial

/-- What is known of every state of a run in which ids increase. -/
theorem Reaches.traced {guard : Handler → State → Prop} {replayEnabled : Bool}
    (run : Reaches config guard replayEnabled s) (increase : ∀ h s, guard h s → IdsIncrease h s) :
    (pipeline config).Ordered s ∧ BooksInvariant config s ∧ CommandsInvariant config s ∧
      StagesInvariant config s ∧ ∃ arrived, Serial config arrived s := by
  apply run.invariant (Pipeline.Ordered.start _ _)
    ⟨.start replayEnabled, .start replayEnabled, .start replayEnabled, _, .start replayEnabled⟩
  · rintro s slot ho ⟨hb, hc, hs, arrived, hserial⟩ ⟨cmd, hfresh, rfl⟩
    exact ⟨hb.publish ho cmd, hc.publish hfresh, hs.publish ho hfresh, _,
      hserial.publish ho hfresh⟩
  · rintro s h ho ⟨hb, hc, hs, arrived, hserial⟩ ready admitted
    have increasing := increase h s admitted
    have hstages := hs.advance ho hb hc ready
    exact ⟨hb.advance ho ready increasing, hc.advance ho hb ready, hstages,
      hserial.advance ho hstages ready increasing⟩

/-- The events handler of a live run has published the slots it has visited. -/
theorem Reaches.published {guard : Handler → State → Prop} (run : Reaches config guard false s) :
    PublishedInvariant config s :=
  (run.invariant (Pipeline.Ordered.start _ _) ⟨rfl, rfl, rfl⟩
    (fun _ slot ho h _ => h.publish ho slot) fun _ g ho h _ _ => h.advance ho g).2

/-- The published sizes are those that `place_order` expects, in their word. -/
def Sized (s : State) : Prop :=
  ∀ n < s.published, (s.slots n).ingested.size < 2 ^ 64 ∧
    ((s.slots n).ingested.command = .placeOrder → 0 < (s.slots n).ingested.size)

instance (s : State) : Decidable (Sized s) :=
  inferInstanceAs (Decidable (∀ n < s.published, _ ∧ (_ → _)))

theorem openFloor_opened {m : Nat} {book : OrderBook}
    (h : config.openFloor.router.orderBooks.lookup m = some book) : book = .new m := by
  have hall := Shards.lookup_opened config.markets (fun _ => true) m
  rw [List.filter_true] at hall
  rw [Config.openFloor, hall] at h
  split at h
  · exact (Option.some.inj h).symm
  · cases h

namespace Serial

variable {arrived settled : Nat → OrderCommand} {n : Nat}

/-- A command comes to the one matching engine as it comes to the shards. -/
theorem arrives (h : Serial config arrived s) (sized : Sized s) (hpublished : n < s.published)
    (hmatched : Matched s n) : (floorAt config arrived settled n).Arrives (arrived n) := by
  have hadmits := (h.admitted n).fields
  obtain ⟨hfits, hpositive⟩ := sized n hpublished
  refine ⟨?_, ?_, ?_, ?_, ?_⟩
  · rw [hadmits]
    exact (h.fresh n).events
  · exact fun horder => h.undecided n (not_funds horder)
  · rw [h.command, hadmits]
    exact hpositive
  · rw [hadmits]
    exact hfits
  · intro hplace earlier hearlier
    obtain ⟨i, hi, rfl, hplace'⟩ := mem_floorAt_placed.mp hearlier
    exact h.increasing n hmatched hplace i hi hplace'

theorem floor_run (h : Serial config arrived s) (sized : Sized s)
    (hmatched : ∀ i < n, i < s.published ∧ Matched s i) :
    (floorAt config arrived (fun i => (s.slots i).cmd) n).Run := by
  induction n with
  | zero => exact .start _ _ fun m book => openFloor_opened
  | succ n ih =>
    obtain ⟨hpublished, hpassed⟩ := hmatched n (Nat.lt_succ_self n)
    obtain ⟨hrouter, hcache⟩ := @floorAt_router config arrived arrived (fun i => (s.slots i).cmd)
      arrived n fun _ _ => rfl
    refine (ih fun i hi => hmatched i (Nat.lt_succ_of_lt hi)).command (arrived n) _
      (h.arrives sized hpublished hpassed) ?_
    rw [hrouter, hcache]
    exact h.matched n hpassed

end Serial

/-- A run as floors, one for each number of commands that all matching shards have passed. -/
structure Floors (config : Config) (arrived : Nat → OrderCommand) (s : State) : Prop where
  admitted : ∀ n < s.published, Admits (s.slots n).ingested (arrived n)
  same : ∀ n, SameCommand (arrived n) (s.slots n).cmd
  run : ∀ n, (∀ shard, n ≤ s.seq (.matching shard)) →
    (floorAt config arrived (fun i => (s.slots i).cmd) n).Run
  log : s.shared.emitted.map Prod.snd =
    (floorAt config arrived (fun i => (s.slots i).cmd) (s.seq .events)).log
  books : ∀ m, (s.shared.orderBooks (marketShard m)).lookup m =
    (floorAt config arrived (fun i => (s.slots i).cmd)
      (s.seq (.matching (marketShard m)))).router.orderBooks.lookup m
  passed : ∀ shard, s.seq .events ≤ s.seq (.matching shard)
  ordered : s.seq .events ≤ s.published

theorem Reaches.floors {guard : Handler → State → Prop} (run : Reaches config guard false s)
    (increase : ∀ h s, guard h s → IdsIncrease h s) (sized : Sized s) :
    ∃ arrived, Floors config arrived s := by
  obtain ⟨ho, -, -, -, arrived, h⟩ := run.traced increase
  have hlog := run.published
  refine ⟨arrived, fun n _ => h.admitted n, h.same, ?_, ?_, ?_, ?_, ho.published _⟩
  · intro n hn
    apply h.floor_run sized
    intro i hi
    exact ⟨hi.trans_le ((hn 0).trans (ho.published _)), hi.trans_le (hn _)⟩
  · rw [floorAt_log, hlog.emitted, List.map_flatMap]
    apply List.flatMap_congr
    intro n _
    simp [outputsOf, Function.comp_def]
  · intro m
    have hbook := h.books (marketShard m) m (homeShard_iff.mpr rfl)
    rw [(@floorAt_router config arrived arrived arrived (fun i => (s.slots i).cmd) _
      fun _ _ => rfl).1] at hbook
    exact hbook
  · exact fun shard => ho.staged (.matching shard) .events (Nat.one_lt_succ_succ 1)

/-- Every live run, under every schedule, is a run of one matching engine that takes the commands
one at a time: the events handler has emitted the log of that run, and each market has its
book there after as many commands as its shard has passed. -/
theorem pipeline_serializes {guard : Handler → State → Prop} (run : Reaches config guard false s)
    (increase : ∀ h s, guard h s → IdsIncrease h s) (sized : Sized s) :
    ∃ arrived : Nat → OrderCommand,
      (∀ n < s.published, Admits (s.slots n).ingested (arrived n)) ∧
      (∀ n, (∀ shard, n ≤ s.seq (.matching shard)) →
        (floorAt config arrived (fun i => (s.slots i).cmd) n).Run) ∧
      s.shared.emitted.map Prod.snd =
        (floorAt config arrived (fun i => (s.slots i).cmd) (s.seq .events)).log ∧
      ∀ m, (s.shared.orderBooks (marketShard m)).lookup m =
        (floorAt config arrived (fun i => (s.slots i).cmd)
          (s.seq (.matching (marketShard m)))).router.orderBooks.lookup m := by
  obtain ⟨arrived, h⟩ := run.floors increase sized
  exact ⟨arrived, h.admitted, h.run, h.log, h.books⟩

/-- User 4 offers ten, user 3 takes four of them and rests a bid, and user 4 cancels. -/
def sessionCommands : List OrderCommand :=
  [.funds .depositFunds 3 0 1000, .funds .depositFunds 4 1 500, .limit .ask .gtc 0 4 5 10,
    .limit .bid .ioc 0 3 6 4, .limit .bid .gtc 0 3 2 7, .cancelOf 3]

/-- Every stage takes all commands before the next stage takes the first. -/
def session : State :=
  (pipeline (plainConfig [1])).execute (start (plainConfig [1]) false) (together sessionCommands)

theorem session_reaches : Reaches (plainConfig [1]) IdsIncrease false session :=
  @Reaches.of_schedule _ sessionCommands _ _ _ (by decide) (by decide +kernel)

theorem session_sized : Sized session := by decide +kernel

theorem pipeline_serializes_session :
    ∃ arrived : Nat → OrderCommand,
      (∀ n < session.published, Admits (session.slots n).ingested (arrived n)) ∧
      (∀ n, (∀ shard, n ≤ session.seq (.matching shard)) →
        (floorAt (plainConfig [1]) arrived (fun i => (session.slots i).cmd) n).Run) ∧
      session.shared.emitted.map Prod.snd = (floorAt (plainConfig [1]) arrived
        (fun i => (session.slots i).cmd) (session.seq .events)).log ∧
      ∀ m, (session.shared.orderBooks (marketShard m)).lookup m =
        (floorAt (plainConfig [1]) arrived (fun i => (session.slots i).cmd)
          (session.seq (.matching (marketShard m)))).router.orderBooks.lookup m :=
  pipeline_serializes session_reaches (fun _ _ h => h) session_sized

end Engine

end VexCore
