import VexCore.Server.Locality
import VexCore.Server.Rejection

/-!
# Sharding

The engine with any power of two of risk shards and of matching shards, commands one after
another. In each stage every shard visits the command, in some order. Compared with one risk
engine and one router: replies, books and balances are the same.
-/

namespace VexCore

open Framework BalanceStore

/-- An order in which the `n` shards of a stage visit a command. -/
structure Schedule (n : Nat) where
  order : List (Fin n)
  nodup : order.Nodup
  complete : ∀ shard, shard ∈ order

/-- What the shards keep. -/
structure Shards (riskBits matchingBits : Nat) where
  balances : Fin (2 ^ riskBits) → BalanceStore
  orderBooks : Fin (2 ^ matchingBits) → HashMap Nat OrderBook
  priceCache : PriceCache

/-- The orders of the three stages on one command. -/
structure Turn (riskBits matchingBits : Nat) where
  risk : Schedule (2 ^ riskBits)
  matching : Schedule (2 ^ matchingBits)
  settlement : Schedule (2 ^ riskBits)

namespace Shards

variable {r m : Nat}

/-- Each router opens the books of its markets. -/
def start (markets : List (Nat × CoreMarketSpecification)) : Shards r m where
  balances _ := .new
  orderBooks shard := ((markets.filter fun e => e.1 &&& (2 ^ m - 1) = shard.val).map fun e =>
    (⟨e.1, .new e.1⟩ : Sigma fun _ : Nat => OrderBook)).toFinmap
  priceCache := ⟨(markets.map fun e =>
    (⟨e.1, {}⟩ : Sigma fun _ : Nat => MarketPrice)).toFinmap⟩

def specsOf (markets : List (Nat × CoreMarketSpecification)) :
    HashMap Nat CoreMarketSpecification :=
  (markets.map fun e => (⟨e.1, e.2⟩ : Sigma fun _ : Nat => CoreMarketSpecification)).toFinmap

variable (specs : HashMap Nat CoreMarketSpecification)

/-- The risk engine of a shard over a store. -/
def engineAt (r : Nat) (shard : Fin (2 ^ r)) (balances : BalanceStore) : RiskEngine :=
  { balances, symbolSpecs := specs, shardId := shard, shardMask := 2 ^ r - 1 }

def routerAt (m : Nat) (shard : Fin (2 ^ m)) (orderBooks : HashMap Nat OrderBook) :
    MatchingEngineRouter :=
  { orderBooks, shardId := shard, shardMask := 2 ^ m - 1 }

def riskHandler (s : Shards r m) (cmd : OrderCommand) (shard : Fin (2 ^ r)) :
    Shards r m × OrderCommand :=
  let (balances, cmd) :=
    (engineAt specs r shard (s.balances shard)).preProcessCommand cmd s.priceCache
  ({ s with balances := Function.update s.balances shard balances }, cmd)

def routerHandler (s : Shards r m) (cmd : OrderCommand) (shard : Fin (2 ^ m)) :
    Shards r m × OrderCommand :=
  let (orderBooks, cmd, priceCache) :=
    matchingHandler (routerAt m shard (s.orderBooks shard)) cmd s.priceCache
  ({ s with orderBooks := Function.update s.orderBooks shard orderBooks, priceCache }, cmd)

def settlementHandler (s : Shards r m) (cmd : OrderCommand) (shard : Fin (2 ^ r)) :
    Shards r m × OrderCommand :=
  let (balances, cmd, _) := riskR2Handler (engineAt specs r shard (s.balances shard)) cmd
  ({ s with balances := Function.update s.balances shard balances }, cmd)

/-- A command through R1, matching and R2. -/
def process (turn : Turn r m) (s : Shards r m) (cmd : OrderCommand) : Shards r m × OrderCommand :=
  let reserved := turn.risk.order.foldl (fun out k => out.1.riskHandler specs out.2 k) (s, cmd)
  let matched := turn.matching.order.foldl (fun out k => out.1.routerHandler out.2 k) reserved
  turn.settlement.order.foldl (fun out k => out.1.settlementHandler specs out.2 k) matched

/-- Commands one after another; the processed commands in their order. -/
def run (s : Shards r m) : List (OrderCommand × Turn r m) → Shards r m × List OrderCommand
  | [] => (s, [])
  | (cmd, turn) :: rest =>
      let (s, cmd) := s.process specs turn cmd
      let (s, cmds) := s.run rest
      (s, cmd :: cmds)

end Shards

/-- The one order of one shard. -/
def Schedule.single : Schedule (2 ^ 0) := ⟨[0], by decide, by decide⟩

def Turn.single : Turn 0 0 := ⟨.single, .single, .single⟩

/-- The shard of an identifier. -/
def shardOf (bits id : Nat) : Fin (2 ^ bits) :=
  ⟨id &&& (2 ^ bits - 1), by
    have := Nat.and_le_right (n := id) (m := 2 ^ bits - 1)
    have := Nat.two_pow_pos bits
    omega⟩

/-- The event chain when the makers in `done` have been settled: their events are as in `after`,
the others as in `before`. -/
def blend (done : Nat → Bool) (before after : List MatcherTradeEvent) : List MatcherTradeEvent :=
  List.zipWith (fun e o => if done e.makerUserId then o else e) before after

section Settlement

variable {shard whole : RiskEngine}

/-- The users of a risk engine. -/
def owned (engine : RiskEngine) (userId : Nat) : Prop :=
  engine.userIdForThisHandler userId = true

/-- The maker's half of `settleEvent`. -/
def makerHalf (engine : RiskEngine) (cmd : OrderCommand) (store : BalanceStore)
    (event : MatcherTradeEvent) : BalanceStore × MatcherTradeEvent :=
  if engine.userIdForThisHandler event.makerUserId then
    let (store, event, _) := engine.handleTradeEvent store event.makerUserId cmd.marketId
      cmd.side.opSide event none
    (store, event)
  else (store, event)

/-- The taker's half. -/
def takerHalf (engine : RiskEngine) (cmd : OrderCommand) (store : BalanceStore)
    (event : MatcherTradeEvent) : BalanceStore × MatcherTradeEvent :=
  if engine.userIdForThisHandler cmd.userId then
    let (store, event, _) := engine.handleTradeEvent store cmd.userId cmd.marketId cmd.side event
      (some cmd.price)
    (store, event)
  else (store, event)

theorem settleEvent_halves (engine : RiskEngine) (cmd : OrderCommand) (store : BalanceStore)
    (event : MatcherTradeEvent) :
    (settleEvent engine cmd store event).1 =
        (takerHalf engine cmd (makerHalf engine cmd store event).1
          (makerHalf engine cmd store event).2).1 ∧
      (settleEvent engine cmd store event).2.1 =
        (takerHalf engine cmd (makerHalf engine cmd store event).1
          (makerHalf engine cmd store event).2).2 := by
  by_cases hmaker : engine.userIdForThisHandler event.makerUserId = true
  · by_cases htaker : engine.userIdForThisHandler cmd.userId = true
    · simp only [settleEvent, makerHalf, takerHalf, if_pos hmaker, if_pos htaker, and_self]
    · simp only [settleEvent, makerHalf, takerHalf, if_pos hmaker, if_neg htaker, and_self]
  · by_cases htaker : engine.userIdForThisHandler cmd.userId = true
    · simp only [settleEvent, makerHalf, takerHalf, if_neg hmaker, if_pos htaker, and_self]
    · simp only [settleEvent, makerHalf, takerHalf, if_neg hmaker, if_neg htaker, and_self]

theorem makerHalf_rebalanced (engine : RiskEngine) (cmd : OrderCommand) (store : BalanceStore)
    (event : MatcherTradeEvent) : Rebalanced event (makerHalf engine cmd store event).2 := by
  unfold makerHalf
  split
  · exact handleTradeEvent_event _ _ _ _ _ _ _
  · exact .refl event

theorem Rebalanced.makerUserId {e e' : MatcherTradeEvent} (h : Rebalanced e e') :
    e'.makerUserId = e.makerUserId := by
  obtain ⟨balance, rfl⟩ := h
  rfl

variable (hspecs : shard.symbolSpecs = whole.symbolSpecs) (hwhole : ∀ userId, owned whole userId)
  (cmd : OrderCommand) {s t : BalanceStore} (h : AgreeOn holdings (owned shard) s t)
  {e : MatcherTradeEvent}

include hspecs hwhole h

theorem makerHalf_agree (howned : owned shard e.makerUserId) :
    AgreeOn holdings (owned shard) (makerHalf shard cmd s e).1 (makerHalf whole cmd t e).1 ∧
      (makerHalf shard cmd s e).2 = (makerHalf whole cmd t e).2 := by
  have hagree := (shard.handleTradeEvent_local e.makerUserId cmd.marketId cmd.side.opSide e
    none).agree howned h
  unfold makerHalf
  rw [if_pos (show shard.userIdForThisHandler e.makerUserId = true from howned),
    if_pos (show whole.userIdForThisHandler e.makerUserId = true from hwhole _),
    ← RiskEngine.handleTradeEvent_congr hspecs t]
  exact ⟨hagree.1, congrArg Prod.fst hagree.2⟩

theorem makerHalf_other {current : MatcherTradeEvent} (hcurrent : Rebalanced e current)
    (hother : ¬owned shard e.makerUserId) :
    makerHalf shard cmd s current = (s, current) ∧
      AgreeOn holdings (owned shard) s (makerHalf whole cmd t e).1 := by
  constructor
  · unfold makerHalf
    rw [if_neg]
    rwa [hcurrent.makerUserId]
  · unfold makerHalf
    rw [if_pos (show whole.userIdForThisHandler e.makerUserId = true from hwhole _),
      ← RiskEngine.handleTradeEvent_congr hspecs t]
    exact (shard.handleTradeEvent_local e.makerUserId cmd.marketId cmd.side.opSide e
      none).agree_right hother h

theorem takerHalf_agree {e' : MatcherTradeEvent} (he : Rebalanced e e') :
    AgreeOn holdings (owned shard) (takerHalf shard cmd s e).1 (takerHalf whole cmd t e').1 := by
  unfold takerHalf
  rw [if_pos (show whole.userIdForThisHandler cmd.userId = true from hwhole _),
    ← RiskEngine.handleTradeEvent_congr hspecs t]
  by_cases howned : owned shard cmd.userId
  · rw [if_pos (show shard.userIdForThisHandler cmd.userId = true from howned)]
    show AgreeOn holdings (owned shard) (shard.handleTradeEvent s _ _ _ e _).1
      (shard.handleTradeEvent t _ _ _ e' _).1
    rw [RiskEngine.handleTradeEvent_rebalanced shard t cmd.userId cmd.marketId cmd.side he]
    exact ((shard.handleTradeEvent_local cmd.userId cmd.marketId cmd.side e _).agree howned h).1
  · rw [if_neg (show ¬shard.userIdForThisHandler cmd.userId = true from howned)]
    exact (shard.handleTradeEvent_local cmd.userId cmd.marketId cmd.side e' _).agree_right howned h

theorem takerHalf_self (howned : owned shard cmd.userId) :
    (takerHalf shard cmd s e).2 = (takerHalf whole cmd t e).2 := by
  unfold takerHalf
  rw [if_pos (show whole.userIdForThisHandler cmd.userId = true from hwhole _),
    if_pos (show shard.userIdForThisHandler cmd.userId = true from howned),
    ← RiskEngine.handleTradeEvent_congr hspecs t]
  exact congrArg Prod.fst
    ((shard.handleTradeEvent_local cmd.userId cmd.marketId cmd.side e _).agree howned h).2

omit hspecs hwhole h in
theorem takerHalf_event (engine : RiskEngine) (store : BalanceStore)
    (hne : owned engine cmd.userId → cmd.userId ≠ e.makerUserId) :
    (takerHalf engine cmd store e).2 = e := by
  unfold takerHalf
  split
  · next howned => exact engine.handleTradeEvent_taker store cmd.marketId cmd.side (hne howned) _
  · rfl

variable (e) in
theorem settleEvent_agree {done : Nat → Bool}
    (hdone : ∀ userId, owned shard userId → done userId = false) {current : MatcherTradeEvent}
    (hcurrent : current = if done e.makerUserId then (settleEvent whole cmd t e).2.1 else e) :
    AgreeOn holdings (owned shard) (settleEvent shard cmd s current).1
        (settleEvent whole cmd t e).1 ∧
      (settleEvent shard cmd s current).2.1 =
        if done e.makerUserId || shard.userIdForThisHandler e.makerUserId then
          (settleEvent whole cmd t e).2.1 else e := by
  have hshard := settleEvent_halves shard cmd s current
  have hhalves := settleEvent_halves whole cmd t e
  rw [hshard.1, hshard.2]
  by_cases howned : owned shard e.makerUserId
  · -- the maker's shard: both run the maker's half on the same event
    rw [hdone _ howned, if_neg Bool.false_ne_true] at hcurrent
    subst hcurrent
    obtain ⟨hstore, hevent⟩ := makerHalf_agree hspecs hwhole cmd h howned
    have hmaker := (makerHalf_rebalanced whole cmd t current).makerUserId
    rw [if_pos (Bool.or_eq_true_iff.mpr (.inr howned)), hhalves.1, hhalves.2, hevent]
    refine ⟨takerHalf_agree hspecs hwhole cmd hstore (.refl _), ?_⟩
    by_cases hself : cmd.userId = current.makerUserId
    · exact takerHalf_self hspecs hwhole cmd hstore (hself ▸ howned)
    · rw [takerHalf_event cmd shard _ fun _ => hmaker ▸ hself,
        takerHalf_event cmd whole _ fun _ => hmaker ▸ hself]
  · -- another shard: at most the taker's half runs, and it leaves the event alone
    have hrebalanced : Rebalanced e current := by
      rw [hcurrent]
      split
      · exact settleEvent_rebalanced whole cmd t e
      · exact .refl e
    obtain ⟨hpass, hstore⟩ := makerHalf_other hspecs hwhole cmd h hrebalanced howned
    have hmatched := hrebalanced.symm.trans (makerHalf_rebalanced whole cmd t e)
    rw [hpass, hhalves.1]
    refine ⟨takerHalf_agree hspecs hwhole cmd hstore hmatched, ?_⟩
    have hne : owned shard cmd.userId → cmd.userId ≠ current.makerUserId := by
      rintro htaker heq
      exact howned (by rwa [← hrebalanced.makerUserId, ← heq])
    rw [takerHalf_event cmd shard s hne, hcurrent, Bool.eq_false_iff.mpr howned, Bool.or_false]

end Settlement

section Blend

variable {done : Nat → Bool}

@[simp] theorem blend_nil (after : List MatcherTradeEvent) : blend done [] after = [] := by
  simp [blend]

@[simp] theorem blend_cons (e o : MatcherTradeEvent) (es os : List MatcherTradeEvent) :
    blend done (e :: es) (o :: os) =
      (if done e.makerUserId then o else e) :: blend done es os := rfl

theorem blend_none {before after : List MatcherTradeEvent}
    (h : List.Forall₂ Rebalanced before after) : blend (fun _ => false) before after = before := by
  induction h with
  | nil => rfl
  | cons _ _ ih => simp [ih]

theorem blend_all {before after : List MatcherTradeEvent}
    (h : List.Forall₂ Rebalanced before after) (hdone : ∀ userId, done userId = true) :
    blend done before after = after := by
  induction h with
  | nil => rfl
  | cons _ _ ih => simp [ih, hdone]

end Blend

theorem settleEvents_agree {shard whole : RiskEngine}
    (hspecs : shard.symbolSpecs = whole.symbolSpecs) (hwhole : ∀ userId, owned whole userId)
    (cmd : OrderCommand) {done : Nat → Bool}
    (hdone : ∀ userId, owned shard userId → done userId = false) (events : List MatcherTradeEvent)
    {s t : BalanceStore} (h : AgreeOn holdings (owned shard) s t) :
    AgreeOn holdings (owned shard)
        (settleEvents shard cmd s (blend done events (settleEvents whole cmd t events).2.1)).1
        (settleEvents whole cmd t events).1 ∧
      (settleEvents shard cmd s (blend done events (settleEvents whole cmd t events).2.1)).2.1 =
        blend (fun userId => done userId || shard.userIdForThisHandler userId) events
          (settleEvents whole cmd t events).2.1 := by
  induction events generalizing s t with
  | nil => exact ⟨by simpa [settleEvents] using h, by simp [settleEvents]⟩
  | cons e rest ih =>
    obtain ⟨hstore, hevent⟩ := settleEvent_agree hspecs hwhole cmd h e hdone rfl
    obtain ⟨hrest, hevents⟩ := ih hstore
    simp only [settleEvents, blend_cons]
    exact ⟨hrest, by rw [hevent, hevents]⟩

theorem finishTaker_local (engine : RiskEngine) (cmd : OrderCommand) :
    Local holdings cmd.userId fun s =>
      ((finishTaker engine s cmd).1, (finishTaker engine s cmd).2.1.balance) := by
  have hsnapshot : Local holdings cmd.userId fun s =>
      (s, (s.getBalance cmd.userId (baseAsset cmd.marketId),
        s.getBalance cmd.userId (quoteAsset cmd.marketId))) :=
    (getBalance_local cmd.userId (baseAsset cmd.marketId)).bind fun base =>
      (getBalance_local cmd.userId (quoteAsset cmd.marketId)).map fun quote => (base, quote)
  unfold finishTaker
  cases shouldHandleCancellation cmd with
  | true => exact (engine.handleCancellation_local cmd).bind fun _ => hsnapshot
  | false => exact hsnapshot

theorem settleEvents_congr (engine : RiskEngine) (cmd : OrderCommand)
    (carried : List MatcherTradeEvent) (balance : UserBalance × UserBalance) (store : BalanceStore)
    (events : List MatcherTradeEvent) :
    settleEvents engine { cmd with events := carried, balance } store events =
      settleEvents engine cmd store events := by
  induction events generalizing store with
  | nil => rfl
  | cons e rest ih =>
    have hevent : settleEvent engine { cmd with events := carried, balance } store e =
        settleEvent engine cmd store e := rfl
    simp only [settleEvents, hevent, ih]

theorem riskR2Handler_whole {whole : RiskEngine} (hwhole : ∀ userId, owned whole userId)
    {cmd : OrderCommand} (hsettles : ¬(cmd.status = .rejected ∨ cmd.status = .processed)) :
    (riskR2Handler whole cmd).1 =
        (finishTaker whole (settleEvents whole cmd whole.balances cmd.events).1 cmd).1 ∧
      (riskR2Handler whole cmd).2.1 = { cmd with
        events := (settleEvents whole cmd whole.balances cmd.events).2.1
        balance :=
          (finishTaker whole (settleEvents whole cmd whole.balances cmd.events).1
            cmd).2.1.balance } := by
  have htaker : whole.userIdForThisHandler cmd.userId = true := hwhole cmd.userId
  unfold riskR2Handler
  rw [if_neg hsettles]
  dsimp only
  rw [if_pos htaker]
  exact ⟨rfl, rfl⟩

theorem riskR2Handler_agree {shard whole : RiskEngine}
    (hspecs : shard.symbolSpecs = whole.symbolSpecs) (hwhole : ∀ userId, owned whole userId)
    {cmd : OrderCommand}
    (hsettles : ¬(cmd.status = .rejected ∨ cmd.status = .processed)) {done : Nat → Bool}
    (hdone : ∀ userId, owned shard userId → done userId = false)
    (h : AgreeOn holdings (owned shard) shard.balances whole.balances)
    (balance : UserBalance × UserBalance) :
    let settled := (riskR2Handler whole cmd).2.1
    let out := riskR2Handler shard
      { cmd with events := blend done cmd.events settled.events, balance }
    AgreeOn holdings (owned shard) out.1 (riskR2Handler whole cmd).1 ∧
      out.2.1 = { cmd with
        events := blend (fun userId => done userId || shard.userIdForThisHandler userId) cmd.events
          settled.events
        balance :=
          if shard.userIdForThisHandler cmd.userId then settled.balance else balance } := by
  obtain ⟨hstore, hcmd⟩ := riskR2Handler_whole hwhole hsettles
  obtain ⟨hagree, hevents⟩ := settleEvents_agree hspecs hwhole cmd hdone cmd.events h
  dsimp only
  rw [hstore, hcmd]
  have hlocal := finishTaker_local shard cmd
  have hfinish : ∀ store, finishTaker whole store cmd = finishTaker shard store cmd := by
    intro store
    unfold finishTaker
    rw [RiskEngine.handleCancellation_congr hspecs.symm]
  rw [hfinish]
  unfold riskR2Handler
  rw [if_neg hsettles]
  simp only [settleEvents_congr]
  by_cases htaker : owned shard cmd.userId
  · have hpass : shard.userIdForThisHandler cmd.userId = true := htaker
    rw [if_pos hpass, if_pos hpass]
    obtain ⟨hfinal, hbalance⟩ := hlocal.agree htaker hagree
    refine ⟨hfinal, ?_⟩
    dsimp only at hbalance
    rw [← hbalance, ← hevents]
    rfl
  · have hskip : ¬shard.userIdForThisHandler cmd.userId = true := htaker
    rw [if_neg hskip, if_neg hskip]
    refine ⟨hlocal.agree_right htaker hagree, ?_⟩
    rw [← hevents]

namespace Shards

variable {r m : Nat} {specs : HashMap Nat CoreMarketSpecification}

/-- What a single engine keeps looks, shard by shard, like what the shards keep. -/
structure Same (s : Shards r m) (t : Shards 0 0) : Prop where
  balances : ∀ k, AgreeOn holdings (fun userId => shardOf r userId = k) (s.balances k)
    (t.balances 0)
  orderBooks : ∀ k, AgreeOn (fun books id => books.lookup id) (fun id => shardOf m id = k)
    (s.orderBooks k) (t.orderBooks 0)
  priceCache : s.priceCache = t.priceCache

theorem owned_engineAt (shard : Fin (2 ^ r)) (balances : BalanceStore) :
    owned (engineAt specs r shard balances) = fun userId => shardOf r userId = shard := by
  funext userId
  apply propext
  show (userId &&& (2 ^ r - 1) == shard.val) = true ↔ _
  rw [beq_iff_eq]
  exact ⟨fun h => Fin.ext h, fun h => congrArg Fin.val h⟩

theorem owned_single (balances : BalanceStore) (userId : Nat) :
    owned (engineAt specs 0 0 balances) userId := by
  rw [owned_engineAt]
  exact Fin.ext (Nat.and_zero userId)

theorem userIdForThisHandler_engineAt (shard : Fin (2 ^ r)) (balances : BalanceStore)
    (userId : Nat) : (engineAt specs r shard balances).userIdForThisHandler userId =
      decide (shardOf r userId = shard) := by
  have h : owned (engineAt specs r shard balances) userId = (shardOf r userId = shard) := by
    rw [owned_engineAt]
  rw [Bool.eq_iff_iff, decide_eq_true_iff]
  exact Iff.of_eq h

/-- The settlement stage with the shards in `done` behind it. -/
structure Settling (specs : HashMap Nat CoreMarketSpecification) (s : Shards r m)
    (t : BalanceStore) (cmd : OrderCommand) (done : List (Fin (2 ^ r)))
    (out : Shards r m × OrderCommand) : Prop where
  settled : ∀ k ∈ done, AgreeOn holdings (fun userId => shardOf r userId = k) (out.1.balances k)
    (riskR2Handler (engineAt specs 0 0 t) cmd).1
  waiting : ∀ k, k ∉ done → AgreeOn holdings (fun userId => shardOf r userId = k)
    (out.1.balances k) t
  cmd : out.2 = { cmd with
    events := blend (fun userId => decide (shardOf r userId ∈ done)) cmd.events
      (riskR2Handler (engineAt specs 0 0 t) cmd).2.1.events
    balance := if shardOf r cmd.userId ∈ done then
      (riskR2Handler (engineAt specs 0 0 t) cmd).2.1.balance else cmd.balance }
  orderBooks : out.1.orderBooks = s.orderBooks
  priceCache : out.1.priceCache = s.priceCache

theorem Settling.step {s : Shards r m} {t : BalanceStore} {cmd : OrderCommand}
    {done : List (Fin (2 ^ r))} {out : Shards r m × OrderCommand}
    (h : Settling specs s t cmd done out)
    (hsettles : ¬(cmd.status = .rejected ∨ cmd.status = .processed)) {k : Fin (2 ^ r)}
    (hk : k ∉ done) :
    Settling specs s t cmd (done ++ [k]) (out.1.settlementHandler specs out.2 k) := by
  have hspecs : (engineAt specs r k (out.1.balances k)).symbolSpecs =
      (engineAt specs 0 0 t).symbolSpecs := rfl
  have hdone : ∀ userId, owned (engineAt specs r k (out.1.balances k)) userId →
      decide (shardOf r userId ∈ done) = false := by
    intro userId howned
    rw [owned_engineAt] at howned
    rw [decide_eq_false_iff_not, howned]
    exact hk
  have hbefore : AgreeOn holdings (owned (engineAt specs r k (out.1.balances k)))
      (out.1.balances k) t := by
    rw [owned_engineAt]
    exact h.waiting k hk
  have hagree := riskR2Handler_agree hspecs (owned_single t) hsettles hdone hbefore
    (if shardOf r cmd.userId ∈ done then (riskR2Handler (engineAt specs 0 0 t) cmd).2.1.balance
      else cmd.balance)
  dsimp only at hagree
  rw [← h.cmd, owned_engineAt] at hagree
  obtain ⟨hstore, hcmd⟩ := hagree
  have hmem : ∀ k' : Fin (2 ^ r), k' ∈ done ++ [k] ↔ k' ∈ done ∨ k' = k := by simp
  refine ⟨?_, ?_, ?_, h.orderBooks, h.priceCache⟩
  · intro k' hk'
    show AgreeOn holdings _ (Function.update out.1.balances k _ k') _
    by_cases heq : k' = k
    · subst heq
      rw [Function.update_self]
      exact hstore
    · rw [Function.update_of_ne heq]
      exact h.settled k' (((hmem k').mp hk').resolve_right heq)
  · intro k' hk'
    rw [hmem, not_or] at hk'
    show AgreeOn holdings _ (Function.update out.1.balances k _ k') _
    rw [Function.update_of_ne hk'.2]
    exact h.waiting k' hk'.1
  · show (riskR2Handler _ out.2).2.1 = _
    rw [hcmd]
    simp only [userIdForThisHandler_engineAt, hmem, Bool.decide_or, decide_eq_true_eq]
    by_cases htaker : shardOf r cmd.userId = k
    · simp [htaker]
    · simp [htaker]

theorem Settling.fold {s : Shards r m} {t : BalanceStore} {cmd : OrderCommand}
    (hsettles : ¬(cmd.status = .rejected ∨ cmd.status = .processed))
    (order : List (Fin (2 ^ r))) {done : List (Fin (2 ^ r))} {out : Shards r m × OrderCommand}
    (h : Settling specs s t cmd done out) (hnodup : (done ++ order).Nodup) :
    Settling specs s t cmd (done ++ order)
      (order.foldl (fun out k => out.1.settlementHandler specs out.2 k) out) := by
  induction order generalizing done out with
  | nil => rwa [List.append_nil]
  | cons k rest ih =>
    have hk : k ∉ done := by
      intro hmem
      exact (List.nodup_append.mp hnodup).2.2 k hmem k List.mem_cons_self rfl
    have happend : done ++ k :: rest = done ++ [k] ++ rest := by simp
    rw [happend] at hnodup ⊢
    exact ih (h.step hsettles hk) hnodup

theorem riskHandler_balances (s : Shards r m) (cmd : OrderCommand) (k : Fin (2 ^ r)) :
    (s.riskHandler specs cmd k).1.balances = Function.update s.balances k
      ((engineAt specs r k (s.balances k)).preProcessCommand cmd s.priceCache).1 := rfl

theorem routerHandler_orderBooks (s : Shards r m) (cmd : OrderCommand) (k : Fin (2 ^ m)) :
    (s.routerHandler cmd k).1.orderBooks = Function.update s.orderBooks k
      (matchingHandler (routerAt m k (s.orderBooks k)) cmd s.priceCache).1 := rfl

theorem riskHandler_skip (s : Shards r m) {cmd : OrderCommand} {k : Fin (2 ^ r)}
    (h : k ≠ shardOf r cmd.userId) : s.riskHandler specs cmd k = (s, cmd) := by
  have haway : (engineAt specs r k (s.balances k)).userIdForThisHandler cmd.userId = false := by
    rw [userIdForThisHandler_engineAt]
    exact decide_eq_false fun heq => h heq.symm
  have hpass : (engineAt specs r k (s.balances k)).preProcessCommand cmd s.priceCache =
      (s.balances k, cmd) := by
    rw [RiskEngine.preProcessCommand, haway]
    rfl
  simp only [riskHandler, hpass, Function.update_eq_self]

theorem marketForThisHandler_routerAt {k : Fin (2 ^ m)} (books : HashMap Nat OrderBook)
    (id : Nat) : (routerAt m k books).marketForThisHandler id = decide (k = shardOf m id) := by
  rw [Bool.eq_iff_iff, decide_eq_true_iff]
  show (2 ^ m - 1 == 0 || id &&& (2 ^ m - 1) == k.val) = true ↔ k = shardOf m id
  rw [Bool.or_eq_true, beq_iff_eq, beq_iff_eq]
  constructor
  · rintro (hmask | hid)
    · -- a single router serves every market
      have hpos := Nat.two_pow_pos m
      have hk := k.isLt
      have hid := (shardOf m id).isLt
      exact Fin.ext (by omega)
    · exact Fin.ext hid.symm
  · intro h
    exact .inr (congrArg Fin.val h).symm

theorem routerHandler_skip (s : Shards r m) {cmd : OrderCommand} {k : Fin (2 ^ m)}
    (h : k ≠ shardOf m cmd.marketId) : s.routerHandler cmd k = (s, cmd) := by
  have haway : (routerAt m k (s.orderBooks k)).marketForThisHandler cmd.marketId = false := by
    rw [marketForThisHandler_routerAt]
    exact decide_eq_false h
  have hpass : matchingHandler (routerAt m k (s.orderBooks k)) cmd s.priceCache =
      (s.orderBooks k, cmd, s.priceCache) := by
    unfold matchingHandler MatchingEngineRouter.processOrder
    rw [haway]
    split <;> rfl
  simp only [routerHandler, hpass, Function.update_eq_self]

theorem risk_stage (s : Shards r m) (cmd : OrderCommand) (schedule : Schedule (2 ^ r)) :
    schedule.order.foldl (fun out k => out.1.riskHandler specs out.2 k) (s, cmd) =
      s.riskHandler specs cmd (shardOf r cmd.userId) := by
  apply foldl_of_soleActor schedule.nodup (schedule.complete _)
  · intro k hk
    exact s.riskHandler_skip hk
  · intro k hk
    apply riskHandler_skip
    have huser : (s.riskHandler specs cmd (shardOf r cmd.userId)).2.userId = cmd.userId :=
      RiskEngine.preProcessCommand_userId _ _ _
    rwa [huser]

theorem matching_stage (s : Shards r m) (cmd : OrderCommand) (schedule : Schedule (2 ^ m)) :
    schedule.order.foldl (fun out k => out.1.routerHandler out.2 k) (s, cmd) =
      s.routerHandler cmd (shardOf m cmd.marketId) := by
  apply foldl_of_soleActor schedule.nodup (schedule.complete _)
  · intro k hk
    exact s.routerHandler_skip hk
  · intro k hk
    apply routerHandler_skip
    have hmarket : (s.routerHandler cmd (shardOf m cmd.marketId)).2.marketId = cmd.marketId :=
      (matchingHandler_same _ _ _).marketId
    rwa [hmarket]

variable (specs) {s : Shards r m} {t : Shards 0 0}

theorem Same.risk (h : Same s t) (cmd : OrderCommand) :
    Same (s.riskHandler specs cmd (shardOf r cmd.userId)).1 (t.riskHandler specs cmd 0).1 ∧
      (s.riskHandler specs cmd (shardOf r cmd.userId)).2 = (t.riskHandler specs cmd 0).2 := by
  have howns : ∀ store, (engineAt specs r (shardOf r cmd.userId) store).userIdForThisHandler
      cmd.userId = true := by
    intro store
    rw [userIdForThisHandler_engineAt]
    exact decide_eq_true rfl
  have hlocal := RiskEngine.preProcessCommand_local _
    (howns (s.balances (shardOf r cmd.userId))) t.priceCache
  -- the one engine computes on its store what the shard would compute on it
  have hone : (engineAt specs 0 0 (t.balances 0)).preProcessCommand cmd t.priceCache =
      (engineAt specs r (shardOf r cmd.userId) (t.balances 0)).preProcessCommand cmd
        t.priceCache := by
    apply RiskEngine.preProcessCommand_congr
    · rfl
    · rfl
    · exact owned_single _ _
    · exact howns _
  have hagree := hlocal.agree (by rfl) (h.balances (shardOf r cmd.userId))
  constructor
  · refine ⟨?_, h.orderBooks, h.priceCache⟩
    intro k
    rw [riskHandler_balances, riskHandler_balances, Function.update_self, hone, h.priceCache]
    by_cases hk : k = shardOf r cmd.userId
    · subst hk
      rw [Function.update_self]
      exact hagree.1
    · rw [Function.update_of_ne hk]
      exact hlocal.agree_right (fun heq => hk heq.symm) (h.balances k)
  · show ((engineAt specs r _ (s.balances _)).preProcessCommand cmd s.priceCache).2 =
      ((engineAt specs 0 0 (t.balances 0)).preProcessCommand cmd t.priceCache).2
    rw [hone, h.priceCache]
    exact hagree.2

theorem Same.matching (h : Same s t) (cmd : OrderCommand) :
    Same (s.routerHandler cmd (shardOf m cmd.marketId)).1 (t.routerHandler cmd 0).1 ∧
      (s.routerHandler cmd (shardOf m cmd.marketId)).2 = (t.routerHandler cmd 0).2 := by
  have hhome : ∀ books, (routerAt m (shardOf m cmd.marketId) books).marketForThisHandler
      cmd.marketId = true := by
    intro books
    rw [marketForThisHandler_routerAt]
    exact decide_eq_true rfl
  have hlocal := matchingHandler_local (routerAt m (shardOf m cmd.marketId) ∅) (hhome _)
    t.priceCache
  have hone : matchingHandler (routerAt 0 0 (t.orderBooks 0)) cmd t.priceCache =
      matchingHandler (routerAt m (shardOf m cmd.marketId) (t.orderBooks 0)) cmd t.priceCache := by
    have hsingle : (routerAt 0 0 (t.orderBooks 0)).marketForThisHandler cmd.marketId = true := rfl
    apply matchingHandler_congr
    · rfl
    · exact hsingle
    · exact hhome _
  have hagree := hlocal.agree (by rfl) (h.orderBooks (shardOf m cmd.marketId))
  have hresult : (matchingHandler (routerAt m (shardOf m cmd.marketId)
        (s.orderBooks (shardOf m cmd.marketId))) cmd s.priceCache).2 =
      (matchingHandler (routerAt 0 0 (t.orderBooks 0)) cmd t.priceCache).2 := by
    rw [hone, h.priceCache]
    exact hagree.2
  constructor
  · refine ⟨h.balances, ?_, congrArg Prod.snd hresult⟩
    intro k
    rw [routerHandler_orderBooks, routerHandler_orderBooks, Function.update_self, hone,
      h.priceCache]
    by_cases hk : k = shardOf m cmd.marketId
    · subst hk
      rw [Function.update_self]
      exact hagree.1
    · rw [Function.update_of_ne hk]
      exact hlocal.agree_right (fun heq => hk heq.symm) (h.orderBooks k)
  · exact congrArg Prod.fst hresult

theorem Same.settlement (h : Same s t) (cmd : OrderCommand) (schedule : Schedule (2 ^ r)) :
    Same (schedule.order.foldl (fun out k => out.1.settlementHandler specs out.2 k) (s, cmd)).1
        (t.settlementHandler specs cmd 0).1 ∧
      (schedule.order.foldl (fun out k => out.1.settlementHandler specs out.2 k) (s, cmd)).2 =
        (t.settlementHandler specs cmd 0).2 := by
  by_cases hskip : cmd.status = .rejected ∨ cmd.status = .processed
  · have hpass : ∀ {r m : Nat} (s : Shards r m) (k : Fin (2 ^ r)),
        s.settlementHandler specs cmd k = (s, cmd) := by
      intro r m s k
      have hskipped : riskR2Handler (engineAt specs r k (s.balances k)) cmd =
          (s.balances k, cmd, []) := by
        rw [riskR2Handler, if_pos hskip]
        rfl
      simp only [settlementHandler, hskipped, Function.update_eq_self]
    rw [hpass t, foldl_of_skips fun k _ => hpass s k]
    exact ⟨h, rfl⟩
  · have hstart : Settling specs s (t.balances 0) cmd [] (s, cmd) := by
      refine ⟨by simp, fun k _ => h.balances k, ?_, rfl, rfl⟩
      have hchain := settleEvents_rebalanced (engineAt specs 0 0 (t.balances 0)) cmd (t.balances 0)
        cmd.events
      rw [(riskR2Handler_whole (owned_single (t.balances 0)) hskip).2]
      simp only [List.not_mem_nil, decide_false, if_false]
      exact (congrArg (fun events => { cmd with events }) (blend_none hchain)).symm
    have hend := hstart.fold hskip schedule.order (by simpa using schedule.nodup)
    rw [List.nil_append] at hend
    have hwhole := riskR2Handler_whole (@owned_single specs (t.balances 0)) hskip
    constructor
    · refine ⟨?_, ?_, hend.priceCache.trans h.priceCache⟩
      · intro k
        show AgreeOn holdings _ _ (Function.update t.balances 0 _ 0)
        rw [Function.update_self]
        exact hend.settled k (schedule.complete k)
      · rw [hend.orderBooks]
        exact h.orderBooks
    · rw [hend.cmd]
      show _ = (riskR2Handler (engineAt specs 0 0 (t.balances 0)) cmd).2.1
      rw [if_pos (schedule.complete _), hwhole.2]
      have hchain := settleEvents_rebalanced (engineAt specs 0 0 (t.balances 0)) cmd (t.balances 0)
        cmd.events
      have hdone : ∀ userId, decide (shardOf r userId ∈ schedule.order) = true :=
        fun userId => decide_eq_true (schedule.complete _)
      have hall := blend_all hchain hdone
      simp only [engineAt] at hall ⊢
      rw [hall]

theorem Same.process (h : Same s t) (turn : Turn r m) (cmd : OrderCommand) :
    Same (s.process specs turn cmd).1 (t.process specs .single cmd).1 ∧
      (s.process specs turn cmd).2 = (t.process specs .single cmd).2 := by
  obtain ⟨hrisk, hreserved⟩ := h.risk specs cmd
  obtain ⟨hmatching, hmatched⟩ := hrisk.matching (t.riskHandler specs cmd 0).2
  have hone : t.process specs .single cmd =
      (((t.riskHandler specs cmd 0).1.routerHandler (t.riskHandler specs cmd 0).2 0).1
        ).settlementHandler specs
          ((t.riskHandler specs cmd 0).1.routerHandler (t.riskHandler specs cmd 0).2 0).2 0 := rfl
  have hmany : s.process specs turn cmd = turn.settlement.order.foldl
      (fun out k => out.1.settlementHandler specs out.2 k)
      (((s.riskHandler specs cmd (shardOf r cmd.userId)).1.routerHandler
        (s.riskHandler specs cmd (shardOf r cmd.userId)).2
        (shardOf m (s.riskHandler specs cmd (shardOf r cmd.userId)).2.marketId))) := by
    rw [Shards.process, risk_stage, ← matching_stage _ _ turn.matching]
  rw [hmany, hone, hreserved]
  have hsettlement := hmatching.settlement specs
    ((t.riskHandler specs cmd 0).1.routerHandler (t.riskHandler specs cmd 0).2 0).2 turn.settlement
  rw [← hmatched] at hsettlement ⊢
  exact hsettlement

theorem run_cons (s : Shards r m) (step : OrderCommand × Turn r m)
    (rest : List (OrderCommand × Turn r m)) :
    s.run specs (step :: rest) =
      (((s.process specs step.2 step.1).1.run specs rest).1,
        (s.process specs step.2 step.1).2 ::
          ((s.process specs step.2 step.1).1.run specs rest).2) := rfl

theorem Same.run (h : Same s t) (steps : List (OrderCommand × Turn r m)) :
    Same (s.run specs steps).1 (t.run specs (steps.map fun step => (step.1, .single))).1 ∧
      (s.run specs steps).2 = (t.run specs (steps.map fun step => (step.1, .single))).2 := by
  induction steps generalizing s t with
  | nil => exact ⟨h, rfl⟩
  | cons step rest ih =>
    obtain ⟨hsame, hcmd⟩ := h.process specs step.2 step.1
    obtain ⟨hrest, hcmds⟩ := ih hsame
    rw [List.map_cons, run_cons, run_cons]
    exact ⟨hrest, congrArg₂ List.cons hcmd hcmds⟩

/-- What the shards of the engine keep. -/
def ofCore (core : Core) : Shards 2 2 := ⟨core.balances, core.orderBooks, core.priceCache⟩

theorem start_init (config : Config) (replayEnabled : Bool) :
    ofCore (Core.init config replayEnabled) = start config.markets := rfl

theorem process_ofCore {config : Config} {n : Nat} (hview : ∀ cache, config.view n cache = cache)
    (turn : Turn 2 2) (core : Core) (cmd : OrderCommand) :
    let visited := Engine.visitAll config n (turn.risk.order.map .risk ++
      turn.matching.order.map .matching ++ turn.settlement.order.map .settlement) core cmd
    (ofCore core).process (specsOf config.markets) turn cmd = (ofCore visited.1, visited.2) := by
  let keep (out : Core × OrderCommand) : Shards 2 2 × OrderCommand := (ofCore out.1, out.2)
  have hrisk : ∀ out shard, (keep out).1.riskHandler (specsOf config.markets) (keep out).2 shard =
      keep (Engine.process config (.risk shard) n out.1 out.2) := by
    intro out shard
    have hcache := hview out.1.priceCache
    simp only [keep, Engine.process, Engine.riskHandler, hcache]
    rfl
  have hmatching : ∀ out shard, (keep out).1.routerHandler (keep out).2 shard =
      keep (Engine.process config (.matching shard) n out.1 out.2) := fun _ _ => rfl
  have hsettlement : ∀ out shard,
      (keep out).1.settlementHandler (specsOf config.markets) (keep out).2 shard =
        keep (Engine.process config (.settlement shard) n out.1 out.2) := fun _ _ => rfl
  have hstart : (ofCore core, cmd) = keep (core, cmd) := rfl
  unfold Shards.process Engine.visitAll
  rw [List.foldl_append, List.foldl_append, List.foldl_map, List.foldl_map, List.foldl_map, hstart]
  dsimp only
  rw [List.foldl_hom keep hrisk, List.foldl_hom keep hmatching, List.foldl_hom keep hsettlement]

/-- The books a router opens, by market. -/
theorem lookup_opened (markets : List (Nat × CoreMarketSpecification)) (keep : Nat → Bool)
    (id : Nat) :
    ((((markets.filter fun e => keep e.1).map fun e =>
      (⟨e.1, .new e.1⟩ : Sigma fun _ : Nat => OrderBook)).toFinmap).lookup id) =
      if keep id && (markets.map Prod.fst).contains id then some (.new id) else none := by
  rw [Finmap.dlookup_list_toFinmap]
  induction markets with
  | nil => simp
  | cons e rest ih =>
    by_cases hid : e.1 = id
    · subst hid
      cases hkeep : keep e.1 <;> simp [hkeep]
      simpa [hkeep] using ih
    · have hcontains : ((e :: rest).map Prod.fst).contains id =
          (rest.map Prod.fst).contains id := by
        simp [Ne.symm hid]
      rw [hcontains, ← ih]
      cases hkeep : keep e.1 <;> simp [hkeep, Ne.symm hid]

theorem Same.start (markets : List (Nat × CoreMarketSpecification)) :
    Same (Shards.start markets : Shards r m) (Shards.start markets) where
  balances _ _ _ := rfl
  orderBooks k id hid := by
    have hmany := lookup_opened markets (fun id => id &&& (2 ^ m - 1) = k.val) id
    have hone := lookup_opened markets (fun id => id &&& (2 ^ 0 - 1) = (0 : Fin (2 ^ 0)).val) id
    have hhome : id &&& (2 ^ m - 1) = k.val := congrArg Fin.val hid
    have hsingle : id &&& (2 ^ 0 - 1) = (0 : Fin (2 ^ 0)).val := Nat.and_zero id
    rw [decide_eq_true hhome] at hmany
    rw [decide_eq_true hsingle] at hone
    exact hmany.trans hone.symm
  priceCache := rfl

/-- However many shards of each kind there are, and in whatever orders they visit the commands:
the processed commands are those of one risk engine and one router (status, trade events with
maker balances, taker balances), every book is the same, and every balance is the same. -/
theorem sharding_invisible (markets : List (Nat × CoreMarketSpecification)) (r m : Nat)
    (steps : List (OrderCommand × Turn r m)) :
    let many := (start markets : Shards r m).run (specsOf markets) steps
    let one := (start markets : Shards 0 0).run (specsOf markets)
      (steps.map fun step => (step.1, .single))
    many.2 = one.2 ∧
      (∀ marketId, (many.1.orderBooks (shardOf m marketId)).lookup marketId =
        (one.1.orderBooks 0).lookup marketId) ∧
      (∀ userId assetId, (many.1.balances (shardOf r userId)).getBalance userId assetId =
        (one.1.balances 0).getBalance userId assetId) ∧
      many.1.priceCache = one.1.priceCache := by
  obtain ⟨hsame, hcmds⟩ := (Same.start markets).run (specsOf markets) steps
  refine ⟨hcmds, ?_, ?_, hsame.priceCache⟩
  · intro marketId
    exact hsame.orderBooks _ marketId rfl
  · intro userId assetId
    exact congrFun (hsame.balances _ userId rfl) assetId

end Shards

end VexCore
