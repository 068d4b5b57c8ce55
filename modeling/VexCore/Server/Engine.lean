import Mathlib.Data.Fintype.Sum
import Mathlib.Tactic.DeriveFintype
import VexCore.Framework.Pipeline
import VexCore.Processors.Events
import VexCore.Processors.Journaling
import VexCore.Server.Handlers

/-!
# The core engine

The pipeline the engine builds: journaling and the four R1 shards, then matching, then R2, then
the events handler. Only `and_then` separates stages, so journaling and R1 share the first one.
-/

namespace VexCore

open Framework

/-- Number of risk engine shards. -/
abbrev numRiskEngines : Nat := 4

/-- Number of matching engine shards. -/
abbrev numMatchingEngines : Nat := 4

inductive Handler
  | journaling
  | risk (shard : Fin numRiskEngines)
  | matching (shard : Fin numMatchingEngines)
  | settlement (shard : Fin numRiskEngines)
  | events
deriving DecidableEq, Fintype

/-- What the engine is started with, and what it is told from outside: the stamp of each slot,
what the R1 stage of a slot sees of the shared price cache, and the publications as a handler finds
them when it comes to a slot. -/
structure Config where
  markets : List (Nat × CoreMarketSpecification)
  stamp : Nat → Stamp
  view : Nat → PriceCache → PriceCache
  publications : Handler → Nat → Networking.Publications Networking.Offer

namespace Config

def symbolSpecs (config : Config) : HashMap Nat CoreMarketSpecification :=
  (config.markets.map fun m => (⟨m.1, m.2⟩ : Sigma fun _ : Nat => CoreMarketSpecification)).toFinmap

/-- Each shard opens the books of its markets. -/
def openBooks (config : Config) (shard : Fin numMatchingEngines) : HashMap Nat OrderBook :=
  ((config.markets.filter fun m => m.1 &&& (numMatchingEngines - 1) = shard).map fun m =>
    (⟨m.1, .new m.1⟩ : Sigma fun _ : Nat => OrderBook)).toFinmap

def openPriceCache (config : Config) : PriceCache :=
  ⟨(config.markets.map fun m => (⟨m.1, {}⟩ : Sigma fun _ : Nat => MarketPrice)).toFinmap⟩

/-- Every record offered to the archive gets there. -/
def Archives (config : Config) : Prop :=
  ∀ n, (config.publications .journaling n).Takes Networking.maxGateways

theorem Archives.published {config : Config} (h : config.Archives) (n : Nat)
    (cmd : OrderCommand) : (config.publications .journaling n).publishToArchive cmd =
      some (encodeOrderCommand cmd) := Networking.Publications.send_of_takes (h n) cmd

end Config

/-- The state the handlers share. The records in the archive, the emitted events and the responses
sent are kept with the sequence number of their slot. -/
structure Core where
  balances : Fin numRiskEngines → BalanceStore
  orderBooks : Fin numMatchingEngines → HashMap Nat OrderBook
  priceCache : PriceCache
  replayEnabled : Bool
  archive : List (Nat × OrderRecord)
  emitted : List (Nat × Output)
  responses : List (Nat × Nat × OrderRecord)
  settlements : List Settlement

namespace Core

def init (config : Config) (replayEnabled : Bool) : Core :=
  { balances := fun _ => .new
    orderBooks := config.openBooks
    priceCache := config.openPriceCache
    replayEnabled
    archive := []
    emitted := []
    responses := []
    settlements := [] }

def riskEngine (core : Core) (config : Config) (shard : Fin numRiskEngines) : RiskEngine :=
  { balances := core.balances shard
    symbolSpecs := config.symbolSpecs
    shardId := shard
    shardMask := numRiskEngines - 1 }

def router (core : Core) (shard : Fin numMatchingEngines) : MatchingEngineRouter :=
  { orderBooks := core.orderBooks shard
    shardId := shard
    shardMask := numMatchingEngines - 1 }

end Core

/-- A ring slot: the command as it was published, and as the handlers have left it. -/
structure Slot where
  ingested : OrderCommand
  cmd : OrderCommand

def Slot.of (cmd : OrderCommand) : Slot := ⟨cmd, cmd⟩

namespace Engine

/-- The risk shard a user belongs to. -/
def ownsUser (shard : Fin numRiskEngines) (userId : Nat) : Bool :=
  userId &&& (numRiskEngines - 1) == shard

variable (config : Config)

def journalingHandler (n : Nat) (core : Core) (cmd : OrderCommand) : Core × OrderCommand :=
  let journaled := journalCommand core.replayEnabled (config.stamp n)
    (config.publications .journaling n) cmd
  ({ core with archive := core.archive ++ (journaled.2.map fun record => (n, record)).toList },
    journaled.1)

def riskHandler (shard : Fin numRiskEngines) (n : Nat) (core : Core) (cmd : OrderCommand) :
    Core × OrderCommand :=
  let checked := (core.riskEngine config shard).preProcessCommand cmd
    (config.view n core.priceCache)
  ({ core with balances := Function.update core.balances shard checked.1 }, checked.2)

def routerHandler (shard : Fin numMatchingEngines) (core : Core) (cmd : OrderCommand) :
    Core × OrderCommand :=
  let routed := matchingHandler (core.router shard) cmd core.priceCache
  ({ core with
      orderBooks := Function.update core.orderBooks shard routed.1
      priceCache := routed.2.2 },
    routed.2.1)

def settlementHandler (shard : Fin numRiskEngines) (core : Core) (cmd : OrderCommand) :
    Core × OrderCommand :=
  let settled := riskR2Handler (core.riskEngine config shard) cmd
  ({ core with
      balances := Function.update core.balances shard settled.1
      settlements := core.settlements ++ settled.2.2 },
    settled.2.1)

def eventsHandler (n : Nat) (core : Core) (cmd : OrderCommand) : Core × OrderCommand :=
  let handled := handleProcessedCommand core.replayEnabled (config.publications .events n) cmd
  ({ core with
      emitted := core.emitted ++ handled.1.map fun output => (n, output)
      responses := core.responses ++ (handled.2.map fun response => (n, response)).toList },
    cmd)

/-- What a handler does to a command in slot `n`. -/
def process (h : Handler) (n : Nat) (core : Core) (cmd : OrderCommand) : Core × OrderCommand :=
  match h with
  | .journaling => journalingHandler config n core cmd
  | .risk shard => riskHandler config shard n core cmd
  | .matching shard => routerHandler shard core cmd
  | .settlement shard => settlementHandler config shard core cmd
  | .events => eventsHandler config n core cmd

def stage : Handler → Nat
  | .journaling => 0
  | .risk _ => 0
  | .matching _ => 1
  | .settlement _ => 2
  | .events => 3

def pipeline : Pipeline Handler Core Slot where
  stage := stage
  handle h n core slot :=
    ((process config h n core slot.cmd).1,
      { slot with cmd := (process config h n core slot.cmd).2 })

abbrev State := Pipeline.State Handler Core Slot

def start (replayEnabled : Bool) : State :=
  Pipeline.State.start (Core.init config replayEnabled) (Slot.of {})

/-- Gateways publish freshly decoded commands. -/
def Offered (_ : Nat) (slot : Slot) : Prop := ∃ cmd : OrderCommand, cmd.Fresh ∧ slot = Slot.of cmd

/-- The runs of the engine whose handler steps the guard lets through. -/
abbrev Reaches (guard : Handler → State → Prop) (replayEnabled : Bool) (s : State) : Prop :=
  (pipeline config).Reaches Offered guard (start config replayEnabled) s

/-- Markets at scale one, without fees and slippage; every publication is there and takes all. -/
def plainConfig (markets : List Nat) : Config where
  markets := markets.map fun m => (m, ⟨1, 1, 1, 0, 0, 0⟩)
  stamp n := ⟨n + 1, n⟩
  view _ cache := cache
  publications _ _ := .connected

theorem archives_plainConfig (markets : List Nat) : (plainConfig markets).Archives := fun _ =>
  Networking.Publications.takes_connected le_rfl

/-- A possible schedule that publishes fresh commands is a run. -/
theorem Reaches.of_possible {offer : Nat → Slot → Prop} {guard : Handler → State → Prop}
    {replayEnabled : Bool} {actions : List (Pipeline.Action Handler Slot)}
    (h : (pipeline config).Possible offer guard (start config replayEnabled) actions)
    (hoffer : ∀ n slot, offer n slot → Offered n slot) :
    Reaches config guard replayEnabled
      ((pipeline config).execute (start config replayEnabled) actions) :=
  h.reaches.mono hoffer fun _ _ hguard => hguard

/-- The slots of given commands. -/
def offers (cmds : List OrderCommand) (_ : Nat) (slot : Slot) : Prop :=
  slot.ingested ∈ cmds ∧ slot.cmd = slot.ingested

instance (cmds : List OrderCommand) (n : Nat) (slot : Slot) : Decidable (offers cmds n slot) :=
  inferInstanceAs (Decidable (_ ∧ _))

theorem offers.offered {cmds : List OrderCommand} (fresh : ∀ cmd ∈ cmds, cmd.Fresh) {n : Nat}
    {slot : Slot} (h : offers cmds n slot) : Offered n slot := by
  obtain ⟨ingested, cmd⟩ := slot
  obtain ⟨hmem, heq⟩ := h
  simp only at hmem heq
  subst heq
  exact ⟨_, fresh _ hmem, rfl⟩

theorem Reaches.of_schedule {cmds : List OrderCommand} {guard : Handler → State → Prop}
    {replayEnabled : Bool} {actions : List (Pipeline.Action Handler Slot)}
    (fresh : ∀ cmd ∈ cmds, cmd.Fresh)
    (h : (pipeline config).Possible (offers cmds) guard (start config replayEnabled) actions) :
    Reaches config guard replayEnabled
      ((pipeline config).execute (start config replayEnabled) actions) :=
  Reaches.of_possible config h fun _ _ => offers.offered fresh

variable {config}

@[simp] theorem visit_ingested (s : State) (h : Handler) :
    ((pipeline config).visit s h).2.ingested = (s.slots (s.seq h)).ingested := rfl

theorem visit_cmd (s : State) (h : Handler) :
    ((pipeline config).visit s h).2.cmd =
      (process config h (s.seq h) s.shared (s.slots (s.seq h)).cmd).2 := rfl

/-- No handler changes what was published. -/
theorem advance_ingested (s : State) (h : Handler) (n : Nat) :
    (((pipeline config).advance s h).slots n).ingested = (s.slots n).ingested := by
  by_cases hn : n = s.seq h
  · subst hn
    rw [Pipeline.advance_slots_self, visit_ingested]
  · rw [Pipeline.advance_slots_ne s h hn]

/-- Only the handler's own slot changes. -/
theorem advance_cmd_self (s : State) (h : Handler) :
    (((pipeline config).advance s h).slots (s.seq h)).cmd =
      (process config h (s.seq h) s.shared (s.slots (s.seq h)).cmd).2 := by
  rw [Pipeline.advance_slots_self, visit_cmd]

/-- A shard of the R1 stage passes over the users of other shards. -/
theorem riskHandler_skip {shard : Fin numRiskEngines} {cmd : OrderCommand}
    (howns : ownsUser shard cmd.userId = false) (n : Nat) (core : Core) :
    riskHandler config shard n core cmd = (core, cmd) := by
  have hskip : (core.riskEngine config shard).userIdForThisHandler cmd.userId = false := howns
  unfold riskHandler RiskEngine.preProcessCommand
  simp only [hskip, Bool.false_eq_true, if_false]
  have hself : Function.update core.balances shard (core.riskEngine config shard).balances =
      core.balances := Function.update_eq_self shard core.balances
  rw [hself]

/-- R1 has nothing to do for a cancellation. -/
theorem riskHandler_cancel {cmd : OrderCommand} (hcommand : cmd.command = .cancelOrder)
    (shard : Fin numRiskEngines) (n : Nat) (core : Core) :
    riskHandler config shard n core cmd = (core, cmd) := by
  have hpass : (core.riskEngine config shard).preProcessCommand cmd
      (config.view n core.priceCache) = (core.balances shard, cmd) := by
    unfold RiskEngine.preProcessCommand
    rw [hcommand]
    split <;> rfl
  unfold riskHandler
  simp only [hpass, Function.update_eq_self]

end Engine

end VexCore
