import VexCore.Ledger.Stages
import VexCore.Processors.Admission

/-!
# One command at a time

The engine as it would be if every command left R2 before the next one entered R1, over
available funds that no word bounds. It depends on the commands only; the runs of the pipeline
are compared with it.
-/

namespace VexCore

open Framework

theorem OrderBook.placeOrder_anyCache (book : OrderBook) (cmd : OrderCommand)
    (cache cache' : PriceCache) :
    (book.placeOrder cmd cache).book = (book.placeOrder cmd cache').book ∧
      (book.placeOrder cmd cache).cmd = (book.placeOrder cmd cache').cmd := by
  unfold placeOrder
  split <;> exact ⟨rfl, rfl⟩

theorem OrderBook.cancelOrder_anyCache (book : OrderBook) (cmd : OrderCommand)
    (cache cache' : PriceCache) :
    (book.cancelOrder cmd cache).book = (book.cancelOrder cmd cache').book ∧
      (book.cancelOrder cmd cache).cmd = (book.cancelOrder cmd cache').cmd := by
  unfold cancelOrder
  split <;> exact ⟨rfl, rfl⟩

/-- Matching writes the price cache and does not read it. -/
theorem matchingHandler_cache (router : MatchingEngineRouter) (cmd : OrderCommand)
    (cache cache' : PriceCache) :
    (matchingHandler router cmd cache).1 = (matchingHandler router cmd cache').1 ∧
      (matchingHandler router cmd cache).2.1 = (matchingHandler router cmd cache').2.1 := by
  unfold matchingHandler MatchingEngineRouter.processOrder
  split
  · exact ⟨rfl, rfl⟩
  · split
    · cases router.orderBooks.lookup cmd.marketId with
      | none => exact ⟨rfl, rfl⟩
      | some book =>
        obtain ⟨hplaced, hplacedCmd⟩ := book.placeOrder_anyCache cmd cache cache'
        obtain ⟨hcancelled, hcancelledCmd⟩ := book.cancelOrder_anyCache cmd cache cache'
        cases cmd.command with
        | placeOrder => simp only [hplaced, hplacedCmd, and_self]
        | cancelOrder => simp only [hcancelled, hcancelledCmd, and_self]
        | depositFunds => exact ⟨rfl, rfl⟩
        | withdrawFunds => exact ⟨rfl, rfl⟩
    · exact ⟨rfl, rfl⟩

namespace Engine

/-- The books, the price cache and the available funds between two commands. -/
structure Reference where
  orderBooks : Fin numMatchingEngines → HashMap Nat OrderBook
  priceCache : PriceCache
  available : BalanceKey → Nat

namespace Reference

variable (config : Config)

def start : Reference := ⟨config.openBooks, config.openPriceCache, fun _ => 0⟩

/-- R1's answer to the command of slot `n`. -/
def admitted (ref : Reference) (n : Nat) (cmd : OrderCommand) : OrderCommand :=
  answer config.symbolSpecs ((config.view n ref.priceCache).getBestAsk cmd.marketId)
    (ref.available (askedKey cmd)) cmd

/-- What the matching shard of its market makes of a command. -/
def routed (ref : Reference) (cmd : OrderCommand) :
    HashMap Nat OrderBook × OrderCommand × PriceCache :=
  matchingHandler ⟨ref.orderBooks (marketShard cmd.marketId), marketShard cmd.marketId,
    numMatchingEngines - 1⟩ cmd ref.priceCache

/-- The command of slot `n` on its way through R1, matching and R2. -/
def next (ref : Reference) (n : Nat) (cmd : OrderCommand) : Reference :=
  let cmd := ref.admitted config n cmd
  let routed := ref.routed cmd
  { orderBooks := Function.update ref.orderBooks (marketShard cmd.marketId) routed.1
    priceCache := routed.2.2
    available := fun k =>
      ref.available k + moved .depositFunds cmd k -
          (moved .withdrawFunds cmd k + lockedFor config cmd k) +
        tally Move.credit (planOf config routed.2.1) k }

end Reference

variable (config : Config) (cmds : Nat → OrderCommand)

/-- The state before the command of slot `n`. -/
def reference : Nat → Reference
  | 0 => .start config
  | n + 1 => (reference n).next config n (cmds n)

/-- The command of a slot between R1 and matching, and after matching. -/
def admittedAt (n : Nat) : OrderCommand := (reference config cmds n).admitted config n (cmds n)

def matchedAt (n : Nat) : OrderCommand :=
  ((reference config cmds n).routed (admittedAt config cmds n)).2.1

theorem reference_congr {cmds' : Nat → OrderCommand} {n : Nat} (h : ∀ i < n, cmds i = cmds' i) :
    reference config cmds n = reference config cmds' n := by
  induction n with
  | zero => rfl
  | succ n ih =>
    rw [reference, reference, ih fun i hi => h i (Nat.lt_succ_of_lt hi), h n (Nat.lt_succ_self n)]

variable {cmds} {n : Nat}

theorem admittedAt_eq : admittedAt config cmds n =
    { cmds n with
      price := (admittedAt config cmds n).price
      status := (admittedAt config cmds n).status } := answer_eq _ _ _ _

theorem matchedAt_marketId : (matchedAt config cmds n).marketId = (cmds n).marketId := by
  have hmarket : (admittedAt config cmds n).marketId = (cmds n).marketId := by
    rw [admittedAt_eq]
  rw [← hmarket]
  exact (matchingHandler_same _ _ _).marketId

theorem reference_available (k : BalanceKey) : (reference config cmds (n + 1)).available k =
    (reference config cmds n).available k + moved .depositFunds (admittedAt config cmds n) k -
        (moved .withdrawFunds (admittedAt config cmds n) k +
          lockedFor config (admittedAt config cmds n) k) +
      tally Move.credit (planOf config (matchedAt config cmds n)) k := rfl

/-- Matching changes the books of one shard. -/
theorem reference_orderBooks_ne {shard : Fin numMatchingEngines}
    (h : shard ≠ marketShard (cmds n).marketId) :
    (reference config cmds (n + 1)).orderBooks shard = (reference config cmds n).orderBooks shard := by
  have hmarket : (admittedAt config cmds n).marketId = (cmds n).marketId := by
    rw [admittedAt_eq]
  apply Function.update_of_ne
  change shard ≠ marketShard (admittedAt config cmds n).marketId
  rw [hmarket]
  exact h

theorem answer_owesSame {specs : HashMap Nat CoreMarketSpecification} {bestAsk available : Nat}
    {cmd cmd' : OrderCommand} (h : OwesSame cmd cmd') :
    (answer specs bestAsk available cmd').price = (answer specs bestAsk available cmd).price ∧
      (answer specs bestAsk available cmd').status = (answer specs bestAsk available cmd).status := by
  obtain ⟨command, hcommand⟩ : ∃ command, cmd.command = command := ⟨_, rfl⟩
  have hcommand' := h.command.trans hcommand
  cases command with
  | cancelOrder =>
    rw [answer_cancel hcommand, answer_cancel hcommand']
    exact ⟨h.price, h.status⟩
  | depositFunds =>
    rw [answer_deposit hcommand, answer_deposit hcommand', h.size]
    exact ⟨h.price, rfl⟩
  | withdrawFunds =>
    rw [answer_withdraw hcommand, answer_withdraw hcommand', h.size]
    exact ⟨h.price, rfl⟩
  | placeOrder =>
    have hbid : MarketBid cmd' ↔ MarketBid cmd := by
      unfold MarketBid
      rw [h.side, h.price]
    have hprice (spec : CoreMarketSpecification) :
        reservedPrice spec bestAsk cmd' = reservedPrice spec bestAsk cmd := by
      unfold reservedPrice
      simp only [hbid, h.price]
    have hreservation : reservation specs bestAsk cmd' = reservation specs bestAsk cmd := by
      rw [reservation, reservation, h.marketId]
      simp only [hprice, h.side, h.size]
    rw [answer_place hcommand, answer_place hcommand', hreservation]
    cases reservation specs bestAsk cmd with
    | none => exact ⟨h.price, rfl⟩
    | some reserved =>
      by_cases hallows : Allows .placeOrder available reserved.2
      · simp only [if_pos hallows]
        exact ⟨trivial, h.status⟩
      · simp only [if_neg hallows, and_self]

theorem askedKey_owesSame {cmd cmd' : OrderCommand} (h : OwesSame cmd cmd') :
    askedKey cmd' = askedKey cmd := by
  rw [askedKey, askedKey, h.command, h.userId, h.side, h.marketId]

/-- R1 answers a command that only its stamp tells from the command of the slot alike. -/
theorem admitted_owesSame {cmd : OrderCommand} (h : OwesSame cmd (cmds n)) :
    (reference config cmds n).admitted config n cmd =
      { cmd with
        price := (admittedAt config cmds n).price
        status := (admittedAt config cmds n).status } := by
  have hset := answer_eq config.symbolSpecs ((config.view n
    (reference config cmds n).priceCache).getBestAsk cmd.marketId)
      ((reference config cmds n).available (askedKey cmd)) cmd
  have hfields := @answer_owesSame config.symbolSpecs ((config.view n
    (reference config cmds n).priceCache).getBestAsk cmd.marketId)
      ((reference config cmds n).available (askedKey cmd)) _ _ h
  rw [← hfields.1, ← hfields.2] at hset
  rw [admittedAt, Reference.admitted, Reference.admitted, h.marketId, askedKey_owesSame h]
  exact hset

/-- A command with its stamp, unless a replay is on. -/
def identify (s : State) (n : Nat) (cmd : OrderCommand) : OrderCommand :=
  (journalCommand s.shared.replayEnabled (config.stamp n) (config.publications .journaling n)
    cmd).1

/-- The commands as they were published, with their stamps. -/
def identified (s : State) (n : Nat) : OrderCommand := identify config s n (s.slots n).ingested

variable {config} {s : State}

theorem identify_idem (cmd : OrderCommand) :
    identify config s n (identify config s n cmd) = identify config s n cmd := by
  unfold identify journalCommand
  cases s.shared.replayEnabled with
  | true => rfl
  | false =>
    simp only [Stamp.apply]
    by_cases h : cmd.command ≠ .cancelOrder
    · simp [h]
    · simp [h]

theorem identify_owesSame (cmd : OrderCommand) : OwesSame cmd (identify config s n cmd) := by
  exact journalingHandler_owesSame n s.shared cmd

/-- A stamp leaves alone what R1 writes. -/
theorem identify_with (cmd : OrderCommand) (price : Nat) (status : Status)
    (balance : UserBalance × UserBalance) :
    identify config s n { cmd with price, status, balance } =
      { identify config s n cmd with price, status, balance } := by
  unfold identify journalCommand
  cases s.shared.replayEnabled with
  | true => rfl
  | false =>
    simp only [Stamp.apply]
    by_cases h : cmd.command ≠ .cancelOrder
    · simp [h]
    · simp [h]

theorem identify_congr {s' : State} (h : s'.shared.replayEnabled = s.shared.replayEnabled)
    (cmd : OrderCommand) : identify config s' n cmd = identify config s n cmd := by
  rw [identify, identify, h]

theorem identify_balance (cmd : OrderCommand) :
    (identify config s n cmd).balance = cmd.balance := by
  have h : identify config s n cmd = { identify config s n cmd with
      price := cmd.price, status := cmd.status, balance := cmd.balance } :=
    identify_with cmd cmd.price cmd.status cmd.balance
  rw [h]

/-- The commands of a state do not change in the course of a run. -/
theorem identified_advance (g : Handler) (n : Nat) :
    identified config ((pipeline config).advance s g) n = identified config s n := by
  rw [identified, identified, advance_ingested, identify_congr (process_replayEnabled _ _ _ _)]

end Engine

end VexCore
