import VexCore.Processors.Reservation

/-!
# The answer of R1

Of the state it runs on, R1 reads two numbers: the best ask of a market, for a bid without a
limit, and the available funds of one key.
-/

namespace VexCore

open Framework

/-- The key whose available funds R1 reads. -/
def askedKey (cmd : OrderCommand) : BalanceKey :=
  match cmd.command with
  | .placeOrder => ⟨cmd.userId, escrowAsset cmd.side cmd.marketId⟩
  | .cancelOrder | .depositFunds | .withdrawFunds => ⟨cmd.userId, truncate 16 cmd.marketId⟩

/-- A bid that names no limit. -/
def MarketBid (cmd : OrderCommand) : Prop := cmd.side = .bid ∧ cmd.price = u64Max

instance (cmd : OrderCommand) : Decidable (MarketBid cmd) := inferInstanceAs (Decidable (_ ∧ _))

/-- The price an order is reserved at, if there is one. -/
def reservedPrice (spec : CoreMarketSpecification) (bestAsk : Nat) (cmd : OrderCommand) :
    Option Nat :=
  if MarketBid cmd then
    if bestAsk = u64Max then none else RiskEngine.conservativePrice spec bestAsk
  else some cmd.price

/-- The price an order is reserved at, and what it locks. -/
def reservation (specs : HashMap Nat CoreMarketSpecification) (bestAsk : Nat)
    (cmd : OrderCommand) : Option (Nat × Nat) :=
  (specs.lookup cmd.marketId).bind fun spec =>
    (reservedPrice spec bestAsk cmd).map fun price =>
      (price, escrowAmount spec cmd.side price cmd.size)

/-- The amount that is held against the available funds. -/
def asked (specs : HashMap Nat CoreMarketSpecification) (bestAsk : Nat) (cmd : OrderCommand) :
    Option Nat :=
  match cmd.command with
  | .placeOrder => (reservation specs bestAsk cmd).map Prod.snd
  | .depositFunds | .withdrawFunds => some cmd.size
  | .cancelOrder => none

/-- There is room for a deposit, and enough for an order or a withdrawal. -/
def Allows (command : OrderCommandType) (available amount : Nat) : Prop :=
  match command with
  | .depositFunds => available + amount < 2 ^ 64
  | .placeOrder | .withdrawFunds | .cancelOrder => amount ≤ available

instance : (command : OrderCommandType) → (available amount : Nat) →
    Decidable (Allows command available amount)
  | .depositFunds, _, _ => inferInstanceAs (Decidable (_ < _))
  | .placeOrder, _, _ | .withdrawFunds, _, _ | .cancelOrder, _, _ =>
      inferInstanceAs (Decidable (_ ≤ _))

/-- The command as R1 answers it, its balance apart. -/
def answer (specs : HashMap Nat CoreMarketSpecification) (bestAsk available : Nat)
    (cmd : OrderCommand) : OrderCommand :=
  match cmd.command with
  | .cancelOrder => cmd
  | .placeOrder =>
      match reservation specs bestAsk cmd with
      | none => { cmd with status := .rejected }
      | some (price, amount) =>
          if Allows .placeOrder available amount then { cmd with price }
          else { cmd with price, status := .rejected }
  | .depositFunds =>
      { cmd with status := if Allows .depositFunds available cmd.size then .processed else .rejected }
  | .withdrawFunds =>
      { cmd with status := if Allows .withdrawFunds available cmd.size then .processed else .rejected }

section Answer

variable {specs : HashMap Nat CoreMarketSpecification} {bestAsk available : Nat}
  {cmd : OrderCommand}

theorem answer_place (h : cmd.command = .placeOrder) : answer specs bestAsk available cmd =
    match reservation specs bestAsk cmd with
    | none => { cmd with status := .rejected }
    | some (price, amount) =>
        if Allows .placeOrder available amount then { cmd with price }
        else { cmd with price, status := .rejected } := by
  simp only [answer, h]

theorem answer_cancel (h : cmd.command = .cancelOrder) : answer specs bestAsk available cmd = cmd := by
  simp only [answer, h]

theorem answer_deposit (h : cmd.command = .depositFunds) : answer specs bestAsk available cmd =
    { cmd with status := if Allows .depositFunds available cmd.size then .processed
      else .rejected } := by
  simp only [answer, h]

theorem answer_withdraw (h : cmd.command = .withdrawFunds) : answer specs bestAsk available cmd =
    { cmd with status := if Allows .withdrawFunds available cmd.size then .processed
      else .rejected } := by
  simp only [answer, h]

/-- R1 sets the price and the status, and nothing else. -/
theorem answer_eq (specs : HashMap Nat CoreMarketSpecification) (bestAsk available : Nat)
    (cmd : OrderCommand) : answer specs bestAsk available cmd =
      { cmd with
        price := (answer specs bestAsk available cmd).price
        status := (answer specs bestAsk available cmd).status } := by
  obtain ⟨command, hcommand⟩ : ∃ command, cmd.command = command := ⟨_, rfl⟩
  cases command with
  | cancelOrder => rw [answer_cancel hcommand]
  | depositFunds => rw [answer_deposit hcommand]
  | withdrawFunds => rw [answer_withdraw hcommand]
  | placeOrder =>
    rw [answer_place hcommand]
    cases reservation specs bestAsk cmd with
    | none => rfl
    | some reserved =>
      by_cases h : Allows .placeOrder available reserved.2
      · simp only [if_pos h]
      · simp only [if_neg h]

/-- The answer depends on the best ask for market bids only, and on the funds by whether they
allow what is asked. -/
theorem answer_congr {bestAsk' available' : Nat}
    (hask : cmd.command = .placeOrder → MarketBid cmd → bestAsk = bestAsk')
    (hallows : ∀ amount ∈ asked specs bestAsk' cmd,
      Allows cmd.command available amount ↔ Allows cmd.command available' amount) :
    answer specs bestAsk available cmd = answer specs bestAsk' available' cmd := by
  cases hcommand : cmd.command with
  | cancelOrder => rw [answer_cancel hcommand, answer_cancel hcommand]
  | depositFunds =>
    simp only [asked, hcommand, Option.mem_some_iff, forall_eq'] at hallows
    simp only [answer_deposit hcommand, hallows]
  | withdrawFunds =>
    simp only [asked, hcommand, Option.mem_some_iff, forall_eq'] at hallows
    simp only [answer_withdraw hcommand, hallows]
  | placeOrder =>
    have hreservation : reservation specs bestAsk cmd = reservation specs bestAsk' cmd := by
      by_cases hbid : MarketBid cmd
      · rw [hask hcommand hbid]
      · unfold reservation reservedPrice
        simp only [if_neg hbid]
    rw [answer_place hcommand, answer_place hcommand, hreservation]
    simp only [asked, hcommand] at hallows
    cases hreserved : reservation specs bestAsk' cmd with
    | none => rfl
    | some reserved =>
      rw [hreserved] at hallows
      simp only [hallows reserved.2 rfl]

end Answer

namespace RiskEngine

variable {engine : RiskEngine} {cmd : OrderCommand} {cache : PriceCache}
  {spec : CoreMarketSpecification}

theorem reserveFundsForOrder_unpriced (hspec : engine.symbolSpecs.lookup cmd.marketId = some spec)
    (h : reservedPrice spec (cache.getBestAsk cmd.marketId) cmd = none) :
    ∃ e, engine.reserveFundsForOrder cmd cache = (engine.balances, cmd, .error e) := by
  unfold reservedPrice at h
  by_cases hbid : MarketBid cmd
  · rw [if_pos hbid] at h
    have herror : ∃ e, engine.bidAmount cmd cache = (cmd, .error e) := by
      simp only [bidAmount, hspec, if_pos hbid.2]
      by_cases hnone : cache.getBestAsk cmd.marketId = u64Max
      · rw [if_pos hnone]
        exact ⟨_, rfl⟩
      · rw [if_neg hnone] at h ⊢
        rw [h]
        exact ⟨_, rfl⟩
    obtain ⟨e, heq⟩ := herror
    exact ⟨e, reserveFundsForOrder_bid_error engine cmd cache hbid.1 heq⟩
  · rw [if_neg hbid] at h
    cases h

theorem reserveFundsForOrder_priced (hspec : engine.symbolSpecs.lookup cmd.marketId = some spec)
    {price : Nat} (h : reservedPrice spec (cache.getBestAsk cmd.marketId) cmd = some price) :
    (engine.reserveFundsForOrder cmd cache).2 = ({ cmd with price },
      (engine.balances.lockFunds cmd.userId (escrowAsset cmd.side cmd.marketId)
        (escrowAmount spec cmd.side price cmd.size)).2.mapError .balanceError) := by
  unfold reservedPrice at h
  rcases cmd.side.eq_ask_or_eq_bid with hside | hside
  · have hbid : ¬MarketBid cmd := fun hbid => Side.noConfusion (hside.symm.trans hbid.1)
    have hasset : escrowAsset cmd.side cmd.marketId = baseAsset cmd.marketId := by rw [hside]; rfl
    have hamount : escrowAmount spec cmd.side cmd.price cmd.size = cmd.size := by rw [hside]; rfl
    rw [if_neg hbid] at h
    obtain rfl := Option.some.inj h
    rw [reserveFundsForOrder_ask engine cmd cache hside, hasset, hamount]
  · have hamount : engine.bidAmount cmd cache =
        ({ cmd with price }, .ok (spec.calculateQuoteCost price cmd.size)) := by
      simp only [bidAmount, hspec]
      by_cases hmarket : cmd.price = u64Max
      · rw [if_pos (show MarketBid cmd from ⟨hside, hmarket⟩)] at h
        rw [if_pos hmarket]
        by_cases hnone : cache.getBestAsk cmd.marketId = u64Max
        · rw [if_pos hnone] at h
          cases h
        · rw [if_neg hnone] at h ⊢
          rw [h]
      · rw [if_neg fun hbid : MarketBid cmd => hmarket hbid.2] at h
        obtain rfl := Option.some.inj h
        rw [if_neg hmarket]
    have hasset : escrowAsset cmd.side cmd.marketId = quoteAsset cmd.marketId := by rw [hside]; rfl
    have hcost : escrowAmount spec cmd.side price cmd.size =
        spec.calculateQuoteCost price cmd.size := by rw [hside]; rfl
    rw [reserveFundsForOrder_bid engine cmd cache hside hamount, hasset, hcost]

/-- On the shard of its user, R1 answers a command by the best ask and the available funds. -/
theorem preProcessCommand_answer (howns : engine.userIdForThisHandler cmd.userId = true) :
    (engine.preProcessCommand cmd cache).2 =
      { answer engine.symbolSpecs (cache.getBestAsk cmd.marketId)
          (engine.balances.getBalance (askedKey cmd).userId (askedKey cmd).assetId).available cmd with
        balance := (engine.preProcessCommand cmd cache).2.balance } := by
  unfold preProcessCommand
  rw [if_pos howns]
  obtain ⟨command, hcommand⟩ : ∃ command, cmd.command = command := ⟨_, rfl⟩
  cases command with
  | cancelOrder =>
    rw [answer_cancel hcommand]
    simp only [hcommand]
    rw [← hcommand]
  | depositFunds =>
    rw [answer_deposit hcommand]
    simp only [askedKey, hcommand, handleDeposit]
    rcases engine.balances.addFunds_cases cmd.userId (truncate 16 cmd.marketId) cmd.size with
      ⟨balance, hlt, -, heq⟩ | ⟨herror, hle, -⟩
    · have hallows : Allows .depositFunds (engine.balances.getBalance cmd.userId
          (truncate 16 cmd.marketId)).available cmd.size := hlt
      rw [heq, if_pos hallows, ← hcommand]
      rfl
    · have hallows : ¬Allows .depositFunds (engine.balances.getBalance cmd.userId
          (truncate 16 cmd.marketId)).available cmd.size := Nat.not_lt.mpr hle
      rw [if_neg hallows]
      simp only [herror]
      rfl
  | withdrawFunds =>
    rw [answer_withdraw hcommand]
    simp only [askedKey, hcommand, handleWithdrawal]
    rcases engine.balances.subtractFunds_cases cmd.userId (truncate 16 cmd.marketId) cmd.size with
      ⟨balance, hle, -, heq⟩ | ⟨hlt, e, herror, -⟩
    · have hallows : Allows .withdrawFunds (engine.balances.getBalance cmd.userId
          (truncate 16 cmd.marketId)).available cmd.size := hle
      rw [heq, if_pos hallows, ← hcommand]
      rfl
    · have hallows : ¬Allows .withdrawFunds (engine.balances.getBalance cmd.userId
          (truncate 16 cmd.marketId)).available cmd.size := Nat.not_le.mpr hlt
      rw [if_neg hallows]
      simp only [herror]
      rfl
  | placeOrder =>
    rw [answer_place hcommand, reservation]
    simp only [askedKey, hcommand]
    cases hspec : engine.symbolSpecs.lookup cmd.marketId with
    | none => rfl
    | some spec =>
      rw [Option.bind_some]
      cases hprice : reservedPrice spec (cache.getBestAsk cmd.marketId) cmd with
      | none =>
        obtain ⟨e, heq⟩ := @reserveFundsForOrder_unpriced engine cmd cache spec hspec hprice
        simp only [heq, hcommand]
        rfl
      | some price =>
        have heq := @reserveFundsForOrder_priced engine cmd cache spec hspec price hprice
        have hpair : engine.reserveFundsForOrder cmd cache =
            ((engine.reserveFundsForOrder cmd cache).1, { cmd with price },
              (engine.balances.lockFunds cmd.userId (escrowAsset cmd.side cmd.marketId)
                (escrowAmount spec cmd.side price cmd.size)).2.mapError .balanceError) :=
          Prod.ext rfl heq
        rw [hpair, Option.map_some]
        rcases engine.balances.lockFunds_cases cmd.userId (escrowAsset cmd.side cmd.marketId)
          (escrowAmount spec cmd.side price cmd.size) with ⟨hle, hlock⟩ | ⟨hlt, e, herror, -⟩
        · have hallows : Allows .placeOrder (engine.balances.getBalance cmd.userId
              (escrowAsset cmd.side cmd.marketId)).available
                (escrowAmount spec cmd.side price cmd.size) := hle
          rw [hlock]
          simp only [if_pos hallows, hcommand]
          rfl
        · have hallows : ¬Allows .placeOrder (engine.balances.getBalance cmd.userId
              (escrowAsset cmd.side cmd.marketId)).available
                (escrowAmount spec cmd.side price cmd.size) := Nat.not_le.mpr hlt
          rw [herror]
          simp only [if_neg hallows, hcommand]
          rfl

/-- R1 records balances of deposits and withdrawals only. -/
theorem preProcessCommand_balance (howns : engine.userIdForThisHandler cmd.userId = true)
    (h : cmd.command = .placeOrder ∨ cmd.command = .cancelOrder) :
    (engine.preProcessCommand cmd cache).2.balance = cmd.balance := by
  rcases engine.preProcessCommand_cases cmd cache howns with
    hdown | hreserved | ⟨hcommand, -, -⟩ | ⟨hcommand, -, -⟩ | ⟨-, heq⟩
  · obtain ⟨price, heq⟩ := hdown.cmd
    rw [heq]
  · obtain ⟨spec, price, amount, balance, -, -, -, -, -, heq⟩ := hreserved.locked
    rw [heq]
  · rw [hcommand] at h
    exact h.elim OrderCommandType.noConfusion OrderCommandType.noConfusion
  · rw [hcommand] at h
    exact h.elim OrderCommandType.noConfusion OrderCommandType.noConfusion
  · rw [heq]

end RiskEngine

end VexCore
