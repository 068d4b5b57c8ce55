import VexCore.Ledger.Conservation
import VexCore.Stream.Serial

/-!
# Auditing the ledger

Whoever knows the markets can work out from the emitted deposits, withdrawals and trades what
every user must hold, and which fees were withheld. Once all commands have been visited, the ledger
agrees, provided that deposits and withdrawals name an asset: the ledger keeps sixteen bits of what
they name, and the events carry all of it.
-/

namespace VexCore

open Framework

/-- Both sides of a trade, with their fees. -/
def TradeEvent.moves (spec : CoreMarketSpecification) (event : TradeEvent) :
    List (BalanceKey × Move) :=
  sidePlan spec event.marketId event.makerUserId event.takerSide.opSide event.price event.size
      spec.makerFee ++
    sidePlan spec event.marketId event.takerUserId event.takerSide event.price event.size
      spec.takerFee

/-- What an event says was moved. -/
def Output.moves (specs : HashMap Nat CoreMarketSpecification) : Output → List (BalanceKey × Move)
  | .deposit event => [(⟨event.userId, event.assetId⟩, .receive event.amount 0)]
  | .withdraw event => [(⟨event.userId, event.assetId⟩, .spend event.amount)]
  | .trade event => (specs.lookup event.marketId).elim [] event.moves
  | _ => []

/-- Everything that a log says was moved. -/
def auditOf (specs : HashMap Nat CoreMarketSpecification) (log : List Output) :
    List (BalanceKey × Move) :=
  log.flatMap (Output.moves specs)

/-- The measures of an audit: releases are no business of it, nor are empty moves. -/
structure Audits (measure : Move → Nat) : Prop where
  release : ∀ amount, measure (.release amount) = 0
  spend : measure (.spend 0) = 0
  receive : measure (.receive 0 0) = 0

theorem Audits.spent : Audits Move.spent := ⟨fun _ => rfl, rfl, rfl⟩

theorem Audits.received : Audits Move.received := ⟨fun _ => rfl, rfl, rfl⟩

theorem Audits.withheld : Audits Move.withheld := ⟨fun _ => rfl, rfl, rfl⟩

section Moves

variable {specs : HashMap Nat CoreMarketSpecification} {log more : List Output}
  {cmd : OrderCommand}

@[simp] theorem auditOf_nil : auditOf specs [] = [] := rfl

@[simp] theorem auditOf_append :
    auditOf specs (log ++ more) = auditOf specs log ++ auditOf specs more :=
  List.flatMap_append

@[simp] theorem auditOf_balances (userId : Nat) (balance : UserBalance × UserBalance) :
    auditOf specs (publishBalanceEvent userId cmd balance) = [] := rfl

@[simp] theorem auditOf_order (size filledSize : Nat) :
    auditOf specs (publishOrderEvent cmd size filledSize) = [] := rfl

@[simp] theorem auditOf_filled : auditOf specs (publishFilledOrder cmd) = [] := rfl

@[simp] theorem auditOf_cancel : auditOf specs (publishCancelOrderEvent cmd) = [] := rfl

@[simp] theorem auditOf_funds : auditOf specs (publishDepositWithdrawalEvent cmd) = [] := rfl

@[simp] theorem auditOf_orderbook : auditOf specs (publishOrderbookEvent cmd) = [] := by
  unfold publishOrderbookEvent
  split <;> rfl

/-- The fills of a command move what their trade events say. -/
def tradesPlan (spec : CoreMarketSpecification) (cmd : OrderCommand) : List (BalanceKey × Move) :=
  cmd.events.flatMap fun event => makerPlan spec cmd event ++
    sidePlan spec cmd.marketId cmd.userId cmd.side event.price event.size spec.takerFee

theorem auditOf_fills {spec : CoreMarketSpecification}
    (hspec : specs.lookup cmd.marketId = some spec) :
    auditOf specs (publishFills cmd) = tradesPlan spec cmd := by
  rw [auditOf, publishFills, List.flatMap_assoc]
  apply List.flatMap_congr
  intro event _
  have htrade : Output.moves specs (.trade
      { makerUserId := event.makerUserId
        takerUserId := cmd.userId
        marketId := cmd.marketId
        price := event.price
        size := event.size
        makerOrderId := event.matchedOrderId
        takerOrderId := cmd.orderId
        takerSide := cmd.side
        timestamp := cmd.timestamp }) =
      makerPlan spec cmd event ++
        sidePlan spec cmd.marketId cmd.userId cmd.side event.price event.size spec.takerFee := by
    rw [Output.moves, hspec]
    rfl
  simp only [publishTradeEvent, publishBalanceEvent, publishMakerOrderEvent, List.cons_append,
    List.nil_append, List.flatMap_cons, htrade]
  exact List.append_nil _

end Moves

section Plans

variable {measure : Move → Nat} {here : BalanceKey → Bool} {spec : CoreMarketSpecification}
  {cmd : OrderCommand}

/-- An audit sees of a settlement its trades. -/
theorem Audits.settlementPlan (audits : Audits measure)
    (hlive : ¬(cmd.status = .rejected ∨ cmd.status = .processed)) :
    tallyAt measure (settlementPlan spec cmd) here =
      tallyAt measure (tradesPlan spec cmd) here := by
  have hrelease : tallyAt measure (releasePlan spec cmd) here = 0 := by
    unfold releasePlan
    split <;> simp [audits.release]
  rw [VexCore.settlementPlan, if_neg hlive, tallyAt_append, hrelease, Nat.add_zero, tradesPlan,
    tallyAt_flatMap, tallyAt_flatMap]
  congr 1
  apply List.map_congr_left
  intro event _
  simp [takerPlan, audits.release]

theorem Audits.tradesPlan_zero (audits : Audits measure)
    (hzero : ∀ event ∈ cmd.events, event.size = 0) :
    tallyAt measure (tradesPlan spec cmd) here = 0 := by
  have hside (marketId userId : Nat) (side : Side) (price rate : Nat) :
      tallyAt measure (sidePlan spec marketId userId side price 0 rate) here = 0 := by
    cases side <;> simp [sidePlan, escrowed, audits.spend, audits.receive, Side.opSide]
  rw [tradesPlan, tallyAt_flatMap]
  apply List.sum_eq_zero
  intro x hx
  obtain ⟨event, hevent, rfl⟩ := List.mem_map.mp hx
  rw [hzero event hevent, makerPlan, hzero event hevent, tallyAt_append, hside, hside, Nat.add_zero]

end Plans

namespace Engine

variable {config : Config} {s : State}

/-- What a carried out deposit or withdrawal moves. -/
def fundsPlan (cmd : OrderCommand) : List (BalanceKey × Move) :=
  if cmd.status = .processed then
    match cmd.command with
    | .depositFunds => [(⟨cmd.userId, truncate 16 cmd.marketId⟩, .receive cmd.size 0)]
    | .withdrawFunds => [(⟨cmd.userId, truncate 16 cmd.marketId⟩, .spend cmd.size)]
    | .placeOrder | .cancelOrder => []
  else []

theorem planOf_of_status {cmd : OrderCommand}
    (h : cmd.status = .rejected ∨ cmd.status = .processed) : planOf config cmd = [] := by
  cases hspec : config.symbolSpecs.lookup cmd.marketId with
  | none => exact planOf_of_none hspec
  | some spec => rw [planOf_of_spec hspec, settlementPlan, if_pos h]

/-- What is published for a command moves what the command has moved. -/
theorem Stage.audited {measure : Move → Nat} (audits : Audits measure) {passed matched : Prop}
    {cmd : OrderCommand} (h : Stage config passed matched cmd) (hpassed : passed)
    (hmatched : matched) (hasset : IsFunds cmd → cmd.marketId < 2 ^ 16)
    (here : BalanceKey → Bool) :
    tallyAt measure (auditOf config.symbolSpecs (publishEvents cmd)) here =
      tallyAt measure (planOf config cmd ++ fundsPlan cmd) here := by
  by_cases hfunds : IsFunds cmd
  · have hstatus : cmd.status = .processed ∨ cmd.status = .rejected := by
      rcases h.funds hfunds with hraw | hdone
      · exact absurd hpassed hraw.2
      · exact hdone
    have hkey : truncate 16 cmd.marketId = cmd.marketId := Nat.mod_eq_of_lt (hasset hfunds)
    rw [planOf_of_status hstatus.symm, List.nil_append]
    rcases hfunds with hcommand | hcommand <;> rcases hstatus with hdone | hdone <;>
      simp [publishEvents, fundsPlan, hcommand, hdone, auditOf, Output.moves, fundsEvent,
        publishDepositWithdrawalEvent, balanceEvent, hkey]
  · have hcommand := order_of_not_funds hfunds
    have hfundsPlan : fundsPlan cmd = [] := by
      have hnot := h.not_processed hfunds
      rw [fundsPlan, if_neg hnot]
    have houtputs : publishEvents cmd = publishByStatus cmd := by
      rcases hcommand with hplace | hcancel <;> simp [publishEvents, *]
    rw [hfundsPlan, List.append_nil, houtputs]
    by_cases hrejected : cmd.status = .rejected
    · rw [planOf_of_status (.inl hrejected), publishByStatus, hrejected, auditOf_nil]
    · obtain ⟨⟨hraw, hprocessed⟩, spec, hspec⟩ := h.decided hfunds hmatched hrejected
      have hfills := @auditOf_fills _ cmd spec hspec
      rw [planOf_of_spec hspec, audits.settlementPlan (not_or.mpr ⟨hrejected, hprocessed⟩)]
      cases hstatus : cmd.status with
      | rejected => exact absurd hstatus hrejected
      | processing => exact absurd hstatus hraw
      | processed => exact absurd hstatus hprocessed
      | placed =>
        rw [audits.tradesPlan_zero (h.zero hstatus)]
        simp [publishByStatus, hstatus]
      | partiallyFilled => simp [publishByStatus, hstatus, hfills]
      | filled => simp [publishByStatus, hstatus, hfills]
      | cancelled =>
        have hcancelled : publishByStatus cmd = publishCancelled cmd := by
          rw [publishByStatus, hstatus]
        have hfirst : auditOf config.symbolSpecs (if cmd.events ≠ [] then
            publishFills cmd ++ publishFilledOrder cmd
          else if cmd.command = .cancelOrder then
            publishOrderEvent cmd cmd.originalSize (wrappingSub 64 cmd.originalSize cmd.size)
          else publishOrderEvent cmd cmd.size 0) = tradesPlan spec cmd := by
          split
          · simp [hfills]
          · rename_i hnone
            rw [not_not] at hnone
            rw [tradesPlan, hnone]
            split <;> rfl
        rw [hcancelled, publishCancelled, auditOf_append, auditOf_append, auditOf_append, hfirst]
        simp

theorem PublishedInvariant.audit (h : PublishedInvariant config s)
    (specs : HashMap Nat CoreMarketSpecification) (measure : Move → Nat)
    (here : BalanceKey → Bool) :
    tallyAt measure (auditOf specs (s.shared.emitted.map Prod.snd)) here =
      window (fun n => tallyAt measure
        (auditOf specs (publishEvents (s.slots n).cmd)) here) 0 (s.seq .events) := by
  have hlog : s.shared.emitted.map Prod.snd = (List.range (s.seq .events)).flatMap fun n =>
      publishEvents (s.slots n).cmd := by
    rw [h.emitted, List.map_flatMap]
    apply List.flatMap_congr
    intro n _
    simp [outputsOf, Function.comp_def]
  rw [hlog]
  induction s.seq .events with
  | zero => rfl
  | succ n ih =>
    rw [List.range_succ, List.flatMap_append, auditOf_append, tallyAt_append, ih,
      window_succ _ (Nat.zero_le n)]
    simp

theorem tally_fundsPlan_received (cmd : OrderCommand) (k : BalanceKey) :
    tally Move.received (fundsPlan cmd) k = moved .depositFunds cmd k := by
  unfold fundsPlan moved
  by_cases hdone : cmd.status = .processed
  · cases hcommand : cmd.command <;> simp [hdone, Move.received, onKey]
  · simp [hdone]

theorem tally_fundsPlan_spent (cmd : OrderCommand) (k : BalanceKey) :
    tally Move.spent (fundsPlan cmd) k = moved .withdrawFunds cmd k := by
  unfold fundsPlan moved
  by_cases hdone : cmd.status = .processed
  · cases hcommand : cmd.command <;> simp [hdone, Move.spent, onKey]
  · simp [hdone]

theorem tallyAt_fundsPlan_withheld (cmd : OrderCommand) (here : BalanceKey → Bool) :
    tallyAt Move.withheld (fundsPlan cmd) here = 0 := by
  unfold fundsPlan
  by_cases hdone : cmd.status = .processed
  · cases hcommand : cmd.command <;> simp [hdone, Move.withheld]
  · simp [hdone]

/-- Deposits and withdrawals name an asset. -/
def NamesAssets (s : State) : Prop :=
  ∀ n < s.published, IsFunds (s.slots n).ingested → (s.slots n).ingested.marketId < 2 ^ 16

instance (s : State) : Decidable (NamesAssets s) :=
  inferInstanceAs (Decidable (∀ n < s.published, (_ ∨ _) → _ < _))

/-- In a run in range whose commands have all been visited, the emitted deposits, withdrawals and
trades tell what every user holds in every asset, and what was withheld as fees. -/
theorem ledger_follows_from_events (hfees : ∀ m ∈ config.markets, FeesBounded m.2)
    (run : Reaches config (fun h s => IdsIncrease h s ∧ InRange config h s) false s)
    (assets : NamesAssets s) (caught : s.seq .events = s.published) :
    let audit := auditOf config.symbolSpecs (s.shared.emitted.map Prod.snd)
    (∀ k, (s.shared.account k).available + (s.shared.account k).locked +
        tally Move.spent audit k = tally Move.received audit k) ∧
      ∀ assetId, feesIn s.shared.settlements assetId =
        tallyAt Move.withheld audit fun k => decide (k.assetId = assetId) := by
  intro audit
  obtain ⟨ho, -, -, inv⟩ := @Reaches.ledger config s False _ _ run (fun _ _ h => h.1)
    (fun _ _ h => h.2) (fun h s _ => feesFit_of_bounded hfees h s) False.elim
  obtain ⟨-, -, -, hstages, arrived, hserial⟩ := run.traced fun _ _ h => h.1
  have hlog := run.published
  have hseq (shard : Fin numRiskEngines) : s.seq (.settlement shard) = s.published := by
    have hstaged := ho.staged (.settlement shard) .events (Nat.lt_succ_self 2)
    have hpublished := ho.published (.settlement shard)
    omega
  have hslots {measure : Move → Nat} (audits : Audits measure) (here : BalanceKey → Bool) :
      tallyAt measure audit here = window (fun n => tallyAt measure
        (planOf config (s.slots n).cmd ++ fundsPlan (s.slots n).cmd) here) 0 s.published := by
    rw [hlog.audit, caught]
    apply window_congr
    intro n _ hn
    have hasset : IsFunds (s.slots n).cmd → (s.slots n).cmd.marketId < 2 ^ 16 := by
      have hsame := hserial.same n
      rw [IsFunds, hsame.command, hsame.marketId, (hserial.admitted n).fields]
      exact assets n hn
    rw [← caught] at hn
    exact (hstages n).audited audits
      (hn.trans_le (ho.staged (.risk _) .events (Nat.zero_lt_succ 2)))
      (hn.trans_le (ho.staged (.matching _) .events (Nat.one_lt_succ_succ 1))) hasset here
  constructor
  · intro k
    have hflow := inv.flow k
    unfold settledOn movedOn at hflow
    rw [hseq] at hflow
    have hspent := hslots .spent fun k' => decide (k' = k)
    have hreceived := hslots .received fun k' => decide (k' = k)
    change tally Move.spent audit k = window (fun n => tally _ _ k) _ _ at hspent
    change tally Move.received audit k = window (fun n => tally _ _ k) _ _ at hreceived
    simp only [tally_append, window_add, tally_fundsPlan_spent] at hspent
    simp only [tally_append, window_add, tally_fundsPlan_received] at hreceived
    omega
  · intro assetId
    have hsettled : Settled s := by
      intro g h
      rw [hseq]
      exact ho.published _
    rw [hslots .withheld, inv.fees, sum_withheldBy ho hsettled, hseq]
    simp only [tallyAt_append, tallyAt_fundsPlan_withheld, Nat.add_zero]

/-- A trade, a release and a withdrawal, all through the events handler. -/
def tradedTape : State :=
  (pipeline feeConfig).execute (start feeConfig false) (together tradeCommands)

theorem tradedTape_reaches :
    Reaches feeConfig (fun h s => IdsIncrease h s ∧ InRange feeConfig h s) false tradedTape :=
  @Reaches.of_schedule _ tradeCommands _ _ _ (by decide) (by decide +kernel)

/-- What the emitted tape says. -/
def tapeAudit : List (BalanceKey × Move) :=
  auditOf feeConfig.symbolSpecs (tradedTape.shared.emitted.map Prod.snd)

theorem tapeAudit_moves :
    tally Move.spent tapeAudit ⟨4, 0⟩ = 0 ∧ tally Move.received tapeAudit ⟨4, 0⟩ = 196 ∧
      tallyAt Move.withheld tapeAudit (fun k => decide (k.assetId = 0)) = 4 := by
  decide +kernel

theorem held_of_moves {held spent received amount : Nat} (h : held + spent = received)
    (hspent : spent = 0) (hreceived : received = amount) : held = amount := by
  rw [← hreceived, ← h, hspent, Nat.add_zero]

/-- User 4 has sold a hundred at two, and four of the proceeds were withheld. -/
theorem ledger_follows_from_events_traded :
    (tradedTape.shared.account ⟨4, 0⟩).available + (tradedTape.shared.account ⟨4, 0⟩).locked =
        196 ∧
      feesIn tradedTape.shared.settlements 0 = 4 := by
  obtain ⟨hspent, hreceived, hwithheld⟩ := tapeAudit_moves
  have assets : NamesAssets tradedTape := by decide +kernel
  have caught : tradedTape.seq .events = tradedTape.published := by decide +kernel
  obtain ⟨hholds, hfees⟩ := ledger_follows_from_events (by decide) tradedTape_reaches assets caught
  exact ⟨held_of_moves (hholds ⟨4, 0⟩) hspent hreceived, (hfees 0).trans hwithheld⟩

end Engine

end VexCore
