import VexCore.Config.Symbols
import VexCore.Ledger.Plan

/-!
# Exact amounts

When R1 reserves, and R2 settles, the amounts an unbounded computation gives. Costs are computed
in unchecked words and narrowed by casts, so they do exactly when the words hold them.
-/

namespace VexCore

open Framework

theorem truncate_eq_iff {w n : Nat} : truncate w n = n ↔ n < 2 ^ w := by
  constructor
  · intro h
    rw [← h]
    exact truncate_lt w n
  · exact truncate_of_lt

/-- The highest price a bid can trade at: its limit, or the best ask with the slippage. -/
def worstPrice (spec : CoreMarketSpecification) (bestAsk : Nat) (cmd : OrderCommand) : Nat :=
  if cmd.price = u64Max then bestAsk + bestAsk * spec.slippage / 10000 else cmd.price

/-- A bid that gets a price: a limit order, or a market order that finds an ask whose price
with the slippage is still a word. -/
def Priced (spec : CoreMarketSpecification) (bestAsk : Nat) (cmd : OrderCommand) : Prop :=
  cmd.price = u64Max → bestAsk ≠ u64Max ∧ worstPrice spec bestAsk cmd < 2 ^ 64

/-- No product, quotient or cast of a cost computation wraps or truncates. -/
structure CostExact (spec : CoreMarketSpecification) (price size : Nat) : Prop where
  notional : wrappingMul 128 price size = price * size
  numerator : wrappingMul 128 (price * size) spec.quoteNativeScale =
    price * size * spec.quoteNativeScale
  denominator : wrappingMul 128 spec.baseNativeScale spec.quoteScaleK =
    spec.baseNativeScale * spec.quoteScaleK
  quotient : truncate 64 (spec.quoteCost price size) = spec.quoteCost price size

theorem costExact_iff {spec : CoreMarketSpecification} {price size : Nat} :
    CostExact spec price size ↔ spec.costFits price size = true := by
  simp only [CoreMarketSpecification.costFits, Bool.and_eq_true, decide_eq_true_eq]
  constructor
  · intro h
    exact ⟨⟨⟨truncate_eq_iff.mp h.notional, truncate_eq_iff.mp h.numerator⟩,
      truncate_eq_iff.mp h.denominator⟩, truncate_eq_iff.mp h.quotient⟩
  · rintro ⟨⟨⟨hnotional, hnumerator⟩, hdenominator⟩, hquotient⟩
    exact ⟨truncate_eq_iff.mpr hnotional, truncate_eq_iff.mpr hnumerator,
      truncate_eq_iff.mpr hdenominator, truncate_eq_iff.mpr hquotient⟩

/-- The law for a bid: rejected with all balances as they were, or the exact cost at the worst
price locked and that price stored; and nothing wraps on the way. -/
structure ReservesExactly (engine : RiskEngine) (cmd : OrderCommand) (cache : PriceCache)
    (spec : CoreMarketSpecification) : Prop where
  outcome :
    ((engine.preProcessCommand cmd cache).2.status = .rejected ∧
      engine.balances.Same (engine.preProcessCommand cmd cache).1) ∨
    (spec.quoteCost (worstPrice spec (cache.getBestAsk cmd.marketId) cmd) cmd.size ≤
        (engine.getBalance cmd.userId (quoteAsset cmd.marketId)).available ∧
      engine.preProcessCommand cmd cache =
        (engine.balances.setBalance cmd.userId (quoteAsset cmd.marketId)
          { available := (engine.getBalance cmd.userId (quoteAsset cmd.marketId)).available -
              spec.quoteCost (worstPrice spec (cache.getBestAsk cmd.marketId) cmd) cmd.size
            locked := (engine.getBalance cmd.userId (quoteAsset cmd.marketId)).locked +
              spec.quoteCost (worstPrice spec (cache.getBestAsk cmd.marketId) cmd) cmd.size },
          { cmd with price := worstPrice spec (cache.getBestAsk cmd.marketId) cmd }))
  slippage : cmd.price = u64Max → cache.getBestAsk cmd.marketId ≠ u64Max →
    truncate 64 (cache.getBestAsk cmd.marketId * spec.slippage / 10000) =
      cache.getBestAsk cmd.marketId * spec.slippage / 10000
  cost : Priced spec (cache.getBestAsk cmd.marketId) cmd →
    CostExact spec (worstPrice spec (cache.getBestAsk cmd.marketId) cmd) cmd.size

/-- The numbers of a reservation fit their words. -/
structure ReservationFits (spec : CoreMarketSpecification) (bestAsk : Nat) (cmd : OrderCommand)
    (balance : UserBalance) : Prop where
  slippage : cmd.price = u64Max → bestAsk ≠ u64Max → bestAsk * spec.slippage / 10000 < 2 ^ 64
  cost : Priced spec bestAsk cmd → spec.costFits (worstPrice spec bestAsk cmd) cmd.size = true
  locked : Priced spec bestAsk cmd →
    spec.quoteCost (worstPrice spec bestAsk cmd) cmd.size ≤ balance.available →
    balance.locked + spec.quoteCost (worstPrice spec bestAsk cmd) cmd.size < 2 ^ 64

section Reservation

variable {engine : RiskEngine} {cmd : OrderCommand} {cache : PriceCache}
  {spec : CoreMarketSpecification}

theorem bidAmount_unpriced (hspec : engine.symbolSpecs.lookup cmd.marketId = some spec)
    (hslippage : cmd.price = u64Max → cache.getBestAsk cmd.marketId ≠ u64Max →
      cache.getBestAsk cmd.marketId * spec.slippage / 10000 < 2 ^ 64)
    (h : ¬Priced spec (cache.getBestAsk cmd.marketId) cmd) :
    ∃ e, engine.bidAmount cmd cache = (cmd, .error e) := by
  unfold Priced at h
  rw [Classical.not_imp] at h
  obtain ⟨hmarket, hunpriced⟩ := h
  unfold RiskEngine.bidAmount
  rw [hspec]
  simp only [if_pos hmarket]
  by_cases hempty : cache.getBestAsk cmd.marketId = u64Max
  · rw [if_pos hempty]
    exact ⟨_, rfl⟩
  · have hnone : RiskEngine.conservativePrice spec (cache.getBestAsk cmd.marketId) = none := by
      rw [RiskEngine.conservativePrice, truncate_of_lt (hslippage hmarket hempty), checkedAdd,
        if_neg]
      intro hlt
      apply hunpriced
      rw [worstPrice, if_pos hmarket]
      exact ⟨hempty, hlt⟩
    rw [if_neg hempty, hnone]
    exact ⟨_, rfl⟩

theorem bidAmount_priced (hspec : engine.symbolSpecs.lookup cmd.marketId = some spec)
    (hslippage : cmd.price = u64Max → cache.getBestAsk cmd.marketId ≠ u64Max →
      cache.getBestAsk cmd.marketId * spec.slippage / 10000 < 2 ^ 64)
    (h : Priced spec (cache.getBestAsk cmd.marketId) cmd) :
    engine.bidAmount cmd cache =
      ({ cmd with price := worstPrice spec (cache.getBestAsk cmd.marketId) cmd },
        .ok (spec.calculateQuoteCost (worstPrice spec (cache.getBestAsk cmd.marketId) cmd)
          cmd.size)) := by
  unfold RiskEngine.bidAmount
  rw [hspec]
  by_cases hmarket : cmd.price = u64Max
  · obtain ⟨hask, hlt⟩ := h hmarket
    rw [worstPrice, if_pos hmarket] at hlt ⊢
    have hprice : RiskEngine.conservativePrice spec (cache.getBestAsk cmd.marketId) =
        some (cache.getBestAsk cmd.marketId +
          cache.getBestAsk cmd.marketId * spec.slippage / 10000) := by
      rw [RiskEngine.conservativePrice, truncate_of_lt (hslippage hmarket hask),
        checkedAdd_of_lt hlt]
    simp only [if_pos hmarket, if_neg hask, hprice]
  · rw [worstPrice, if_neg hmarket]
    simp only [if_neg hmarket]

theorem preProcessCommand_bid_error (howns : engine.userIdForThisHandler cmd.userId = true)
    (hcommand : cmd.command = .placeOrder) (hside : cmd.side = .bid)
    (hspec : engine.symbolSpecs.lookup cmd.marketId = some spec) {e : RiskEngineError}
    (herror : engine.bidAmount cmd cache = (cmd, .error e)) :
    engine.preProcessCommand cmd cache = (engine.balances, { cmd with status := .rejected }) := by
  unfold RiskEngine.preProcessCommand
  rw [if_pos howns, RiskEngine.reserveFundsForOrder_bid_error engine cmd cache hside herror]
  simp only [hcommand, hspec]

theorem preProcessCommand_bid (howns : engine.userIdForThisHandler cmd.userId = true)
    (hcommand : cmd.command = .placeOrder) (hside : cmd.side = .bid)
    (hspec : engine.symbolSpecs.lookup cmd.marketId = some spec) {price amount : Nat}
    (hamount : engine.bidAmount cmd cache = ({ cmd with price }, .ok amount)) :
    (amount ≤ (engine.getBalance cmd.userId (quoteAsset cmd.marketId)).available ∧
      engine.preProcessCommand cmd cache =
        (engine.balances.setBalance cmd.userId (quoteAsset cmd.marketId)
          { available :=
              (engine.getBalance cmd.userId (quoteAsset cmd.marketId)).available - amount
            locked := wrappingAdd 64
              (engine.getBalance cmd.userId (quoteAsset cmd.marketId)).locked amount },
          { cmd with price })) ∨
    ((engine.getBalance cmd.userId (quoteAsset cmd.marketId)).available < amount ∧
      (engine.preProcessCommand cmd cache).2.status = .rejected ∧
      engine.balances.Same (engine.preProcessCommand cmd cache).1) := by
  have hreserve := RiskEngine.reserveFundsForOrder_bid engine cmd cache hside hamount
  unfold RiskEngine.preProcessCommand
  rw [if_pos howns, hreserve]
  simp only [hcommand, hspec]
  rcases engine.balances.lockFunds_cases cmd.userId (quoteAsset cmd.marketId) amount with
    ⟨hle, heq⟩ | ⟨hlt, e, herror, hsame⟩
  · rw [heq]
    exact .inl ⟨hle, rfl⟩
  · rw [herror]
    exact .inr ⟨hlt, rfl, hsame⟩

/-- A bid is reserved exactly if and only if the numbers of its reservation fit their words. -/
theorem reserves_exactly_iff (engine : RiskEngine) (cmd : OrderCommand) (cache : PriceCache)
    (spec : CoreMarketSpecification) (howns : engine.userIdForThisHandler cmd.userId = true)
    (hcommand : cmd.command = .placeOrder) (hside : cmd.side = .bid)
    (hstatus : cmd.status = .processing)
    (hspec : engine.symbolSpecs.lookup cmd.marketId = some spec) :
    ReservesExactly engine cmd cache spec ↔
      ReservationFits spec (cache.getBestAsk cmd.marketId) cmd
        (engine.getBalance cmd.userId (quoteAsset cmd.marketId)) := by
  constructor
  · intro h
    have hslippage : cmd.price = u64Max → cache.getBestAsk cmd.marketId ≠ u64Max →
        cache.getBestAsk cmd.marketId * spec.slippage / 10000 < 2 ^ 64 :=
      fun hmarket hask => truncate_eq_iff.mp (h.slippage hmarket hask)
    refine ⟨hslippage, fun hpriced => costExact_iff.mp (h.cost hpriced), ?_⟩
    intro hpriced hfunds
    have hfits := costExact_iff.mp (h.cost hpriced)
    have hamount := bidAmount_priced hspec hslippage hpriced
    rw [CoreMarketSpecification.calculateQuoteCost_of_fits hfits] at hamount
    rcases preProcessCommand_bid howns hcommand hside hspec hamount with ⟨_, heq⟩ | ⟨hlt, _⟩
    · rcases h.outcome with ⟨hrejected, _⟩ | ⟨_, hexact⟩
      · rw [heq] at hrejected
        exact absurd (hstatus.symm.trans hrejected) (by decide)
      · -- the locked amount is a word, so the exact sum is one too
        have hlocked := congrArg (fun out : BalanceStore × OrderCommand =>
          (out.1.getBalance cmd.userId (quoteAsset cmd.marketId)).locked) (heq.symm.trans hexact)
        simp only [BalanceStore.getBalance_setBalance, and_self, if_true] at hlocked
        exact truncate_eq_iff.mp hlocked
    · omega
  · intro h
    refine ⟨?_, ?_, ?_⟩
    · by_cases hpriced : Priced spec (cache.getBestAsk cmd.marketId) cmd
      · have hamount := bidAmount_priced hspec h.slippage hpriced
        rw [CoreMarketSpecification.calculateQuoteCost_of_fits (h.cost hpriced)] at hamount
        rcases preProcessCommand_bid howns hcommand hside hspec hamount with
          ⟨hle, heq⟩ | ⟨_, hrejected, hsame⟩
        · rw [wrappingAdd_of_lt (h.locked hpriced hle)] at heq
          exact .inr ⟨hle, heq⟩
        · exact .inl ⟨hrejected, hsame⟩
      · obtain ⟨e, herror⟩ := bidAmount_unpriced hspec h.slippage hpriced
        rw [preProcessCommand_bid_error howns hcommand hside hspec herror]
        exact .inl ⟨rfl, .refl _⟩
    · intro hmarket hask
      exact truncate_eq_iff.mpr (h.slippage hmarket hask)
    · intro hpriced
      exact costExact_iff.mpr (h.cost hpriced)

end Reservation

/-- User 0 has 5 of the quote asset and asks for 2^64 / 10 units at price 10: the true cost is
just above a word, the computed one is 4. -/
theorem reserve_wrapped_cost :
    ¬∀ (engine : RiskEngine) (cmd : OrderCommand) (cache : PriceCache)
      (spec : CoreMarketSpecification), engine.userIdForThisHandler cmd.userId = true →
      cmd.command = .placeOrder → cmd.side = .bid → cmd.status = .processing →
      engine.symbolSpecs.lookup cmd.marketId = some spec →
      spec.baseNativeScale ≠ 0 → spec.quoteNativeScale ≠ 0 → spec.quoteScaleK ≠ 0 →
      ReservesExactly engine cmd cache spec := by
  intro hall
  have hlaw := hall
    { balances := BalanceStore.new.setBalance 0 0 { available := 5 }
      symbolSpecs := Finmap.singleton 1 ⟨1, 1, 1, 0, 0, 0⟩
      shardId := 0
      shardMask := 3 }
    (.limit .bid .gtc 1 0 10 1844674407370955162) ⟨Finmap.singleton 1 {}⟩ ⟨1, 1, 1, 0, 0, 0⟩
    (by decide) rfl rfl rfl (by decide) (by decide) (by decide) (by decide)
  rcases hlaw.outcome with ⟨hrejected, _⟩ | ⟨hfunds, _⟩
  · revert hrejected
    decide
  · revert hfunds
    decide

theorem reserves_exactly_iff_limit :
    ReservesExactly
      { balances := BalanceStore.new.setBalance 0 0 { available := 1000 }
        symbolSpecs := Finmap.singleton 1 ⟨1, 1, 1, 0, 0, 0⟩
        shardId := 0
        shardMask := 3 }
      (.limit .bid .gtc 1 0 100 10) ⟨Finmap.singleton 1 {}⟩ ⟨1, 1, 1, 0, 0, 0⟩ ↔
    ReservationFits ⟨1, 1, 1, 0, 0, 0⟩ (PriceCache.getBestAsk ⟨Finmap.singleton 1 {}⟩ 1)
      (.limit .bid .gtc 1 0 100 10)
      ((BalanceStore.new.setBalance 0 0 { available := 1000 }).getBalance 0 (quoteAsset 1)) :=
  reserves_exactly_iff _ _ _ _ (by decide) rfl rfl rfl (by decide)

/-- The law for the amounts of one side of a trade: what is debited, what is credited gross, the
fee, what remains after it, and that a settlement moves just that, whatever the taker's limit.
A taker's refund comes before it. -/
structure SettlesExactly (spec : CoreMarketSpecification) (marketId : Nat) (side : Side)
    (event : MatcherTradeEvent) (isMaker : Bool) : Prop where
  denominator : wrappingMul 128 spec.baseNativeScale spec.quoteScaleK ≠ 0
  debit : (RiskEngine.tradeLegs spec marketId side event).amountToSubtract =
    escrowed spec side event.price event.size
  gross : (RiskEngine.tradeLegs spec marketId side event).gross =
    escrowed spec side.opSide event.price event.size
  feeProduct : wrappingMul 64 (RiskEngine.tradeLegs spec marketId side event).gross
      (RiskEngine.feeRate spec isMaker) =
    escrowed spec side.opSide event.price event.size * RiskEngine.feeRate spec isMaker
  fee : RiskEngine.feeOn (RiskEngine.tradeLegs spec marketId side event).gross
      (RiskEngine.feeRate spec isMaker) =
    escrowed spec side.opSide event.price event.size * RiskEngine.feeRate spec isMaker / 10000
  net : wrappingSub 64 (RiskEngine.tradeLegs spec marketId side event).gross
      (RiskEngine.feeOn (RiskEngine.tradeLegs spec marketId side event).gross
        (RiskEngine.feeRate spec isMaker)) +
      escrowed spec side.opSide event.price event.size * RiskEngine.feeRate spec isMaker / 10000 =
    escrowed spec side.opSide event.price event.size
  moves : ∀ store store' userId event' takerPrice, (userId == event.makerUserId) = isMaker →
    RiskEngine.settleTrade store userId marketId side event spec takerPrice =
      (store', event', .ok ()) →
    ∃ refunded, RiskEngine.refundImprovement store userId marketId
        (RiskEngine.priceImprovement spec isMaker side event takerPrice) = (refunded, .ok ()) ∧
      Executes refunded (sidePlan spec marketId userId side event.price event.size
        (RiskEngine.feeRate spec isMaker)) store'

/-- The numbers of one side of a trade fit their words, and the fee leaves something. -/
structure TradeFits (spec : CoreMarketSpecification) (side : Side) (event : MatcherTradeEvent)
    (rate : Nat) : Prop where
  scale : spec.baseNativeScale ≠ 0
  numerator : event.price * event.size * spec.quoteNativeScale < 2 ^ 128
  feeProduct : escrowed spec side.opSide event.price event.size * rate < 2 ^ 64
  surcharge : escrowed spec side.opSide event.price event.size * (rate - 10000) < 10000

theorem fee_le_iff {gross rate : Nat} :
    gross * rate / 10000 ≤ gross ↔ gross * (rate - 10000) < 10000 := by
  have hle : gross * rate / 10000 ≤ gross ↔ gross * rate < (gross + 1) * 10000 := by
    rw [← Nat.lt_succ_iff, Nat.div_lt_iff_lt_mul (by decide)]
  rw [hle, Nat.mul_sub, Nat.add_mul]
  omega

theorem calculateQuoteCost_eq_iff {spec : CoreMarketSpecification} {price size : Nat}
    (hnotional : price * size < 2 ^ 128)
    (hdenominator : spec.baseNativeScale * spec.quoteScaleK < 2 ^ 128)
    (hscale : spec.baseNativeScale * spec.quoteScaleK ≠ 0)
    (hcost : spec.quoteCost price size < 2 ^ 64) :
    spec.calculateQuoteCost price size = spec.quoteCost price size ↔
      price * size * spec.quoteNativeScale < 2 ^ 128 := by
  constructor
  · intro h
    unfold CoreMarketSpecification.calculateQuoteCost at h
    rw [wrappingMul_of_lt hnotional, wrappingMul_of_lt hdenominator] at h
    simp only [if_neg hscale] at h
    by_contra hwrap
    have hpos : 0 < spec.baseNativeScale * spec.quoteScaleK := Nat.pos_of_ne_zero hscale
    -- one wrap takes away more than one denominator
    have hshort : wrappingMul 128 (price * size) spec.quoteNativeScale +
        spec.baseNativeScale * spec.quoteScaleK ≤ price * size * spec.quoteNativeScale := by
      have hmod := Nat.mod_add_div (price * size * spec.quoteNativeScale) (2 ^ 128)
      have hdiv : 1 ≤ price * size * spec.quoteNativeScale / 2 ^ 128 :=
        Nat.div_pos (Nat.le_of_not_lt hwrap) (Nat.two_pow_pos 128)
      have hmul := Nat.mul_le_mul_left (2 ^ 128) hdiv
      unfold wrappingMul truncate
      omega
    have hquotient := Nat.div_le_div_right (c := spec.baseNativeScale * spec.quoteScaleK) hshort
    rw [Nat.add_div_right _ hpos] at hquotient
    have hcast : truncate 64 (wrappingMul 128 (price * size) spec.quoteNativeScale /
        (spec.baseNativeScale * spec.quoteScaleK)) ≤
          wrappingMul 128 (price * size) spec.quoteNativeScale /
            (spec.baseNativeScale * spec.quoteScaleK) := Nat.mod_le _ _
    have hexact : spec.quoteCost price size = price * size * spec.quoteNativeScale /
        (spec.baseNativeScale * spec.quoteScaleK) := rfl
    omega
  · intro h
    apply CoreMarketSpecification.calculateQuoteCost_of_fits
    simp only [CoreMarketSpecification.costFits, Bool.and_eq_true, decide_eq_true_eq]
    exact ⟨⟨⟨hnotional, h⟩, hdenominator⟩, hcost⟩

theorem tradeLegs_exact {spec : CoreMarketSpecification} {side : Side} {event : MatcherTradeEvent}
    (marketId : Nat) :
    ((RiskEngine.tradeLegs spec marketId side event).amountToSubtract =
        escrowed spec side event.price event.size ∧
      (RiskEngine.tradeLegs spec marketId side event).gross =
        escrowed spec side.opSide event.price event.size) ↔
      spec.calculateQuoteCost event.price event.size =
        spec.quoteCost event.price event.size := by
  cases side with
  | bid => exact ⟨fun h => h.1, fun h => ⟨h, rfl⟩⟩
  | ask => exact ⟨fun h => h.2, fun h => ⟨rfl, h⟩⟩

/-- For an accepted specification, a trade settles exactly if and only if its numbers fit. -/
theorem settles_exactly_iff {symbols : List (Nat × SymbolSpecification)}
    (accepted : SymbolSpecificationConfig.validate symbols = .ok ()) {marketId : Nat}
    {spec : SymbolSpecification} (hmem : (marketId, spec) ∈ symbols)
    (hbase : spec.baseNativeScale < 2 ^ 64) (hquote : spec.quoteScaleK < 2 ^ 64) (side : Side)
    (event : MatcherTradeEvent) (hprice : event.price < 2 ^ 64) (hsize : event.size < 2 ^ 64)
    (hcost : spec.quoteCost event.price event.size < 2 ^ 64) (isMaker : Bool) :
    SettlesExactly spec.toCoreMarketSpecification marketId side event isMaker ↔
      TradeFits spec.toCoreMarketSpecification side event
        (RiskEngine.feeRate spec.toCoreMarketSpecification isMaker) := by
  have hscaleK := (SymbolSpecificationConfig.validate_ok_iff.mp accepted _ hmem).quoteScaleK
  have hnotional : event.price * event.size < 2 ^ 128 :=
    Nat.mul_lt_mul'' (a := event.price) (c := 2 ^ 64) hprice hsize
  have hdenominator : spec.baseNativeScale * spec.quoteScaleK < 2 ^ 128 :=
    Nat.mul_lt_mul'' (c := 2 ^ 64) hbase hquote
  have hgross : escrowed spec.toCoreMarketSpecification side.opSide event.price event.size <
      2 ^ 64 := escrowed_lt_of_cost side.opSide hcost hsize
  constructor
  · intro h
    have hscale : spec.baseNativeScale ≠ 0 := by
      intro hzero
      apply h.denominator
      rw [hzero, wrappingMul, Nat.zero_mul]
      rfl
    have hexact := (tradeLegs_exact marketId).mp ⟨h.debit, h.gross⟩
    have hfee := h.net
    refine ⟨hscale, ?_, ?_, ?_⟩
    · exact (calculateQuoteCost_eq_iff hnotional hdenominator (Nat.mul_ne_zero hscale hscaleK)
        hcost).mp hexact
    · rw [← h.feeProduct]
      exact truncate_lt _ _
    · apply fee_le_iff.mp
      omega
  · intro h
    have hexact := (calculateQuoteCost_eq_iff hnotional hdenominator
      (Nat.mul_ne_zero h.scale hscaleK) hcost).mpr h.numerator
    obtain ⟨hdebit, hcredit⟩ := (@tradeLegs_exact _ side _ marketId).mpr hexact
    have hfee := fee_le_iff.mpr h.surcharge
    refine ⟨?_, hdebit, hcredit, ?_, ?_, ?_, ?_⟩
    · rw [wrappingMul_of_lt hdenominator]
      exact Nat.mul_ne_zero h.scale hscaleK
    · rw [hcredit, wrappingMul_of_lt h.feeProduct]
    · rw [hcredit, feeOn_eq h.feeProduct]
    · rw [hcredit, feeOn_eq h.feeProduct, wrappingSub_of_le hfee hgross]
      omega
    · intro store store' userId event' takerPrice hmaker hsettle
      obtain ⟨refunded, hrefund, hmoves⟩ := settleTrade_ok hsettle
        (escrowed spec.toCoreMarketSpecification side.opSide event.price event.size *
          RiskEngine.feeRate spec.toCoreMarketSpecification isMaker / 10000)
      rw [hmaker] at hrefund
      rw [hmaker, hdebit, hcredit, feeOn_eq h.feeProduct, wrappingSub_of_le hfee hgross,
        tradeLegs_eq] at hmoves
      exact ⟨refunded, hrefund, hmoves⟩

/-- The market of the test configuration of scale one, with fees. -/
def plainSymbol : SymbolSpecification :=
  { baseNativeScale := 1
    quoteNativeScale := 1
    quoteScaleK := 1
    takerFee := 20
    makerFee := 10
    slippage := 100
    marketId := 1
    baseAssetId := 1
    quoteAssetId := 0
    baseScaleK := 1 }

theorem settles_exactly_iff_plain :
    SettlesExactly plainSymbol.toCoreMarketSpecification 1 .bid
        (OrderBook.tradeEvent 100 0 5 (OrderBook.restingOrder (.limit .ask .gtc 1 0 100 5) 5)) true ↔
      TradeFits plainSymbol.toCoreMarketSpecification .bid
        (OrderBook.tradeEvent 100 0 5 (OrderBook.restingOrder (.limit .ask .gtc 1 0 100 5) 5))
        (RiskEngine.feeRate plainSymbol.toCoreMarketSpecification true) :=
  @settles_exactly_iff [(1, plainSymbol)] rfl _ _ List.mem_cons_self (by decide) (by decide)
    .bid _ (by decide) (by decide) (by decide) true

/-- The same market but for a base scale of zero. -/
def scalelessSymbol : SymbolSpecification := { plainSymbol with baseNativeScale := 0 }

/-- Validation lets a base scale of zero pass, and every cost is then zero. -/
theorem scaleless_not_exact :
    ¬∀ (symbols : List (Nat × SymbolSpecification)),
      SymbolSpecificationConfig.validate symbols = .ok () → ∀ marketId spec,
      (marketId, spec) ∈ symbols → ∀ (side : Side) (event : MatcherTradeEvent) (isMaker : Bool),
      event.price < 2 ^ 64 → event.size < 2 ^ 64 →
      spec.quoteCost event.price event.size < 2 ^ 64 →
      SettlesExactly spec.toCoreMarketSpecification marketId side event isMaker := by
  intro hall
  have hlaw := hall [(1, scalelessSymbol)] rfl 1 scalelessSymbol List.mem_cons_self .bid
    (OrderBook.tradeEvent 100 0 5 (OrderBook.restingOrder (.limit .ask .gtc 1 0 100 5) 5)) true
    (by decide) (by decide) (by decide)
  exact hlaw.denominator rfl

end VexCore
