import VexCore.Framework.Floor

/-!
# Market specifications and the quote cost of an order

A market id packs the base asset into its lower and the quote asset into its upper
sixteen bits. The quote cost is computed in 128-bit arithmetic and narrowed to 64 bits.
-/

namespace VexCore

open Framework

/-- `u64::MAX`, the price of a market buy and the ask price of an empty side. -/
def u64Max : Nat := maxWord 64

def baseAsset (marketId : Nat) : Nat := marketId % 2 ^ 16

def quoteAsset (marketId : Nat) : Nat := marketId / 2 ^ 16

structure CoreMarketSpecification where
  baseNativeScale : Nat
  quoteNativeScale : Nat
  quoteScaleK : Nat
  takerFee : Nat
  makerFee : Nat
  slippage : Nat
deriving DecidableEq, Repr

namespace CoreMarketSpecification

def calculateQuoteCost (spec : CoreMarketSpecification) (price size : Nat) : Nat :=
  let numerator := wrappingMul 128 (wrappingMul 128 price size) spec.quoteNativeScale
  let denominator := wrappingMul 128 spec.baseNativeScale spec.quoteScaleK
  if denominator = 0 then 0 else truncate 64 (numerator / denominator)

/-- The cost over unbounded integers: the floor of the notional at the market's rate. -/
def quoteCost (spec : CoreMarketSpecification) (price size : Nat) : Nat :=
  share spec.quoteNativeScale (spec.baseNativeScale * spec.quoteScaleK) (price * size)

/-- No product of the cost computation leaves 128 bits and the quotient fits 64 bits. -/
def costFits (spec : CoreMarketSpecification) (price size : Nat) : Bool :=
  decide (price * size < 2 ^ 128) && decide (price * size * spec.quoteNativeScale < 2 ^ 128) &&
    decide (spec.baseNativeScale * spec.quoteScaleK < 2 ^ 128) &&
    decide (spec.quoteCost price size < 2 ^ 64)

theorem calculateQuoteCost_of_fits {spec : CoreMarketSpecification} {price size : Nat}
    (h : spec.costFits price size = true) :
    spec.calculateQuoteCost price size = spec.quoteCost price size := by
  simp only [costFits, Bool.and_eq_true, decide_eq_true_eq] at h
  obtain ⟨⟨⟨hnotional, hnumerator⟩, hdenominator⟩, hquotient⟩ := h
  unfold calculateQuoteCost
  rw [wrappingMul_of_lt hnotional, wrappingMul_of_lt hnumerator, wrappingMul_of_lt hdenominator]
  by_cases hz : spec.baseNativeScale * spec.quoteScaleK = 0
  · simp [hz, quoteCost, share]
  · simp only [if_neg hz]
    exact truncate_of_lt hquotient

@[simp] theorem quoteCost_zero_size (spec : CoreMarketSpecification) (price : Nat) :
    spec.quoteCost price 0 = 0 := by simp [quoteCost]

@[simp] theorem quoteCost_zero_price (spec : CoreMarketSpecification) (size : Nat) :
    spec.quoteCost 0 size = 0 := by simp [quoteCost]

/-- What a market's flooring loses when `size` is taken out of an order of `rest + size`. -/
def fillLoss (spec : CoreMarketSpecification) (price size rest : Nat) : Nat :=
  splitLoss spec.quoteNativeScale (spec.baseNativeScale * spec.quoteScaleK)
    (price * size) (price * rest)

theorem quoteCost_add_size (spec : CoreMarketSpecification) (price size rest : Nat) :
    spec.quoteCost price (size + rest) =
      spec.quoteCost price size + spec.quoteCost price rest + spec.fillLoss price size rest := by
  unfold quoteCost fillLoss
  rw [Nat.mul_add]
  exact share_add _ _ _ _

/-- What flooring loses when a fill below the limit is split into spend and refund. -/
def improvementLoss (spec : CoreMarketSpecification) (price diff size : Nat) : Nat :=
  splitLoss spec.quoteNativeScale (spec.baseNativeScale * spec.quoteScaleK)
    (price * size) (diff * size)

theorem quoteCost_add_price (spec : CoreMarketSpecification) (price diff size : Nat) :
    spec.quoteCost (price + diff) size =
      spec.quoteCost price size + spec.quoteCost diff size +
        spec.improvementLoss price diff size := by
  unfold quoteCost improvementLoss
  rw [Nat.add_mul]
  exact share_add _ _ _ _

/-- Cheaper and smaller orders fit where the larger one does. -/
theorem costFits_mono {spec : CoreMarketSpecification} {price price' size size' : Nat}
    (h : spec.costFits price size = true) (hprice : price' ≤ price) (hsize : size' ≤ size) :
    spec.costFits price' size' = true := by
  have hnotional : price' * size' ≤ price * size := Nat.mul_le_mul hprice hsize
  have hnumerator := Nat.mul_le_mul_right spec.quoteNativeScale hnotional
  have hcost : spec.quoteCost price' size' ≤ spec.quoteCost price size := share_mono hnotional
  simp only [costFits, Bool.and_eq_true, decide_eq_true_eq] at h ⊢
  exact ⟨⟨⟨hnotional.trans_lt h.1.1.1, hnumerator.trans_lt h.1.1.2⟩, h.1.2⟩, hcost.trans_lt h.2⟩

end CoreMarketSpecification

end VexCore
