import VexCore.Ledger.Reserves

/-!
# What rounding can cost a bid

A bid is reserved with one floor, and spent, refunded and released with one floor each time. The
pieces never exceed the whole, and each fill loses at most two units.
-/

namespace VexCore

open Framework

/-- A fill of a bid, at a price. -/
structure BidFill where
  price : Nat
  size : Nat
deriving DecidableEq, Repr

def bidFilled (fills : List BidFill) : Nat := (fills.map BidFill.size).sum

@[simp] theorem bidFilled_cons (f : BidFill) (fills : List BidFill) :
    bidFilled (f :: fills) = f.size + bidFilled fills := rfl

/-- What a bid spends and gets refunded over its fills. -/
def settledCost (spec : CoreMarketSpecification) (limit : Nat) (fills : List BidFill) : Nat :=
  (fills.map fun f => spec.calculateQuoteCost f.price f.size +
    spec.calculateQuoteCost (limit - f.price) f.size).sum

section Loss

variable (spec : CoreMarketSpecification) (limit : Nat)

/-- What flooring loses over the fills of a bid that keeps `rest`. -/
def bidLoss : List BidFill → Nat → Nat
  | [], _ => 0
  | f :: fills, rest =>
      spec.fillLoss limit f.size (bidFilled fills + rest) +
        spec.improvementLoss f.price (limit - f.price) f.size + bidLoss fills rest

theorem bidLoss_le (fills : List BidFill) (rest : Nat) :
    bidLoss spec limit fills rest ≤ 2 * fills.length := by
  induction fills with
  | nil => exact Nat.le_refl 0
  | cons f fills ih =>
    have hfill : spec.fillLoss limit f.size (bidFilled fills + rest) ≤ 1 :=
      splitLoss_le_one _ _ _ _
    have himprovement : spec.improvementLoss f.price (limit - f.price) f.size ≤ 1 :=
      splitLoss_le_one _ _ _ _
    rw [bidLoss, List.length_cons]
    omega

variable {spec limit}

theorem settledCost_add_bidLoss {fills : List BidFill} {rest : Nat}
    (hfits : spec.costFits limit (bidFilled fills + rest) = true)
    (hprices : ∀ f ∈ fills, f.price ≤ limit) :
    settledCost spec limit fills + spec.quoteCost limit rest + bidLoss spec limit fills rest =
      spec.quoteCost limit (bidFilled fills + rest) := by
  induction fills with
  | nil => simp [settledCost, bidLoss, bidFilled]
  | cons f fills ih =>
    rw [bidFilled_cons, Nat.add_assoc f.size] at hfits
    have hprice := hprices f List.mem_cons_self
    have hrest := ih (CoreMarketSpecification.costFits_mono hfits (Nat.le_refl _)
      (Nat.le_add_left _ _)) fun g hg => hprices g (List.mem_cons_of_mem _ hg)
    have hspent := CoreMarketSpecification.calculateQuoteCost_of_fits
      (CoreMarketSpecification.costFits_mono hfits hprice (Nat.le_add_right f.size _))
    have hrefunded := CoreMarketSpecification.calculateQuoteCost_of_fits
      (CoreMarketSpecification.costFits_mono hfits (Nat.sub_le limit f.price)
        (Nat.le_add_right f.size _))
    have himproved := spec.quoteCost_add_price f.price (limit - f.price) f.size
    rw [Nat.add_sub_cancel' hprice] at himproved
    have htaken := spec.quoteCost_add_size limit f.size (bidFilled fills + rest)
    have hsettled : settledCost spec limit (f :: fills) =
        spec.calculateQuoteCost f.price f.size +
          spec.calculateQuoteCost (limit - f.price) f.size + settledCost spec limit fills := rfl
    rw [bidFilled_cons, Nat.add_assoc f.size, htaken, hsettled, hspent, hrefunded, bidLoss]
    omega

/-- What a bid reserves covers its fills, its refunds and the release of the rest, and exceeds
them by at most two for each fill. -/
theorem bid_rounding_loss (spec : CoreMarketSpecification) (limit size : Nat)
    (fills : List BidFill) (hfits : spec.costFits limit size = true)
    (hprices : ∀ f ∈ fills, f.price ≤ limit) (hsizes : bidFilled fills ≤ size) :
    settledCost spec limit fills + spec.calculateQuoteCost limit (size - bidFilled fills) ≤
        spec.calculateQuoteCost limit size ∧
      spec.calculateQuoteCost limit size ≤ settledCost spec limit fills +
        spec.calculateQuoteCost limit (size - bidFilled fills) + 2 * fills.length := by
  have hwhole := CoreMarketSpecification.calculateQuoteCost_of_fits hfits
  have hrest := CoreMarketSpecification.calculateQuoteCost_of_fits
    (CoreMarketSpecification.costFits_mono hfits (Nat.le_refl limit)
      (Nat.sub_le size (bidFilled fills)))
  rw [← Nat.add_sub_cancel' hsizes] at hfits
  have hsplit := settledCost_add_bidLoss hfits hprices
  rw [Nat.add_sub_cancel' hsizes] at hsplit
  have hloss := bidLoss_le spec limit fills (size - bidFilled fills)
  rw [hwhole, hrest]
  omega

/-- Three fills of a bid of 10 at 7, at a scale of three to seven. -/
theorem bid_rounding_loss_thirds :
    settledCost ⟨7, 3, 1, 0, 0, 0⟩ 7 [⟨5, 2⟩, ⟨7, 1⟩, ⟨6, 3⟩] +
          CoreMarketSpecification.calculateQuoteCost ⟨7, 3, 1, 0, 0, 0⟩ 7 (10 - 6) ≤
        CoreMarketSpecification.calculateQuoteCost ⟨7, 3, 1, 0, 0, 0⟩ 7 10 ∧
      CoreMarketSpecification.calculateQuoteCost ⟨7, 3, 1, 0, 0, 0⟩ 7 10 ≤
        settledCost ⟨7, 3, 1, 0, 0, 0⟩ 7 [⟨5, 2⟩, ⟨7, 1⟩, ⟨6, 3⟩] +
          CoreMarketSpecification.calculateQuoteCost ⟨7, 3, 1, 0, 0, 0⟩ 7 (10 - 6) + 2 * 3 :=
  bid_rounding_loss ⟨7, 3, 1, 0, 0, 0⟩ 7 10 [⟨5, 2⟩, ⟨7, 1⟩, ⟨6, 3⟩] (by decide) (by decide)
    (by decide)

end Loss

end VexCore
