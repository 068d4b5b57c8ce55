import VexCore.Common.Market

/-!
# Validation of market specifications
-/

namespace VexCore

/-- A specification with the fields only its validation reads. -/
structure SymbolSpecification extends CoreMarketSpecification where
  marketId : Nat
  baseAssetId : Nat
  quoteAssetId : Nat
  baseScaleK : Nat
deriving DecidableEq, Repr

inductive ConfigError
  | validationError (message : String)
deriving DecidableEq, Repr

namespace SymbolSpecificationConfig

/-- `quote_asset << 16 | base_asset`. -/
def packedAssets (spec : SymbolSpecification) : Nat :=
  Framework.truncate 32 (spec.quoteAssetId <<< 16) ||| spec.baseAssetId

/-- The checks of one entry, in their order. -/
def validateSymbol (marketId : Nat) (spec : SymbolSpecification) : Except ConfigError Unit :=
  if packedAssets spec ≠ marketId then
    .error (.validationError s!"Symbol ID {marketId} does not match quote_asset << 16 | base_asset = {packedAssets spec}")
  else if marketId ≠ spec.marketId then
    .error (.validationError
      s!"Symbol ID mismatch: key {marketId} != spec.market_id {spec.marketId}")
  else if spec.baseScaleK = 0 then
    .error (.validationError s!"Symbol {marketId}: base_scale_k cannot be zero")
  else if spec.quoteScaleK = 0 then
    .error (.validationError s!"Symbol {marketId}: quote_scale_k cannot be zero")
  else if spec.takerFee < spec.makerFee then
    .error (.validationError s!"Symbol {marketId}: taker_fee ({spec.takerFee}) should be >= maker_fee ({spec.makerFee})")
  else .ok ()

/-- The loop over the symbols, in the order the map yields them. -/
def validate : List (Nat × SymbolSpecification) → Except ConfigError Unit
  | [] => .ok ()
  | (marketId, spec) :: rest =>
      match validateSymbol marketId spec with
      | .error e => .error e
      | .ok _ => validate rest

/-- What an accepted entry is known to satisfy. -/
structure Accepted (marketId : Nat) (spec : SymbolSpecification) : Prop where
  assets : packedAssets spec = marketId
  marketId : spec.marketId = marketId
  baseScaleK : spec.baseScaleK ≠ 0
  quoteScaleK : spec.quoteScaleK ≠ 0
  fees : spec.makerFee ≤ spec.takerFee

theorem validateSymbol_ok_iff {marketId : Nat} {spec : SymbolSpecification} :
    validateSymbol marketId spec = .ok () ↔ Accepted marketId spec := by
  constructor
  · intro h
    unfold validateSymbol at h
    repeat (split at h; · cases h)
    refine ⟨?_, ?_, ?_, ?_, ?_⟩ <;> omega
  · intro h
    unfold validateSymbol
    rw [if_neg (not_not_intro h.assets), if_neg (not_not_intro h.marketId.symm),
      if_neg h.baseScaleK, if_neg h.quoteScaleK, if_neg (Nat.not_lt_of_le h.fees)]

/-- A configuration is accepted exactly when each of its symbols is. -/
theorem validate_ok_iff {symbols : List (Nat × SymbolSpecification)} :
    validate symbols = .ok () ↔ ∀ e ∈ symbols, Accepted e.1 e.2 := by
  induction symbols with
  | nil => simp [validate]
  | cons e rest ih =>
    obtain ⟨marketId, spec⟩ := e
    rw [validate, List.forall_mem_cons, ← ih, ← validateSymbol_ok_iff]
    cases validateSymbol marketId spec with
    | error e => simp
    | ok u => simp

end SymbolSpecificationConfig

end VexCore
