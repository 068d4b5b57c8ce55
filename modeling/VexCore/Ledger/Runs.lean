import VexCore.Ledger.Commands

/-!
# The ledger over whole runs

While the arithmetic stays in range, every account has locked what its pending commands and
resting orders are owed, whatever way the stages overlap. So R2 finds every plan covered, and
every call it makes succeeds.
-/

namespace VexCore

open Framework

namespace OrderBook

/-- Flooring loses nothing when a placement executes: every reserve is the sum of what it is
split into. -/
def Exact (spec : CoreMarketSpecification) (book : OrderBook) (cmd : OrderCommand) : Prop :=
  (∀ f ∈ book.executed cmd, takeLoss spec cmd.side.opSide f.source.price f.amount
    (f.source.size - f.amount) = 0) ∧
  takerLoss spec cmd.side cmd.price (book.executed cmd) (book.unexecuted cmd) = 0

instance (spec : CoreMarketSpecification) (book : OrderBook) (cmd : OrderCommand) :
    Decidable (book.Exact spec cmd) := inferInstanceAs (Decidable (_ ∧ _))

theorem Exact.lossAt {spec : CoreMarketSpecification} {book : OrderBook} {cmd : OrderCommand}
    (h : book.Exact spec cmd) (k : BalanceKey) : book.lossAt spec cmd k = 0 := by
  have hmakers : makersLoss spec book.marketId cmd.side.opSide k (book.executed cmd) = 0 := by
    apply List.sum_eq_zero
    intro n hn
    obtain ⟨f, hf, rfl⟩ := List.mem_map.mp hn
    rw [h.1 f hf, onKey_zero]
  rw [OrderBook.lossAt, hmakers, h.2, onKey_zero]

end OrderBook

namespace Engine

variable (config : Config)

/-- The command a handler finds in its next slot. -/
def found (s : State) (h : Handler) : OrderCommand := (s.slots (s.seq h)).cmd

/-- The command a handler leaves there. -/
def handed (s : State) (h : Handler) : OrderCommand :=
  (process config h (s.seq h) s.shared (found s h)).2

/-- The cost of the order R1 accepts, and what its account then has locked, stay in range. -/
def ReservationInRange (shard : Fin numRiskEngines) (s : State) : Prop :=
  ownsUser shard (found s (.risk shard)).userId = true →
  (found s (.risk shard)).command = .placeOrder →
  (handed config s (.risk shard)).status ≠ .rejected →
  ∀ spec ∈ config.symbolSpecs.lookup (found s (.risk shard)).marketId,
    ((handed config s (.risk shard)).side = .bid →
      spec.costFits (handed config s (.risk shard)).price
        (handed config s (.risk shard)).size = true) ∧
    (s.shared.account ⟨(found s (.risk shard)).userId,
        escrowAsset (found s (.risk shard)).side (found s (.risk shard)).marketId⟩).locked +
      escrowed spec (handed config s (.risk shard)).side (handed config s (.risk shard)).price
        (handed config s (.risk shard)).size < 2 ^ 64

/-- The costs, refunds and fees of the settlement stay in range, and so do the balances of the
shard that it credits. -/
def SettlementInRange (shard : Fin numRiskEngines) (s : State) : Prop :=
  ∀ spec ∈ config.symbolSpecs.lookup (found s (.settlement shard)).marketId,
    ¬((found s (.settlement shard)).status = .rejected ∨
      (found s (.settlement shard)).status = .processed) →
    SettlementFits spec (found s (.settlement shard)) ∧
      ∀ e ∈ ownPart (s.shared.riskEngine config shard)
          (settlementPlan spec (found s (.settlement shard))),
        (s.shared.account e.1).available +
          tally Move.credit (settlementPlan spec (found s (.settlement shard))) e.1 < 2 ^ 64

def InRange (h : Handler) (s : State) : Prop :=
  match h with
  | .risk shard => ReservationInRange config shard s
  | .settlement shard => SettlementInRange config shard s
  | .journaling | .matching _ | .events => True

instance (shard : Fin numRiskEngines) (s : State) :
    Decidable (ReservationInRange config shard s) :=
  inferInstanceAs (Decidable (_ = true → _ = _ → _ ≠ _ → ∀ spec ∈ _, (_ = _ → _ = true) ∧ _ < _))

instance (shard : Fin numRiskEngines) (s : State) :
    Decidable (SettlementInRange config shard s) :=
  inferInstanceAs (Decidable (∀ spec ∈ _, ¬(_ = _ ∨ _ = _) →
    SettlementFits spec _ ∧ ∀ e ∈ ownPart _ _, _ < _))

instance : (h : Handler) → (s : State) → Decidable (InRange config h s)
  | .risk shard, s => inferInstanceAs (Decidable (ReservationInRange config shard s))
  | .settlement shard, s => inferInstanceAs (Decidable (SettlementInRange config shard s))
  | .journaling, _ | .matching _, _ | .events, _ => inferInstanceAs (Decidable True)

/-- No side of a settlement is charged a fee above what it receives. -/
def FeesFit (h : Handler) (s : State) : Prop :=
  ∀ shard, h = .settlement shard → ∀ spec ∈ config.symbolSpecs.lookup (found s h).marketId,
    ∀ event ∈ (found s h).events, NetFits spec (found s h) event

/-- Matching a placement splits no reserve with a loss. -/
def SplitsExactly (h : Handler) (s : State) : Prop :=
  ∀ shard, h = .matching shard → (found s h).command = .placeOrder →
    (found s h).status ≠ .rejected → ∀ spec ∈ config.symbolSpecs.lookup (found s h).marketId,
    ∀ book ∈ (s.shared.orderBooks shard).lookup (found s h).marketId,
      book.Exact spec (found s h)

instance (h : Handler) (s : State) : Decidable (FeesFit config h s) :=
  inferInstanceAs (Decidable (∀ shard, h = .settlement shard → ∀ spec ∈ _, ∀ event ∈ _,
    NetFits spec _ event))

instance (h : Handler) (s : State) : Decidable (SplitsExactly config h s) :=
  inferInstanceAs (Decidable (∀ shard, h = .matching shard → _ = _ → _ ≠ _ → ∀ spec ∈ _,
    ∀ book ∈ (s.shared.orderBooks shard).lookup _, OrderBook.Exact spec book _))

/-- The fees that the settled plans of a shard withheld. -/
def withheldBy (s : State) (assetId : Nat) (shard : Fin numRiskEngines) : Nat :=
  window (fun n => tallyAt Move.withheld (planOf config (s.slots n).cmd) fun k =>
    ownsUser shard k.userId && decide (k.assetId = assetId)) 0 (s.seq (.settlement shard))

/-- What is locked is owed or lost to flooring; what an account holds is what came in less what
went out; no settlement has failed. -/
structure LedgerInvariant (exact : Prop) (s : State) : Prop where
  covered : ∀ k, ∃ lost, (exact → lost = 0) ∧
    pending config s k + reserved config s.shared k + lost = (s.shared.account k).locked
  flow : ∀ k, (s.shared.account k).available + (s.shared.account k).locked +
      settledOn config Move.spent s k + movedOn .withdrawFunds s k =
    settledOn config Move.received s k + movedOn .depositFunds s k
  words : ∀ shard k, ((s.shared.balances shard).accounts k).available < 2 ^ 64
  settled : ∀ e ∈ s.shared.settlements, e.result = .ok ()
  fees : ∀ assetId, feesIn s.shared.settlements assetId =
    ∑ shard, withheldBy config s assetId shard

variable {config} {s : State}

theorem advance_cmd_found (s : State) (h : Handler) :
    (((pipeline config).advance s h).slots (s.seq h)).cmd = handed config s h :=
  advance_cmd_self s h

section Visit

variable (h : Handler)

theorem due_advance_ne {i : Nat} (hi : i ≠ s.seq h) (k : BalanceKey) :
    due config ((pipeline config).advance s h) k i = due config s k i := by
  rw [due, due, Pipeline.advance_slots_ne s h hi]
  simp only [matched_advance_ne hi]

/-- A command that still owes the same. -/
theorem due_advance_same (hh : h ≠ .matching (marketShard (found s h).marketId))
    (hsame : OwesSame (found s h) (handed config s h)) (k : BalanceKey) :
    due config ((pipeline config).advance s h) k (s.seq h) = due config s k (s.seq h) := by
  rw [due, due, advance_cmd_found, hsame.planOf_eq, hsame.lockedFor_eq]
  simp only [matched_advance_self hh]
  rfl

/-- Deposits and withdrawals follow the one slot that was visited. -/
theorem movedOn_advance (hpublished : s.seq h < s.published) (command : OrderCommandType)
    (k : BalanceKey) :
    movedOn command ((pipeline config).advance s h) k + moved command (found s h) k =
      movedOn command s k + moved command (handed config s h) k := by
  have hchange := window_change
    (f := fun n => moved command (((pipeline config).advance s h).slots n).cmd k)
    (g := fun n => moved command (s.slots n).cmd k) (Nat.zero_le _) hpublished
    fun i _ _ hi => by rw [Pipeline.advance_slots_ne s h hi]
  rw [advance_cmd_found] at hchange
  exact hchange

theorem movedOn_advance_same (ready : (pipeline config).Ready s h)
    (hsame : OwesSame (found s h) (handed config s h)) (command : OrderCommandType)
    (k : BalanceKey) :
    movedOn command ((pipeline config).advance s h) k = movedOn command s k := by
  have hmoved := @movedOn_advance config s h ready.1 command k
  rw [hsame.moved_eq] at hmoved
  omega

theorem movedOn_advance_order (ready : (pipeline config).Ready s h)
    (hcommand : (found s h).command = .placeOrder ∨ (found s h).command = .cancelOrder)
    {command : OrderCommandType} (hfunds : command = .depositFunds ∨ command = .withdrawFunds)
    (k : BalanceKey) :
    movedOn command ((pipeline config).advance s h) k = movedOn command s k := by
  have hne : (found s h).command ≠ command := by
    rcases hcommand with hc | hc <;> rcases hfunds with rfl | rfl <;> simp [hc]
  have hhanded : (handed config s h).command ≠ command := by
    rw [handed, process_command]
    exact hne
  have hmoved := @movedOn_advance config s h ready.1 command k
  rw [moved_of_command hne, moved_of_command hhanded] at hmoved
  exact hmoved

/-- The plans of settled slots stay as they are. -/
theorem planOf_advance {last : Nat} (hplan : s.seq h < last →
      planOf config (handed config s h) = planOf config (found s h)) {i : Nat} (hi : i < last) :
    planOf config (((pipeline config).advance s h).slots i).cmd =
      planOf config (s.slots i).cmd := by
  by_cases hslot : i = s.seq h
  · subst hslot
    rw [advance_cmd_found]
    exact hplan hi
  · rw [Pipeline.advance_slots_ne s h hslot]

variable (hseq : ∀ shard, ((pipeline config).advance s h).seq (.settlement shard) =
    s.seq (.settlement shard))
  (hplan : ∀ shard, s.seq h < s.seq (.settlement shard) →
    planOf config (handed config s h) = planOf config (found s h))

include hseq hplan

theorem settledOn_advance (measure : Move → Nat) (k : BalanceKey) :
    settledOn config measure ((pipeline config).advance s h) k = settledOn config measure s k := by
  unfold settledOn
  rw [hseq]
  apply window_congr
  intro i _ hi
  rw [planOf_advance h (hplan _) hi]

theorem withheldBy_advance (assetId : Nat) (shard : Fin numRiskEngines) :
    withheldBy config ((pipeline config).advance s h) assetId shard =
      withheldBy config s assetId shard := by
  unfold withheldBy
  rw [hseq]
  apply window_congr
  intro i _ hi
  rw [planOf_advance h (hplan _) hi]

end Visit

theorem pending_advance (h : Handler) {k : BalanceKey}
    (hsettlement : ((pipeline config).advance s h).seq (.settlement (userShard k.userId)) =
      s.seq (.settlement (userShard k.userId)))
    (hrisk : ((pipeline config).advance s h).seq (.risk (userShard k.userId)) =
      s.seq (.risk (userShard k.userId)))
    (hfirst : s.seq (.settlement (userShard k.userId)) ≤ s.seq h)
    (hlast : s.seq h < s.seq (.risk (userShard k.userId))) :
    pending config ((pipeline config).advance s h) k + due config s k (s.seq h) =
      pending config s k + due config ((pipeline config).advance s h) k (s.seq h) := by
  unfold pending
  rw [hsettlement, hrisk]
  apply window_change hfirst hlast
  intro i _ _ hi
  exact due_advance_ne h hi k

/-- ... and after one that leaves the debts of its slot alone. -/
theorem pending_advance_same (h : Handler) {k : BalanceKey}
    (hsettlement : ((pipeline config).advance s h).seq (.settlement (userShard k.userId)) =
      s.seq (.settlement (userShard k.userId)))
    (hrisk : ((pipeline config).advance s h).seq (.risk (userShard k.userId)) =
      s.seq (.risk (userShard k.userId)))
    (hdue : due config ((pipeline config).advance s h) k (s.seq h) = due config s k (s.seq h)) :
    pending config ((pipeline config).advance s h) k = pending config s k := by
  unfold pending
  rw [hsettlement, hrisk]
  apply window_congr
  intro i _ _
  by_cases hi : i = s.seq h
  · subst hi
    exact hdue
  · exact due_advance_ne h hi k

theorem account_of_accounts {core core' : Core}
    (h : ∀ shard, (core'.balances shard).accounts = (core.balances shard).accounts) :
    core'.account = core.account := by
  funext k
  rw [Core.account, h, Core.account]

/-- What the home shard makes of a command that R1 has locked funds for: the debits of its plan,
the new reserves and what is lost add up to the funds and the old reserves. -/
theorem routerHandler_balance (hb : BooksInvariant config s) (hc : CommandsInvariant config s)
    {shard : Fin numMatchingEngines} {cmd : OrderCommand}
    (hshard : shard = marketShard cmd.marketId) (hevents : cmd.events = [])
    (hkeeps : shouldHandleCancellation cmd = false) (k : BalanceKey) :
    ∃ loss, ((cmd.command = .placeOrder → cmd.status ≠ .rejected →
        ∀ spec ∈ config.symbolSpecs.lookup cmd.marketId,
          ∀ book ∈ (s.shared.orderBooks shard).lookup cmd.marketId, book.Exact spec cmd) →
        loss = 0) ∧
      tally Move.debit (planOf config (routerHandler shard s.shared cmd).2) k +
          reserved config (routerHandler shard s.shared cmd).1 k + loss =
        lockedFor config cmd k + reserved config s.shared k := by
  subst hshard
  rcases routerHandler_cases (marketShard cmd.marketId) s.shared cmd with
    ⟨heq, hhome⟩ | ⟨-, hbook, -, heq⟩ |
      ⟨book, -, hstatus, hbook, ⟨hcommand, heq⟩ | ⟨hcommand, heq⟩⟩
  · have hlocked : lockedFor config cmd k = 0 := by
      apply lockedFor_of_not
      rcases hhome rfl with h | h | h <;> simp [h]
    rw [heq, hlocked, planOf_idle hevents hkeeps, tally_nil]
    exact ⟨0, fun _ => rfl, rfl⟩
  · -- no book, and so no specification
    have hspec : config.symbolSpecs.lookup cmd.marketId = none := by
      by_contra hsome
      obtain ⟨spec, hspec⟩ := Option.ne_none_iff_exists'.mp hsome
      obtain ⟨book, hopened⟩ := hb.opened _ spec hspec _ (homeShard_iff.mpr rfl)
      rw [hbook] at hopened
      cases hopened
    have hplan : planOf config { cmd with status := .rejected } = [] := planOf_of_none hspec
    rw [heq, lockedFor_of_none hspec]
    dsimp only
    rw [hplan, tally_nil]
    exact ⟨0, fun _ => rfl, rfl⟩
  · obtain ⟨spec, hspec⟩ := hc.listed _ _ _ hbook
    have hmarket := (hb.home _ _ book hbook).2
    have hshape := hb.shape _ _ book hbook
    have hplaced := OrderBook.placeOrder_placed hshape hstatus hevents s.shared.priceCache
    have hid := (OrderBook.placeOrder_same book cmd s.shared.priceCache).marketId
    have hbalance := hplaced.balance hshape (hid.trans hmarket.symm) spec k
    have hreserved := reserved_withBook hspec hbook
      (book.placeOrder cmd s.shared.priceCache).book
      (book.placeOrder cmd s.shared.priceCache).cache k
    rw [hmarket, ← lockedFor_of_spec hspec hcommand hstatus] at hbalance
    have hafter : config.symbolSpecs.lookup (book.placeOrder cmd
        s.shared.priceCache).cmd.marketId = some spec := by
      rw [hid]
      exact hspec
    rw [heq]
    dsimp only
    rw [planOf_of_spec hafter]
    refine ⟨book.lossAt spec cmd k, ?_, ?_⟩
    · intro h
      exact (h hcommand hstatus spec hspec book hbook).lossAt k
    · omega
  · obtain ⟨spec, hspec⟩ := hc.listed _ _ _ hbook
    have hmarket := (hb.home _ _ book hbook).2
    have hid := (OrderBook.cancelOrder_same book cmd s.shared.priceCache).marketId
    have hbalance := OrderBook.cancelOrder_balance (hb.shape _ _ book hbook) hstatus hevents
      hmarket.symm s.shared.priceCache spec k
    have hreserved := reserved_withBook hspec hbook
      (book.cancelOrder cmd s.shared.priceCache).book
      (book.cancelOrder cmd s.shared.priceCache).cache k
    have hlocked : lockedFor config cmd k = 0 := by
      apply lockedFor_of_not
      simp [hcommand]
    have hafter : config.symbolSpecs.lookup (book.cancelOrder cmd
        s.shared.priceCache).cmd.marketId = some spec := by
      rw [hid]
      exact hspec
    rw [heq, hlocked]
    dsimp only
    rw [planOf_of_spec hafter]
    exact ⟨0, fun _ => rfl, by omega⟩

namespace LedgerInvariant

variable {exact : Prop}

/-- A visit that moves no balance. -/
theorem advance_still (inv : LedgerInvariant config exact s) (h : Handler)
    (hbalances : ∀ shard, (((pipeline config).advance s h).shared.balances shard).accounts =
      (s.shared.balances shard).accounts)
    (hsettlements : ((pipeline config).advance s h).shared.settlements = s.shared.settlements)
    (hseq : ∀ shard, ((pipeline config).advance s h).seq (.settlement shard) =
      s.seq (.settlement shard))
    (hplan : ∀ shard, s.seq h < s.seq (.settlement shard) →
      planOf config (handed config s h) = planOf config (found s h))
    (hmoved : ∀ k, movedOn .depositFunds ((pipeline config).advance s h) k =
        movedOn .depositFunds s k ∧
      movedOn .withdrawFunds ((pipeline config).advance s h) k = movedOn .withdrawFunds s k)
    (hcovered : ∀ k, ∃ lost, (exact → lost = 0) ∧
      pending config ((pipeline config).advance s h) k +
          reserved config ((pipeline config).advance s h).shared k + lost =
        (s.shared.account k).locked) :
    LedgerInvariant config exact ((pipeline config).advance s h) where
  covered k := by
    rw [account_of_accounts hbalances]
    exact hcovered k
  flow k := by
    rw [account_of_accounts hbalances, settledOn_advance h hseq hplan,
      settledOn_advance h hseq hplan, (hmoved k).1, (hmoved k).2]
    exact inv.flow k
  words shard k := by
    rw [hbalances]
    exact inv.words shard k
  settled := by
    rw [hsettlements]
    exact inv.settled
  fees assetId := by
    rw [hsettlements]
    simp only [withheldBy_advance h hseq hplan]
    exact inv.fees assetId

/-- Journaling and the events handler. -/
theorem advance_aside (inv : LedgerInvariant config exact s) {h : Handler}
    (hh : h = .journaling ∨ h = .events) (ready : (pipeline config).Ready s h) :
    LedgerInvariant config exact ((pipeline config).advance s h) := by
  have hsame : OwesSame (found s h) (handed config s h) := by
    rcases hh with rfl | rfl
    · exact journalingHandler_owesSame _ _ _
    · exact .refl _
  have hseq {g : Handler} (hne : g ≠ h) : ((pipeline config).advance s h).seq g = s.seq g :=
    Pipeline.advance_seq_ne s h hne
  have hsettlement (shard) : Handler.settlement shard ≠ h := by rcases hh with rfl | rfl <;> simp
  have hrisk (shard) : Handler.risk shard ≠ h := by rcases hh with rfl | rfl <;> simp
  have hmatching : h ≠ .matching (marketShard (found s h).marketId) := by
    rcases hh with rfl | rfl <;> simp
  have hbooks : ((pipeline config).advance s h).shared.orderBooks = s.shared.orderBooks := by
    rcases hh with rfl | rfl <;> rfl
  apply inv.advance_still h
  · rcases hh with rfl | rfl <;> exact fun _ => rfl
  · rcases hh with rfl | rfl <;> rfl
  · exact fun shard => hseq (hsettlement shard)
  · exact fun _ _ => hsame.planOf_eq
  · intro k
    exact ⟨movedOn_advance_same h ready hsame _ k, movedOn_advance_same h ready hsame _ k⟩
  · intro k
    rw [reserved_congr hbooks, pending_advance_same h (hseq (hsettlement _)) (hseq (hrisk _))
      (due_advance_same h hmatching hsame k)]
    exact inv.covered k

/-- A matching shard turns what R1 locked for its command into the debits of a plan and the
reserves of its book. -/
theorem advance_matching (inv : LedgerInvariant config exact s)
    (ho : (pipeline config).Ordered s) (hb : BooksInvariant config s)
    (hc : CommandsInvariant config s) (shard : Fin numMatchingEngines)
    (ready : (pipeline config).Ready s (.matching shard))
    (hexact : exact → SplitsExactly config (.matching shard) s) :
    LedgerInvariant config exact ((pipeline config).advance s (.matching shard)) := by
  have hseq {g : Handler} (hne : g ≠ .matching shard) :
      ((pipeline config).advance s (.matching shard)).seq g = s.seq g :=
    Pipeline.advance_seq_ne s _ hne
  have hfirst (g : Fin numRiskEngines) : s.seq (.settlement g) ≤ s.seq (.matching shard) :=
    ho.staged (.matching shard) (.settlement g) (Nat.lt_succ_self 1)
  have hpending (k : BalanceKey) := @pending_advance config s (.matching shard) k
    (hseq Handler.noConfusion) (hseq Handler.noConfusion) (hfirst _)
    (ready.2 (.risk _) Nat.zero_lt_one)
  have hshared : ((pipeline config).advance s (.matching shard)).shared =
      (routerHandler shard s.shared (found s (.matching shard))).1 := rfl
  have hhanded : handed config s (.matching shard) =
      (routerHandler shard s.shared (found s (.matching shard))).2 := rfl
  apply inv.advance_still (.matching shard) (fun _ => rfl) rfl
  · exact fun _ => hseq Handler.noConfusion
  · exact fun g hlt => absurd hlt (Nat.not_lt.mpr (hfirst g))
  · intro k
    rcases routerHandler_cases shard s.shared (found s (.matching shard)) with
      ⟨heq, -⟩ | ⟨-, -, hcommand, -⟩ | ⟨book, -, -, -, ⟨hcommand, -⟩ | ⟨hcommand, -⟩⟩
    · have hsame : OwesSame (found s (.matching shard)) (handed config s (.matching shard)) := by
        rw [hhanded, heq]
        exact .refl _
      exact ⟨movedOn_advance_same _ ready hsame _ k, movedOn_advance_same _ ready hsame _ k⟩
    · exact ⟨movedOn_advance_order _ ready hcommand (.inl rfl) k,
        movedOn_advance_order _ ready hcommand (.inr rfl) k⟩
    · exact ⟨movedOn_advance_order _ ready (.inl hcommand) (.inl rfl) k,
        movedOn_advance_order _ ready (.inl hcommand) (.inr rfl) k⟩
    · exact ⟨movedOn_advance_order _ ready (.inr hcommand) (.inl rfl) k,
        movedOn_advance_order _ ready (.inr hcommand) (.inr rfl) k⟩
  · intro k
    obtain ⟨lost, hlost, hcovered⟩ := inv.covered k
    have hchange := hpending k
    by_cases hshard : shard = marketShard (found s (.matching shard)).marketId
    · obtain ⟨hbefore, hafter⟩ := @matched_of_matching config s shard hshard
      obtain ⟨hevents, hkeeps⟩ := hc.idle _ (.inl hbefore)
      obtain ⟨loss, hloss, hbalance⟩ := routerHandler_balance hb hc hshard hevents hkeeps k
      rw [due, due, if_neg hbefore, if_pos hafter, advance_cmd_found, hhanded] at hchange
      refine ⟨lost + loss, ?_, ?_⟩
      · intro h
        rw [hlost h, hloss (hexact h shard rfl)]
      · rw [hshared]
        change _ + lockedFor config (found s (.matching shard)) k = _ at hchange
        omega
    · have haway := routerHandler_skip (.inr hshard) s.shared
      have hstill := @due_advance_same config s (.matching shard)
        (fun h => hshard (Handler.matching.inj h)) (by rw [hhanded, haway]; exact .refl _) k
      rw [hshared, haway]
      dsimp only
      exact ⟨lost, hlost, by omega⟩

end LedgerInvariant

end Engine

end VexCore
