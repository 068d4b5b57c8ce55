import VexCore.Orderbook.Placement
import VexCore.Processors.EventLog
import VexCore.Server.Books

/-!
# The story the events tell

Commands go through matching and the events handler one after the other; in between, settlement
changes nothing but balances. At every moment the log of published events accounts for every
resting order: it has traded what its size lacks, and no event has closed it.
-/

namespace VexCore

open Framework OrderBook

/-- Settlement fills in balances and leaves the rest of a command alone. -/
structure Settles (cmd settled : OrderCommand) : Prop where
  fields : settled = { cmd with events := settled.events, balance := settled.balance }
  events : List.Forall₂ Rebalanced cmd.events settled.events

theorem Settles.refl (cmd : OrderCommand) : Settles cmd cmd :=
  ⟨rfl, List.forall₂_same.mpr fun event _ => .refl event⟩

theorem Settles.same {cmd settled : OrderCommand} (h : Settles cmd settled) :
    SameCommand cmd settled := by
  rw [h.fields]
  exact ⟨rfl, rfl, rfl, rfl, rfl⟩

/-- What R2 hands on is the command it was given, up to balances. -/
theorem riskR2Handler_settles (engine : RiskEngine) (cmd : OrderCommand) :
    Settles cmd (riskR2Handler engine cmd).2.1 := by
  have hevents := settleEvents_rebalanced engine cmd engine.balances cmd.events
  unfold riskR2Handler
  split
  · exact .refl cmd
  · simp only
    split
    · exact ⟨rfl, hevents⟩
    · exact ⟨rfl, hevents⟩

/-- The outputs of one event. -/
def publishFill (cmd : OrderCommand) (event : MatcherTradeEvent) : List Output :=
  publishTradeEvent event cmd ++ publishBalanceEvent event.makerUserId cmd event.makerBalance ++
    publishMakerOrderEvent event cmd

/-- A resting order as the log accounts for it. -/
structure Accounted (placed : List OrderCommand) (log : List Output) (o : Order) : Prop where
  submitted : ∃ cmd ∈ placed, cmd.orderId = o.orderId ∧ cmd.size = o.originalSize
  fits : o.originalSize < 2 ^ 64
  positive : 0 < o.size
  traded : o.size + traded log o.orderId = o.originalSize
  opened : ¬Closed log o.orderId

section Fill

variable {placed : List OrderCommand} {log : List Output} {cmd : OrderCommand}

theorem publishFill_step {f : Fill Order} {event : MatcherTradeEvent}
    (hevent : Rebalanced (fillEvent f) event) (hlog : Each (Agrees placed) log)
    (hmaker : Accounted placed log f.source) (hpos : 0 < f.amount) (hle : f.amount ≤ f.source.size)
    (hne : f.source.orderId ≠ cmd.orderId) (htaker : ¬Closed log cmd.orderId) :
    LogStep placed log (log ++ publishFill cmd event)
      (fun id => (if f.source.orderId = id then f.amount else 0) +
        if cmd.orderId = id then f.amount else 0)
      fun id => f.source.orderId = id ∧ f.source.size - f.amount = 0 := by
  obtain ⟨balance, rfl⟩ := hevent
  have haccount := hmaker.traded
  have hfits := hmaker.fits
  have htrade : LogStep placed log
      (log ++ publishTradeEvent { fillEvent f with makerBalance := balance } cmd)
      (fun id => if f.source.orderId = id ∨ cmd.orderId = id then f.amount else 0)
      fun _ => False := .trade hlog ⟨hmaker.opened, htaker⟩
  have hreported := htrade.trans (.quiet htrade.lawful
    (publishBalanceEvent_quiet f.source.userId cmd balance))
  have hsize : wrappingSub 64 f.source.originalSize (f.source.size - f.amount) =
      f.source.originalSize - (f.source.size - f.amount) := wrappingSub_of_le (by omega) hfits
  -- the maker's order event comes after its trade
  have hagrees : OrderEventAgrees placed
      (log ++ publishTradeEvent { fillEvent f with makerBalance := balance } cmd ++
        publishBalanceEvent f.source.userId cmd balance)
      { orderId := f.source.orderId
        userId := f.source.userId
        price := f.source.price
        size := f.source.originalSize
        filledSize := wrappingSub 64 f.source.originalSize (f.source.size - f.amount)
        side := cmd.side.opSide
        timeInForce := .gtc
        status := if f.source.size - f.amount == 0 then .filled else .partiallyFilled
        timestamp := cmd.timestamp
        marketId := cmd.marketId } := by
    rw [hsize]
    by_cases hdone : f.source.size - f.amount = 0
    · refine ⟨hmaker.submitted, ?_, Nat.sub_le _ _, ?_, ?_, ?_⟩
      · rw [hreported.traded]
        simp only [true_or, if_true]
        omega
      · simp [hdone]
      · simp [hdone]
      · simp [hdone]
    · refine ⟨hmaker.submitted, ?_, Nat.sub_le _ _, ?_, ?_, ?_⟩
      · rw [hreported.traded]
        simp only [true_or, if_true]
        omega
      · simp only [beq_iff_eq, hdone, if_false, reduceCtorEq, false_iff]
        omega
      · simp [hdone]
      · intro _
        simp only
        omega
  have hclosing := hreported.trans (.order hreported.lawful hagrees)
  have hlist : log ++ publishFill cmd { fillEvent f with makerBalance := balance } =
      log ++ publishTradeEvent { fillEvent f with makerBalance := balance } cmd ++
        publishBalanceEvent f.source.userId cmd balance ++
        publishMakerOrderEvent { fillEvent f with makerBalance := balance } cmd := by
    rw [publishFill, ← List.append_assoc, ← List.append_assoc]
    rfl
  rw [hlist]
  refine hclosing.congr ?_ ?_
  · intro id
    by_cases hid : f.source.orderId = id
    · subst hid
      simp [hne.symm]
    · simp [hid]
  · intro id
    by_cases hdone : f.source.size - f.amount = 0
    · simp [hdone]
    · simp [hdone]

theorem Accounted.step {log' : List Output} {amount : Nat → Nat} {closes : Nat → Prop} {o : Order}
    (h : Accounted placed log o) (hstep : LogStep placed log log' amount closes)
    (hamount : amount o.orderId = 0) (hcloses : ¬closes o.orderId) : Accounted placed log' o where
  submitted := h.submitted
  fits := h.fits
  positive := h.positive
  traded := by rw [hstep.traded, hamount, Nat.add_zero, h.traded]
  opened hclosed := ((hstep.closed _).mp hclosed).elim h.opened hcloses

theorem Accounted.mono {placed more : List OrderCommand} {log : List Output} {o : Order}
    (h : Accounted placed log o) (hsub : placed ⊆ more) : Accounted more log o where
  submitted := by
    obtain ⟨cmd, hcmd, heq⟩ := h.submitted
    exact ⟨cmd, hsub hcmd, heq⟩
  fits := h.fits
  positive := h.positive
  traded := h.traded
  opened := h.opened

theorem completes_cons (f : Fill Order) (rest : List (Fill Order)) (id : Nat) :
    completes (f :: rest) id = true ↔
      (f.source.orderId = id ∧ f.source.size - f.amount = 0) ∨ completes rest id = true := by
  simp [completes]

theorem publishFills_step {fills : List (Fill Order)} {events : List MatcherTradeEvent}
    (hevents : List.Forall₂ Rebalanced (fills.map fillEvent) events)
    (hlog : Each (Agrees placed) log)
    (hnodup : (fills.map fun f => f.source.orderId).Nodup)
    (hmakers : ∀ f ∈ fills, Accounted placed log f.source ∧ 0 < f.amount ∧
      f.amount ≤ f.source.size ∧ f.source.orderId ≠ cmd.orderId)
    (htaker : ¬Closed log cmd.orderId) :
    LogStep placed log (log ++ events.flatMap (publishFill cmd))
      (fun id => taken Order.orderId fills id + if cmd.orderId = id then filled fills else 0)
      fun id => completes fills id = true := by
  induction fills generalizing log events with
  | nil =>
    cases hevents
    show LogStep placed log (log ++ []) _ _
    refine (@LogStep.quiet _ _ hlog [] (by simp)).congr ?_ ?_
    · intro id
      simp
    · intro id
      simp [completes]
  | cons f rest ih =>
    rw [List.map_cons] at hevents hnodup
    obtain ⟨hfirst, hothers⟩ := List.nodup_cons.mp hnodup
    cases hevents with
    | cons hevent hrest =>
      rename_i event events
      obtain ⟨haccount, hpos, hle, hne⟩ := hmakers f List.mem_cons_self
      have hstep := publishFill_step hevent hlog haccount hpos hle hne htaker
      have hlater : ∀ g ∈ rest, Accounted placed (log ++ publishFill cmd event) g.source ∧
          0 < g.amount ∧ g.amount ≤ g.source.size ∧ g.source.orderId ≠ cmd.orderId := by
        intro g hg
        obtain ⟨hg', hgpos, hgle, hgne⟩ := hmakers g (List.mem_cons_of_mem _ hg)
        have hids : f.source.orderId ≠ g.source.orderId := by
          intro heq
          exact hfirst (List.mem_map.mpr ⟨g, hg, heq.symm⟩)
        refine ⟨hg'.step hstep ?_ fun hcloses => hids hcloses.1, hgpos, hgle, hgne⟩
        rw [if_neg hids, if_neg hgne.symm]
      have htaker' : ¬Closed (log ++ publishFill cmd event) cmd.orderId := fun hclosed =>
        ((hstep.closed _).mp hclosed).elim htaker fun hcloses => hne hcloses.1
      have hall := hstep.trans (ih hrest hstep.lawful hothers hlater htaker')
      rw [List.flatMap_cons, ← List.append_assoc]
      refine hall.congr ?_ ?_
      · intro id
        rw [taken_cons, filled_cons]
        split <;> split <;> omega
      · intro id
        rw [completes_cons]

/-- The order event of a taker. -/
def takerEvent (cmd : OrderCommand) (size filledSize : Nat) : OrderEvent :=
  { orderId := cmd.orderId
    userId := cmd.userId
    price := cmd.price
    size
    filledSize
    side := cmd.side
    timeInForce := cmd.timeInForce
    status := cmd.status
    timestamp := cmd.timestamp
    marketId := cmd.marketId }

theorem publishOrderEvent_eq (cmd : OrderCommand) (size filledSize : Nat) :
    publishOrderEvent cmd size filledSize = [.order (takerEvent cmd size filledSize)] := rfl

theorem calcFilledSize_eq {fills : List (Fill Order)} {events : List MatcherTradeEvent}
    (hevents : List.Forall₂ Rebalanced (fills.map fillEvent) events) :
    calcFilledSize events = filled fills := by
  induction fills generalizing events with
  | nil =>
    cases hevents
    rfl
  | cons f rest ih =>
    rw [List.map_cons] at hevents
    cases hevents with
    | cons hevent hrest =>
      obtain ⟨balance, rfl⟩ := hevent
      have h := ih hrest
      simp only [calcFilledSize, List.map_cons, List.sum_cons, filled_cons] at h ⊢
      rw [h]
      rfl

/-- What is published for a placement: its fills, then one order event for the taker. -/
theorem placement_outputs {settled : OrderCommand} (hcommand : settled.command = .placeOrder)
    (hfits : calcFilledSize settled.events + settled.size < 2 ^ 64)
    (hstatus : (settled.status = .placed ∧ settled.events = []) ∨
      settled.status = .partiallyFilled ∨ settled.status = .filled ∨
      settled.status = .cancelled) :
    ∃ before later : List Output, (∀ output ∈ before, output.quiet) ∧
      (∀ output ∈ later, output.quiet) ∧
      publishEvents settled =
        settled.events.flatMap (publishFill settled) ++ before ++
          [.order (takerEvent settled (calcFilledSize settled.events + settled.size)
            (calcFilledSize settled.events))] ++ later := by
  have hbalance := publishBalanceEvent_quiet settled.userId settled settled.balance
  have hbook := publishOrderbookEvent_quiet settled
  have hcancel := publishCancelOrderEvent_quiet settled
  have hsum := wrappingAdd_of_lt hfits
  have hall : publishEvents settled = publishByStatus settled := by
    simp only [publishEvents, hcommand]
  have hfills : publishFills settled = settled.events.flatMap (publishFill settled) := rfl
  rw [hall]
  rcases hstatus with ⟨hplaced, hnone⟩ | hpartly | hfilled | hcancelled
  · refine ⟨_, _, hbalance, hbook, ?_⟩
    simp [publishByStatus, hplaced, hnone, publishOrderEvent_eq, calcFilledSize]
  · refine ⟨_, _, hbalance, hbook, ?_⟩
    simp [publishByStatus, hpartly, publishFilledOrder, publishOrderEvent_eq, hsum, hfills]
  · refine ⟨_, _, hbalance, hbook, ?_⟩
    simp [publishByStatus, hfilled, publishFilledOrder, publishOrderEvent_eq, hsum, hfills]
  · refine ⟨[], _, by simp, quiet_append (quiet_append hbalance hcancel) hbook, ?_⟩
    by_cases hnone : settled.events = []
    · simp [publishByStatus, hcancelled, publishCancelled, hnone, hcommand, publishOrderEvent_eq,
        calcFilledSize]
    · simp [publishByStatus, hcancelled, publishCancelled, hnone, publishFilledOrder,
        publishOrderEvent_eq, hsum, hfills]

/-- The log after a placement is published. -/
theorem publishPlacement_step {book : OrderBook} {out : Outcome} {settled : OrderCommand}
    {fills : List (Fill Order)} (houtcome : PlacementOutcome book cmd out fills)
    (hsettled : Settles out.cmd settled) (hsame : SameCommand cmd out.cmd)
    (hcommand : cmd.command = .placeOrder) (hplaced : cmd ∈ placed) (hfits : cmd.size < 2 ^ 64)
    (hpos : 0 < cmd.size) (hlog : Each (Agrees placed) log)
    (hmakers : ∀ f ∈ fills, Accounted placed log f.source ∧ f.source.orderId ≠ cmd.orderId)
    (htaker : ¬Closed log cmd.orderId) (hfresh : traded log cmd.orderId = 0) :
    LogStep placed log (log ++ publishEvents settled)
      (fun id => taken Order.orderId fills id + if cmd.orderId = id then filled fills else 0)
      fun id => completes fills id = true ∨
        (cmd.orderId = id ∧ (out.cmd.status = .filled ∨ out.cmd.status = .cancelled)) := by
  have hfields := hsettled.fields
  have hevents := hsettled.events
  rw [houtcome.events] at hevents
  have hid : settled.orderId = cmd.orderId := by rw [hfields]; exact hsame.orderId
  have hstatus : settled.status = out.cmd.status := by rw [hfields]
  have hsize : settled.size = cmd.size - filled fills := by rw [hfields]; exact houtcome.size
  have hplace : settled.command = .placeOrder := by
    rw [hfields]
    exact hsame.command.trans hcommand
  have hle := houtcome.filled_le
  have hcalc := calcFilledSize_eq hevents
  have htotal : calcFilledSize settled.events + settled.size = cmd.size := by
    rw [hcalc, hsize]
    omega
  have hkind : (settled.status = .placed ∧ settled.events = []) ∨
      settled.status = .partiallyFilled ∨ settled.status = .filled ∨
      settled.status = .cancelled := by
    rw [hstatus]
    rcases houtcome.status with ⟨h, hnone⟩ | ⟨h, _⟩ | ⟨h, _⟩ | ⟨h, _⟩
    · rw [hnone] at hevents
      exact .inl ⟨h, List.forall₂_nil_left_iff.mp hevents⟩
    · exact .inr (.inl h)
    · exact .inr (.inr (.inl h))
    · exact .inr (.inr (.inr h))
  obtain ⟨before, later, hbefore, hlater, houtputs⟩ :=
    placement_outputs hplace (by rw [htotal]; exact hfits) hkind
  rw [htotal, hcalc] at houtputs
  have hmakers' : ∀ f ∈ fills, Accounted placed log f.source ∧ 0 < f.amount ∧
      f.amount ≤ f.source.size ∧ f.source.orderId ≠ settled.orderId := by
    intro f hf
    obtain ⟨_, hamount, hbound⟩ := houtcome.makers f hf
    rw [hid]
    exact ⟨(hmakers f hf).1, hamount, hbound, (hmakers f hf).2⟩
  have hfilled := @publishFills_step _ _ settled _ _ hevents hlog houtcome.nodup hmakers'
    (by rw [hid]; exact htaker)
  have hready := hfilled.trans (.quiet hfilled.lawful hbefore)
  -- no fill is against the taker itself
  have hnone : taken Order.orderId fills cmd.orderId = 0 :=
    taken_of_not_mem fun f hf => (hmakers f hf).2
  have hagrees : OrderEventAgrees placed
      (log ++ settled.events.flatMap (publishFill settled) ++ before)
      (takerEvent settled cmd.size (filled fills)) := by
    refine ⟨⟨cmd, hplaced, hid.symm, rfl⟩, ?_, hle, ?_, ?_, ?_⟩
    · show filled fills = traded _ settled.orderId
      rw [hready.traded, hid, hfresh, hnone, if_pos rfl]
      omega
    · show settled.status = .filled ↔ filled fills = cmd.size
      rw [hstatus]
      exact houtcome.filled_iff hpos
    · show settled.status = .placed → filled fills = 0
      rw [hstatus]
      exact houtcome.placed
    · show settled.status = .partiallyFilled → 0 < filled fills ∧ filled fills < cmd.size
      rw [hstatus]
      exact houtcome.partiallyFilled
  have hclosing := hready.trans (.order hready.lawful hagrees)
  have hend := hclosing.trans (.quiet hclosing.lawful hlater)
  rw [houtputs, ← List.append_assoc, ← List.append_assoc, ← List.append_assoc]
  refine hend.congr ?_ ?_
  · intro id
    rw [hid]
    omega
  · intro id
    simp only [takerEvent, hid, hstatus, or_false]

/-- What the fills leave of a resting order, after the placement is published. -/
theorem Accounted.afterFills {book : OrderBook} {out : Outcome} {fills : List (Fill Order)}
    {log' : List Output} {decided : Prop} {s : Side} {o : Order} (h : Accounted placed log o)
    (houtcome : PlacementOutcome book cmd out fills) (hshape : book.Shape)
    (ho : o ∈ (book.side s).resting) (hcompletes : completes fills o.orderId = false)
    (hne : cmd.orderId ≠ o.orderId)
    (hstep : LogStep placed log log'
      (fun id => taken Order.orderId fills id + if cmd.orderId = id then filled fills else 0)
      fun id => completes fills id = true ∨ (cmd.orderId = id ∧ decided)) :
    Accounted placed log' { o with size := o.size - taken Order.orderId fills o.orderId } := by
  have hlt := houtcome.taken_lt hshape ho h.positive hcompletes
  have haccount := h.traded
  refine ⟨h.submitted, h.fits, by simp only; omega, ?_, ?_⟩
  · show o.size - taken Order.orderId fills o.orderId + VexCore.traded log' o.orderId =
      o.originalSize
    rw [hstep.traded, if_neg hne]
    omega
  · intro hclosed
    rcases (hstep.closed _).mp hclosed with hclosed | hclosed | hclosed
    · exact h.opened hclosed
    · rw [hcompletes] at hclosed
      cases hclosed
    · exact hne hclosed.1

theorem not_completes_of_not_mem {fills : List (Fill Order)} {id : Nat}
    (h : ∀ f ∈ fills, f.source.orderId ≠ id) : ¬completes fills id = true := by
  simp only [completes, List.any_eq_true, Bool.and_eq_true, beq_iff_eq]
  intro hcompletes
  obtain ⟨f, hf, hid, _⟩ := hcompletes
  exact h f hf hid

/-- The remainder of a placement, after it is published. -/
theorem Accounted.remainder {out : Outcome} {fills : List (Fill Order)} {log' : List Output}
    (hplaced : cmd ∈ placed) (hfits : cmd.size < 2 ^ 64)
    (hmakers : ∀ f ∈ fills, Accounted placed log f.source ∧ f.source.orderId ≠ cmd.orderId)
    (hfresh : VexCore.traded log cmd.orderId = 0) (htaker : ¬Closed log cmd.orderId)
    (hlt : filled fills < cmd.size)
    (hrests : out.cmd.status = .placed ∨ out.cmd.status = .partiallyFilled)
    (hstep : LogStep placed log log'
      (fun id => taken Order.orderId fills id + if cmd.orderId = id then filled fills else 0)
      fun id => completes fills id = true ∨
        (cmd.orderId = id ∧ (out.cmd.status = .filled ∨ out.cmd.status = .cancelled))) :
    Accounted placed log' (restingOrder cmd (cmd.size - filled fills)) := by
  have hnone : ∀ f ∈ fills, f.source.orderId ≠ cmd.orderId := fun f hf => (hmakers f hf).2
  refine ⟨⟨cmd, hplaced, rfl, rfl⟩, hfits, Nat.sub_pos_of_lt hlt, ?_, ?_⟩
  · show cmd.size - filled fills + VexCore.traded log' cmd.orderId = cmd.size
    rw [hstep.traded, hfresh, taken_of_not_mem hnone, if_pos rfl]
    omega
  · intro hclosed
    rcases (hstep.closed _).mp hclosed with hclosed | hclosed | ⟨_, hclosed⟩
    · exact htaker hclosed
    · exact not_completes_of_not_mem hnone hclosed
    · rcases hrests with hrests | hrests <;> rw [hrests] at hclosed <;>
        exact hclosed.elim Status.noConfusion Status.noConfusion

theorem mem_of_forall₂_rebalanced {fills : List (Fill Order)} {events : List MatcherTradeEvent}
    (h : List.Forall₂ Rebalanced (fills.map fillEvent) events) {event : MatcherTradeEvent}
    (hevent : event ∈ events) : ∃ f ∈ fills, Rebalanced (fillEvent f) event := by
  induction fills generalizing events with
  | nil =>
    cases h
    cases hevent
  | cons f rest ih =>
    rw [List.map_cons] at h
    cases h with
    | cons hfirst hrest =>
      rcases List.mem_cons.mp hevent with rfl | hevent
      · exact ⟨f, List.mem_cons_self, hfirst⟩
      · obtain ⟨g, hg, hreb⟩ := ih hrest hevent
        exact ⟨g, List.mem_cons_of_mem _ hg, hreb⟩

end Fill

end VexCore
