import VexCore.Server.EventStory

/-!
# Runs of matching and the events handler

Every command is matched, settled and published before the next one. The invariant ties each
resting order to the log; a step lemma for each kind of command carries it along.
-/

namespace VexCore

open Framework OrderBook

/-- The router and what went through it: the commands as they arrived and as they were published,
and the log of emitted events. -/
structure Floor where
  router : MatchingEngineRouter
  cache : PriceCache
  arrived : List OrderCommand
  published : List OrderCommand
  log : List Output

namespace Floor

/-- The placements that arrived so far. -/
def placed (floor : Floor) : List OrderCommand :=
  floor.arrived.filter fun cmd => cmd.command = .placeOrder

/-- One command, with `settled` as settlement hands it to the events handler. -/
def step (floor : Floor) (cmd settled : OrderCommand) : Floor :=
  let matched := matchingHandler floor.router cmd floor.cache
  { router := { floor.router with orderBooks := matched.1 }
    cache := matched.2.2
    arrived := floor.arrived ++ [cmd]
    published := floor.published ++ [settled]
    log := floor.log ++ publishEvents settled }

/-- A command as it reaches matching: without events, and not yet decided unless R1 rejected it. -/
structure Arrives (floor : Floor) (cmd : OrderCommand) : Prop where
  events : cmd.events = []
  status : cmd.command = .placeOrder ∨ cmd.command = .cancelOrder →
    cmd.status = .processing ∨ cmd.status = .rejected
  positive : cmd.command = .placeOrder → 0 < cmd.size
  fits : cmd.size < 2 ^ 64
  increasing : cmd.command = .placeOrder → ∀ earlier ∈ floor.placed, earlier.orderId < cmd.orderId

inductive Run : Floor → Prop
  | start (router : MatchingEngineRouter) (cache : PriceCache)
      (opened : ∀ m book, router.orderBooks.lookup m = some book → book = .new m) :
      Run ⟨router, cache, [], [], []⟩
  | command {floor : Floor} (cmd settled : OrderCommand) (run : Run floor)
      (arrives : floor.Arrives cmd)
      (settles : Settles (matchingHandler floor.router cmd floor.cache).2.1 settled) :
      Run (floor.step cmd settled)

/-- No difference that the events handler computes goes below zero. -/
structure NoUnderflow (cmd : OrderCommand) : Prop where
  maker : ∀ event ∈ cmd.events, event.makerRemainingSize ≤ event.makerOriginalSize
  cancelled : cmd.command = .cancelOrder → cmd.status = .cancelled → cmd.size ≤ cmd.originalSize

structure Invariant (floor : Floor) : Prop where
  shape : ∀ m book, floor.router.orderBooks.lookup m = some book → book.Shape
  resting : ∀ m book, floor.router.orderBooks.lookup m = some book →
    ∀ s, ∀ o ∈ (book.side s).resting, Accounted floor.placed floor.log o ∧
      ∃ cmd ∈ floor.placed, cmd.orderId = o.orderId ∧ cmd.marketId = m
  increasing : floor.placed.Pairwise fun a b => a.orderId < b.orderId
  lawful : Each (Agrees floor.placed) floor.log
  fresh : ∀ id, (∀ cmd ∈ floor.placed, cmd.orderId ≠ id) →
    traded floor.log id = 0 ∧ ¬Closed floor.log id
  sound : ∀ cmd ∈ floor.published, NoUnderflow cmd

theorem placed_subset_step (floor : Floor) (cmd settled : OrderCommand) :
    floor.placed ⊆ (floor.step cmd settled).placed := by
  show floor.arrived.filter _ ⊆ (floor.arrived ++ [cmd]).filter _
  rw [List.filter_append]
  exact List.subset_append_left _ _

theorem placed_step_place (floor : Floor) {cmd : OrderCommand} (h : cmd.command = .placeOrder)
    (settled : OrderCommand) : (floor.step cmd settled).placed = floor.placed ++ [cmd] := by
  show (floor.arrived ++ [cmd]).filter _ = _
  rw [List.filter_append, List.filter_singleton]
  simp [h, placed]

theorem placed_step_other (floor : Floor) {cmd : OrderCommand} (h : cmd.command ≠ .placeOrder)
    (settled : OrderCommand) : (floor.step cmd settled).placed = floor.placed := by
  show (floor.arrived ++ [cmd]).filter _ = _
  rw [List.filter_append, List.filter_singleton]
  simp [h, placed]

theorem step_increasing {floor : Floor} {cmd : OrderCommand} (h : floor.Invariant)
    (arrives : floor.Arrives cmd) (settled : OrderCommand) :
    (floor.step cmd settled).placed.Pairwise fun a b => a.orderId < b.orderId := by
  by_cases hplace : cmd.command = .placeOrder
  · rw [placed_step_place floor hplace]
    refine List.pairwise_append.mpr ⟨h.increasing, List.pairwise_singleton _ _, ?_⟩
    intro earlier hearlier last hlast
    rw [List.mem_singleton.mp hlast]
    exact arrives.increasing hplace earlier hearlier
  · rw [placed_step_other floor hplace]
    exact h.increasing

/-- An id belongs to one placement. -/
theorem Invariant.eq_of_orderId {floor : Floor} (h : floor.Invariant) {a b : OrderCommand}
    (ha : a ∈ floor.placed) (hb : b ∈ floor.placed) (hid : a.orderId = b.orderId) : a = b := by
  have hnodup : (floor.placed.map OrderCommand.orderId).Nodup :=
    (List.pairwise_map.mpr h.increasing).imp Nat.ne_of_lt
  exact List.inj_on_of_nodup_map hnodup ha hb hid

/-- Orders of different markets have different ids. -/
theorem Invariant.market_eq {floor : Floor} (h : floor.Invariant) {m m' : Nat}
    {book book' : OrderBook} (hbook : floor.router.orderBooks.lookup m = some book)
    (hbook' : floor.router.orderBooks.lookup m' = some book') {s s' : Side} {o o' : Order}
    (ho : o ∈ (book.side s).resting) (ho' : o' ∈ (book'.side s').resting)
    (hid : o.orderId = o'.orderId) : m = m' := by
  obtain ⟨_, cmd, hcmd, hcmdId, rfl⟩ := h.resting m book hbook s o ho
  obtain ⟨_, cmd', hcmd', hcmdId', rfl⟩ := h.resting m' book' hbook' s' o' ho'
  rw [h.eq_of_orderId hcmd hcmd' (hcmdId.trans (hid.trans hcmdId'.symm))]

theorem Invariant.id_lt {floor : Floor} (h : floor.Invariant) {cmd : OrderCommand}
    (arrives : floor.Arrives cmd) (hplace : cmd.command = .placeOrder) {m : Nat} {book : OrderBook}
    (hbook : floor.router.orderBooks.lookup m = some book) {s : Side} {o : Order}
    (ho : o ∈ (book.side s).resting) : o.orderId < cmd.orderId := by
  obtain ⟨_, earlier, hearlier, hid, _⟩ := h.resting m book hbook s o ho
  rw [← hid]
  exact arrives.increasing hplace earlier hearlier

theorem publishEvents_quiet {cmd : OrderCommand}
    (h : cmd.command = .depositFunds ∨ cmd.command = .withdrawFunds ∨ cmd.status = .processing ∨
      cmd.status = .rejected) : ∀ output ∈ publishEvents cmd, output.quiet := by
  have hfunds := publishDepositWithdrawalEvent_quiet cmd
  have hbook := publishOrderbookEvent_quiet cmd
  have hstatus (hundecided : cmd.status = .processing ∨ cmd.status = .rejected) :
      ∀ output ∈ publishByStatus cmd, output.quiet := by
    rcases hundecided with h | h
    · rw [publishByStatus, h]
      exact hbook
    · rw [publishByStatus, h]
      simp
  rw [publishEvents]
  cases hcommand : cmd.command with
  | depositFunds =>
    simp only
    split
    · exact quiet_append (by simp [Output.quiet]) hfunds
    · simp
  | withdrawFunds =>
    simp only
    split
    · exact quiet_append (by simp [Output.quiet]) hfunds
    · simp
  | placeOrder =>
    rw [hcommand] at h
    simp only [reduceCtorEq, false_or] at h
    exact hstatus h
  | cancelOrder =>
    rw [hcommand] at h
    simp only [reduceCtorEq, false_or] at h
    exact hstatus h

theorem Invariant.quiet_step {floor : Floor} (h : floor.Invariant) {cmd settled : OrderCommand}
    (arrives : floor.Arrives cmd)
    (hquiet : ∀ output ∈ publishEvents settled, output.quiet)
    (hshape : ∀ m book, (floor.step cmd settled).router.orderBooks.lookup m = some book → book.Shape)
    (hrests : ∀ m book, (floor.step cmd settled).router.orderBooks.lookup m = some book →
      ∃ old, floor.router.orderBooks.lookup m = some old ∧
        ∀ s, ∀ o ∈ (book.side s).resting, o ∈ (old.side s).resting)
    (hsound : NoUnderflow settled) : (floor.step cmd settled).Invariant := by
  have hsub := placed_subset_step floor cmd settled
  have hlawful : Each (Agrees (floor.step cmd settled).placed) floor.log :=
    h.lawful.imp fun _ _ hagrees => hagrees.mono hsub
  have hstep := LogStep.quiet hlawful hquiet
  refine ⟨hshape, ?_, step_increasing h arrives settled, hstep.lawful, ?_, ?_⟩
  · intro m book hbook s o ho
    obtain ⟨old, hold, hmem⟩ := hrests m book hbook
    obtain ⟨haccount, cmd, hcmd, hid⟩ := h.resting m old hold s o (hmem s o ho)
    exact ⟨(haccount.mono hsub).step hstep rfl not_false, cmd, hsub hcmd, hid⟩
  · intro id hid
    obtain ⟨htraded, hopened⟩ := h.fresh id fun cmd hcmd => hid cmd (hsub hcmd)
    exact ⟨(hstep.traded id).trans htraded, fun hclosed =>
      ((hstep.closed id).mp hclosed).elim hopened not_false⟩
  · intro c hc
    rcases List.mem_append.mp hc with hc | hc
    · exact h.sound c hc
    · rw [List.mem_singleton.mp hc]
      exact hsound

theorem Invariant.place_step {floor : Floor} (h : floor.Invariant) {cmd settled : OrderCommand}
    (arrives : floor.Arrives cmd) (hplace : cmd.command = .placeOrder)
    (hstatus : cmd.status ≠ .rejected) {book : OrderBook}
    (hbook : floor.router.orderBooks.lookup cmd.marketId = some book)
    (hmatched : matchingHandler floor.router cmd floor.cache =
      (floor.router.orderBooks.insert cmd.marketId (book.placeOrder cmd floor.cache).book,
        (book.placeOrder cmd floor.cache).cmd, (book.placeOrder cmd floor.cache).cache))
    (settles : Settles (book.placeOrder cmd floor.cache).cmd settled) :
    (floor.step cmd settled).Invariant := by
  have hsub := placed_subset_step floor cmd settled
  have hplaced := placed_step_place floor hplace settled
  have hcmd : cmd ∈ (floor.step cmd settled).placed := by
    rw [hplaced]
    exact List.mem_append_right _ (List.mem_singleton.mpr rfl)
  have hshape := h.shape _ _ hbook
  have hpositive : book.Positive := fun s o ho => (h.resting _ _ hbook s o ho).1.positive
  obtain ⟨fills, houtcome⟩ := placement_outcome hshape hpositive hstatus arrives.events
    (arrives.positive hplace) floor.cache
  have hlawful : Each (Agrees (floor.step cmd settled).placed) floor.log :=
    h.lawful.imp fun _ _ hagrees => hagrees.mono hsub
  have hunknown : ∀ earlier ∈ floor.placed, earlier.orderId ≠ cmd.orderId :=
    fun earlier hearlier => Nat.ne_of_lt (arrives.increasing hplace earlier hearlier)
  obtain ⟨hfresh, htaker⟩ := h.fresh cmd.orderId hunknown
  have hsources : ∀ f ∈ fills, Accounted (floor.step cmd settled).placed floor.log f.source ∧
      f.source.orderId ≠ cmd.orderId := by
    intro f hf
    have hsource := (houtcome.makers f hf).1
    exact ⟨(h.resting _ _ hbook _ _ hsource).1.mono hsub,
      Nat.ne_of_lt (h.id_lt arrives hplace hbook hsource)⟩
  have hstep := publishPlacement_step houtcome settles (placeOrder_same book cmd floor.cache) hplace
    hcmd arrives.fits (arrives.positive hplace) hlawful hsources htaker hfresh
  have hrouter : (floor.step cmd settled).router.orderBooks =
      floor.router.orderBooks.insert cmd.marketId (book.placeOrder cmd floor.cache).book :=
    congrArg Prod.fst hmatched
  refine ⟨?_, ?_, step_increasing h arrives settled, hstep.lawful, ?_, ?_⟩
  · intro m b hb
    rw [hrouter] at hb
    by_cases hm : m = cmd.marketId
    · subst hm
      rw [Finmap.lookup_insert, Option.some.injEq] at hb
      subst hb
      apply placeOrder_shape hshape
      intro s id hid
      obtain ⟨o, ho, rfl⟩ := BookSide.mem_ids.mp hid
      exact h.id_lt arrives hplace hbook ho
    · rw [Finmap.lookup_insert_of_ne _ hm] at hb
      exact h.shape m b hb
  · intro m b hb s o' ho'
    rw [hrouter] at hb
    by_cases hm : m = cmd.marketId
    · subst hm
      rw [Finmap.lookup_insert, Option.some.injEq] at hb
      subst hb
      rcases houtcome.resting s o' ho' with ⟨o, ho, hafter⟩ | ⟨_, rfl, hlt, hrests⟩
      · obtain ⟨haccount, earlier, hearlier, hid, hmarket⟩ := h.resting _ _ hbook s o ho
        have hne := Nat.ne_of_gt (h.id_lt arrives hplace hbook ho)
        obtain ⟨hcompletes, rfl⟩ := afterFills_eq_some hafter
        exact ⟨(haccount.mono hsub).afterFills houtcome hshape ho hcompletes hne hstep,
          earlier, hsub hearlier, hid, hmarket⟩
      · exact ⟨.remainder hcmd arrives.fits hsources hfresh htaker hlt hrests hstep,
          cmd, hcmd, rfl, rfl⟩
    · rw [Finmap.lookup_insert_of_ne _ hm] at hb
      obtain ⟨haccount, earlier, hearlier, hid, hmarket⟩ := h.resting m b hb s o' ho'
      -- no fill is in another market's book
      have hother : ∀ f ∈ fills, f.source.orderId ≠ o'.orderId := by
        intro f hf heq
        exact hm (h.market_eq hb hbook ho' (houtcome.makers f hf).1 heq.symm)
      have hne := Nat.ne_of_gt (h.id_lt arrives hplace hb ho')
      refine ⟨(haccount.mono hsub).step hstep ?_ ?_, earlier, hsub hearlier, hid, hmarket⟩
      · rw [taken_of_not_mem hother, if_neg hne]
      · exact not_or.mpr ⟨not_completes_of_not_mem hother, fun hcloses => hne hcloses.1⟩
  · intro id hid
    obtain ⟨htraded, hopened⟩ := h.fresh id fun earlier hearlier => hid earlier (hsub hearlier)
    have hother : ∀ f ∈ fills, f.source.orderId ≠ id := by
      intro f hf
      obtain ⟨earlier, hearlier, heq, _⟩ := (hsources f hf).1.submitted
      rw [← heq]
      exact hid earlier hearlier
    constructor
    · show traded (floor.log ++ _) id = 0
      rw [hstep.traded, htraded, taken_of_not_mem hother, if_neg (hid cmd hcmd)]
    · intro hclosed
      rcases (hstep.closed id).mp hclosed with hclosed | hclosed | hclosed
      · exact hopened hclosed
      · exact not_completes_of_not_mem hother hclosed
      · exact hid cmd hcmd hclosed.1
  · intro c hc
    rcases List.mem_append.mp hc with hc | hc
    · exact h.sound c hc
    · rw [List.mem_singleton.mp hc]
      have hevents := settles.events
      rw [houtcome.events] at hevents
      refine ⟨?_, ?_⟩
      · intro event hevent
        obtain ⟨f, hf, balance, rfl⟩ := mem_of_forall₂_rebalanced hevents hevent
        have haccount := (hsources f hf).1.traded
        show f.source.size - f.amount ≤ f.source.originalSize
        omega
      · intro hcancel
        rw [settles.fields] at hcancel
        have hcommand := (placeOrder_same book cmd floor.cache).command.trans hplace
        exact OrderCommandType.noConfusion (hcommand.symm.trans hcancel)

/-- What is published for a cancellation that found its order. -/
theorem cancellation_outputs {settled : OrderCommand} (hcommand : settled.command = .cancelOrder)
    (hstatus : settled.status = .cancelled) (hevents : settled.events = []) :
    ∃ later : List Output, (∀ output ∈ later, output.quiet) ∧
      publishEvents settled =
        [.order (takerEvent settled settled.originalSize
          (wrappingSub 64 settled.originalSize settled.size))] ++ later := by
  refine ⟨_, quiet_append (quiet_append
    (publishBalanceEvent_quiet settled.userId settled settled.balance)
    (publishCancelOrderEvent_quiet settled)) (publishOrderbookEvent_quiet settled), ?_⟩
  simp [publishEvents, hcommand, publishByStatus, hstatus, publishCancelled, hevents,
    publishOrderEvent_eq]

theorem Invariant.found_step {floor : Floor} (h : floor.Invariant) {cmd settled : OrderCommand}
    (arrives : floor.Arrives cmd) (hcommand : cmd.command = .cancelOrder) {book : OrderBook}
    (hbook : floor.router.orderBooks.lookup cmd.marketId = some book) {t : Side}
    {level : PriceLevel} {order : Order}
    (hlevel : (book.side t).getLevel order.price = some level) (hmem : order ∈ level.orders)
    (hid : order.orderId = cmd.orderId)
    (hbooks : (matchingHandler floor.router cmd floor.cache).1 =
      floor.router.orderBooks.insert cmd.marketId (book.removeResting t level order))
    (settles : Settles ((book.removeResting t level order).recordSnapshot
      (PriceLevel.reportCancelled cmd order)) settled) : (floor.step cmd settled).Invariant := by
  have hnotPlace : cmd.command ≠ .placeOrder := by
    rw [hcommand]
    exact OrderCommandType.noConfusion
  have hplaced := placed_step_other floor hnotPlace settled
  have hshape := h.shape _ _ hbook
  have horder : order ∈ (book.side t).resting := BookSide.mem_resting.mpr ⟨_, _, hlevel, hmem⟩
  have haccount := (h.resting _ _ hbook t order horder).1
  have hfields := settles.fields
  have hnoEvents : settled.events = [] := by
    have hevents := settles.events
    change List.Forall₂ Rebalanced cmd.events _ at hevents
    rw [arrives.events] at hevents
    exact List.forall₂_nil_left_iff.mp hevents
  have hsettledId : settled.orderId = order.orderId := by rw [hfields]; exact hid.symm
  have hsettledSize : settled.size = order.size := by rw [hfields]; rfl
  have hsettledOriginal : settled.originalSize = order.originalSize := by rw [hfields]; rfl
  have hcancelled : settled.status = .cancelled := by rw [hfields]; rfl
  have hsum := haccount.traded
  have hpos := haccount.positive
  obtain ⟨later, hlater, houtputs⟩ := cancellation_outputs (by rw [hfields]; exact hcommand)
    hcancelled hnoEvents
  have hdifference : wrappingSub 64 order.originalSize order.size =
      order.originalSize - order.size := wrappingSub_of_le (by omega) haccount.fits
  rw [hsettledOriginal, hsettledSize, hdifference] at houtputs
  have hagrees : OrderEventAgrees floor.placed floor.log
      (takerEvent settled order.originalSize (order.originalSize - order.size)) := by
    refine ⟨?_, ?_, Nat.sub_le _ _, ?_, ?_, ?_⟩
    · obtain ⟨c, hc, hcid, hcsize⟩ := haccount.submitted
      exact ⟨c, hc, hcid.trans hsettledId.symm, hcsize⟩
    · show order.originalSize - order.size = traded floor.log settled.orderId
      rw [hsettledId]
      omega
    · show settled.status = .filled ↔ order.originalSize - order.size = order.originalSize
      rw [hcancelled]
      simp only [reduceCtorEq, false_iff]
      omega
    · intro hstatus
      exact Status.noConfusion (hcancelled.symm.trans hstatus)
    · intro hstatus
      exact Status.noConfusion (hcancelled.symm.trans hstatus)
  have hclosing := LogStep.order h.lawful hagrees
  have hstep := hclosing.trans (.quiet hclosing.lawful hlater)
  have hlog : (floor.step cmd settled).log =
      floor.log ++ [.order (takerEvent settled order.originalSize
        (order.originalSize - order.size))] ++ later := by
    show floor.log ++ publishEvents settled = _
    rw [houtputs, List.append_assoc]
  rw [← hlog] at hstep
  have hrouter : (floor.step cmd settled).router.orderBooks = _ := hbooks
  refine ⟨?_, ?_, step_increasing h arrives settled, ?_, ?_, ?_⟩
  · intro m b hb
    rw [hrouter] at hb
    by_cases hm : m = cmd.marketId
    · subst hm
      rw [Finmap.lookup_insert, Option.some.injEq] at hb
      subst hb
      exact removeResting_shape hshape hlevel hmem
    · rw [Finmap.lookup_insert_of_ne _ hm] at hb
      exact h.shape m b hb
  · intro m b hb s o ho
    rw [hplaced]
    rw [hrouter] at hb
    have hold : ∃ old, floor.router.orderBooks.lookup m = some old ∧
        o ∈ (old.side s).resting ∧ o.orderId ≠ order.orderId := by
      by_cases hm : m = cmd.marketId
      · subst hm
        rw [Finmap.lookup_insert, Option.some.injEq] at hb
        subst hb
        obtain ⟨hmem, hne⟩ := mem_removeResting hshape hlevel hmem ho
        exact ⟨book, hbook, hmem, hne⟩
      · rw [Finmap.lookup_insert_of_ne _ hm] at hb
        exact ⟨b, hb, ho, fun heq => hm (h.market_eq hb hbook ho horder heq)⟩
    obtain ⟨old, hold, hmem, hne⟩ := hold
    obtain ⟨haccount, c, hc, hcid, hmarket⟩ := h.resting m old hold s o hmem
    refine ⟨haccount.step hstep rfl ?_, c, hc, hcid, hmarket⟩
    rintro (⟨heq, _⟩ | hfalse)
    · exact hne (heq.symm.trans hsettledId)
    · exact hfalse
  · rw [hplaced]
    exact hstep.lawful
  · intro id hunknown
    rw [hplaced] at hunknown
    obtain ⟨htraded, hopened⟩ := h.fresh id hunknown
    refine ⟨(hstep.traded id).trans htraded, fun hclosed => ?_⟩
    rcases (hstep.closed id).mp hclosed with hclosed | ⟨heq, _⟩ | hfalse
    · exact hopened hclosed
    · obtain ⟨c, hc, hcid, _⟩ := haccount.submitted
      exact hunknown c hc (hcid.trans (hsettledId.symm.trans heq))
    · exact hfalse
  · intro c hc
    rcases List.mem_append.mp hc with hc | hc
    · exact h.sound c hc
    · rw [List.mem_singleton.mp hc]
      refine ⟨?_, fun _ _ => ?_⟩
      · rw [hnoEvents]
        intro event hevent
        cases hevent
      · rw [hsettledSize, hsettledOriginal]
        omega

theorem Invariant.missed_step {floor : Floor} (h : floor.Invariant) {cmd settled : OrderCommand}
    (arrives : floor.Arrives cmd) {book after : OrderBook}
    (hbook : floor.router.orderBooks.lookup cmd.marketId = some book)
    (hbooks : (matchingHandler floor.router cmd floor.cache).1 =
      floor.router.orderBooks.insert cmd.marketId after)
    (hafter : after.Shape) (hsides : ∀ s, after.side s = book.side s)
    (hrejected : settled.status = .rejected) (hnoEvents : settled.events = []) :
    (floor.step cmd settled).Invariant := by
  have hrouter : (floor.step cmd settled).router.orderBooks = _ := hbooks
  apply h.quiet_step arrives (publishEvents_quiet (.inr (.inr (.inr hrejected))))
  · intro m b hb
    rw [hrouter] at hb
    by_cases hm : m = cmd.marketId
    · subst hm
      rw [Finmap.lookup_insert, Option.some.injEq] at hb
      subst hb
      exact hafter
    · rw [Finmap.lookup_insert_of_ne _ hm] at hb
      exact h.shape m b hb
  · intro m b hb
    rw [hrouter] at hb
    by_cases hm : m = cmd.marketId
    · subst hm
      rw [Finmap.lookup_insert, Option.some.injEq] at hb
      subst hb
      refine ⟨book, hbook, ?_⟩
      intro s o ho
      rw [hsides] at ho
      exact ho
    · rw [Finmap.lookup_insert_of_ne _ hm] at hb
      exact ⟨b, hb, fun _ _ ho => ho⟩
  · refine ⟨?_, fun _ hcancelled => ?_⟩
    · rw [hnoEvents]
      intro event hevent
      cases hevent
    · rw [hrejected] at hcancelled
      cases hcancelled

theorem Invariant.cancel_step {floor : Floor} (h : floor.Invariant) {cmd settled : OrderCommand}
    (arrives : floor.Arrives cmd) (hcommand : cmd.command = .cancelOrder)
    (hstatus : cmd.status ≠ .rejected) {book : OrderBook}
    (hbook : floor.router.orderBooks.lookup cmd.marketId = some book)
    (hmatched : matchingHandler floor.router cmd floor.cache =
      (floor.router.orderBooks.insert cmd.marketId (book.cancelOrder cmd floor.cache).book,
        (book.cancelOrder cmd floor.cache).cmd, (book.cancelOrder cmd floor.cache).cache))
    (settles : Settles (book.cancelOrder cmd floor.cache).cmd settled) :
    (floor.step cmd settled).Invariant := by
  have hshape := h.shape _ _ hbook
  have hcancelBook : (book.cancelOrder cmd floor.cache).book = (book.cancelByIndex cmd).1 := by
    rw [cancelOrder, if_neg hstatus]
  have hcancelCmd : (book.cancelOrder cmd floor.cache).cmd = (book.cancelByIndex cmd).2 := by
    rw [cancelOrder, if_neg hstatus]
  have hbooks := congrArg Prod.fst hmatched
  simp only [hcancelBook] at hbooks
  rw [hcancelCmd] at settles
  have hfields := settles.fields
  have hevents := settles.events
  rcases cancelByIndex_cases hshape cmd with ⟨_, heq⟩ | ⟨_, heq⟩ |
    ⟨t, level, order, hlevel, hmem, hid, _, heq⟩
  · rw [heq] at hbooks hfields hevents
    rw [arrives.events] at hevents
    exact h.missed_step arrives hbook hbooks hshape (fun _ => rfl) (by rw [hfields])
      (List.forall₂_nil_left_iff.mp hevents)
  · rw [heq] at hbooks hfields hevents
    change List.Forall₂ Rebalanced cmd.events _ at hevents
    rw [arrives.events] at hevents
    exact h.missed_step arrives hbook hbooks (erase_index_shape hshape _)
      (fun s => side_setOrders book _ s) (by rw [hfields]; rfl)
      (List.forall₂_nil_left_iff.mp hevents)
  · rw [heq] at hbooks settles
    exact h.found_step arrives hcommand hbook hlevel hmem hid hbooks settles

theorem Invariant.pass_step {floor : Floor} (h : floor.Invariant) {cmd settled : OrderCommand}
    (arrives : floor.Arrives cmd)
    (hbooks : (matchingHandler floor.router cmd floor.cache).1 = floor.router.orderBooks)
    (hmatched : (matchingHandler floor.router cmd floor.cache).2.1 = cmd ∨
      (matchingHandler floor.router cmd floor.cache).2.1 = { cmd with status := .rejected })
    (settles : Settles (matchingHandler floor.router cmd floor.cache).2.1 settled) :
    (floor.step cmd settled).Invariant := by
  have hfields := settles.fields
  have hnoEvents : settled.events = [] := by
    have hevents := settles.events
    have hnone : (matchingHandler floor.router cmd floor.cache).2.1.events = [] := by
      rcases hmatched with heq | heq
      · rw [heq]
        exact arrives.events
      · rw [heq]
        exact arrives.events
    rw [hnone] at hevents
    exact List.forall₂_nil_left_iff.mp hevents
  have hcommand : settled.command = cmd.command := by
    rw [hfields]
    rcases hmatched with heq | heq <;> rw [heq]
  have hundecided : settled.command = .placeOrder ∨ settled.command = .cancelOrder →
      settled.status = .processing ∨ settled.status = .rejected := by
    intro horder
    rw [hcommand] at horder
    rw [hfields]
    rcases hmatched with heq | heq
    · rw [heq]
      exact arrives.status horder
    · rw [heq]
      exact .inr rfl
  have hkind : settled.command = .depositFunds ∨ settled.command = .withdrawFunds ∨
      settled.status = .processing ∨ settled.status = .rejected := by
    cases hcases : settled.command with
    | depositFunds => exact .inl rfl
    | withdrawFunds => exact .inr (.inl rfl)
    | placeOrder => exact .inr (.inr (hundecided (.inl hcases)))
    | cancelOrder => exact .inr (.inr (hundecided (.inr hcases)))
  have hrouter : (floor.step cmd settled).router.orderBooks = floor.router.orderBooks := hbooks
  apply h.quiet_step arrives (publishEvents_quiet hkind)
  · intro m b hb
    rw [hrouter] at hb
    exact h.shape m b hb
  · intro m b hb
    rw [hrouter] at hb
    exact ⟨b, hb, fun _ _ ho => ho⟩
  · refine ⟨?_, fun hcancel hcancelled => ?_⟩
    · rw [hnoEvents]
      intro event hevent
      cases hevent
    · have hstatus := hundecided (.inr hcancel)
      rw [hcancelled] at hstatus
      exact hstatus.elim Status.noConfusion Status.noConfusion

theorem Invariant.step {floor : Floor} (h : floor.Invariant) {cmd settled : OrderCommand}
    (arrives : floor.Arrives cmd)
    (settles : Settles (matchingHandler floor.router cmd floor.cache).2.1 settled) :
    (floor.step cmd settled).Invariant := by
  rcases matchingHandler_cases floor.router cmd floor.cache with ⟨hbooks, _, hmatched⟩ |
    ⟨book, hbook, hstatus, ⟨hcommand, hmatched⟩ | ⟨hcommand, hmatched⟩⟩
  · exact h.pass_step arrives hbooks (hmatched.imp_right fun hrejected => hrejected.2.2.2) settles
  · have hsettles := settles
    rw [hmatched] at hsettles
    exact h.place_step arrives hcommand hstatus hbook hmatched hsettles
  · have hsettles := settles
    rw [hmatched] at hsettles
    exact h.cancel_step arrives hcommand hstatus hbook hmatched hsettles

theorem Run.invariant {floor : Floor} (run : Run floor) : floor.Invariant := by
  induction run with
  | start router cache opened =>
    refine ⟨?_, ?_, List.Pairwise.nil, Each.nil, ?_, ?_⟩
    · intro m book hbook
      rw [opened m book hbook]
      exact new_shape m
    · intro m book hbook s o ho
      rw [opened m book hbook] at ho
      cases s <;> cases ho
    · intro id _
      refine ⟨rfl, ?_⟩
      intro ⟨output, hmem, _⟩
      cases hmem
    · intro cmd hcmd
      cases hcmd
  | command cmd settled _ arrives settles ih => exact ih.step arrives settles

/-- In every run the published events agree with the submissions and with one another, and no
difference computed for them underflows. -/
theorem run_story {floor : Floor} (run : Run floor) :
    Each (Agrees floor.placed) floor.log ∧
      (∀ event, .order event ∈ floor.log → ∀ cmd ∈ floor.placed,
        cmd.orderId = event.orderId → cmd.size = event.size) ∧
      ∀ cmd ∈ floor.published, NoUnderflow cmd := by
  have h := run.invariant
  refine ⟨h.lawful, ?_, h.sound⟩
  intro event hevent cmd hcmd hid
  obtain ⟨before, hagrees⟩ := h.lawful.of_mem hevent
  obtain ⟨submission, hsubmission, hsame, hsize⟩ := hagrees.submitted
  rw [h.eq_of_orderId hcmd hsubmission (hid.trans hsame.symm)]
  exact hsize

/-- A bid of ten, and an ask that takes four of it. -/
theorem run_story_partialFill :
    let opened : Floor := ⟨⟨Finmap.singleton 1 (new 1), 0, 0⟩, ⟨Finmap.singleton 1 {}⟩, [], [], []⟩
    let process (floor : Floor) (cmd : OrderCommand) : Floor :=
      floor.step cmd (matchingHandler floor.router cmd floor.cache).2.1
    let floor := process (process opened (.limit .bid .gtc 1 7 100 10)) (.limit .ask .ioc 2 8 100 4)
    Each (Agrees floor.placed) floor.log ∧
      (∀ event, .order event ∈ floor.log → ∀ cmd ∈ floor.placed,
        cmd.orderId = event.orderId → cmd.size = event.size) ∧
      ∀ cmd ∈ floor.published, NoUnderflow cmd := by
  intro opened process floor
  have hopened : ∀ m book, opened.router.orderBooks.lookup m = some book → book = .new m := by
    intro m book hbook
    by_cases hm : m = 1
    · subst hm
      exact (Option.some.inj hbook).symm
    · have hnone : opened.router.orderBooks.lookup m = none :=
        Finmap.lookup_eq_none.mpr fun hmem => hm ((Finmap.mem_singleton _ _ _).mp hmem)
      rw [hnone] at hbook
      cases hbook
  have first : Run opened := .start opened.router opened.cache hopened
  have second := first.command (.limit .bid .gtc 1 7 100 10) _
    ⟨rfl, fun _ => .inl rfl, fun _ => by decide, by decide, fun _ => by decide⟩ (.refl _)
  have third := second.command (.limit .ask .ioc 2 8 100 4) _
    ⟨rfl, fun _ => .inl rfl, fun _ => by decide, by decide, fun _ => by decide⟩ (.refl _)
  exact run_story third

end Floor

end VexCore
