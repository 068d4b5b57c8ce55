import VexCore.Orderbook.Sizes

/-!
# The outcome of one placement

Whatever its time in force, a placement is a list of fills against resting orders, a status that
tells how far they went, and perhaps a remainder that rests.
-/

namespace VexCore

open Framework

namespace OrderBook

/-- No resting order is empty. -/
def Positive (book : OrderBook) : Prop := ∀ s, ∀ o ∈ (book.side s).resting, 0 < o.size

/-- What a placement did: its fills, the status they led to, and what rests afterwards. -/
structure PlacementOutcome (book : OrderBook) (cmd : OrderCommand) (out : Outcome)
    (fills : List (Fill Order)) : Prop where
  nodup : (fills.map fun f => f.source.orderId).Nodup
  makers : ∀ f ∈ fills, f.source ∈ (book.side cmd.side.opSide).resting ∧ 0 < f.amount ∧
    f.amount ≤ f.source.size
  filled_le : filled fills ≤ cmd.size
  events : out.cmd.events = fills.map fillEvent
  size : out.cmd.size = cmd.size - filled fills
  status : (out.cmd.status = .placed ∧ fills = []) ∨
    (out.cmd.status = .partiallyFilled ∧ 0 < filled fills ∧ filled fills < cmd.size) ∨
    (out.cmd.status = .filled ∧ filled fills = cmd.size) ∨
    (out.cmd.status = .cancelled ∧ filled fills < cmd.size)
  resting : ∀ s, ∀ o' ∈ (out.book.side s).resting,
    (∃ o ∈ (book.side s).resting, afterFills fills o = some o') ∨
    (s = cmd.side ∧ o' = restingOrder cmd (cmd.size - filled fills) ∧ filled fills < cmd.size ∧
      (out.cmd.status = .placed ∨ out.cmd.status = .partiallyFilled))

theorem executionPrice_eq (cmd : OrderCommand) : ∃ price, executionPrice cmd = { cmd with price } := by
  unfold executionPrice
  split
  · split
    · exact ⟨_, rfl⟩
    · exact ⟨cmd.price, rfl⟩
  · exact ⟨cmd.price, rfl⟩

/-- After its time-in-force branch, a placement changes the command's price and snapshot only. -/
theorem placeOrder_cmd_eq {cmd : OrderCommand} (h : cmd.status ≠ .rejected) (book : OrderBook)
    (cache : PriceCache) :
    ∃ price, (book.placeOrder cmd cache).cmd =
      { (book.placeByTimeInForce cmd).2 with
        price, l2Data := some (book.placeByTimeInForce cmd).1.l2Snapshot } := by
  obtain ⟨price, hprice⟩ := executionPrice_eq (book.placeByTimeInForce cmd).2
  refine ⟨price, ?_⟩
  rw [placeOrder, if_neg h]
  show recordSnapshot _ (executionPrice _) = _
  rw [hprice]
  rfl

theorem amount_pos_of_mem_referenceFills {book : OrderBook} (hpositive : book.Positive)
    {cmd : OrderCommand} {f : Fill Order} (hf : f ∈ book.referenceFills cmd) : 0 < f.amount := by
  apply amount_pos_of_mem_allocate ?_ hf
  intro o ho
  exact hpositive _ o (List.mem_of_mem_filter ho)

theorem fills_eq_nil {book : OrderBook} (hpositive : book.Positive) {cmd : OrderCommand}
    (hzero : filled (book.referenceFills cmd) = 0) : book.referenceFills cmd = [] := by
  cases hfills : book.referenceFills cmd with
  | nil => rfl
  | cons f rest =>
    have hpos : 0 < f.amount :=
      amount_pos_of_mem_referenceFills hpositive (hfills ▸ List.mem_cons_self)
    rw [hfills, filled_cons] at hzero
    omega

/-- No id is on both sides. -/
theorem Shape.disjoint_of_ne {book : OrderBook} (h : book.Shape) {s t : Side} (hst : s ≠ t)
    {a b : Order} (ha : a ∈ (book.side s).resting) (hb : b ∈ (book.side t).resting)
    (hid : b.orderId = a.orderId) : False := by
  have ht : t = s.opSide := by
    cases s <;> cases t <;> first | rfl | exact absurd rfl hst
  subst ht
  exact h.disjoint s (BookSide.mem_ids.mpr ⟨a, ha, rfl⟩) (BookSide.mem_ids.mpr ⟨b, hb, hid⟩)

/-- After a cancellation the other orders rest. -/
theorem mem_removeResting {book : OrderBook} (h : book.Shape) {s t : Side} {level : PriceLevel}
    {order o : Order} (hlevel : (book.side t).getLevel order.price = some level)
    (hmem : order ∈ level.orders) (ho : o ∈ ((book.removeResting t level order).side s).resting) :
    o ∈ (book.side s).resting ∧ o.orderId ≠ order.orderId := by
  have horder : order ∈ (book.side t).resting := BookSide.mem_resting.mpr ⟨_, _, hlevel, hmem⟩
  by_cases hs : s = t
  · subst hs
    have hperm := removeResting_perm h hlevel hmem
    have hnodup := (hperm.map Order.orderId).nodup_iff.mp (h.nodup s)
    rw [List.map_cons, List.nodup_cons] at hnodup
    refine ⟨hperm.mem_iff.mpr (List.mem_cons_of_mem _ ho), ?_⟩
    intro heq
    exact hnodup.1 (List.mem_map.mpr ⟨o, ho, heq⟩)
  · rw [side_removeResting_ne _ _ hs] at ho
    exact ⟨ho, fun heq => h.disjoint_of_ne hs ho horder heq.symm⟩

/-- After matching, what rests is what rested before with the fills taken off. -/
theorem resting_matchOrder {book : OrderBook} (h : book.Shape) {cmd : OrderCommand} {s : Side}
    {o' : Order} (ho' : o' ∈ ((book.matchOrder cmd).1.side s).resting) :
    ∃ o ∈ (book.side s).resting, afterFills (book.referenceFills cmd) o = some o' := by
  by_cases hs : s = cmd.side.opSide
  · subst hs
    rw [matchOrder_resting h] at ho'
    exact List.mem_filterMap.mp ho'
  · rw [matchOrder_side_ne hs] at ho'
    refine ⟨o', ho', ?_⟩
    -- the fills are on the other side
    apply afterFills_of_not_mem
    intro f hf heq
    exact h.disjoint_of_ne hs ho' (referenceFills_source_mem hf) heq

section Outcome

variable {book : OrderBook} {cmd : OrderCommand}

theorem PlacementOutcome.filled_iff {out : Outcome} {fills : List (Fill Order)}
    (h : PlacementOutcome book cmd out fills) (hpos : 0 < cmd.size) :
    out.cmd.status = .filled ↔ filled fills = cmd.size := by
  rcases h.status with ⟨hstatus, hnil⟩ | ⟨hstatus, _, hlt⟩ | ⟨hstatus, heq⟩ | ⟨hstatus, hlt⟩
  · rw [hstatus, hnil]
    simp only [reduceCtorEq, filled_nil, false_iff]
    omega
  · rw [hstatus]
    simp only [reduceCtorEq, false_iff]
    omega
  · exact iff_of_true hstatus heq
  · rw [hstatus]
    simp only [reduceCtorEq, false_iff]
    omega

theorem PlacementOutcome.placed {out : Outcome} {fills : List (Fill Order)}
    (h : PlacementOutcome book cmd out fills) (hplaced : out.cmd.status = .placed) :
    filled fills = 0 := by
  rcases h.status with ⟨_, hnil⟩ | ⟨hstatus, _⟩ | ⟨hstatus, _⟩ | ⟨hstatus, _⟩
  · rw [hnil]
    rfl
  all_goals
    rw [hstatus] at hplaced
    cases hplaced

theorem PlacementOutcome.partiallyFilled {out : Outcome} {fills : List (Fill Order)}
    (h : PlacementOutcome book cmd out fills) (hpartly : out.cmd.status = .partiallyFilled) :
    0 < filled fills ∧ filled fills < cmd.size := by
  rcases h.status with ⟨hstatus, _⟩ | ⟨_, hrange⟩ | ⟨hstatus, _⟩ | ⟨hstatus, _⟩
  · rw [hstatus] at hpartly
    cases hpartly
  · exact hrange
  all_goals
    rw [hstatus] at hpartly
    cases hpartly

/-- A resting order that the fills do not use up keeps something. -/
theorem PlacementOutcome.taken_lt {out : Outcome} {fills : List (Fill Order)}
    (h : PlacementOutcome book cmd out fills) (hshape : book.Shape) {s : Side} {o : Order}
    (ho : o ∈ (book.side s).resting) (hpos : 0 < o.size)
    (hcompletes : completes fills o.orderId = false) :
    taken Order.orderId fills o.orderId < o.size := by
  by_cases hfill : ∃ f ∈ fills, f.source.orderId = o.orderId
  · obtain ⟨f, hf, hid⟩ := hfill
    obtain ⟨hsource, _, hle⟩ := h.makers f hf
    have htaken := taken_of_mem h.nodup hf
    have hsame : f.source = o := by
      by_cases hs : s = cmd.side.opSide
      · subst hs
        exact hshape.eq_of_orderId hsource ho hid
      · exact absurd (hshape.disjoint_of_ne hs ho hsource hid) not_false
    have hleft : f.source.size - f.amount ≠ 0 := by
      intro hzero
      simp only [completes, List.any_eq_false] at hcompletes
      exact hcompletes f hf (by simp [hid, hzero])
    rw [hid] at htaken
    rw [hsame] at hleft
    omega
  · have hnone : taken Order.orderId fills o.orderId = 0 := by
      apply taken_of_not_mem
      intro f hf heq
      exact hfill ⟨f, hf, heq⟩
    omega

/-- A placement that matches nothing and leaves the book alone. -/
theorem PlacementOutcome.killed {out : Outcome} (hpos : 0 < cmd.size) (hbook : out.book = book)
    (hevents : out.cmd.events = []) (hsize : out.cmd.size = cmd.size)
    (hstatus : out.cmd.status = .cancelled) : PlacementOutcome book cmd out [] where
  nodup := List.nodup_nil
  makers f hf := by cases hf
  filled_le := Nat.zero_le _
  events := hevents
  size := hsize
  status := .inr (.inr (.inr ⟨hstatus, hpos⟩))
  resting s o' ho' := by
    rw [hbook] at ho'
    exact .inl ⟨o', ho', afterFills_of_not_mem fun f hf => by cases hf⟩

/-- A placement that matches; what it rests, if anything, is its remainder. -/
theorem PlacementOutcome.matched {out : Outcome} (h : book.Shape) (hpositive : book.Positive)
    (hevents : out.cmd.events = (book.referenceFills cmd).map fillEvent)
    (hsize : out.cmd.size = cmd.size - filled (book.referenceFills cmd))
    (hstatus : (out.cmd.status = .placed ∧ filled (book.referenceFills cmd) = 0) ∨
      (out.cmd.status = .partiallyFilled ∧ 0 < filled (book.referenceFills cmd) ∧
        filled (book.referenceFills cmd) < cmd.size) ∨
      (out.cmd.status = .filled ∧ filled (book.referenceFills cmd) = cmd.size) ∨
      (out.cmd.status = .cancelled ∧ filled (book.referenceFills cmd) < cmd.size))
    (hbook : out.book = (book.matchOrder cmd).1 ∨
      (out.book = (book.matchOrder cmd).1.addToBook cmd
          (cmd.size - filled (book.referenceFills cmd)) ∧
        filled (book.referenceFills cmd) < cmd.size ∧
        (out.cmd.status = .placed ∨ out.cmd.status = .partiallyFilled))) :
    PlacementOutcome book cmd out (book.referenceFills cmd) where
  nodup := referenceFills_nodup h cmd
  makers f hf := ⟨referenceFills_source_mem hf, amount_pos_of_mem_referenceFills hpositive hf,
    amount_le_of_mem_allocate hf⟩
  filled_le := filled_allocate_le _ _ _
  events := hevents
  size := hsize
  status := hstatus.imp_left fun ⟨hplaced, hzero⟩ => ⟨hplaced, fills_eq_nil hpositive hzero⟩
  resting s o' ho' := by
    rcases hbook with hbook | ⟨hbook, hlt, hstatus⟩
    · rw [hbook] at ho'
      exact .inl (resting_matchOrder h ho')
    · rw [hbook] at ho'
      rcases mem_resting_addToBook.mp ho' with ⟨hs, hnew⟩ | ho'
      · exact .inr ⟨hs, hnew, hlt, hstatus⟩
      · exact .inl (resting_matchOrder h ho')

end Outcome

/-- Every placement that is not rejected up front has such an outcome. -/
theorem placement_outcome {book : OrderBook} (h : book.Shape) (hpositive : book.Positive)
    {cmd : OrderCommand} (hstatus : cmd.status ≠ .rejected) (hevents : cmd.events = [])
    (hpos : 0 < cmd.size) (cache : PriceCache) :
    ∃ fills, PlacementOutcome book cmd (book.placeOrder cmd cache) fills := by
  obtain ⟨price, hcmd⟩ := placeOrder_cmd_eq hstatus book cache
  have hbook := placeOrder_book hstatus book cache
  have hmatched := matchOrder_cmd h cmd
  rw [hevents, List.nil_append] at hmatched
  have hremaining := matchOrder_remaining h cmd
  have hle : filled (book.referenceFills cmd) ≤ cmd.size := filled_allocate_le _ _ _
  cases htif : cmd.timeInForce with
  | gtc =>
    rw [placeByTimeInForce, htif] at hcmd hbook
    simp only [hmatched, hremaining] at hcmd hbook
    refine ⟨book.referenceFills cmd, ?_⟩
    by_cases hnone : cmd.size - filled (book.referenceFills cmd) = cmd.size
    · rw [if_pos hnone] at hcmd hbook
      have hzero : filled (book.referenceFills cmd) = 0 := by omega
      have hplaced : (book.placeOrder cmd cache).cmd.status = .placed := by rw [hcmd]
      exact .matched h hpositive (by rw [hcmd]) (by rw [hcmd]) (.inl ⟨hplaced, hzero⟩)
        (.inr ⟨hbook, by omega, .inl hplaced⟩)
    · by_cases hrest : 0 < cmd.size - filled (book.referenceFills cmd)
      · rw [if_neg hnone, if_pos hrest] at hcmd hbook
        have hpartly : (book.placeOrder cmd cache).cmd.status = .partiallyFilled := by rw [hcmd]
        exact .matched h hpositive (by rw [hcmd]) (by rw [hcmd])
          (.inr (.inl ⟨hpartly, by omega, by omega⟩))
          (.inr ⟨hbook, by omega, .inr hpartly⟩)
      · rw [if_neg hnone, if_neg hrest] at hcmd hbook
        exact .matched h hpositive (by rw [hcmd]) (by rw [hcmd])
          (.inr (.inr (.inl ⟨by rw [hcmd], by omega⟩))) (.inl hbook)
  | fok =>
    rw [placeByTimeInForce, htif] at hcmd hbook
    simp only [hmatched, hremaining] at hcmd hbook
    by_cases hkill : (!book.canFillCompletely cmd) = true
    · rw [if_pos hkill] at hcmd hbook
      exact ⟨[], .killed hpos hbook (by rw [hcmd]; exact hevents) (by rw [hcmd]) (by rw [hcmd])⟩
    · rw [if_neg hkill] at hcmd hbook
      refine ⟨book.referenceFills cmd, ?_⟩
      by_cases hall : cmd.size - filled (book.referenceFills cmd) = 0
      · have hfilled : (book.placeOrder cmd cache).cmd.status = .filled := by
          rw [hcmd]
          exact if_pos hall
        exact .matched h hpositive (by rw [hcmd]) (by rw [hcmd])
          (.inr (.inr (.inl ⟨hfilled, by omega⟩))) (.inl hbook)
      · have hcancelled : (book.placeOrder cmd cache).cmd.status = .cancelled := by
          rw [hcmd]
          exact if_neg hall
        exact .matched h hpositive (by rw [hcmd]) (by rw [hcmd])
          (.inr (.inr (.inr ⟨hcancelled, by omega⟩))) (.inl hbook)
  | ioc =>
    rw [placeByTimeInForce, htif] at hcmd hbook
    simp only [hmatched, hremaining] at hcmd hbook
    have hstatus : (book.placeOrder cmd cache).cmd.status =
        if cmd.size - filled (book.referenceFills cmd) = 0 then .filled
        else if cmd.size - filled (book.referenceFills cmd) < cmd.size then .partiallyFilled
        else .cancelled := by rw [hcmd]
    refine ⟨book.referenceFills cmd, .matched h hpositive (by rw [hcmd]) (by rw [hcmd]) ?_ (.inl hbook)⟩
    rw [hstatus]
    by_cases hall : cmd.size - filled (book.referenceFills cmd) = 0
    · rw [if_pos hall]
      exact .inr (.inr (.inl ⟨rfl, by omega⟩))
    · by_cases hsome : cmd.size - filled (book.referenceFills cmd) < cmd.size
      · rw [if_neg hall, if_pos hsome]
        exact .inr (.inl ⟨rfl, by omega, by omega⟩)
      · rw [if_neg hall, if_neg hsome]
        exact .inr (.inr (.inr ⟨rfl, by omega⟩))

end OrderBook

end VexCore
