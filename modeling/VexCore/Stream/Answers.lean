import VexCore.Framework.Progress
import VexCore.Stream.Serial

/-!
# Answers

What the events handler sends to the gateways: one response at most for a command, in the order of
the commands, to the gateway that sent it, and with a status that is final. A command is answered
where its gateway has a publication that takes the response.
-/

namespace VexCore

open Framework OrderBook

/-- Who is to be answered, and under which id of theirs. -/
structure SameSender (cmd cmd' : OrderCommand) : Prop where
  clientOrderId : cmd'.clientOrderId = cmd.clientOrderId
  routeGatewayId : cmd'.routeGatewayId = cmd.routeGatewayId

theorem SameSender.refl (cmd : OrderCommand) : SameSender cmd cmd := ⟨rfl, rfl⟩

theorem SameSender.trans {a b c : OrderCommand} (hab : SameSender a b) (hbc : SameSender b c) :
    SameSender a c :=
  ⟨hbc.clientOrderId.trans hab.clientOrderId, hbc.routeGatewayId.trans hab.routeGatewayId⟩

theorem Settles.sender {cmd settled : OrderCommand} (h : Settles cmd settled) :
    SameSender cmd settled := by
  rw [h.fields]
  exact ⟨rfl, rfl⟩

theorem Engine.Admits.sender {cmd admitted : OrderCommand} (h : Engine.Admits cmd admitted) :
    SameSender cmd admitted := by
  rw [h.fields]
  exact ⟨rfl, rfl⟩

/-- The statuses that a placement can end with. -/
def Decides (timeInForce : TimeInForce) (status : Status) : Prop :=
  match timeInForce with
  | .gtc => status = .placed ∨ status = .partiallyFilled ∨ status = .filled
  | .ioc => status = .partiallyFilled ∨ status = .filled ∨ status = .cancelled
  | .fok => status = .filled ∨ status = .cancelled

/-- A command whose status is an answer to it. -/
def Answered (cmd : OrderCommand) : Prop :=
  cmd.status = .rejected ∨
    match cmd.command with
    | .placeOrder => Decides cmd.timeInForce cmd.status
    | .cancelOrder => cmd.status = .cancelled
    | .depositFunds | .withdrawFunds => cmd.status = .processed

namespace OrderBook

variable {book : OrderBook} {cmd : OrderCommand}

theorem placeByTimeInForce_sender (book : OrderBook) (cmd : OrderCommand) :
    SameSender cmd (book.placeByTimeInForce cmd).2 := by
  unfold placeByTimeInForce
  split
  · simp only
    split
    · exact ⟨rfl, rfl⟩
    · split <;> exact ⟨rfl, rfl⟩
  · simp only
    split <;> exact ⟨rfl, rfl⟩
  · exact ⟨rfl, rfl⟩

theorem placeOrder_sender (book : OrderBook) (cmd : OrderCommand) (cache : PriceCache) :
    SameSender cmd (book.placeOrder cmd cache).cmd := by
  by_cases hstatus : cmd.status = .rejected
  · rw [placeOrder, if_pos hstatus]
    exact .refl cmd
  · obtain ⟨price, hcmd⟩ := placeOrder_cmd_eq hstatus book cache
    have hplaced := placeByTimeInForce_sender book cmd
    rw [hcmd]
    exact ⟨hplaced.clientOrderId, hplaced.routeGatewayId⟩

/-- Each time in force has its own outcomes. -/
theorem placeOrder_decides (hstatus : cmd.status ≠ .rejected) (cache : PriceCache) :
    Decides cmd.timeInForce (book.placeOrder cmd cache).cmd.status := by
  rw [status_placeOrder hstatus]
  unfold placeByTimeInForce Decides
  cases cmd.timeInForce with
  | gtc =>
    simp only
    split
    · simp
    · split <;> simp
  | fok =>
    simp only
    split
    · simp
    · simp only
      split <;> simp
  | ioc =>
    simp only
    split
    · simp
    · split <;> simp

theorem cancelOrder_answers (hstatus : cmd.status ≠ .rejected) (cache : PriceCache) :
    SameSender cmd (book.cancelOrder cmd cache).cmd ∧
      ((book.cancelOrder cmd cache).cmd.status = .rejected ∨
        (book.cancelOrder cmd cache).cmd.status = .cancelled) := by
  have hside (book : OrderBook) (s : Side) (price : Nat) (level : PriceLevel) :
      SameSender cmd (book.cancelOnSide s price level cmd).2 ∧
        ((book.cancelOnSide s price level cmd).2.status = .rejected ∨
          (book.cancelOnSide s price level cmd).2.status = .cancelled) := by
    have hremove : SameSender cmd (level.removeOrder cmd.orderId cmd).2 ∧
        ((level.removeOrder cmd.orderId cmd).2.status = .rejected ∨
          (level.removeOrder cmd.orderId cmd).2.status = .cancelled) := by
      unfold PriceLevel.removeOrder
      split
      · split
        · exact ⟨⟨rfl, rfl⟩, .inr rfl⟩
        · exact ⟨⟨rfl, rfl⟩, .inl rfl⟩
      · exact ⟨⟨rfl, rfl⟩, .inl rfl⟩
    exact ⟨⟨hremove.1.clientOrderId, hremove.1.routeGatewayId⟩, hremove.2⟩
  have hindex : SameSender cmd (book.cancelByIndex cmd).2 ∧
      ((book.cancelByIndex cmd).2.status = .rejected ∨
        (book.cancelByIndex cmd).2.status = .cancelled) := by
    unfold cancelByIndex
    split
    · simp only
      split
      · exact hside _ _ _ _
      · split
        · exact hside _ _ _ _
        · exact ⟨⟨rfl, rfl⟩, .inl rfl⟩
    · exact ⟨⟨rfl, rfl⟩, .inl rfl⟩
  rw [cancelOrder, if_neg hstatus]
  exact hindex

end OrderBook

/-- What matching makes of a command: its sender stays, and unless it is passed over it has its
answer. -/
theorem matchingHandler_answers (router : MatchingEngineRouter) (cmd : OrderCommand)
    (cache : PriceCache) :
    SameSender cmd (matchingHandler router cmd cache).2.1 ∧
      ((matchingHandler router cmd cache).2.1.status = cmd.status ∨
        Answered (matchingHandler router cmd cache).2.1) := by
  have hsame := matchingHandler_same router cmd cache
  rcases matchingHandler_cases router cmd cache with ⟨-, -, heq | ⟨-, -, -, heq⟩⟩ |
    ⟨book, -, hstatus, ⟨hcommand, heq⟩ | ⟨hcommand, heq⟩⟩
  · rw [heq]
    exact ⟨.refl cmd, .inl rfl⟩
  · rw [heq]
    exact ⟨⟨rfl, rfl⟩, .inr (.inl rfl)⟩
  · rw [heq] at hsame ⊢
    refine ⟨placeOrder_sender book cmd cache, .inr (.inr ?_)⟩
    rw [hsame.command, hcommand, hsame.timeInForce]
    exact placeOrder_decides hstatus cache
  · rw [heq] at hsame ⊢
    obtain ⟨hsender, hrejected | hcancelled⟩ := @cancelOrder_answers book _ hstatus cache
    · exact ⟨hsender, .inr (.inl hrejected)⟩
    · refine ⟨hsender, .inr (.inr ?_)⟩
      rw [hsame.command, hcommand]
      exact hcancelled

namespace Engine

variable {config : Config} {s t : State} {n : Nat}

/-- The command of a slot that the events handler has visited, as it is answered. -/
theorem Serial.answered {arrived : Nat → OrderCommand} (h : Serial config arrived s)
    (hstages : StagesInvariant config s) (ho : (pipeline config).Ordered s)
    (hn : n < s.seq .events) :
    SameSender (s.slots n).ingested (s.slots n).cmd ∧ Answered (s.slots n).cmd := by
  have hmatched : Matched s n :=
    hn.trans_le (ho.staged (.matching _) .events (Nat.one_lt_succ_succ 1))
  have hpassed : Passed s n := hn.trans_le (ho.staged (.risk _) .events (Nat.zero_lt_succ 2))
  have hsettles := h.matched n hmatched
  obtain ⟨hsender, hanswer⟩ := matchingHandler_answers
    (floorAt config arrived arrived n).router (arrived n) (floorAt config arrived arrived n).cache
  refine ⟨((h.admitted n).sender.trans hsender).trans hsettles.sender, ?_⟩
  by_cases hrejected : (s.slots n).cmd.status = .rejected
  · exact .inl hrejected
  by_cases hfunds : IsFunds (s.slots n).cmd
  · have hprocessed : (s.slots n).cmd.status = .processed := by
      rcases (hstages n).funds hfunds with hraw | hdone | hdone
      · exact absurd hpassed hraw.2
      · exact hdone
      · exact absurd hdone hrejected
    unfold Answered
    rcases hfunds with hcommand | hcommand <;> simp [hcommand, hprocessed]
  · have hlive := ((hstages n).decided hfunds hmatched hrejected).1.1
    have hstatus : (s.slots n).cmd.status = (decidedAt config arrived n).status := by
      rw [hsettles.fields]
    have hundecided : ¬IsFunds (arrived n) := by
      rwa [IsFunds, ← (h.same n).command]
    rcases hanswer with hpassedOver | hanswered
    · rw [hstatus.trans hpassedOver] at hlive hrejected
      exact absurd (h.undecided n hundecided) (not_or.mpr ⟨hlive, hrejected⟩)
    · unfold Answered at hanswered ⊢
      rw [hstatus, hsettles.same.command, hsettles.same.timeInForce]
      exact hanswered

/-- One deposit is published, and nobody has seen it yet. -/
def waiting : State :=
  (pipeline (plainConfig [1])).execute (start (plainConfig [1]) false)
    [.publish (Slot.of (.funds .depositFunds 3 0 1000))]

end Engine

end VexCore
