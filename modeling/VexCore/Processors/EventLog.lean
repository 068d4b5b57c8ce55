import VexCore.Framework.Greedy
import VexCore.Framework.Log
import VexCore.Processors.Events

/-!
# The log of published events

What the order and trade events published so far say about one order: how much of it has traded,
and whether an event has closed it.
-/

namespace VexCore

open Framework

/-- What one output adds to the traded size of an order. -/
def Output.tradedSize (orderId : Nat) : Output → Nat
  | .trade event => if event.makerOrderId = orderId ∨ event.takerOrderId = orderId then event.size else 0
  | _ => 0

/-- The sizes of the published trades in which the order is maker or taker. -/
def traded (log : List Output) (orderId : Nat) : Nat := (log.map (Output.tradedSize orderId)).sum

/-- Whether an output is an order event that closes the order. -/
def Output.closes (orderId : Nat) : Output → Prop
  | .order event => event.orderId = orderId ∧ (event.status = .filled ∨ event.status = .cancelled)
  | _ => False

def Closed (log : List Output) (orderId : Nat) : Prop := ∃ output ∈ log, output.closes orderId

/-- Outputs that are neither trades nor order events. -/
def Output.quiet : Output → Prop
  | .trade _ | .order _ => False
  | _ => True

/-- An order event that agrees with the submission of its order and with the trades published
before it. -/
structure OrderEventAgrees (placed : List OrderCommand) (log : List Output) (event : OrderEvent) :
    Prop where
  submitted : ∃ cmd ∈ placed, cmd.orderId = event.orderId ∧ cmd.size = event.size
  filledSize : event.filledSize = traded log event.orderId
  bounded : event.filledSize ≤ event.size
  filled : event.status = .filled ↔ event.filledSize = event.size
  placed : event.status = .placed → event.filledSize = 0
  partiallyFilled : event.status = .partiallyFilled →
    0 < event.filledSize ∧ event.filledSize < event.size

/-- The law of the log: order events agree, and trades concern orders that no event has closed. -/
def Agrees (placed : List OrderCommand) (log : List Output) : Output → Prop
  | .order event => OrderEventAgrees placed log event
  | .trade event => ¬Closed log event.makerOrderId ∧ ¬Closed log event.takerOrderId
  | _ => True

theorem Agrees.of_quiet {output : Output} (h : output.quiet) (placed : List OrderCommand)
    (log : List Output) : Agrees placed log output := by
  cases output <;> trivial

/-- More submissions only help. -/
theorem Agrees.mono {placed more : List OrderCommand} {log : List Output} {output : Output}
    (h : Agrees placed log output) (hsub : placed ⊆ more) : Agrees more log output := by
  cases output with
  | order event =>
    obtain ⟨cmd, hcmd, heq⟩ := h.submitted
    exact ⟨⟨cmd, hsub hcmd, heq⟩, h.filledSize, h.bounded, h.filled, h.placed, h.partiallyFilled⟩
  | trade event => exact h
  | _ => trivial

theorem traded_append (log more : List Output) (orderId : Nat) :
    traded (log ++ more) orderId = traded log orderId + traded more orderId := by
  simp [traded]

theorem closed_append {log more : List Output} {orderId : Nat} :
    Closed (log ++ more) orderId ↔ Closed log orderId ∨ Closed more orderId := by
  simp only [Closed, List.mem_append]
  constructor
  · intro ⟨output, hmem, hcloses⟩
    exact hmem.imp (fun h => ⟨output, h, hcloses⟩) fun h => ⟨output, h, hcloses⟩
  · intro h
    rcases h with ⟨output, hmem, hcloses⟩ | ⟨output, hmem, hcloses⟩
    · exact ⟨output, .inl hmem, hcloses⟩
    · exact ⟨output, .inr hmem, hcloses⟩

theorem traded_quiet {outputs : List Output} (h : ∀ output ∈ outputs, output.quiet)
    (orderId : Nat) : traded outputs orderId = 0 := by
  apply List.sum_eq_zero
  intro x hx
  obtain ⟨output, hmem, rfl⟩ := List.mem_map.mp hx
  have hquiet := h output hmem
  cases output <;> first | rfl | exact False.elim hquiet

theorem not_closed_quiet {outputs : List Output} (h : ∀ output ∈ outputs, output.quiet)
    (orderId : Nat) : ¬Closed outputs orderId := by
  intro ⟨output, hmem, hcloses⟩
  have hquiet := h output hmem
  cases output <;> first | exact False.elim hcloses | exact False.elim hquiet

/-- A lawful log `log'` in which each order has traded `amount` more than in `log`, and the
orders that satisfy `closes` are closed as well. -/
structure LogStep (placed : List OrderCommand) (log log' : List Output) (amount : Nat → Nat)
    (closes : Nat → Prop) : Prop where
  lawful : Each (Agrees placed) log'
  traded : ∀ id, traded log' id = traded log id + amount id
  closed : ∀ id, Closed log' id ↔ Closed log id ∨ closes id

namespace LogStep

variable {placed : List OrderCommand} {log log' log'' : List Output}

theorem trans {amount amount' : Nat → Nat} {closes closes' : Nat → Prop}
    (h : LogStep placed log log' amount closes) (h' : LogStep placed log' log'' amount' closes') :
    LogStep placed log log'' (fun id => amount id + amount' id)
      fun id => closes id ∨ closes' id where
  lawful := h'.lawful
  traded id := by rw [h'.traded, h.traded, Nat.add_assoc]
  closed id := by rw [h'.closed, h.closed, or_assoc]

theorem congr {amount amount' : Nat → Nat} {closes closes' : Nat → Prop}
    (h : LogStep placed log log' amount closes) (hamount : ∀ id, amount id = amount' id)
    (hcloses : ∀ id, closes id ↔ closes' id) : LogStep placed log log' amount' closes' where
  lawful := h.lawful
  traded id := by rw [h.traded, hamount]
  closed id := by rw [h.closed, hcloses]

theorem quiet (hlog : Each (Agrees placed) log) {outputs : List Output}
    (h : ∀ output ∈ outputs, output.quiet) :
    LogStep placed log (log ++ outputs) (fun _ => 0) fun _ => False where
  lawful := hlog.append fun output hmem before => .of_quiet (h output hmem) placed before
  traded id := by rw [traded_append, traded_quiet h]
  closed id := by rw [closed_append, or_iff_left (not_closed_quiet h id), or_false]

theorem trade (hlog : Each (Agrees placed) log) {event : TradeEvent}
    (h : ¬Closed log event.makerOrderId ∧ ¬Closed log event.takerOrderId) :
    LogStep placed log (log ++ [.trade event])
      (fun id => if event.makerOrderId = id ∨ event.takerOrderId = id then event.size else 0)
      fun _ => False where
  lawful := hlog.concat h
  traded id := by
    rw [traded_append]
    exact congrArg (VexCore.traded log id + ·) (Nat.add_zero _)
  closed id := by
    rw [closed_append]
    simp [Closed, Output.closes]

theorem order (hlog : Each (Agrees placed) log) {event : OrderEvent}
    (h : OrderEventAgrees placed log event) :
    LogStep placed log (log ++ [.order event]) (fun _ => 0)
      fun id => event.orderId = id ∧ (event.status = .filled ∨ event.status = .cancelled) where
  lawful := hlog.concat h
  traded id := by rw [traded_append]; rfl
  closed id := by
    rw [closed_append]
    simp [Closed, Output.closes]

end LogStep

theorem publishBalanceEvent_quiet (userId : Nat) (cmd : OrderCommand)
    (balance : UserBalance × UserBalance) :
    ∀ output ∈ publishBalanceEvent userId cmd balance, output.quiet := by
  simp [publishBalanceEvent, balanceEvent, Output.quiet]

theorem publishDepositWithdrawalEvent_quiet (cmd : OrderCommand) :
    ∀ output ∈ publishDepositWithdrawalEvent cmd, output.quiet := by
  simp [publishDepositWithdrawalEvent, balanceEvent, Output.quiet]

theorem publishOrderbookEvent_quiet (cmd : OrderCommand) :
    ∀ output ∈ publishOrderbookEvent cmd, output.quiet := by
  unfold publishOrderbookEvent
  split <;> simp [Output.quiet]

theorem publishCancelOrderEvent_quiet (cmd : OrderCommand) :
    ∀ output ∈ publishCancelOrderEvent cmd, output.quiet := by
  simp [publishCancelOrderEvent, Output.quiet]

theorem quiet_append {as bs : List Output} (ha : ∀ output ∈ as, output.quiet)
    (hb : ∀ output ∈ bs, output.quiet) : ∀ output ∈ as ++ bs, output.quiet := by
  intro output hmem
  exact (List.mem_append.mp hmem).elim (ha output) (hb output)

end VexCore
