import VexCore.Common.Command

/-!
# Publications

One place for each gateway, and behind them that of the archive. A record is sent when there is
a publication in its place and that takes it; otherwise the failure is logged and the record is
lost.
-/

namespace VexCore.Networking

def maxGateways : Nat := 16

/-- The last place is that of the archive. -/
structure Publications (α : Type) where
  gateways : Fin (maxGateways + 1) → Option α

/-- A publication, as what it answers to the record that is offered to it. -/
abbrev Offer := OrderRecord → Int

namespace Publications

section Places

variable {α : Type}

def new : Publications α := ⟨fun _ => none⟩

/-- An index past the end panics; the callers have checked it. -/
def set (p : Publications α) (gatewayId : Nat) (publication : α) : Publications α :=
  ⟨fun i => if i.val = gatewayId then some publication else p.gateways i⟩

def get (p : Publications α) (gatewayId : Nat) : Option α :=
  if h : gatewayId < maxGateways + 1 then p.gateways ⟨gatewayId, h⟩ else none

def remove (p : Publications α) (gatewayId : Nat) : Publications α :=
  ⟨fun i => if i.val = gatewayId then none else p.gateways i⟩

@[simp] theorem get_new (gatewayId : Nat) : (new : Publications α).get gatewayId = none := by
  simp [get, new]

theorem get_set (p : Publications α) {gatewayId : Nat} (hlt : gatewayId < maxGateways)
    (publication : α) (g : Nat) :
    (p.set gatewayId publication).get g = if g = gatewayId then some publication else p.get g := by
  by_cases hg : g = gatewayId
  · subst hg
    simp [get, set, Nat.lt_succ_of_lt hlt]
  · simp [get, set, hg]

theorem get_remove (p : Publications α) (gatewayId g : Nat) :
    (p.remove gatewayId).get g = if g = gatewayId then none else p.get g := by
  by_cases hg : g = gatewayId
  · subst hg
    simp [get, remove]
  · simp [get, remove, hg]

end Places

/-- The record that goes out at a place; a negative answer to the offer is a failure. -/
def send (p : Publications Offer) (place : Nat) (cmd : OrderCommand) : Option OrderRecord :=
  match p.get place with
  | none => none
  | some offer =>
      if offer (encodeOrderCommand cmd) < 0 then none else some (encodeOrderCommand cmd)

def publishResponse (p : Publications Offer) (cmd : OrderCommand) : Option (Nat × OrderRecord) :=
  if maxGateways ≤ cmd.routeGatewayId then none
  else (p.send cmd.routeGatewayId cmd).map fun record => (cmd.routeGatewayId, record)

def publishToArchive (p : Publications Offer) (cmd : OrderCommand) : Option OrderRecord :=
  p.send maxGateways cmd

/-- Every place has a publication, and that takes every record. -/
def connected : Publications Offer := ⟨fun _ => some fun _ => 0⟩

/-- There is a publication in the place, and it takes every record. -/
def Takes (p : Publications Offer) (place : Nat) : Prop :=
  ∃ offer, p.get place = some offer ∧ ∀ record, 0 ≤ offer record

theorem takes_connected {place : Nat} (h : place ≤ maxGateways) : connected.Takes place := by
  refine ⟨fun _ => 0, ?_, fun _ => Int.le_refl 0⟩
  simp [get, connected, Nat.lt_succ_of_le h]

theorem send_of_takes {p : Publications Offer} {place : Nat} (h : p.Takes place)
    (cmd : OrderCommand) : p.send place cmd = some (encodeOrderCommand cmd) := by
  obtain ⟨offer, hoffer, haccepts⟩ := h
  have hnot : ¬offer (encodeOrderCommand cmd) < 0 := Int.not_lt.mpr (haccepts _)
  rw [send, hoffer]
  exact if_neg hnot

end Publications

end VexCore.Networking
