import VexCore.Networking.Handshake
import Mathlib.Logic.Function.Basic
import Mathlib.Data.List.FinRange

/-!
# Gateway sessions

The manager gives a gateway that says hello two ports, a session identifier, a publication for
responses and a subscription for its commands, and takes them back when the gateway is gone.
What Aeron answers and what the random generator draws are arguments.
-/

namespace VexCore.Networking

/-- The client numbers what it registers. -/
structure Aeron where
  nextRegistration : Nat
deriving DecidableEq, Repr

structure Publication where
  registration : Nat
  uri : String
  streamId : Nat
deriving DecidableEq, Repr

structure Subscription where
  registration : Nat
  uri : String
  streamId : Nat
deriving DecidableEq, Repr

def newPublicationWithMdcAndSession (aeron : Aeron) (address : String) (port streamId : Nat)
    (sessionId : Int) (added : Except AeronError Unit) : Aeron × Except AeronError Publication :=
  let controlEndpoint := s!"{address}:{port}"
  let uri := s!"aeron:udp?control={controlEndpoint}|control-mode=dynamic|session-id={sessionId}"
  (⟨aeron.nextRegistration + 1⟩, added.map fun _ => ⟨aeron.nextRegistration, uri, streamId⟩)

def newSubscriptionWithHandlersAndSession (aeron : Aeron) (address : String) (port streamId : Nat)
    (sessionId : Int) (added : Except AeronError Unit) : Aeron × Except AeronError Subscription :=
  let endpoint := s!"{address}:{port}"
  let uri := s!"aeron:udp?endpoint={endpoint}|session-id={sessionId}"
  (⟨aeron.nextRegistration + 1⟩, added.map fun _ => ⟨aeron.nextRegistration, uri, streamId⟩)

def duologueStreamId : Nat := 1002

structure Duologue where
  gatewayId : Nat
  subscription : Subscription
deriving DecidableEq, Repr

structure GatewaySlot where
  duologue : Duologue
  portData : Nat
  portControl : Nat
  sessionId : Int
deriving DecidableEq, Repr

structure Session where
  slots : Fin maxGateways → Option GatewaySlot

namespace Session

def new : Session := ⟨fun _ => none⟩

/-- `slots.get(gateway_id)`, with an identifier past the end as an empty slot. -/
def slot (s : Session) (gatewayId : Nat) : Option GatewaySlot :=
  if h : gatewayId < maxGateways then s.slots ⟨gatewayId, h⟩ else none

/-- The occupied slots, in order. -/
def occupied (s : Session) : List GatewaySlot := (List.finRange maxGateways).filterMap s.slots

def insert (s : Session) (gatewayId : Nat) (sessionId : Int) (duologue : Duologue)
    (portData portControl : Nat) : Session :=
  if h : gatewayId < maxGateways then
    ⟨Function.update s.slots ⟨gatewayId, h⟩ (some { duologue, sessionId, portData, portControl })⟩
  else s

def remove (s : Session) (gatewayId : Nat) : Session × Option Duologue :=
  if h : gatewayId < maxGateways then
    (⟨Function.update s.slots ⟨gatewayId, h⟩ none⟩,
      (s.slots ⟨gatewayId, h⟩).map GatewaySlot.duologue)
  else (s, none)

def isGatewayConnected (s : Session) (gatewayId : Nat) : Bool := (s.slot gatewayId).isSome

def getPortsInUse (s : Session) : List Nat :=
  s.occupied.flatMap fun slot => [slot.portData, slot.portControl].filter (· ≠ 0)

def getSessionsInUse (s : Session) : List Int := s.occupied.map GatewaySlot.sessionId

@[simp] theorem slot_new (gatewayId : Nat) : new.slot gatewayId = none := by
  simp [slot, new]

theorem lt_of_slot_eq_some {s : Session} {gatewayId : Nat} {a : GatewaySlot}
    (h : s.slot gatewayId = some a) : gatewayId < maxGateways := by
  unfold slot at h
  split at h
  · assumption
  · cases h

theorem slot_insert (s : Session) {gatewayId : Nat} (hlt : gatewayId < maxGateways)
    (sessionId : Int) (duologue : Duologue) (portData portControl g : Nat) :
    (s.insert gatewayId sessionId duologue portData portControl).slot g =
      if g = gatewayId then some { duologue, sessionId, portData, portControl } else s.slot g := by
  by_cases hg : g = gatewayId
  · subst hg
    simp [slot, insert, hlt]
  · by_cases hmax : g < maxGateways
    · simp [slot, insert, hlt, hmax, hg, Function.update]
    · simp [slot, hmax, hg]

theorem slot_remove (s : Session) (gatewayId g : Nat) :
    (s.remove gatewayId).1.slot g = if g = gatewayId then none else s.slot g := by
  by_cases hlt : gatewayId < maxGateways
  · by_cases hg : g = gatewayId
    · subst hg
      simp [slot, remove, hlt]
    · by_cases hmax : g < maxGateways
      · simp [slot, remove, hlt, hmax, hg, Function.update]
      · simp [slot, hmax, hg]
  · by_cases hg : g = gatewayId
    · subst hg
      simp [slot, hlt]
    · simp [remove, hlt, hg]

theorem remove_snd (s : Session) (gatewayId : Nat) :
    (s.remove gatewayId).2 = (s.slot gatewayId).map GatewaySlot.duologue := by
  by_cases hlt : gatewayId < maxGateways
  · simp [slot, remove, hlt]
  · simp [slot, remove, hlt]

theorem mem_occupied {s : Session} {a : GatewaySlot} :
    a ∈ s.occupied ↔ ∃ gatewayId, s.slot gatewayId = some a := by
  constructor
  · intro h
    obtain ⟨i, -, hi⟩ := List.mem_filterMap.mp h
    exact ⟨i, by simpa [slot] using hi⟩
  · rintro ⟨gatewayId, h⟩
    have hlt := lt_of_slot_eq_some h
    refine List.mem_filterMap.mpr ⟨⟨gatewayId, hlt⟩, List.mem_finRange _, ?_⟩
    simpa [slot, hlt] using h

theorem mem_getSessionsInUse {s : Session} {sessionId : Int} :
    sessionId ∈ s.getSessionsInUse ↔ ∃ g a, s.slot g = some a ∧ a.sessionId = sessionId := by
  unfold getSessionsInUse
  rw [List.mem_map]
  constructor
  · rintro ⟨a, ha, hid⟩
    obtain ⟨g, hg⟩ := mem_occupied.mp ha
    exact ⟨g, a, hg, hid⟩
  · rintro ⟨g, a, hg, hid⟩
    exact ⟨a, mem_occupied.mpr ⟨g, hg⟩, hid⟩

end Session

/-- The two ports of a slot. -/
inductive PortKind
  | data
  | control
deriving DecidableEq, Repr

def GatewaySlot.port (a : GatewaySlot) : PortKind → Nat
  | .data => a.portData
  | .control => a.portControl

theorem Session.mem_getPortsInUse {s : Session} {g : Nat} {a : GatewaySlot} {kind : PortKind}
    (h : s.slot g = some a) (hpos : a.port kind ≠ 0) : a.port kind ∈ s.getPortsInUse := by
  refine List.mem_flatMap.mpr ⟨a, Session.mem_occupied.mpr ⟨g, h⟩, ?_⟩
  cases kind with
  | data => simpa [GatewaySlot.port] using hpos
  | control => simpa [GatewaySlot.port] using hpos

structure CoreNetworkingConfig where
  localAddress : String
  baseGatewayPort : Nat
  maxGateways : Nat
  reservedSessionIdLow : Int
  reservedSessionIdHigh : Int
  enableAuthentication : Bool
deriving DecidableEq, Repr

structure GatewayManager where
  config : CoreNetworkingConfig
  gatewaySessions : Session
  aeron : Aeron
  portAllocator : PortAllocator
  sessionAllocator : SessionAllocator
  publications : Publications Publication

/-- What the outside answers to one handshake. -/
structure Outcomes where
  /-- The decoder's words for a message that is no text. -/
  utf8Error : String
  replySent : Except AeronError Unit
  portDraws : Draws
  sessionDraws : Draws
  publicationAdded : Except AeronError Unit
  subscriptionAdded : Except AeronError Unit

/-- A session that is set up and waits to be announced to its gateway. -/
structure Acceptance where
  clientSession : Int
  gatewayId : Nat
  dedicatedSession : Int
  portData : Nat
  portControl : Nat
  encryptedSession : Int
deriving DecidableEq, Repr

def xorI32 (a b : Int) : Int := (BitVec.ofInt 32 a ^^^ BitVec.ofInt 32 b).toInt

/-- `str::from_utf8`. -/
def fromUtf8 (buffer : List UInt8) : Option (List Char) :=
  (String.fromUTF8? ⟨buffer.toArray⟩).map String.toList

theorem fromUtf8_encode (s : String) : fromUtf8 s.toUTF8.data.toList = some s.toList := by
  simp only [fromUtf8, String.fromUTF8?, Option.map_eq_some_iff, Option.dite_none_right_eq_some]
  exact ⟨s, ⟨s.isValidUTF8, rfl⟩, rfl⟩

namespace GatewayManager

def new (config : CoreNetworkingConfig) (aeron : Aeron) (publications : Publications Publication) :
    Except ServerError GatewayManager :=
  match PortAllocator.new config.baseGatewayPort config.maxGateways with
  | .error e => .error (.resourceAllocationError e.toString)
  | .ok portAllocator =>
      match SessionAllocator.new config.reservedSessionIdLow config.reservedSessionIdHigh with
      | .error e => .error (.resourceAllocationError e.toString)
      | .ok sessionAllocator =>
          .ok { config, gatewaySessions := .new, aeron, portAllocator, sessionAllocator,
                publications }

def isGatewayConnected (m : GatewayManager) (gatewayId : Nat) : Bool :=
  m.gatewaySessions.isGatewayConnected gatewayId

def checkDuplicateConnection (m : GatewayManager) (sessionId : Int) (gatewayId : Nat) :
    Except Refusal Unit :=
  if maxGateways ≤ gatewayId then
    let last := Networking.maxGateways - 1
    .error ⟨some s!"{sessionId} gateway-{gatewayId} REJECT Invalid gateway ID (must be 0-{last})",
      .gatewayMessageError s!"Gateway ID {gatewayId} out of range (max: {last})"⟩
  else if m.isGatewayConnected gatewayId then
    .error ⟨some s!"{sessionId} gateway-{gatewayId} REJECT Gateway already connected",
      .gatewayMessageError "Gateway already connected"⟩
  else .ok ()

/-- Not implemented yet in the source: every gateway passes. -/
def authenticateGateway (_gatewayId : Nat) (_credentials : String) : Except ServerError Unit :=
  .ok ()

/-- The two ports and the session identifier, drawn while the slots are locked. -/
def drawResources (m : GatewayManager) (now : Nat) (outcomes : Outcomes) :
    PortAllocator × Except ServerError (Int × Nat × Nat) :=
  let portsInUse := m.gatewaySessions.getPortsInUse
  let sessionsInUse := m.gatewaySessions.getSessionsInUse
  match m.portAllocator.allocate now outcomes.portDraws 2 portsInUse with
  | (portAllocator, .error e) => (portAllocator, .error (.resourceAllocationError e.toString))
  | (portAllocator, .ok ports) =>
      match m.sessionAllocator.allocate outcomes.sessionDraws sessionsInUse with
      | .error e => (portAllocator, .error (.resourceAllocationError e.toString))
      | .ok session => (portAllocator, .ok (session, ports.getD 0 0, ports.getD 1 0))

def allocateGatewaySession (m : GatewayManager) (now : Nat) (outcomes : Outcomes)
    (gatewayId : Nat) : GatewayManager × Except ServerError (Int × Nat × Nat) :=
  match m.drawResources now outcomes with
  | (portAllocator, .error e) => ({ m with portAllocator }, .error e)
  | (portAllocator, .ok (dedicatedSession, portData, portControl)) =>
      match newPublicationWithMdcAndSession m.aeron m.config.localAddress portControl
        duologueStreamId dedicatedSession outcomes.publicationAdded with
      | (aeron, .error e) => ({ m with portAllocator, aeron },
          .error (.resourceAllocationError s!"Failed to create publication: {e}"))
      | (aeron, .ok publication) =>
          match newSubscriptionWithHandlersAndSession aeron m.config.localAddress portData
            duologueStreamId dedicatedSession outcomes.subscriptionAdded with
          | (aeron, .error e) => ({ m with portAllocator, aeron },
              .error (.resourceAllocationError s!"Failed to create subscription: {e}"))
          | (aeron, .ok subscription) =>
              ({ m with
                  portAllocator
                  aeron
                  publications := m.publications.set gatewayId publication
                  gatewaySessions := m.gatewaySessions.insert gatewayId dedicatedSession
                    ⟨gatewayId, subscription⟩ portData portControl },
                .ok (dedicatedSession, portData, portControl))

/-- The checks of `process_handshake_message`, each with what it replies when it fails. -/
def checkHandshakeMessage (m : GatewayManager) (outcomes : Outcomes) (sessionId : Int)
    (buffer : List UInt8) : Except Refusal Hello :=
  match fromUtf8 buffer with
  | none =>
      let reason := outcomes.utf8Error
      .error (.silent (.gatewayMessageError s!"Invalid UTF-8: {reason}"))
  | some message =>
      match parseHello sessionId message with
      | .error refusal => .error refusal
      | .ok ⟨gatewayId, encryptionKey⟩ =>
          match m.checkDuplicateConnection sessionId gatewayId with
          | .error refusal => .error refusal
          | .ok _ =>
              match (if m.config.enableAuthentication then
                  authenticateGateway gatewayId s!"{encryptionKey}" else .ok ()) with
              | .error e =>
                  let reply := s!"{sessionId} gateway-{gatewayId} REJECT Authentication failed"
                  .error ⟨some reply, e⟩
              | .ok _ => .ok ⟨gatewayId, encryptionKey⟩

/-- `process_handshake_message` up to the point where it waits for the publication. -/
def processHandshakeMessage (m : GatewayManager) (now : Nat) (outcomes : Outcomes)
    (sessionId : Int) (buffer : List UInt8) : GatewayManager × Except ServerError Acceptance :=
  match m.checkHandshakeMessage outcomes sessionId buffer with
  | .error refusal => (m, .error (refusal.raise outcomes.replySent))
  | .ok ⟨gatewayId, encryptionKey⟩ =>
      match m.allocateGatewaySession now outcomes gatewayId with
      | (m, .error e) => (m, .error e)
      | (m, .ok (dedicatedSession, portData, portControl)) =>
          (m, .ok {
            clientSession := sessionId
            gatewayId, dedicatedSession, portData, portControl
            encryptedSession := xorI32 encryptionKey dedicatedSession })

/-- Closing the subscription is only asked for; it completes later. -/
def removeGatewaySession (m : GatewayManager) (now gatewayId : Nat) :
    GatewayManager × Except ServerError Unit :=
  let portsToFree := match m.gatewaySessions.slot gatewayId with
    | some slot => [slot.portData, slot.portControl]
    | none => []
  match m.gatewaySessions.remove gatewayId with
  | (_, none) =>
      (m, .error (.gatewayMessageError s!"No active session for gateway-{gatewayId}"))
  | (gatewaySessions, some _) =>
      ({ m with
          gatewaySessions
          publications := m.publications.remove gatewayId
          portAllocator :=
            if portsToFree = [] then m.portAllocator
            else m.portAllocator.markFreed now portsToFree },
        .ok ())

def messageRetryCount : Nat := 5

/-- `send_message_with_retries`, from attempt `i` with `left` attempts to go. -/
def sendMessageWithRetries (offers : Nat → Except AeronError Unit) :
    Nat → Nat → Except AeronError Unit
  | 0, _ => .ok ()
  | left + 1, i =>
      match offers i with
      | .ok _ => .ok ()
      | .error e => if left = 0 then .error e else sendMessageWithRetries offers left (i + 1)

/-- The text that announces a session to its gateway. -/
def Acceptance.message (a : Acceptance) : String :=
  let ⟨clientSession, gatewayId, _, portData, portControl, encryptedSession⟩ := a
  s!"{clientSession} gateway-{gatewayId} ACCEPT {portData} {portControl} {encryptedSession}"

/-- The rest of `process_handshake_message`: `connected` is what the publication says after the
wait. -/
def answerHandshake (m : GatewayManager) (now : Nat) (a : Acceptance) (connected : Bool)
    (offers : Nat → Except AeronError Unit) : GatewayManager × Except ServerError Unit :=
  if !connected then
    match m.removeGatewaySession now a.gatewayId with
    | (m, .error e) => (m, .error e)
    | (m, .ok _) =>
        (m, .error (.gatewayMessageError "Publication not connected after waiting"))
  else
    match sendMessageWithRetries offers messageRetryCount 0 with
    | .ok _ => (m, .ok ())
    | .error e =>
        match m.removeGatewaySession now a.gatewayId with
        | (m, .error e) => (m, .error e)
        | (m, .ok _) =>
            (m, .error (.gatewayMessageError s!"Failed to send ACCEPT message: {e}"))

end GatewayManager

end VexCore.Networking
