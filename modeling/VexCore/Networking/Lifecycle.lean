import VexCore.Networking.GatewayManager

/-!
# The manager over time

The main loop takes handshakes and polls; each poll first works off the cleanup channel. On
other threads the image-unavailable callback of a subscription writes to that channel until the
subscription's close completes. Both threads and the clock interleave freely.
-/

namespace VexCore.Networking

namespace GatewayManager

/-- The loop of `shutdown_all_gateways`; an error ends it. -/
def removeAll (now : Nat) : List Nat → GatewayManager → GatewayManager × Except ServerError Unit
  | [], m => (m, .ok ())
  | gatewayId :: rest, m =>
      match m.removeGatewaySession now gatewayId with
      | (m, .error e) => (m, .error e)
      | (m, .ok _) => removeAll now rest m

def shutdownAllGateways (m : GatewayManager) (now : Nat) : GatewayManager × Except ServerError Unit :=
  removeAll now (m.gatewaySessions.occupied.map fun slot => slot.duologue.gatewayId) m

abbrev slot (m : GatewayManager) (gatewayId : Nat) : Option GatewaySlot :=
  m.gatewaySessions.slot gatewayId

theorem new_slot {config : CoreNetworkingConfig} {aeron : Aeron} {publications : Publications Publication}
    {m : GatewayManager} (h : new config aeron publications = .ok m) (g : Nat) :
    m.slot g = none := by
  unfold new at h
  split at h
  · cases h
  · split at h
    · cases h
    · cases h
      exact Session.slot_new g

/-- `m'` comes from `m` by taking sessions away at time `now`. -/
structure Reduction (now : Nat) (m m' : GatewayManager) : Prop where
  config : m'.config = m.config
  aeron : m'.aeron = m.aeron
  sessionAllocator : m'.sessionAllocator = m.sessionAllocator
  low : m'.portAllocator.low = m.portAllocator.low
  high : m'.portAllocator.high = m.portAllocator.high
  slot : ∀ g, m'.slot g = none ∨ m'.slot g = m.slot g
  kept : ∀ g < maxGateways, m'.slot g = m.slot g → m'.publications.get g = m.publications.get g
  cleared : ∀ g < maxGateways, m.slot g ≠ none → m'.slot g = none → m'.publications.get g = none
  freedAt : ∀ p, m'.portAllocator.freedAt p = m.portAllocator.freedAt p ∨
    m'.portAllocator.freedAt p = some now
  freed : ∀ g a kind, m.slot g = some a → m'.slot g = none →
    m'.portAllocator.freedAt (a.port kind) = some now

theorem Reduction.refl (now : Nat) (m : GatewayManager) : Reduction now m m where
  config := rfl
  aeron := rfl
  sessionAllocator := rfl
  low := rfl
  high := rfl
  slot _ := .inr rfl
  kept _ _ _ := rfl
  cleared _ _ hsome hnone := absurd hnone hsome
  freedAt _ := .inl rfl
  freed g a kind hsome hnone := by
    rw [hsome] at hnone
    cases hnone

theorem Reduction.trans {now : Nat} {m₁ m₂ m₃ : GatewayManager} (h : Reduction now m₁ m₂)
    (h' : Reduction now m₂ m₃) : Reduction now m₁ m₃ where
  config := h'.config.trans h.config
  aeron := h'.aeron.trans h.aeron
  sessionAllocator := h'.sessionAllocator.trans h.sessionAllocator
  low := h'.low.trans h.low
  high := h'.high.trans h.high
  slot g := by
    rcases h'.slot g with hnone | heq
    · exact .inl hnone
    · rw [heq]
      exact h.slot g
  kept g hg heq := by
    have h₁₂ : m₂.slot g = m₁.slot g := by
      rcases h.slot g with hnone | heq₁
      · rcases h'.slot g with hnone' | heq'
        · rw [hnone, ← heq, hnone']
        · rw [← heq', heq]
      · exact heq₁
    rw [h'.kept g hg (heq.trans h₁₂.symm), h.kept g hg h₁₂]
  cleared g hg hsome hnone := by
    rcases h.slot g with hnone₂ | heq
    · rw [h'.kept g hg (hnone.trans hnone₂.symm)]
      exact h.cleared g hg hsome hnone₂
    · exact h'.cleared g hg (heq ▸ hsome) hnone
  freedAt p := by
    rcases h'.freedAt p with heq | hnow
    · rw [heq]
      exact h.freedAt p
    · exact .inr hnow
  freed g a kind hsome hnone := by
    rcases h.slot g with hnone₂ | heq
    · rcases h'.freedAt (a.port kind) with hsame | hnow
      · rw [hsame]
        exact h.freed g a kind hsome hnone₂
      · exact hnow
    · exact h'.freed g a kind (heq.trans hsome) hnone

theorem removeGatewaySession_none {m : GatewayManager} {gatewayId : Nat}
    (h : m.slot gatewayId = none) (now : Nat) :
    m.removeGatewaySession now gatewayId = (m, .error (.gatewayMessageError
      s!"No active session for gateway-{gatewayId}")) := by
  change m.gatewaySessions.slot gatewayId = _ at h
  have hsnd := m.gatewaySessions.remove_snd gatewayId
  unfold removeGatewaySession
  rw [h] at hsnd ⊢
  generalize m.gatewaySessions.remove gatewayId = removed at hsnd ⊢
  obtain ⟨sessions, duologue⟩ := removed
  cases hsnd
  rfl

theorem removeGatewaySession_some {m : GatewayManager} {gatewayId : Nat} {a : GatewaySlot}
    (h : m.slot gatewayId = some a) (now : Nat) :
    m.removeGatewaySession now gatewayId =
      ({ m with
          gatewaySessions := (m.gatewaySessions.remove gatewayId).1
          publications := m.publications.remove gatewayId
          portAllocator := m.portAllocator.markFreed now [a.portData, a.portControl] },
        .ok ()) := by
  change m.gatewaySessions.slot gatewayId = _ at h
  have hsnd := m.gatewaySessions.remove_snd gatewayId
  unfold removeGatewaySession
  rw [h] at hsnd ⊢
  generalize m.gatewaySessions.remove gatewayId = removed at hsnd ⊢
  obtain ⟨sessions, duologue⟩ := removed
  cases hsnd
  rfl

/-- A removal empties its slot and no other. -/
theorem removeGatewaySession_slot (m : GatewayManager) (now gatewayId g : Nat) :
    (m.removeGatewaySession now gatewayId).1.slot g =
      if g = gatewayId then none else m.slot g := by
  cases h : m.slot gatewayId with
  | none =>
    rw [removeGatewaySession_none h]
    by_cases hg : g = gatewayId
    · rw [if_pos hg, hg]
      exact h
    · rw [if_neg hg]
  | some a =>
    rw [removeGatewaySession_some h]
    exact m.gatewaySessions.slot_remove gatewayId g

theorem removeGatewaySession_reduction (m : GatewayManager) (now gatewayId : Nat) :
    Reduction now m (m.removeGatewaySession now gatewayId).1 := by
  have hslot := m.removeGatewaySession_slot now gatewayId
  cases h : m.slot gatewayId with
  | none =>
    rw [removeGatewaySession_none h]
    exact .refl now m
  | some a =>
    rw [removeGatewaySession_some h] at hslot ⊢
    refine ⟨rfl, rfl, rfl, rfl, rfl, ?_, ?_, ?_, ?_, ?_⟩
    · intro g
      rw [hslot g]
      by_cases hg : g = gatewayId
      · exact .inl (if_pos hg)
      · exact .inr (if_neg hg)
    · intro g _ heq
      show (m.publications.remove gatewayId).get g = _
      rw [m.publications.get_remove, if_neg]
      rintro rfl
      rw [hslot g, if_pos rfl, h] at heq
      cases heq
    · intro g _ hsome hnone
      show (m.publications.remove gatewayId).get g = _
      rw [m.publications.get_remove, if_pos]
      by_contra hg
      rw [hslot g, if_neg hg] at hnone
      exact hsome hnone
    · intro p
      show (m.portAllocator.markFreed now _).freedAt p = _ ∨
        (m.portAllocator.markFreed now _).freedAt p = _
      rw [PortAllocator.freedAt_markFreed]
      by_cases hp : p ∈ [a.portData, a.portControl]
      · exact .inr (if_pos hp)
      · exact .inl (if_neg hp)
    · intro g b kind hsome hnone
      have hg : g = gatewayId := by
        by_contra hg
        rw [hslot g, if_neg hg, hsome] at hnone
        cases hnone
      rw [hg, h] at hsome
      cases hsome
      show (m.portAllocator.markFreed now _).freedAt _ = _
      rw [PortAllocator.freedAt_markFreed, if_pos]
      cases kind with
      | data => exact List.mem_cons_self
      | control => exact List.mem_cons_of_mem _ List.mem_cons_self

theorem removeAll_reduction (now : Nat) (gatewayIds : List Nat) (m : GatewayManager) :
    Reduction now m (removeAll now gatewayIds m).1 := by
  induction gatewayIds generalizing m with
  | nil => exact .refl now m
  | cons gatewayId rest ih =>
    have hfirst := m.removeGatewaySession_reduction now gatewayId
    unfold removeAll
    generalize m.removeGatewaySession now gatewayId = removed at hfirst ⊢
    obtain ⟨m', result⟩ := removed
    cases result with
    | error e => exact hfirst
    | ok u => exact hfirst.trans (ih m')

theorem answerHandshake_fst (m : GatewayManager) (now : Nat) (a : Acceptance) (connected : Bool)
    (offers : Nat → Except AeronError Unit) :
    (m.answerHandshake now a connected offers).1 = m ∨
      (m.answerHandshake now a connected offers).1 =
        (m.removeGatewaySession now a.gatewayId).1 := by
  unfold answerHandshake
  generalize m.removeGatewaySession now a.gatewayId = removed
  obtain ⟨m', result⟩ := removed
  cases connected with
  | false => cases result <;> exact .inr rfl
  | true =>
    cases sendMessageWithRetries offers messageRetryCount 0 with
    | ok u => exact .inl rfl
    | error e => cases result <;> exact .inr rfl

theorem answerHandshake_reduction (m : GatewayManager) (now : Nat) (a : Acceptance)
    (connected : Bool) (offers : Nat → Except AeronError Unit) :
    Reduction now m (m.answerHandshake now a connected offers).1 := by
  rcases m.answerHandshake_fst now a connected offers with h | h
  · rw [h]
    exact .refl now m
  · rw [h]
    exact m.removeGatewaySession_reduction now a.gatewayId

/-- The ends of a handshake: nothing happened, only the allocators were touched, or a session was
set up with resources that were free. -/
inductive HandshakeOutcome (m : GatewayManager) (now : Nat) :
    GatewayManager × Except ServerError Acceptance → Prop
  | refused (e : ServerError) : HandshakeOutcome m now (m, .error e)
  | failed (aeron : Aeron) (e : ServerError)
      (registered : m.aeron.nextRegistration ≤ aeron.nextRegistration) :
      HandshakeOutcome m now ({ m with
        portAllocator := m.portAllocator.cleanupExpiredPorts now, aeron }, .error e)
  | established (a : Acceptance) (aeron : Aeron) (publication : Publication)
      (subscription : Subscription) (inRange : a.gatewayId < maxGateways)
      (free : m.slot a.gatewayId = none)
      (ports : (m.portAllocator.cleanupExpiredPorts now).Grant m.gatewaySessions.getPortsInUse
        [a.portData, a.portControl])
      (session : m.sessionAllocator.Grant m.gatewaySessions.getSessionsInUse a.dedicatedSession)
      (registered : m.aeron.nextRegistration ≤ subscription.registration ∧
        subscription.registration < aeron.nextRegistration) :
      HandshakeOutcome m now ({ m with
        portAllocator := m.portAllocator.cleanupExpiredPorts now
        aeron
        publications := m.publications.set a.gatewayId publication
        gatewaySessions := m.gatewaySessions.insert a.gatewayId a.dedicatedSession
          ⟨a.gatewayId, subscription⟩ a.portData a.portControl }, .ok a)

theorem drawResources_fst (m : GatewayManager) (now : Nat) (outcomes : Outcomes) :
    (m.drawResources now outcomes).1 = m.portAllocator.cleanupExpiredPorts now := by
  have h := m.portAllocator.allocate_fst now outcomes.portDraws (by decide : 2 ≠ 0)
    m.gatewaySessions.getPortsInUse
  unfold drawResources
  dsimp only
  generalize m.portAllocator.allocate now outcomes.portDraws 2 m.gatewaySessions.getPortsInUse =
    drawn at h ⊢
  obtain ⟨portAllocator, ports⟩ := drawn
  cases ports with
  | error e => exact h
  | ok ports =>
    cases m.sessionAllocator.allocate outcomes.sessionDraws m.gatewaySessions.getSessionsInUse with
    | error e => exact h
    | ok session => exact h

theorem drawResources_eq_ok {m : GatewayManager} {now : Nat} {outcomes : Outcomes}
    {portAllocator : PortAllocator} {session : Int} {portData portControl : Nat}
    (h : m.drawResources now outcomes = (portAllocator, .ok (session, portData, portControl))) :
    (m.portAllocator.cleanupExpiredPorts now).Grant m.gatewaySessions.getPortsInUse
        [portData, portControl] ∧
      m.sessionAllocator.Grant m.gatewaySessions.getSessionsInUse session := by
  unfold drawResources at h
  dsimp only at h
  split at h
  · cases h
  · next pa ports hports =>
    obtain ⟨rfl, hgrant, hlen⟩ := PortAllocator.allocate_eq_ok (by decide : 2 ≠ 0) hports
    obtain ⟨p, q, rfl⟩ := List.length_eq_two.mp hlen
    split at h
    · cases h
    · next s hsession =>
      cases h
      exact ⟨hgrant, SessionAllocator.allocate_eq_ok hsession⟩

theorem authenticated (m : GatewayManager) (gatewayId : Nat) (credentials : String) :
    (if m.config.enableAuthentication then authenticateGateway gatewayId credentials
      else .ok ()) = .ok () := by
  split <;> rfl

/-- A greeting that passes the checks is understood and its gateway is not connected. -/
theorem checkHandshakeMessage_ok_iff {m : GatewayManager} {outcomes : Outcomes} {sessionId : Int}
    {buffer : List UInt8} {hello : Hello} :
    m.checkHandshakeMessage outcomes sessionId buffer = .ok hello ↔
      ∃ message, fromUtf8 buffer = some message ∧ parseHello sessionId message = .ok hello ∧
        m.slot hello.gatewayId = none := by
  have hnew {hello : Hello} (hlt : hello.gatewayId < maxGateways) :
      m.checkDuplicateConnection sessionId hello.gatewayId = .ok () ↔
        m.slot hello.gatewayId = none := by
    unfold checkDuplicateConnection isGatewayConnected Session.isGatewayConnected
    rw [if_neg (Nat.not_le_of_lt hlt)]
    cases hslot : m.gatewaySessions.slot hello.gatewayId <;> simp [slot, hslot]
  unfold checkHandshakeMessage
  cases fromUtf8 buffer with
  | none => simp
  | some message =>
    simp only [Option.some.injEq, exists_eq_left']
    cases hhello : parseHello sessionId message with
    | error refusal => simp
    | ok greeting =>
      have hlt := parseHello_lt hhello
      simp only [authenticated, Except.ok.injEq]
      cases hduplicate : m.checkDuplicateConnection sessionId greeting.gatewayId with
      | error refusal =>
        refine iff_of_false nofun ?_
        rintro ⟨rfl, hslot⟩
        rw [(hnew hlt).mpr hslot] at hduplicate
        cases hduplicate
      | ok _ =>
        have hslot := (hnew hlt).mp hduplicate
        constructor
        · intro h
          cases h
          exact ⟨rfl, hslot⟩
        · rintro ⟨rfl, -⟩
          rfl

theorem processHandshakeMessage_outcome (m : GatewayManager) (now : Nat) (outcomes : Outcomes)
    (sessionId : Int) (buffer : List UInt8) :
    HandshakeOutcome m now (m.processHandshakeMessage now outcomes sessionId buffer) := by
  unfold processHandshakeMessage
  cases hchecked : m.checkHandshakeMessage outcomes sessionId buffer with
  | error refusal => exact .refused _
  | ok hello =>
    obtain ⟨message, -, hhello, hfree⟩ := checkHandshakeMessage_ok_iff.mp hchecked
    have hlt := parseHello_lt hhello
    obtain ⟨gatewayId, encryptionKey⟩ := hello
    dsimp only
    have hpa := m.drawResources_fst now outcomes
    unfold allocateGatewaySession
    cases hdraw : m.drawResources now outcomes with
    | mk portAllocator drawn =>
      rw [hdraw] at hpa
      subst hpa
      cases drawn with
      | error e => exact .failed m.aeron e le_rfl
      | ok drawn =>
        obtain ⟨session, portData, portControl⟩ := drawn
        obtain ⟨hports, hsession⟩ := drawResources_eq_ok hdraw
        cases outcomes.publicationAdded with
        | error e => exact .failed ⟨m.aeron.nextRegistration + 1⟩ _ (Nat.le_succ _)
        | ok _ =>
          cases outcomes.subscriptionAdded with
          | error e =>
            exact .failed ⟨m.aeron.nextRegistration + 1 + 1⟩ _
              ((Nat.le_succ _).trans (Nat.le_succ _))
          | ok _ =>
            exact .established ⟨sessionId, gatewayId, session, portData, portControl, _⟩
              ⟨m.aeron.nextRegistration + 1 + 1⟩ _ _ hlt hfree hports hsession
              ⟨Nat.le_succ _, Nat.lt_succ_self _⟩

end GatewayManager

/-- A message of the cleanup channel. The channel carries the gateway only; whose callback sent it
is known here and not to the manager. -/
structure Notice where
  gatewayId : Nat
  sender : Duologue
deriving DecidableEq, Repr

/-- What the main loop is in the middle of. -/
inductive Activity
  | idle
  | draining
  | announcing (a : Acceptance)
deriving DecidableEq, Repr

/-- What follows the allocation. -/
def Activity.next : Except ServerError Acceptance → Activity
  | .ok a => .announcing a
  | .error _ => .idle

structure System where
  manager : GatewayManager
  clock : Nat
  cleanup : List Notice
  /-- Subscriptions that were asked to close and still deliver callbacks. -/
  closing : List Duologue
  /-- The ports freed so far and when. -/
  freed : List (Nat × Nat)
  activity : Activity

namespace System

def start (manager : GatewayManager) (clock : Nat) : System :=
  { manager, clock, cleanup := [], closing := [], freed := [], activity := .idle }

abbrev slot (s : System) (gatewayId : Nat) : Option GatewaySlot := s.manager.slot gatewayId

/-- The sessions of `s` that `m` no longer has. -/
def gone (s : System) (m : GatewayManager) : List GatewaySlot :=
  (List.range maxGateways).filterMap fun g => if m.slot g = none then s.slot g else none

/-- The manager becomes `m`: the sessions it gave up begin to close and their ports are free. -/
def become (s : System) (m : GatewayManager) : System :=
  { s with
    manager := m
    closing := s.closing ++ (s.gone m).map GatewaySlot.duologue
    freed := s.freed ++
      (s.gone m).flatMap fun a => [(a.portData, s.clock), (a.portControl, s.clock)] }

/-- Who may still send: the subscriptions that are open or closing. -/
def listening (s : System) : List Duologue :=
  s.manager.gatewaySessions.occupied.map GatewaySlot.duologue ++ s.closing

inductive Event
  | elapse (time : Nat)
  | handshake (outcomes : Outcomes) (sessionId : Int) (buffer : List UInt8)
  /-- The handshake's thread has waited for the publication and answers the gateway. -/
  | answer (connected : Bool) (offers : Nat → Except AeronError Unit)
  | poll
  /-- One round of the loop in `process_cleanup_requests`. -/
  | receive
  | shutdown
  /-- `handle_aeron_on_unavailable_image`. -/
  | imageUnavailable (d : Duologue)
  | closed (d : Duologue)

/-- One step of the main loop, of a callback or of the clock. What cannot happen now changes
nothing. -/
def perform (s : System) : Event → System
  | .elapse time => { s with clock := s.clock + time }
  | .handshake outcomes sessionId buffer =>
      if s.activity = .idle then
        let (m, result) := s.manager.processHandshakeMessage s.clock outcomes sessionId buffer
        { s.become m with activity := .next result }
      else s
  | .answer connected offers =>
      match s.activity with
      | .announcing a =>
          { s.become (s.manager.answerHandshake s.clock a connected offers).1 with
            activity := .idle }
      | _ => s
  | .poll => if s.activity = .idle then { s with activity := .draining } else s
  | .receive =>
      if s.activity = .draining then
        match s.cleanup with
        | [] => { s with activity := .idle }
        | notice :: rest =>
            { s.become (s.manager.removeGatewaySession s.clock notice.gatewayId).1 with
              cleanup := rest }
      else s
  | .shutdown =>
      if s.activity = .idle then s.become (s.manager.shutdownAllGateways s.clock).1 else s
  | .imageUnavailable d =>
      if d ∈ s.listening then { s with cleanup := s.cleanup ++ [⟨d.gatewayId, d⟩] } else s
  | .closed d => { s with closing := s.closing.erase d }

/-- The state after a sequence of events. -/
def after (s : System) (events : List Event) : System := events.foldl perform s

theorem after_concat (s : System) (events : List Event) (event : Event) :
    s.after (events ++ [event]) = (s.after events).perform event := by
  rw [after, List.foldl_append]
  rfl

theorem mem_gone {s : System} {m : GatewayManager} {a : GatewaySlot} :
    a ∈ s.gone m ↔ ∃ g, s.slot g = some a ∧ m.slot g = none := by
  unfold gone
  rw [List.mem_filterMap]
  constructor
  · rintro ⟨g, -, hg⟩
    split at hg
    · next hnone => exact ⟨g, hg, hnone⟩
    · cases hg
  · rintro ⟨g, hsome, hnone⟩
    exact ⟨g, List.mem_range.mpr (Session.lt_of_slot_eq_some hsome), by rw [if_pos hnone, hsome]⟩

theorem mem_become_closing {s : System} {m : GatewayManager} {d : Duologue} :
    d ∈ (s.become m).closing ↔
      d ∈ s.closing ∨ ∃ g a, s.slot g = some a ∧ m.slot g = none ∧ a.duologue = d := by
  simp only [become, List.mem_append, List.mem_map, mem_gone]
  constructor
  · rintro (h | ⟨a, ⟨g, hsome, hnone⟩, hd⟩)
    · exact .inl h
    · exact .inr ⟨g, a, hsome, hnone, hd⟩
  · rintro (h | ⟨g, a, hsome, hnone, hd⟩)
    · exact .inl h
    · exact .inr ⟨a, ⟨g, hsome, hnone⟩, hd⟩

theorem mem_become_freed {s : System} {m : GatewayManager} {p t : Nat} :
    (p, t) ∈ (s.become m).freed ↔
      (p, t) ∈ s.freed ∨
        t = s.clock ∧ ∃ g a kind, s.slot g = some a ∧ m.slot g = none ∧ a.port kind = p := by
  simp only [become, List.mem_append, List.mem_flatMap, mem_gone]
  refine or_congr_right ⟨?_, ?_⟩
  · rintro ⟨a, ⟨g, hsome, hnone⟩, hp⟩
    rcases List.mem_cons.mp hp with hp | hp
    · cases hp
      exact ⟨rfl, g, a, .data, hsome, hnone, rfl⟩
    · cases List.mem_singleton.mp hp
      exact ⟨rfl, g, a, .control, hsome, hnone, rfl⟩
  · rintro ⟨rfl, g, a, kind, hsome, hnone, rfl⟩
    refine ⟨a, ⟨g, hsome, hnone⟩, ?_⟩
    cases kind with
    | data => exact List.mem_cons_self
    | control => exact List.mem_cons_of_mem _ List.mem_cons_self

theorem mem_listening {s : System} {d : Duologue} :
    d ∈ s.listening ↔ (∃ g a, s.slot g = some a ∧ a.duologue = d) ∨ d ∈ s.closing := by
  simp only [listening, List.mem_append, List.mem_map, Session.mem_occupied]
  refine or_congr_left ⟨?_, ?_⟩
  · rintro ⟨a, ⟨g, hg⟩, hd⟩
    exact ⟨g, a, hg, hd⟩
  · rintro ⟨g, a, hg, hd⟩
    exact ⟨a, ⟨g, hg⟩, hd⟩

inductive Effect (s : System) : Event → System → Prop
  | stay {event : Event} : Effect s event s
  | elapse {event : Event} (time : Nat) : Effect s event { s with clock := s.clock + time }
  | turn {event : Event} (activity : Activity) : Effect s event { s with activity }
  | handshake {outcomes : Outcomes} {sessionId : Int} {buffer : List UInt8}
      {result : GatewayManager × Except ServerError Acceptance} (idle : s.activity = .idle)
      (processed : s.manager.processHandshakeMessage s.clock outcomes sessionId buffer = result)
      (outcome : s.manager.HandshakeOutcome s.clock result) :
      Effect s (.handshake outcomes sessionId buffer)
        { s.become result.1 with activity := .next result.2 }
  | reduce {event : Event} {m : GatewayManager} (cleanup : List Notice) (activity : Activity)
      (reduction : GatewayManager.Reduction s.clock s.manager m) (rest : cleanup ⊆ s.cleanup) :
      Effect s event { s.become m with cleanup, activity }
  | notify {event : Event} {d : Duologue} (listening : d ∈ s.listening) :
      Effect s event { s with cleanup := s.cleanup ++ [⟨d.gatewayId, d⟩] }
  | closed {event : Event} (d : Duologue) :
      Effect s event { s with closing := s.closing.erase d }

theorem perform_effect (s : System) (event : Event) : s.Effect event (s.perform event) := by
  cases event with
  | elapse time => exact .elapse time
  | handshake outcomes sessionId buffer =>
    simp only [perform]
    split
    · next hidle =>
      exact .handshake hidle rfl
        (s.manager.processHandshakeMessage_outcome s.clock outcomes sessionId buffer)
    · exact .stay
  | answer connected offers =>
    simp only [perform]
    split
    · next a _ =>
      exact .reduce s.cleanup .idle
        (s.manager.answerHandshake_reduction s.clock a connected offers) (List.Subset.refl _)
    · exact .stay
  | poll =>
    simp only [perform]
    split
    · exact .turn .draining
    · exact .stay
  | receive =>
    simp only [perform]
    split
    · split
      · exact .turn .idle
      · next notice rest hcleanup =>
        refine .reduce rest s.activity
          (s.manager.removeGatewaySession_reduction s.clock notice.gatewayId) ?_
        rw [hcleanup]
        exact List.subset_cons_self _ _
    · exact .stay
  | shutdown =>
    simp only [perform]
    split
    · exact .reduce s.cleanup s.activity
        (GatewayManager.removeAll_reduction s.clock _ s.manager) (List.Subset.refl _)
    · exact .stay
  | imageUnavailable d =>
    simp only [perform]
    split
    · next hlistening => exact .notify hlistening
    · exact .stay
  | closed d => exact .closed d

theorem Reduction.slot_eq_some {now : Nat} {m m' : GatewayManager}
    (h : GatewayManager.Reduction now m m') {g : Nat} {a : GatewaySlot} (ha : m'.slot g = some a) :
    m.slot g = some a := by
  rcases h.slot g with hnone | heq
  · rw [hnone] at ha
    cases ha
  · rw [← heq, ha]

end System

end VexCore.Networking
