import VexCore.Networking.Resources
import VexCore.Networking.Responses

/-!
# The handshake between the gateways and the core

Gateways greet the core on one stream, each with a publication of its own, and all of them hear
every answer. A greeting is under way for any time; an answer is heard at any time, more than once
or never. Meanwhile the main loop, the callbacks and the clock of the core go on.
-/

namespace VexCore.Networking

open GatewayManager

def IsI32 (i : Int) : Prop := -2 ^ 31 ≤ i ∧ i < 2 ^ 31

instance (i : Int) : Decidable (IsI32 i) := inferInstanceAs (Decidable (_ ∧ _))

/-- The text a greeting is turned down with, where it is. -/
def GatewayManager.refusalText (m : GatewayManager) (outcomes : Outcomes) (sessionId : Int)
    (buffer : List UInt8) : Option String :=
  match m.checkHandshakeMessage outcomes sessionId buffer with
  | .error refusal => refusal.reply
  | .ok _ => none

section Greeting

variable {m : GatewayManager} {outcomes : Outcomes} {sessionId : Int} {buffer : List UInt8}

theorem refuses_of_refusalText {text : String}
    (h : m.refusalText outcomes sessionId buffer = some text) : Refuses sessionId text := by
  unfold GatewayManager.refusalText checkHandshakeMessage at h
  cases hmessage : fromUtf8 buffer with
  | none => simp [hmessage, Refusal.silent] at h
  | some message =>
    simp only [hmessage] at h
    cases hhello : parseHello sessionId message with
    | error refusal =>
      simp only [hhello] at h
      exact .greeting hhello h
    | ok hello =>
      have hlt := parseHello_lt hhello
      simp only [hhello, authenticated] at h
      cases hduplicate : m.checkDuplicateConnection sessionId hello.gatewayId with
      | error refusal =>
        simp only [hduplicate] at h
        exact .connection (hlt.trans (by decide)) hduplicate h
      | ok _ => simp [hduplicate] at h

/-- An acceptance answers the greeting it was made for, which is not turned down as well. -/
theorem processHandshakeMessage_ok {now : Nat} {a : Acceptance}
    (h : (m.processHandshakeMessage now outcomes sessionId buffer).2 = .ok a) :
    m.refusalText outcomes sessionId buffer = none ∧ ∃ message hello,
      fromUtf8 buffer = some message ∧ parseHello sessionId message = .ok hello ∧
      a.clientSession = sessionId ∧ a.gatewayId = hello.gatewayId ∧
      a.encryptedSession = xorI32 hello.encryptionKey a.dedicatedSession := by
  unfold GatewayManager.processHandshakeMessage at h
  unfold GatewayManager.refusalText
  cases hchecked : m.checkHandshakeMessage outcomes sessionId buffer with
  | error refusal => simp [hchecked] at h
  | ok hello =>
    obtain ⟨message, hmessage, hhello, -⟩ := checkHandshakeMessage_ok_iff.mp hchecked
    simp only [hchecked] at h
    refine ⟨rfl, message, hello, hmessage, hhello, ?_⟩
    cases hallocated : m.allocateGatewaySession now outcomes hello.gatewayId with
    | mk after drawn =>
      rw [hallocated] at h
      cases drawn with
      | error e => cases h
      | ok drawn =>
        cases h
        exact ⟨rfl, rfl, rfl⟩

/-- What the core reads in a gateway's greeting is what the gateway wrote. -/
theorem parseHello_eq {gatewayId : Nat} {encryptionKey : Int} (hgateway : gatewayId < 2 ^ 8)
    (hkey : IsI32 encryptionKey) {hello : Hello}
    (h : parseHello sessionId (helloMessage gatewayId encryptionKey).toList = .ok hello) :
    hello = ⟨gatewayId, encryptionKey⟩ := by
  by_cases hlt : gatewayId < maxGateways
  · rw [parseHello_helloMessage hlt hkey.1 hkey.2] at h
    exact (Except.ok.inj h).symm
  · obtain ⟨hpattern, hparse⟩ := gatewayWord_parse hgateway
    have hrefused : ∃ refusal, parseGatewayId sessionId (gatewayWord gatewayId) = .error refusal := by
      unfold parseGatewayId
      dsimp only
      rw [if_neg (not_not.mpr hpattern), hparse]
      exact ⟨_, if_neg hlt⟩
    obtain ⟨refusal, hrefusal⟩ := hrefused
    unfold parseHello at h
    rw [splitWhitespace_helloMessage] at h
    dsimp only at h
    rw [if_neg (not_not.mpr rfl), hrefusal] at h
    cases h

end Greeting

namespace System

/-- The slot of its gateway holds what was accepted. -/
def Holds (s : System) (a : Acceptance) : Prop :=
  ∃ d, s.slot a.gatewayId = some ⟨d, a.portData, a.portControl, a.dedicatedSession⟩

/-- The ports of the acceptance are among those freed after the first `before`. -/
def GaveUp (s : System) (before : Nat) (a : Acceptance) : Prop :=
  ∃ t, (a.portData, t) ∈ s.freed.drop before ∧ (a.portControl, t) ∈ s.freed.drop before

variable {s : System} {a : Acceptance} {before : Nat}

theorem drop_become_freed (h : before ≤ s.freed.length) (m : GatewayManager) :
    (s.become m).freed.drop before = s.freed.drop before ++
      (s.gone m).flatMap fun a => [(a.portData, s.clock), (a.portControl, s.clock)] :=
  List.drop_append_of_le_length h

theorem GaveUp.become (h : s.GaveUp before a) (hbefore : before ≤ s.freed.length)
    (m : GatewayManager) : (s.become m).GaveUp before a := by
  obtain ⟨t, hdata, hcontrol⟩ := h
  rw [GaveUp, drop_become_freed hbefore]
  exact ⟨t, List.mem_append_left _ hdata, List.mem_append_left _ hcontrol⟩

/-- A slot keeps its session, or its ports are freed. -/
theorem Holds.become (h : s.Holds a) (hbefore : before ≤ s.freed.length) {m : GatewayManager}
    (hm : m.slot a.gatewayId = none ∨ m.slot a.gatewayId = s.slot a.gatewayId) :
    (s.become m).Holds a ∨ (s.become m).GaveUp before a := by
  obtain ⟨d, hd⟩ := h
  rcases hm with hnone | hsame
  · right
    rw [GaveUp, drop_become_freed hbefore]
    have hgone := mem_gone.mpr ⟨a.gatewayId, hd, hnone⟩
    exact ⟨s.clock,
      List.mem_append_right _ (List.mem_flatMap.mpr ⟨_, hgone, List.mem_cons_self⟩),
      List.mem_append_right _ (List.mem_flatMap.mpr
        ⟨_, hgone, List.mem_cons_of_mem _ (List.mem_singleton_self _)⟩)⟩
  · exact .inl ⟨d, hsame.trans hd⟩

theorem freed_length_perform (s : System) (event : Event) :
    s.freed.length ≤ (s.perform event).freed.length := by
  have hbecome (m : GatewayManager) : s.freed.length ≤ (s.become m).freed.length := by
    simp only [System.become, List.length_append]
    exact Nat.le_add_right _ _
  have heffect := s.perform_effect event
  generalize s.perform event = s' at heffect ⊢
  cases heffect with
  | stay => exact le_rfl
  | elapse time => exact le_rfl
  | turn activity => exact le_rfl
  | notify _ => exact le_rfl
  | closed d => exact le_rfl
  | reduce cleanup activity _ _ => exact hbecome _
  | handshake _ _ _ => exact hbecome _

/-- Nothing happens to a session but that it is given up. -/
theorem holds_perform (h : s.Holds a ∨ s.GaveUp before a) (hbefore : before ≤ s.freed.length)
    (event : Event) : (s.perform event).Holds a ∨ (s.perform event).GaveUp before a := by
  have heffect := s.perform_effect event
  generalize s.perform event = s' at heffect ⊢
  cases heffect with
  | stay => exact h
  | elapse time => exact h
  | turn activity => exact h
  | notify _ => exact h
  | closed d => exact h
  | reduce cleanup activity hreduction _ =>
    rcases h with hholds | hgaveUp
    · exact hholds.become hbefore (hreduction.slot _)
    · exact .inr (hgaveUp.become hbefore _)
  | handshake _ _ houtcome =>
    rcases h with hholds | hgaveUp
    · apply hholds.become hbefore
      cases houtcome with
      | refused e => exact .inr rfl
      | failed aeron e _ => exact .inr rfl
      | established b aeron publication subscription hlt hfree _ _ _ =>
        right
        obtain ⟨d, hd⟩ := hholds
        have hne : a.gatewayId ≠ b.gatewayId := by
          intro heq
          rw [heq, System.slot, hfree] at hd
          cases hd
        exact (s.manager.gatewaySessions.slot_insert hlt _ _ _ _ a.gatewayId).trans (if_neg hne)
    · exact .inr (hgaveUp.become hbefore _)

/-- A new session is held by the core that has set it up. -/
theorem holds_handshake {outcomes : Outcomes} {sessionId : Int} {buffer : List UInt8}
    (hidle : s.activity = .idle)
    (h : (s.manager.processHandshakeMessage s.clock outcomes sessionId buffer).2 = .ok a) :
    (s.perform (.handshake outcomes sessionId buffer)).Holds a := by
  have houtcome := s.manager.processHandshakeMessage_outcome s.clock outcomes sessionId buffer
  have hperform : ∀ g, (s.perform (.handshake outcomes sessionId buffer)).slot g =
      (s.manager.processHandshakeMessage s.clock outcomes sessionId buffer).1.slot g := by
    intro g
    rw [System.perform, if_pos hidle]
    rfl
  generalize s.manager.processHandshakeMessage s.clock outcomes sessionId buffer = result
    at h houtcome hperform
  cases houtcome with
  | refused e => cases h
  | failed aeron e _ => cases h
  | established b aeron publication subscription hlt _ _ _ _ =>
    cases h
    refine ⟨⟨a.gatewayId, subscription⟩, (hperform _).trans ?_⟩
    exact (s.manager.gatewaySessions.slot_insert hlt _ _ _ _ a.gatewayId).trans (if_pos rfl)

end System

/-- How the wait for an answer ends. -/
inductive Ending
  | answered (response : CoreResponse)
  | timedOut
deriving DecidableEq, Repr

/-- A gateway in its handshake, from the greeting on. -/
structure Gateway where
  gatewayId : Nat
  encryptionKey : Int
  /-- The greeting has not reached the core yet. -/
  underWay : Bool := true
  response : Option CoreResponse := none
  ending : Option Ending := none
deriving DecidableEq, Repr

namespace Gateway

def greeting (g : Gateway) : List UInt8 :=
  (helloMessage g.gatewayId g.encryptionKey).toUTF8.data.toList

/-- The response handler keeps the last answer that is not to be ignored. -/
def hear (g : Gateway) (session : Int) (text : String) : Gateway :=
  let parsed := parseCoreResponse text.toList session g.gatewayId
  if parsed ≠ .ignore then { g with response := some parsed } else g

/-- `wait_for_core_response` takes the answer, if there is one. -/
def conclude (g : Gateway) : Gateway :=
  match g.response with
  | some response => { g with response := none, ending := some (.answered response) }
  | none => g

/-- What `perform_handshake` returns: the two ports and the session. -/
def result (g : Gateway) : Option (Except String (Nat × Nat × Int)) :=
  g.ending.map fun
    | .answered response => establish g.encryptionKey response
    | .timedOut => .error "Waiting for core handshake response"

end Gateway

/-- What was sent and accepted is kept. -/
structure World where
  core : System
  /-- The gateways, by the session of the publication they greet with. -/
  gateways : Int → Option Gateway
  /-- The answers that were broadcast. -/
  answers : List String
  acceptances : List Acceptance
  /-- How many ports had been freed when a session was set up, the last time it was. -/
  freedBefore : Acceptance → Nat

/-- What can happen. Handshakes of the core come with a message. -/
inductive Act
  | greet (session : Int) (gatewayId : Nat) (encryptionKey : Int)
  | deliver (outcomes : Outcomes) (session : Int)
  /-- Anybody else writes anything to the stream of greetings. -/
  | stray (outcomes : Outcomes) (session : Int) (buffer : List UInt8)
  | answer (connected : Bool) (offers : Nat → Except AeronError Unit)
  | core (event : System.Event)
  | hear (session : Int) (text : String)
  | conclude (session : Int)
  | timeOut (session : Int)

namespace World

def start (manager : GatewayManager) (clock : Nat) : World :=
  { core := .start manager clock, gateways := fun _ => none, answers := [], acceptances := []
    freedBefore := fun _ => 0 }

def setGateway (w : World) (session : Int) (g : Gateway) : World :=
  { w with gateways := Function.update w.gateways session (some g) }

/-- The idle core takes a message off the stream of greetings. -/
def receive (w : World) (outcomes : Outcomes) (session : Int) (buffer : List UInt8) : World :=
  { w with
    core := w.core.perform (.handshake outcomes session buffer)
    answers := w.answers ++
      match w.core.manager.refusalText outcomes session buffer, outcomes.replySent with
      | some text, .ok _ => [text]
      | _, _ => []
    acceptances := w.acceptances ++
      match (w.core.manager.processHandshakeMessage w.core.clock outcomes session buffer).2 with
      | .ok a => [a]
      | .error _ => []
    freedBefore :=
      match (w.core.manager.processHandshakeMessage w.core.clock outcomes session buffer).2 with
      | .ok a => Function.update w.freedBefore a w.core.freed.length
      | .error _ => w.freedBefore }

/-- The text that announces a session, if it can be sent. -/
def announcement (w : World) (connected : Bool) (offers : Nat → Except AeronError Unit) :
    List String :=
  match w.core.activity, connected, sendMessageWithRetries offers messageRetryCount 0 with
  | .announcing a, true, .ok _ => [Acceptance.message a]
  | _, _, _ => []

/-- A gateway that still waits goes on. -/
def waiting (w : World) (session : Int) (next : Gateway → Gateway) : World :=
  match w.gateways session with
  | some g => if g.ending = none then w.setGateway session (next g) else w
  | none => w

variable (stranger : Int → Bool)

/-- Aeron gives every publication a session of its own, and those of strangers are no gateway's.
What cannot happen now changes nothing. -/
def perform (w : World) : Act → World
  | .greet session gatewayId encryptionKey =>
      if w.gateways session = none ∧ stranger session = false ∧ IsI32 session ∧
        IsI32 encryptionKey ∧ gatewayId < 2 ^ 8
      then w.setGateway session { gatewayId, encryptionKey }
      else w
  | .deliver outcomes session =>
      match w.gateways session with
      | some g =>
          if g.underWay = true ∧ w.core.activity = .idle then
            (w.setGateway session { g with underWay := false }).receive outcomes session g.greeting
          else w
      | none => w
  | .stray outcomes session buffer =>
      if stranger session = true ∧ IsI32 session ∧ w.core.activity = .idle then
        w.receive outcomes session buffer
      else w
  | .answer connected offers =>
      { w with
        core := w.core.perform (.answer connected offers)
        answers := w.answers ++ w.announcement connected offers }
  | .core event =>
      match event with
      | .handshake _ _ _ => w
      | .answer _ _ => w
      | event => { w with core := w.core.perform event }
  | .hear session text =>
      if text ∈ w.answers then w.waiting session fun g => g.hear session text else w
  | .conclude session => w.waiting session Gateway.conclude
  | .timeOut session => w.waiting session fun g => { g with ending := some .timedOut }

def after (w : World) (acts : List Act) : World := acts.foldl (perform stranger) w

end World

end VexCore.Networking
