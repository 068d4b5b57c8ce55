import VexCore.Networking.Resources
import Mathlib.Data.Finset.Card
import Mathlib.Order.Interval.Finset.Nat
import Mathlib.Data.Int.Interval

/-!
# How many gateways fit

The manager reserves one port for each of the gateways it is configured for, and every session
takes two.
-/

namespace VexCore.Networking

open GatewayManager

/-- The settings of the core, with those that only their validation reads. -/
structure CoreSettings extends CoreNetworkingConfig where
  contextDir : String
  initialPort : Nat
  initialControlPort : Nat
  coreId : String
  bufferSize : Nat

/-- The texts of a `ConfigError::network`. -/
def CoreSettings.validate (c : CoreSettings) : Except String Unit :=
  if c.initialPort = 0 then .error "Initial port cannot be 0"
  else if c.initialControlPort = 0 then .error "Initial control port cannot be 0"
  else if c.initialPort = c.initialControlPort then
    .error "Initial port and control port cannot be the same"
  else if c.maxGateways = 0 then .error "Max gateways must be greater than 0"
  else if c.reservedSessionIdLow ≥ c.reservedSessionIdHigh then
    .error "Reserved session ID low must be less than high"
  else if c.coreId = "" then .error "Core ID cannot be empty"
  else if c.bufferSize = 0 then .error "Buffer size must be greater than 0"
  else if c.contextDir = "" then .error "Context directory cannot be empty"
  else .ok ()

/-- The number of connected gateways. -/
def System.connected (s : System) : Nat := s.manager.gatewaySessions.occupied.length

/-- No port cools down. -/
def System.Rested (s : System) : Prop :=
  ∀ p t, s.manager.portAllocator.freedAt p = some t → t + portCooldown ≤ s.clock

/-- The buffer is an understood greeting of a gateway that is not connected. -/
def System.Greets (s : System) (sessionId : Int) (buffer : List UInt8) : Prop :=
  ∃ text hello, fromUtf8 buffer = some text ∧ parseHello sessionId text = .ok hello ∧
    s.slot hello.gatewayId = none

/-- Two ports and an identifier that nobody holds. -/
structure System.Unheld (s : System) (a : Acceptance) : Prop where
  distinct : a.portData ≠ a.portControl
  data : a.portData ∉ s.manager.gatewaySessions.getPortsInUse
  control : a.portControl ∉ s.manager.gatewaySessions.getPortsInUse
  session : a.dedicatedSession ∉ s.manager.gatewaySessions.getSessionsInUse

/-- Some draws let the handshake end in a session with fresh resources. -/
def System.Admits (s : System) (sessionId : Int) (buffer : List UInt8) : Prop :=
  ∃ outcomes a,
    (s.manager.processHandshakeMessage s.clock outcomes sessionId buffer).2 = .ok a ∧ s.Unheld a

/-- The configured ports suffice for two to each session, and the width of the identifiers' range
is a 32-bit number. -/
def System.HasRoom (config : CoreNetworkingConfig) (s : System) : Prop :=
  2 * (s.connected + 1) ≤ config.maxGateways ∧
    (s.connected = 0 ∨ config.reservedSessionIdHigh - config.reservedSessionIdLow < 2 ^ 31)

namespace PortAllocator

variable {a : PortAllocator} {portsInUse : List Nat}

theorem genRange_sub {p : Nat} (hlow : a.low ≤ p) (hhigh : p ≤ a.high) :
    a.genRange (p - a.low) = p := by
  rw [genRange, totalPorts, Nat.mod_eq_of_lt (by omega)]
  omega

/-- Enough ports are left for two. -/
theorem exists_two (h : portsInUse.length + 2 ≤ a.totalPorts) :
    ∃ p q, p ≠ q ∧ (a.low ≤ p ∧ p ≤ a.high) ∧ (a.low ≤ q ∧ q ≤ a.high) ∧
      p ∉ portsInUse ∧ q ∉ portsInUse := by
  have hvalid := a.valid
  have htotal : (Finset.Icc a.low a.high).card = a.totalPorts := by
    rw [Nat.card_Icc, totalPorts]
    omega
  have hused := portsInUse.toFinset_card_le
  have hleft := Finset.le_card_sdiff portsInUse.toFinset (Finset.Icc a.low a.high)
  obtain ⟨p, hp, q, hq, hne⟩ := Finset.one_lt_card.mp
    (by omega : 1 < (Finset.Icc a.low a.high \ portsInUse.toFinset).card)
  simp only [Finset.mem_sdiff, Finset.mem_Icc, List.mem_toFinset] at hp hq
  exact ⟨p, q, hne, hp.1, hq.1, hp.2, hq.2⟩

theorem draw_two {maxAttempts left p q : Nat} (hne : p ≠ q) (hp : a.low ≤ p ∧ p ≤ a.high)
    (hq : a.low ≤ q ∧ q ≤ a.high) (hpfree : p ∉ portsInUse) (hqfree : q ∉ portsInUse)
    (hrested : a.recentlyFreed = []) :
    a.draw (fun i => if i = 0 then p - a.low else q - a.low) 2 portsInUse maxAttempts
      (left + 2) 0 [] = .ok [p, q] := by
  simp only [draw, hrested, List.not_mem_nil, not_false_eq_true]
  simp [genRange_sub hp.1 hp.2, genRange_sub hq.1 hq.2, hpfree, hqfree, hne.symm]
  unfold draw
  rfl

theorem recentlyFreed_eq_nil {now : Nat}
    (hrested : ∀ p t, a.freedAt p = some t → t + portCooldown ≤ now) :
    (a.cleanupExpiredPorts now).recentlyFreed = [] := by
  rw [List.eq_nil_iff_forall_not_mem]
  intro p
  rw [notMem_recentlyFreed]
  cases hfreed : (a.cleanupExpiredPorts now).freedAt p with
  | none => rfl
  | some t =>
    obtain ⟨hfreed, hcooling⟩ := freedAt_cleanupExpiredPorts.mp hfreed
    have hexpired := hrested p t hfreed
    omega

theorem allocate_two {now : Nat} (h : portsInUse.length + 2 ≤ a.totalPorts)
    (hrested : ∀ p t, a.freedAt p = some t → t + portCooldown ≤ now) :
    ∃ rng p q, p ≠ q ∧ p ∉ portsInUse ∧ q ∉ portsInUse ∧
      a.allocate now rng 2 portsInUse = (a.cleanupExpiredPorts now, .ok [p, q]) := by
  obtain ⟨p, q, hne, hp, hq, hpfree, hqfree⟩ := exists_two h
  have hfreed := recentlyFreed_eq_nil hrested
  have htotal : (a.cleanupExpiredPorts now).totalPorts = a.totalPorts := rfl
  obtain ⟨left, hleft⟩ : ∃ left, max (a.totalPorts * 2) 100 = left + 2 :=
    Nat.exists_eq_add_of_le' (by omega)
  refine ⟨fun i => if i = 0 then p - a.low else q - a.low, p, q, hne, hpfree, hqfree, ?_⟩
  unfold allocate
  simp only [htotal, hfreed, List.length_nil, Nat.sub_zero, hleft]
  rw [if_neg (by decide), if_neg (by omega)]
  have hdraw : (a.cleanupExpiredPorts now).draw
      (fun i => if i = 0 then p - a.low else q - a.low) 2 portsInUse (left + 2) (left + 2) 0 [] =
        .ok [p, q] := draw_two hne hp hq hpfree hqfree hfreed
  rw [hdraw]

theorem allocate_two_refused (now : Nat) (rng : Draws)
    (h : a.totalPorts < portsInUse.length + 2) :
    ∃ e, (a.allocate now rng 2 portsInUse).2 = .error e := by
  have htotal : (a.cleanupExpiredPorts now).totalPorts = a.totalPorts := rfl
  unfold allocate
  rw [if_neg (by decide)]
  simp only [htotal]
  rw [if_pos (by omega)]
  exact ⟨_, rfl⟩

end PortAllocator

namespace SessionAllocator

variable {a : SessionAllocator} {sessionsInUse : List Int}

theorem allocate_one (h : (sessionsInUse.length : Int) < a.maxCount) :
    ∃ rng session, session ∉ sessionsInUse ∧ a.allocate rng sessionsInUse = .ok session := by
  have hcard : (Finset.Ico a.min (a.min + a.maxCount)).card = a.maxCount.toNat := by
    rw [Int.card_Ico]
    omega
  have hused := sessionsInUse.toFinset_card_le
  have hleft := Finset.le_card_sdiff sessionsInUse.toFinset (Finset.Ico a.min (a.min + a.maxCount))
  obtain ⟨session, hsession⟩ := Finset.card_pos.mp
    (by omega : 0 < (Finset.Ico a.min (a.min + a.maxCount) \ sessionsInUse.toFinset).card)
  simp only [Finset.mem_sdiff, Finset.mem_Ico, List.mem_toFinset] at hsession
  obtain ⟨⟨hmin, hmax⟩, hfree⟩ := hsession
  have hdraw : a.genRange (session - a.min).toNat = session := by
    rw [genRange, Int.toNat_of_nonneg (by omega), Int.emod_eq_of_lt (by omega) (by omega)]
    omega
  obtain ⟨left, hcount⟩ : ∃ left, a.maxCount.toNat = left + 1 :=
    Nat.exists_eq_add_of_le' (by omega)
  refine ⟨fun _ => (session - a.min).toNat, session, hfree, ?_⟩
  rw [allocate, if_neg (by omega), hcount, draw, hdraw, if_pos hfree]

theorem allocate_refused (rng : Draws) (h : a.maxCount ≤ sessionsInUse.length) :
    ∃ e, a.allocate rng sessionsInUse = .error e := ⟨_, if_pos h⟩

theorem new_maxCount {min max : Int} {a : SessionAllocator} (h : new min max = .ok a)
    (hmin : -2 ^ 31 ≤ min) (hmax : max < 2 ^ 31) :
    a.maxCount = if max - min < 2 ^ 31 then max - min else 1 := by
  unfold new at h
  split_ifs at h with hlt
  cases h
  unfold toI32 Int.bmod
  simp only
  split_ifs <;> omega

end SessionAllocator

namespace System

theorem sessionAllocator_after (s : System) (events : List Event) :
    (s.after events).manager.sessionAllocator = s.manager.sessionAllocator := by
  induction events generalizing s with
  | nil => rfl
  | cons event events ih =>
    refine (ih (s.perform event)).trans ?_
    have heffect := s.perform_effect event
    generalize s.perform event = s' at heffect ⊢
    cases heffect with
    | stay => rfl
    | elapse time => rfl
    | turn activity => rfl
    | handshake _ _ houtcome => cases houtcome <;> rfl
    | reduce cleanup activity hreduction _ => exact hreduction.sessionAllocator
    | notify _ => rfl
    | closed d => rfl

theorem length_getSessionsInUse (s : System) :
    s.manager.gatewaySessions.getSessionsInUse.length = s.connected := List.length_map _

end System

namespace GatewayManager

variable {m : GatewayManager} {now : Nat} {outcomes : Outcomes} {sessionId : Int}
variable {buffer : List UInt8} {text : List Char} {hello : Hello}

theorem processHandshakeMessage_greeting (now : Nat) (outcomes : Outcomes)
    (htext : fromUtf8 buffer = some text) (hhello : parseHello sessionId text = .ok hello)
    (hslot : m.slot hello.gatewayId = none) :
    (m.processHandshakeMessage now outcomes sessionId buffer).2 =
      (m.allocateGatewaySession now outcomes hello.gatewayId).2.map fun drawn =>
        { clientSession := sessionId, gatewayId := hello.gatewayId, dedicatedSession := drawn.1,
          portData := drawn.2.1, portControl := drawn.2.2,
          encryptedSession := xorI32 hello.encryptionKey drawn.1 } := by
  unfold processHandshakeMessage
  rw [checkHandshakeMessage_ok_iff.mpr ⟨text, htext, hhello, hslot⟩]
  dsimp only
  cases hallocated : m.allocateGatewaySession now outcomes hello.gatewayId with
  | mk after result =>
    cases result with
    | error e => rfl
    | ok drawn => rfl

theorem allocateGatewaySession_refused {e : ServerError}
    (h : (m.drawResources now outcomes).2 = .error e) (gatewayId : Nat) :
    (m.allocateGatewaySession now outcomes gatewayId).2 = .error e := by
  unfold allocateGatewaySession
  cases hdraw : m.drawResources now outcomes with
  | mk portAllocator drawn =>
    rw [hdraw] at h
    dsimp only at h
    subst h
    rfl

theorem allocateGatewaySession_drawn {portAllocator : PortAllocator} {drawn : Int × Nat × Nat}
    (h : m.drawResources now outcomes = (portAllocator, .ok drawn))
    (hpublication : outcomes.publicationAdded = .ok ())
    (hsubscription : outcomes.subscriptionAdded = .ok ()) (gatewayId : Nat) :
    (m.allocateGatewaySession now outcomes gatewayId).2 = .ok drawn := by
  unfold allocateGatewaySession
  rw [h]
  dsimp only
  rw [hpublication, hsubscription]
  rfl

theorem drawResources_no_ports
    (h : m.portAllocator.totalPorts < m.gatewaySessions.getPortsInUse.length + 2) :
    ∃ e, (m.drawResources now outcomes).2 = .error e := by
  obtain ⟨e, he⟩ := PortAllocator.allocate_two_refused now outcomes.portDraws h
  unfold drawResources
  dsimp only
  generalize m.portAllocator.allocate now outcomes.portDraws 2 m.gatewaySessions.getPortsInUse =
    drawn at he ⊢
  obtain ⟨portAllocator, ports⟩ := drawn
  dsimp only at he
  subst he
  exact ⟨_, rfl⟩

theorem drawResources_no_ids
    (h : m.sessionAllocator.maxCount ≤ m.gatewaySessions.getSessionsInUse.length) :
    ∃ e, (m.drawResources now outcomes).2 = .error e := by
  obtain ⟨e, he⟩ := SessionAllocator.allocate_refused outcomes.sessionDraws h
  unfold drawResources
  dsimp only
  rw [he]
  generalize m.portAllocator.allocate now outcomes.portDraws 2 m.gatewaySessions.getPortsInUse =
    drawn
  obtain ⟨portAllocator, ports⟩ := drawn
  cases ports with
  | error refused => exact ⟨_, rfl⟩
  | ok ports => exact ⟨_, rfl⟩

theorem new_sessionAllocator {config : CoreNetworkingConfig} {aeron : Aeron}
    (h : GatewayManager.new config aeron .new = .ok m) :
    SessionAllocator.new config.reservedSessionIdLow config.reservedSessionIdHigh =
      .ok m.sessionAllocator := by
  unfold GatewayManager.new at h
  split at h
  · cases h
  · split at h
    · cases h
    · next hsessions =>
      cases h
      exact hsessions

end GatewayManager

section Capacity

variable {config : CoreNetworkingConfig} {s : System} {sessionId : Int} {buffer : List UInt8}

/-- The allocator has as many ports as gateways are configured. -/
theorem Invariant.totalPorts (h : Invariant config s) :
    s.manager.portAllocator.totalPorts = config.maxGateways := by
  have hlow := h.basePort
  have htop := h.topPort
  have hvalid := s.manager.portAllocator.valid
  unfold PortAllocator.totalPorts
  omega

/-- Ports of sessions are not zero, so all of them count as in use. -/
theorem Invariant.length_getPortsInUse (h : Invariant config s) :
    s.manager.gatewaySessions.getPortsInUse.length = 2 * s.connected := by
  have hbase : 0 < config.baseGatewayPort := by
    rw [← h.basePort]
    exact s.manager.portAllocator.valid.1
  have hports : s.manager.gatewaySessions.getPortsInUse =
      s.manager.gatewaySessions.occupied.flatMap fun slot => [slot.portData, slot.portControl] := by
    apply List.flatMap_congr
    intro a ha
    obtain ⟨g, hg⟩ := Session.mem_occupied.mp ha
    have hdata : 0 < a.portData := hbase.trans_le (h.portRange g a .data hg).1
    have hcontrol : 0 < a.portControl := hbase.trans_le (h.portRange g a .control hg).1
    simp [hdata.ne', hcontrol.ne']
  rw [hports]
  simp [System.connected, Nat.mul_comm]

/-- Ports for two more and an identifier are what the draws need. -/
theorem System.admits_of_free (h : Invariant config s) (hrested : s.Rested)
    (hgreets : s.Greets sessionId buffer)
    (hports : 2 * (s.connected + 1) ≤ config.maxGateways)
    (hids : (s.connected : Int) < s.manager.sessionAllocator.maxCount) :
    s.Admits sessionId buffer := by
  obtain ⟨text, hello, htext, hhello, hslot⟩ := hgreets
  have hused := h.length_getPortsInUse
  have hheld := s.length_getSessionsInUse
  have htotal := h.totalPorts
  have htwo : s.manager.gatewaySessions.getPortsInUse.length + 2 ≤
      s.manager.portAllocator.totalPorts := by omega
  have hone : (s.manager.gatewaySessions.getSessionsInUse.length : Int) <
      s.manager.sessionAllocator.maxCount := by omega
  obtain ⟨portDraws, p, q, hne, hp, hq, hallocate⟩ := PortAllocator.allocate_two htwo hrested
  obtain ⟨sessionDraws, session, hfree, hsession⟩ := SessionAllocator.allocate_one hone
  let outcomes : Outcomes :=
    { utf8Error := "", replySent := .ok (), portDraws, sessionDraws,
      publicationAdded := .ok (), subscriptionAdded := .ok () }
  have hdrawn : s.manager.drawResources s.clock outcomes =
      (s.manager.portAllocator.cleanupExpiredPorts s.clock, .ok (session, p, q)) := by
    unfold drawResources
    dsimp only [outcomes]
    rw [hallocate]
    dsimp only
    rw [hsession]
    rfl
  have hresult := processHandshakeMessage_greeting s.clock outcomes htext hhello hslot
  rw [allocateGatewaySession_drawn hdrawn rfl rfl] at hresult
  exact ⟨outcomes, _, hresult, hne, hp, hq, hfree⟩

theorem System.not_admits (h : Invariant config s) (hgreets : s.Greets sessionId buffer)
    (hfull : config.maxGateways < 2 * (s.connected + 1) ∨
      s.manager.sessionAllocator.maxCount ≤ s.connected) : ¬s.Admits sessionId buffer := by
  rintro ⟨outcomes, a, hresult, -⟩
  obtain ⟨text, hello, htext, hhello, hslot⟩ := hgreets
  have hused := h.length_getPortsInUse
  have hheld := s.length_getSessionsInUse
  have htotal := h.totalPorts
  have hrefused : ∃ e, (s.manager.drawResources s.clock outcomes).2 = .error e := by
    rcases hfull with hports | hids
    · exact drawResources_no_ports (by omega)
    · exact drawResources_no_ids (by omega)
  obtain ⟨e, hrefused⟩ := hrefused
  rw [processHandshakeMessage_greeting _ _ htext hhello hslot,
    allocateGatewaySession_refused hrefused] at hresult
  cases hresult

end Capacity

/-- In every state of every run with fewer gateways than configured and no port in cooldown: a
gateway that is not connected can be set up exactly when two ports are left for it and the
identifiers are not all one. -/
theorem admits_iff {config : CoreNetworkingConfig} {aeron : Aeron} {m : GatewayManager}
    (hnew : GatewayManager.new config aeron .new = .ok m)
    (hlow : -2 ^ 31 ≤ config.reservedSessionIdLow) (hhigh : config.reservedSessionIdHigh < 2 ^ 31)
    (hids : (config.maxGateways : Int) ≤
      config.reservedSessionIdHigh - config.reservedSessionIdLow)
    (clock : Nat) (events : List System.Event) {s : System}
    (hs : s = (System.start m clock).after events) (hfewer : s.connected < config.maxGateways)
    (hrested : s.Rested) {sessionId : Int} {buffer : List UInt8}
    (hgreets : s.Greets sessionId buffer) : s.Admits sessionId buffer ↔ s.HasRoom config := by
  subst hs
  have hinvariant := (Invariant.start hnew clock).after events
  have hcount := SessionAllocator.new_maxCount (new_sessionAllocator hnew) hlow hhigh
  have hkept : ((System.start m clock).after events).manager.sessionAllocator =
      m.sessionAllocator := System.sessionAllocator_after _ events
  rw [← hkept] at hcount
  constructor
  · intro hadmits
    by_contra hroom
    refine System.not_admits hinvariant hgreets ?_ hadmits
    unfold System.HasRoom at hroom
    split_ifs at hcount <;> omega
  · rintro ⟨hports, hwide⟩
    refine System.admits_of_free hinvariant hrested hgreets hports ?_
    split_ifs at hcount <;> omega

/-- A second gateway where fifteen are configured. -/
theorem admits_iff_second :
    ((System.start exampleManager 0).after (connect 0 "HELLO gateway-3 5")).Admits 7
        "HELLO gateway-4 6".toUTF8.data.toList ↔
      ((System.start exampleManager 0).after (connect 0 "HELLO gateway-3 5")).HasRoom
        exampleConfig := by
  refine admits_iff exampleManager_new (by decide) (by decide) (by decide) 0
    (connect 0 "HELLO gateway-3 5") rfl (by decide +kernel) ?_
    ⟨"HELLO gateway-4 6".toList, ⟨4, 6⟩, fromUtf8_encode _, by decide, by decide +kernel⟩
  intro p t hfreed
  have hempty : ((System.start exampleManager 0).after
      (connect 0 "HELLO gateway-3 5")).manager.portAllocator.recentlyFreed = [] := by
    decide +kernel
  have hnone : p ∉ ((System.start exampleManager 0).after
      (connect 0 "HELLO gateway-3 5")).manager.portAllocator.recentlyFreed := by
    rw [hempty]
    exact List.not_mem_nil
  rw [PortAllocator.notMem_recentlyFreed, hfreed] at hnone
  cases hnone

/-- Valid settings for one gateway. -/
def singleSettings : CoreSettings :=
  { exampleConfig with
    maxGateways := 1, contextDir := "/dev/shm/aeron-test-server", initialPort := 40001,
    initialControlPort := 40002, coreId := "vex-core-dev", bufferSize := 1024 * 1024 }

theorem singlePort_valid : 0 < 50000 ∧ 50000 ≤ 50000 ∧ 50000 ≤ 65535 := by omega

def singleManager : GatewayManager :=
  { exampleManager with
    config := singleSettings.toCoreNetworkingConfig
    portAllocator := ⟨50000, 50000, .empty, singlePort_valid⟩ }

/-- Nobody is connected, and the one gateway is refused whatever is drawn. -/
theorem single_not_admitted :
    singleSettings.validate = .ok () ∧
      GatewayManager.new singleSettings.toCoreNetworkingConfig ⟨0⟩ .new = .ok singleManager ∧
      (System.start singleManager 0).connected < singleSettings.maxGateways ∧
      (System.start singleManager 0).Rested ∧
      (System.start singleManager 0).Greets 7 "HELLO gateway-4 6".toUTF8.data.toList ∧
      ¬(System.start singleManager 0).Admits 7 "HELLO gateway-4 6".toUTF8.data.toList := by
  have hnew : GatewayManager.new singleSettings.toCoreNetworkingConfig ⟨0⟩ .new =
      .ok singleManager := rfl
  have hgreets : (System.start singleManager 0).Greets 7 "HELLO gateway-4 6".toUTF8.data.toList :=
    ⟨"HELLO gateway-4 6".toList, ⟨4, 6⟩, fromUtf8_encode _, by decide, rfl⟩
  refine ⟨by decide, hnew, by decide, nofun, hgreets, ?_⟩
  exact System.not_admits (Invariant.start hnew 0) hgreets (.inl (by decide))

end VexCore.Networking
