import VexCore.Networking.Lifecycle

/-!
# Gateway resources

The allocators are stateless; they are told what the slots hold and which ports cool down. Here:
whatever happens, no two sessions hold the same port or identifier.
-/

namespace VexCore.Networking

open GatewayManager

/-- The resources of the connected gateways are their own. -/
structure Exclusive (config : CoreNetworkingConfig) (s : System) : Prop where
  ports : ∀ g h a b i j, s.slot g = some a → s.slot h = some b → a.port i = b.port j →
    g = h ∧ i = j
  portRange : ∀ g a kind, s.slot g = some a →
    config.baseGatewayPort ≤ a.port kind ∧
      a.port kind < config.baseGatewayPort + config.maxGateways
  sessions : ∀ g h a b, s.slot g = some a → s.slot h = some b → a.sessionId = b.sessionId → g = h
  sessionRange : ∀ g a, s.slot g = some a →
    config.reservedSessionIdLow ≤ a.sessionId ∧ a.sessionId < config.reservedSessionIdHigh
  rested : ∀ g a kind t, s.slot g = some a → (a.port kind, t) ∈ s.freed →
    t + portCooldown ≤ s.clock
  /-- A session sits in the slot of its gateway, so a gateway has one at most. -/
  gateway : ∀ g a, s.slot g = some a → a.duologue.gatewayId = g
  published : ∀ g < maxGateways,
    (s.manager.publications.get g).isSome ↔ (s.slot g).isSome

/-- What a slot is about to receive is free. -/
structure Fresh (config : CoreNetworkingConfig) (s : System) (a : GatewaySlot) : Prop where
  ports : ∀ g b i j, s.slot g = some b → a.port i ≠ b.port j
  distinct : a.portData ≠ a.portControl
  portRange : ∀ kind, config.baseGatewayPort ≤ a.port kind ∧
    a.port kind < config.baseGatewayPort + config.maxGateways
  session : ∀ g b, s.slot g = some b → a.sessionId ≠ b.sessionId
  sessionRange : config.reservedSessionIdLow ≤ a.sessionId ∧
    a.sessionId < config.reservedSessionIdHigh
  rested : ∀ kind t, (a.port kind, t) ∈ s.freed → t + portCooldown ≤ s.clock

structure Invariant (config : CoreNetworkingConfig) (s : System) : Prop
    extends Exclusive config s where
  basePort : s.manager.portAllocator.low = config.baseGatewayPort
  topPort : s.manager.portAllocator.high + 1 = config.baseGatewayPort + config.maxGateways
  lowSession : s.manager.sessionAllocator.min = config.reservedSessionIdLow
  highSession : s.manager.sessionAllocator.min + s.manager.sessionAllocator.maxCount ≤
    config.reservedSessionIdHigh
  past : ∀ p t, (p, t) ∈ s.freed → t ≤ s.clock
  /-- The cooldown map forgets a port only when it has rested. -/
  remembered : ∀ p t, (p, t) ∈ s.freed → t + portCooldown ≤ s.clock ∨
    ∃ t', t ≤ t' ∧ s.manager.portAllocator.freedAt p = some t'

section Steps

variable {config : CoreNetworkingConfig} {s : System}

theorem Invariant.start {aeron : Aeron} {m : GatewayManager}
    (h : GatewayManager.new config aeron .new = .ok m) (clock : Nat) :
    Invariant config (System.start m clock) := by
  unfold GatewayManager.new at h
  split at h
  · cases h
  · next portAllocator hports =>
    split at h
    · cases h
    · next sessionAllocator hsessions =>
      cases h
      obtain ⟨hlow, hhigh, -⟩ := PortAllocator.new_eq_ok hports
      obtain ⟨hmin, hmax⟩ := SessionAllocator.new_eq_ok hsessions
      have hslot : ∀ g, Session.new.slot g = none := Session.slot_new
      refine { ports := ?_, portRange := ?_, sessions := ?_, sessionRange := ?_, rested := ?_,
               gateway := ?_, published := ?_, basePort := hlow, topPort := hhigh,
               lowSession := hmin, highSession := hmax, past := ?_, remembered := ?_ }
      · intro g h a b i j hg
        simp [System.start, hslot] at hg
      · intro g a kind hg
        simp [System.start, hslot] at hg
      · intro g h a b hg
        simp [System.start, hslot] at hg
      · intro g a hg
        simp [System.start, hslot] at hg
      · intro g a kind t hg
        simp [System.start, hslot] at hg
      · intro g a hg
        simp [System.start, hslot] at hg
      · intro g _
        show (Publications.new.get g).isSome ↔ (Session.new.slot g).isSome
        simp
      · intro p t hp
        cases hp
      · intro p t hp
        cases hp

/-- Time only lets ports rest. -/
theorem Invariant.elapse (h : Invariant config s) (time : Nat) :
    Invariant config { s with clock := s.clock + time } where
  ports := h.ports
  portRange := h.portRange
  sessions := h.sessions
  sessionRange := h.sessionRange
  rested g a kind t hg hp := (h.rested g a kind t hg hp).trans (Nat.le_add_right _ _)
  gateway := h.gateway
  published := h.published
  basePort := h.basePort
  topPort := h.topPort
  lowSession := h.lowSession
  highSession := h.highSession
  past p t hp := (h.past p t hp).trans (Nat.le_add_right _ _)
  remembered p t hp := (h.remembered p t hp).imp_left fun hle => hle.trans (Nat.le_add_right _ _)

theorem Invariant.withRest (h : Invariant config s) (cleanup : List Notice)
    (closing : List Duologue) (activity : Activity) :
    Invariant config { s with cleanup, closing, activity } :=
  ⟨⟨h.ports, h.portRange, h.sessions, h.sessionRange, h.rested, h.gateway, h.published⟩,
    h.basePort, h.topPort, h.lowSession, h.highSession, h.past, h.remembered⟩

/-- Taking sessions away frees their ports now. -/
theorem Invariant.reduce (h : Invariant config s) {m : GatewayManager}
    (hr : Reduction s.clock s.manager m) : Invariant config (s.become m) where
  ports g h' a b i j hg hh := h.ports g h' a b i j (System.Reduction.slot_eq_some hr hg) (System.Reduction.slot_eq_some hr hh)
  portRange g a kind hg := h.portRange g a kind (System.Reduction.slot_eq_some hr hg)
  sessions g h' a b hg hh := h.sessions g h' a b (System.Reduction.slot_eq_some hr hg) (System.Reduction.slot_eq_some hr hh)
  sessionRange g a hg := h.sessionRange g a (System.Reduction.slot_eq_some hr hg)
  rested g a kind t hg hp := by
    rcases System.mem_become_freed.mp hp with hold | ⟨-, g', b, kind', hg', hnone, hport⟩
    · exact h.rested g a kind t (System.Reduction.slot_eq_some hr hg) hold
    · -- a port freed just now belonged to a session that is gone
      obtain ⟨rfl, -⟩ := h.ports g' g b a kind' kind hg' (System.Reduction.slot_eq_some hr hg) hport
      have hsome : m.slot g' = some a := hg
      rw [hnone] at hsome
      cases hsome
  gateway g a hg := h.gateway g a (System.Reduction.slot_eq_some hr hg)
  published g hg := by
    show (m.publications.get g).isSome ↔ (m.slot g).isSome
    rcases hr.slot g with hnone | heq
    · cases hold : s.slot g with
      | none =>
        rw [hr.kept g hg (hnone.trans hold.symm), hnone]
        simpa [hold] using h.published g hg
      | some a =>
        have hsome : s.manager.slot g ≠ none := Option.ne_none_iff_exists'.mpr ⟨a, hold⟩
        rw [hr.cleared g hg hsome hnone, hnone]
        exact Iff.rfl
    · rw [hr.kept g hg heq, heq]
      exact h.published g hg
  basePort := hr.low.trans h.basePort
  topPort := (congrArg (· + 1) hr.high).trans h.topPort
  lowSession := (congrArg SessionAllocator.min hr.sessionAllocator).trans h.lowSession
  highSession := by
    show m.sessionAllocator.min + m.sessionAllocator.maxCount ≤ _
    rw [hr.sessionAllocator]
    exact h.highSession
  past p t hp := by
    rcases System.mem_become_freed.mp hp with hold | ⟨rfl, -⟩
    · exact h.past p t hold
    · exact le_rfl
  remembered p t hp := by
    rcases System.mem_become_freed.mp hp with hold | ⟨rfl, g, a, kind, hg, hnone, rfl⟩
    · refine (h.remembered p t hold).imp_right ?_
      rintro ⟨t', ht', hfreed⟩
      rcases hr.freedAt p with hsame | hnow
      · exact ⟨t', ht', hsame.trans hfreed⟩
      · exact ⟨s.clock, h.past p t hold, hnow⟩
    · exact .inr ⟨s.clock, le_rfl, hr.freed g a kind hg hnone⟩

theorem Invariant.remembered_cleanup (h : Invariant config s) {p t : Nat}
    (hp : (p, t) ∈ s.freed) : t + portCooldown ≤ s.clock ∨
      ∃ t', t ≤ t' ∧
        (s.manager.portAllocator.cleanupExpiredPorts s.clock).freedAt p = some t' := by
  rcases h.remembered p t hp with hrested | ⟨t', ht', hfreed⟩
  · exact .inl hrested
  · by_cases hcool : s.clock - t' < portCooldown
    · exact .inr ⟨t', ht', PortAllocator.freedAt_cleanupExpiredPorts.mpr ⟨hfreed, hcool⟩⟩
    · refine .inl ?_
      have := h.past p t hp
      omega

/-- What the allocators grant is free. -/
theorem Invariant.fresh (h : Invariant config s) {duologue : Duologue} {portData portControl : Nat}
    {sessionId : Int}
    (hports : (s.manager.portAllocator.cleanupExpiredPorts s.clock).Grant
      s.manager.gatewaySessions.getPortsInUse [portData, portControl])
    (hsession : s.manager.sessionAllocator.Grant s.manager.gatewaySessions.getSessionsInUse
      sessionId) :
    Fresh config s { duologue, portData, portControl, sessionId } := by
  have hmem : ∀ kind, GatewaySlot.port ⟨duologue, portData, portControl, sessionId⟩ kind ∈
      [portData, portControl] := by
    intro kind
    cases kind with
    | data => exact List.mem_cons_self
    | control => exact List.mem_cons_of_mem _ List.mem_cons_self
  have hbase := h.basePort
  have htop := h.topPort
  have hvalid := s.manager.portAllocator.valid
  constructor
  · intro g b i j hg heq
    have hpos : b.port j ≠ 0 := by
      have := (h.portRange g b j hg).1
      omega
    apply hports.unused _ (hmem i)
    rw [heq]
    exact Session.mem_getPortsInUse hg hpos
  · intro heq
    have hnodup := hports.nodup
    change portData = portControl at heq
    simp [heq] at hnodup
  · intro kind
    have hrange : s.manager.portAllocator.low ≤ _ ∧ _ ≤ s.manager.portAllocator.high :=
      hports.inRange _ (hmem kind)
    omega
  · intro g b hg heq
    exact hsession.unused (Session.mem_getSessionsInUse.mpr ⟨g, b, hg, heq.symm⟩)
  · have hlow := h.lowSession
    have hhigh := h.highSession
    have hrange := hsession.inRange
    exact ⟨hlow ▸ hrange.1, hrange.2.trans_le hhigh⟩
  · intro kind t hp
    rcases h.remembered_cleanup hp with hrested | ⟨t', -, hfreed⟩
    · exact hrested
    · rw [hports.rested _ (hmem kind)] at hfreed
      cases hfreed

theorem freed_become {m : GatewayManager} (hkept : ∀ g a, s.slot g = some a → m.slot g ≠ none)
    {p t : Nat} (hp : (p, t) ∈ (s.become m).freed) : (p, t) ∈ s.freed := by
  rcases System.mem_become_freed.mp hp with hold | ⟨-, g, a, -, hg, hnone, -⟩
  · exact hold
  · exact absurd hnone (hkept g a hg)

theorem Invariant.cleaned (h : Invariant config s) (aeron : Aeron) :
    Invariant config (s.become { s.manager with
      portAllocator := s.manager.portAllocator.cleanupExpiredPorts s.clock, aeron }) := by
  have hfreed : ∀ p t, (p, t) ∈ (s.become { s.manager with
      portAllocator := s.manager.portAllocator.cleanupExpiredPorts s.clock, aeron }).freed →
        (p, t) ∈ s.freed := by
    intro p t hp
    refine freed_become ?_ hp
    intro g a hg hnone
    exact absurd (hg.symm.trans hnone) (Option.some_ne_none a)
  exact { ports := h.ports, portRange := h.portRange, sessions := h.sessions,
          sessionRange := h.sessionRange,
          rested := fun g a kind t hg hp => h.rested g a kind t hg (hfreed _ t hp),
          gateway := h.gateway, published := h.published, basePort := h.basePort,
          topPort := h.topPort, lowSession := h.lowSession, highSession := h.highSession,
          past := fun p t hp => h.past p t (hfreed p t hp),
          remembered := fun p t hp => h.remembered_cleanup (hfreed p t hp) }

/-- A session set up in an empty slot with what was free. -/
theorem Invariant.establish (h : Invariant config s) {gatewayId : Nat}
    (hlt : gatewayId < maxGateways) (hempty : s.slot gatewayId = none) {subscription : Subscription}
    {portData portControl : Nat} {sessionId : Int}
    (hfresh : Fresh config s ⟨⟨gatewayId, subscription⟩, portData, portControl, sessionId⟩)
    (aeron : Aeron) (publication : Publication) :
    Invariant config (s.become { s.manager with
      portAllocator := s.manager.portAllocator.cleanupExpiredPorts s.clock
      aeron
      publications := s.manager.publications.set gatewayId publication
      gatewaySessions := s.manager.gatewaySessions.insert gatewayId sessionId
        ⟨gatewayId, subscription⟩ portData portControl }) := by
  generalize hm : ({ s.manager with
      portAllocator := s.manager.portAllocator.cleanupExpiredPorts s.clock
      aeron
      publications := s.manager.publications.set gatewayId publication
      gatewaySessions := s.manager.gatewaySessions.insert gatewayId sessionId
        ⟨gatewayId, subscription⟩ portData portControl } : GatewayManager) = m
  generalize hnew : (⟨⟨gatewayId, subscription⟩, portData, portControl, sessionId⟩ : GatewaySlot) =
    new at hfresh
  have hslot : ∀ g, m.slot g = if g = gatewayId then some new else s.slot g := by
    intro g
    subst hm hnew
    exact s.manager.gatewaySessions.slot_insert hlt sessionId _ portData portControl g
  -- an occupied slot is the new one or an old one
  have hcases : ∀ g a, m.slot g = some a →
      (g = gatewayId ∧ a = new) ∨ (g ≠ gatewayId ∧ s.slot g = some a) := by
    intro g a ha
    rw [hslot g] at ha
    by_cases hg : g = gatewayId
    · rw [if_pos hg] at ha
      exact .inl ⟨hg, (Option.some.inj ha).symm⟩
    · rw [if_neg hg] at ha
      exact .inr ⟨hg, ha⟩
  have hfreed : ∀ p t, (p, t) ∈ (s.become m).freed → (p, t) ∈ s.freed := by
    intro p t hp
    refine freed_become ?_ hp
    intro g a hg hnone
    rw [hslot g] at hnone
    by_cases hgid : g = gatewayId
    · rw [hgid, hempty] at hg
      cases hg
    · rw [if_neg hgid, hg] at hnone
      cases hnone
  refine { ports := ?_, portRange := ?_, sessions := ?_, sessionRange := ?_, rested := ?_,
           gateway := ?_, published := ?_, basePort := ?_, topPort := ?_, lowSession := ?_,
           highSession := ?_, past := fun p t hp => h.past p t (hfreed p t hp), remembered := ?_ }
  · intro g g' a b i j ha hb heq
    rcases hcases g a ha with ⟨rfl, rfl⟩ | ⟨-, ha⟩
    · rcases hcases g' b hb with ⟨rfl, rfl⟩ | ⟨-, hb⟩
      · refine ⟨rfl, ?_⟩
        cases i <;> cases j
        · rfl
        · exact absurd heq hfresh.distinct
        · exact absurd heq.symm hfresh.distinct
        · rfl
      · exact absurd heq (hfresh.ports g' b i j hb)
    · rcases hcases g' b hb with ⟨rfl, rfl⟩ | ⟨-, hb⟩
      · exact absurd heq.symm (hfresh.ports g a j i ha)
      · exact h.ports g g' a b i j ha hb heq
  · intro g a kind ha
    rcases hcases g a ha with ⟨rfl, rfl⟩ | ⟨-, ha⟩
    · exact hfresh.portRange kind
    · exact h.portRange g a kind ha
  · intro g g' a b ha hb heq
    rcases hcases g a ha with ⟨rfl, rfl⟩ | ⟨-, ha⟩
    · rcases hcases g' b hb with ⟨rfl, rfl⟩ | ⟨-, hb⟩
      · rfl
      · exact absurd heq (hfresh.session g' b hb)
    · rcases hcases g' b hb with ⟨rfl, rfl⟩ | ⟨-, hb⟩
      · exact absurd heq.symm (hfresh.session g a ha)
      · exact h.sessions g g' a b ha hb heq
  · intro g a ha
    rcases hcases g a ha with ⟨rfl, rfl⟩ | ⟨-, ha⟩
    · exact hfresh.sessionRange
    · exact h.sessionRange g a ha
  · intro g a kind t ha hp
    rcases hcases g a ha with ⟨rfl, rfl⟩ | ⟨-, ha⟩
    · exact hfresh.rested kind t (hfreed _ t hp)
    · exact h.rested g a kind t ha (hfreed _ t hp)
  · intro g a ha
    rcases hcases g a ha with ⟨rfl, rfl⟩ | ⟨-, ha⟩
    · rw [← hnew]
    · exact h.gateway g a ha
  · intro g hg
    show (m.publications.get g).isSome ↔ (m.slot g).isSome
    rw [hslot g, ← hm]
    show ((s.manager.publications.set gatewayId publication).get g).isSome ↔ _
    rw [s.manager.publications.get_set hlt]
    by_cases hgid : g = gatewayId
    · rw [if_pos hgid, if_pos hgid]
      simp
    · rw [if_neg hgid, if_neg hgid]
      exact h.published g hg
  · subst hm
    exact h.basePort
  · subst hm
    exact h.topPort
  · subst hm
    exact h.lowSession
  · subst hm
    exact h.highSession
  · intro p t hp
    subst hm
    exact h.remembered_cleanup (hfreed p t hp)

theorem Invariant.handshake (h : Invariant config s)
    {result : GatewayManager × Except ServerError Acceptance}
    (hout : HandshakeOutcome s.manager s.clock result) : Invariant config (s.become result.1) := by
  cases hout with
  | refused e => exact h.reduce (.refl _ _)
  | failed aeron e _ => exact h.cleaned aeron
  | established a aeron publication subscription hlt hempty hports hsession _ =>
    exact h.establish hlt hempty (h.fresh hports hsession) aeron publication

theorem Invariant.effect (h : Invariant config s) {event : System.Event} {s' : System}
    (heffect : s.Effect event s') : Invariant config s' := by
  cases heffect with
  | stay => exact h
  | elapse time => exact h.elapse time
  | turn activity => exact h.withRest _ _ _
  | handshake _ _ houtcome => exact (h.handshake houtcome).withRest _ _ _
  | reduce cleanup activity hreduction _ => exact (h.reduce hreduction).withRest _ _ _
  | notify _ => exact h.withRest _ _ _
  | closed d => exact h.withRest _ _ _

theorem Invariant.after (h : Invariant config s) (events : List System.Event) :
    Invariant config (s.after events) := by
  induction events generalizing s with
  | nil => exact h
  | cons event events ih => exact ih (h.effect (s.perform_effect event))

end Steps

/-- In every state of every run, from a manager that could be set up. -/
theorem run_exclusive {config : CoreNetworkingConfig} {aeron : Aeron} {m : GatewayManager}
    (h : GatewayManager.new config aeron .new = .ok m) (clock : Nat) (events : List System.Event) :
    Exclusive config ((System.start m clock).after events) :=
  ((Invariant.start h clock).after events).toExclusive

def exampleConfig : CoreNetworkingConfig :=
  { localAddress := "localhost", baseGatewayPort := 50000, maxGateways := 15,
    reservedSessionIdLow := 1000, reservedSessionIdHigh := 9999, enableAuthentication := false }

def exampleManager : GatewayManager :=
  ⟨exampleConfig, .new, ⟨0⟩, ⟨50000, 50014, .empty, by decide⟩, ⟨1000, 8999, by decide⟩, .new⟩

theorem exampleManager_new :
    GatewayManager.new exampleConfig ⟨0⟩ .new = .ok exampleManager := rfl

/-- Everything succeeds and the draws count up from `draw`. -/
def granted (draw : Nat) : Outcomes :=
  { utf8Error := "", replySent := .ok (), portDraws := fun i => draw + i,
    sessionDraws := fun i => draw + i, publicationAdded := .ok (), subscriptionAdded := .ok () }

/-- A greeting that is accepted. -/
def connect (draw : Nat) (text : String) : List System.Event :=
  [.handshake (granted draw) 7 text.toUTF8.data.toList, .answer true fun _ => .ok ()]

theorem run_exclusive_twoGateways :
    Exclusive exampleConfig ((System.start exampleManager 0).after
        (connect 0 "HELLO gateway-3 5" ++ connect 1 "HELLO gateway-4 6")) ∧
      ((System.start exampleManager 0).after
        (connect 0 "HELLO gateway-3 5" ++ connect 1 "HELLO gateway-4 6")).manager.gatewaySessions.getPortsInUse
          = [50000, 50001, 50002, 50003] :=
  ⟨run_exclusive exampleManager_new 0 _, by decide +kernel⟩

end VexCore.Networking
