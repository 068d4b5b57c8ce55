import VexCore.Networking.Resources

/-!
# Cleanup messages and the sessions they hit

A cleanup message names a gateway, not a session. One that is still under way when its gateway
has come back with a new session is taken for a message of that session.
-/

namespace VexCore.Networking

namespace System

/-- The next round of the cleanup loop leaves the session `d` alone unless `d` sent the message. -/
def Spares (s : System) (d : Duologue) : Prop :=
  s.activity = .draining → ∀ notice rest, s.cleanup = notice :: rest → notice.sender ≠ d →
    ∀ g a, s.slot g = some a → a.duologue = d →
      (s.perform .receive).slot g = some a ∧
        (s.perform .receive).manager.publications.get g = s.manager.publications.get g

/-- The session a step sets up. -/
def setsUp (s : System) : Event → Option Acceptance
  | .handshake outcomes sessionId buffer =>
      if s.activity = .idle then
        match (s.manager.processHandshakeMessage s.clock outcomes sessionId buffer).2 with
        | .ok a => some a
        | .error _ => none
      else none
  | _ => none

/-- Nothing is heard of earlier sessions of the gateway any more: their messages are worked off
and their subscriptions are closed. -/
structure Quiet (s : System) (gatewayId : Nat) : Prop where
  notices : ∀ n ∈ s.cleanup, n.gatewayId ≠ gatewayId
  closing : ∀ d ∈ s.closing, d.gatewayId ≠ gatewayId

/-- Every step that sets a session up finds its gateway quiet. -/
def Quietly (s : System) : List Event → Prop
  | [] => True
  | event :: rest =>
      (∀ a, s.setsUp event = some a → s.Quiet a.gatewayId) ∧ (s.perform event).Quietly rest

def nextRegistration (s : System) : Nat := s.manager.aeron.nextRegistration

/-- Every session heard of was registered before. -/
structure Roster (s : System) : Prop where
  slots : ∀ g a, s.slot g = some a →
    a.duologue.gatewayId = g ∧ a.duologue.subscription.registration < s.nextRegistration
  closing : ∀ d ∈ s.closing, d.subscription.registration < s.nextRegistration
  notices : ∀ n ∈ s.cleanup, n.gatewayId = n.sender.gatewayId ∧
    n.sender.subscription.registration < s.nextRegistration

/-- Only the session itself speaks for its gateway while it is in its slot. -/
def Undisturbed (s : System) (g : Nat) (d : Duologue) : Prop :=
  ∀ a, s.slot g = some a → a.duologue = d →
    (∀ n ∈ s.cleanup, n.gatewayId = g → n.sender = d) ∧ ∀ e ∈ s.closing, e.gatewayId ≠ g

section Steps

variable {s s' : System} {event : Event}

theorem Roster.start (m : GatewayManager) (clock : Nat) (h : ∀ g, m.slot g = none) :
    (System.start m clock).Roster where
  slots g a hg := by
    have hnone : m.slot g = some a := hg
    rw [h g] at hnone
    cases hnone
  closing d hd := by cases hd
  notices n hn := by cases hn

/-- A handshake leaves the slots as they are, but for the one it fills with a session that is
registered on the way. -/
theorem handshake_slot {result : GatewayManager × Except ServerError Acceptance}
    (h : s.manager.HandshakeOutcome s.clock result) {g : Nat} {a : GatewaySlot}
    (ha : result.1.slot g = some a) :
    s.slot g = some a ∨ (s.slot g = none ∧ a.duologue.gatewayId = g ∧
      s.nextRegistration ≤ a.duologue.subscription.registration ∧
      a.duologue.subscription.registration < result.1.aeron.nextRegistration ∧
      ∃ acceptance, result.2 = .ok acceptance ∧ acceptance.gatewayId = g) := by
  cases h with
  | refused e => exact .inl ha
  | failed aeron e _ => exact .inl ha
  | established acceptance aeron publication subscription hlt hempty _ _ hreg =>
    have hslot := s.manager.gatewaySessions.slot_insert hlt acceptance.dedicatedSession
      ⟨acceptance.gatewayId, subscription⟩ acceptance.portData acceptance.portControl g
    replace ha := hslot.symm.trans ha
    split at ha
    · next hg =>
      subst hg
      cases ha
      exact .inr ⟨hempty, rfl, hreg.1, hreg.2, acceptance, rfl, rfl⟩
    · exact .inl ha

theorem handshake_kept {result : GatewayManager × Except ServerError Acceptance}
    (h : s.manager.HandshakeOutcome s.clock result) {g : Nat} {a : GatewaySlot}
    (ha : s.slot g = some a) : result.1.slot g = some a := by
  cases h with
  | refused e => exact ha
  | failed aeron e _ => exact ha
  | established acceptance aeron publication subscription hlt hempty _ _ _ =>
    have hslot := s.manager.gatewaySessions.slot_insert hlt acceptance.dedicatedSession
      ⟨acceptance.gatewayId, subscription⟩ acceptance.portData acceptance.portControl g
    refine (show Session.slot _ g = _ from hslot).trans ?_
    rw [if_neg]
    · exact ha
    · rintro rfl
      cases hempty.symm.trans ha

theorem handshake_nextRegistration {result : GatewayManager × Except ServerError Acceptance}
    (h : s.manager.HandshakeOutcome s.clock result) :
    s.nextRegistration ≤ result.1.aeron.nextRegistration := by
  cases h with
  | refused e => exact le_rfl
  | failed aeron e hle => exact hle
  | established acceptance aeron publication subscription _ _ _ _ hreg =>
    exact hreg.1.trans hreg.2.le

theorem nextRegistration_le_of_effect (heffect : s.Effect event s') :
    s.nextRegistration ≤ s'.nextRegistration := by
  cases heffect with
  | handshake _ _ houtcome => exact handshake_nextRegistration houtcome
  | reduce _ _ hreduction _ => exact (congrArg Aeron.nextRegistration hreduction.aeron).ge
  | _ => exact le_rfl

theorem handshake_closing {result : GatewayManager × Except ServerError Acceptance}
    (h : s.manager.HandshakeOutcome s.clock result) {d : Duologue}
    (hd : d ∈ (s.become result.1).closing) : d ∈ s.closing := by
  rcases mem_become_closing.mp hd with hd | ⟨g, a, hg, hnone, -⟩
  · exact hd
  · rw [handshake_kept h hg] at hnone
    cases hnone

theorem Roster.effect (h : s.Roster) (heffect : s.Effect event s') : s'.Roster := by
  cases heffect with
  | stay => exact h
  | elapse time => exact ⟨h.slots, h.closing, h.notices⟩
  | turn activity => exact ⟨h.slots, h.closing, h.notices⟩
  | handshake _ _ houtcome =>
    have hle := handshake_nextRegistration houtcome
    refine ⟨?_, ?_, ?_⟩
    · intro g a ha
      rcases handshake_slot houtcome ha with hold | ⟨-, hid, -, hlt, -⟩
      · exact (h.slots g a hold).imp_right fun hlt => hlt.trans_le hle
      · exact ⟨hid, hlt⟩
    · intro d hd
      exact (h.closing d (handshake_closing houtcome hd)).trans_le hle
    · intro n hn
      exact (h.notices n hn).imp_right fun hlt => hlt.trans_le hle
  | @reduce _ m cleanup activity hreduction hrest =>
    have haeron : (m.aeron).nextRegistration = s.nextRegistration :=
      congrArg Aeron.nextRegistration hreduction.aeron
    refine ⟨?_, ?_, ?_⟩
    · intro g a ha
      exact (h.slots g a (Reduction.slot_eq_some hreduction ha)).imp_right
        fun hlt => hlt.trans_eq haeron.symm
    · intro d hd
      rcases mem_become_closing.mp hd with hd | ⟨g, a, hg, -, rfl⟩
      · exact (h.closing d hd).trans_eq haeron.symm
      · exact (h.slots g a hg).2.trans_eq haeron.symm
    · intro n hn
      exact (h.notices n (hrest hn)).imp_right fun hlt => hlt.trans_eq haeron.symm
  | @notify _ d hlistening =>
    refine ⟨h.slots, h.closing, ?_⟩
    intro n hn
    rcases List.mem_append.mp hn with hn | hn
    · exact h.notices n hn
    · rw [List.mem_singleton.mp hn]
      refine ⟨rfl, ?_⟩
      rcases mem_listening.mp hlistening with ⟨g, a, hg, rfl⟩ | hd
      · exact (h.slots g a hg).2
      · exact h.closing d hd
  | closed d => exact ⟨h.slots, fun e he => h.closing e (List.mem_of_mem_erase he), h.notices⟩

theorem Roster.after (h : s.Roster) (events : List Event) : (s.after events).Roster := by
  induction events generalizing s with
  | nil => exact h
  | cons event rest ih => exact ih (h.effect (s.perform_effect event))

/-- A step that is no handshake leaves an undisturbed session undisturbed, and so does one that
sets up another session. -/
theorem Undisturbed.effect {g : Nat} {d : Duologue} (h : s.Undisturbed g d) (hroster : s.Roster)
    (hknown : d.subscription.registration < s.nextRegistration) (heffect : s.Effect event s') :
    s'.Undisturbed g d := by
  intro a ha had
  cases heffect with
  | stay => exact h a ha had
  | elapse time => exact h a ha had
  | turn activity => exact h a ha had
  | handshake _ _ houtcome =>
    rcases handshake_slot houtcome ha with hold | ⟨-, -, hnew, -, -⟩
    · obtain ⟨hnotices, hclosing⟩ := h a hold had
      exact ⟨hnotices, fun e he => hclosing e (handshake_closing houtcome he)⟩
    · rw [had] at hnew
      omega
  | @reduce _ m cleanup activity hreduction hrest =>
    obtain ⟨hnotices, hclosing⟩ := h a (Reduction.slot_eq_some hreduction ha) had
    refine ⟨fun n hn => hnotices n (hrest hn), ?_⟩
    intro e he
    rcases mem_become_closing.mp he with he | ⟨g', b, hg', hnone, rfl⟩
    · exact hclosing e he
    · rw [(hroster.slots g' b hg').1]
      rintro rfl
      have hsome : m.slot g' = some a := ha
      rw [hnone] at hsome
      cases hsome
  | @notify _ e hlistening =>
    obtain ⟨hnotices, hclosing⟩ := h a ha had
    refine ⟨?_, hclosing⟩
    intro n hn hng
    rcases List.mem_append.mp hn with hn | hn
    · exact hnotices n hn hng
    · rw [List.mem_singleton.mp hn] at hng ⊢
      have heg : e.gatewayId = g := hng
      rcases mem_listening.mp hlistening with ⟨g', b, hg', rfl⟩ | he
      · have hid := (hroster.slots g' b hg').1
        have hgg : g' = g := hid.symm.trans heg
        have hsome : s.slot g = some b := hgg ▸ hg'
        have hold : s.slot g = some a := ha
        rw [hold] at hsome
        cases hsome
        exact had
      · exact absurd heg (hclosing e he)
  | closed e =>
    obtain ⟨hnotices, hclosing⟩ := h a ha had
    exact ⟨hnotices, fun e' he => hclosing e' (List.mem_of_mem_erase he)⟩

theorem perform_receive_cons (hactivity : s.activity = .draining) {notice : Notice}
    {rest : List Notice} (hcleanup : s.cleanup = notice :: rest) :
    s.perform .receive =
      { s.become (s.manager.removeGatewaySession s.clock notice.gatewayId).1 with
        cleanup := rest } := by
  simp only [perform, if_pos hactivity, hcleanup]

theorem receive_kept (hactivity : s.activity = .draining) {notice : Notice}
    {rest : List Notice} (hcleanup : s.cleanup = notice :: rest) {g : Nat} {a : GatewaySlot}
    (ha : s.slot g = some a) (hne : g ≠ notice.gatewayId) :
    (s.perform .receive).slot g = some a ∧
      (s.perform .receive).manager.publications.get g = s.manager.publications.get g := by
  have hslot : (s.manager.removeGatewaySession s.clock notice.gatewayId).1.slot g = s.slot g := by
    rw [GatewayManager.removeGatewaySession_slot, if_neg hne]
  rw [perform_receive_cons hactivity hcleanup]
  exact ⟨hslot.trans ha, (s.manager.removeGatewaySession_reduction s.clock notice.gatewayId).kept g
    (Session.lt_of_slot_eq_some ha) hslot⟩

theorem Undisturbed.spares {g : Nat} {d : Duologue} (h : s.Undisturbed g d) (hroster : s.Roster)
    (hgateway : d.gatewayId = g) : s.Spares d := by
  intro hactivity notice rest hcleanup hsender g' a ha had
  have hg : g' = g := by rw [← (hroster.slots g' a ha).1, had, hgateway]
  subst hg
  refine receive_kept hactivity hcleanup ha ?_
  intro heq
  exact hsender ((h a ha had).1 notice (hcleanup ▸ List.mem_cons_self) heq.symm)

theorem slot_of_effect (heffect : s.Effect event s') {g : Nat} {b : GatewaySlot}
    (hb : s'.slot g = some b) :
    s.slot g = some b ∨ ∃ a, s.setsUp event = some a ∧ a.gatewayId = g := by
  cases heffect with
  | stay => exact .inl hb
  | elapse time => exact .inl hb
  | turn activity => exact .inl hb
  | handshake hidle hprocessed houtcome =>
    rcases handshake_slot houtcome hb with hold | ⟨-, -, -, -, a, hok, hid⟩
    · exact .inl hold
    · refine .inr ⟨a, ?_, hid⟩
      simp only [setsUp, if_pos hidle, hprocessed, hok]
  | reduce cleanup activity hreduction _ => exact .inl (Reduction.slot_eq_some hreduction hb)
  | notify _ => exact .inl hb
  | closed d => exact .inl hb

theorem setsUp_eq_some {a : Acceptance} (h : s.setsUp event = some a) :
    ∃ m, s.perform event = { s.become m with activity := .announcing a } ∧
      s.manager.HandshakeOutcome s.clock (m, .ok a) := by
  cases event with
  | handshake outcomes sessionId buffer =>
    simp only [setsUp] at h
    split at h
    · next hidle =>
      have houtcome :=
        s.manager.processHandshakeMessage_outcome s.clock outcomes sessionId buffer
      simp only [perform, if_pos hidle]
      generalize s.manager.processHandshakeMessage s.clock outcomes sessionId buffer = result
        at h houtcome ⊢
      obtain ⟨m, result⟩ := result
      cases result with
      | ok a' =>
        cases h
        exact ⟨m, rfl, houtcome⟩
      | error e => cases h
    · cases h
  | _ => cases h

/-- Whoever is in a slot speaks for its gateway alone. -/
def Settled (s : System) : Prop := ∀ g a, s.slot g = some a → s.Undisturbed g a.duologue

theorem Quiet.undisturbed {a : Acceptance} (hsets : s.setsUp event = some a)
    (hquiet : s.Quiet a.gatewayId) (d : Duologue) :
    (s.perform event).Undisturbed a.gatewayId d := by
  obtain ⟨m, hperform, houtcome⟩ := setsUp_eq_some hsets
  rw [hperform]
  intro b _ _
  exact ⟨fun n hn hng => absurd hng (hquiet.notices n hn),
    fun e he => hquiet.closing e (handshake_closing houtcome he)⟩

theorem Settled.perform (h : s.Settled) (hroster : s.Roster)
    (hquiet : ∀ a, s.setsUp event = some a → s.Quiet a.gatewayId) :
    (s.perform event).Settled := by
  intro g b hb
  have heffect := s.perform_effect event
  rcases slot_of_effect heffect hb with hold | ⟨a, hsets, rfl⟩
  · exact (h g b hold).effect hroster (hroster.slots g b hold).2 heffect
  · exact (hquiet a hsets).undisturbed hsets b.duologue

theorem Settled.after (h : s.Settled) (hroster : s.Roster) {events : List Event}
    (hquiet : s.Quietly events) : (s.after events).Settled ∧ (s.after events).Roster := by
  induction events generalizing s with
  | nil => exact ⟨h, hroster⟩
  | cons event rest ih =>
    exact ih (h.perform hroster hquiet.1) (hroster.effect (s.perform_effect event)) hquiet.2

theorem Settled.spares (h : s.Settled) (hroster : s.Roster) (d : Duologue) : s.Spares d := by
  intro hactivity notice rest hcleanup hsender g a ha had
  subst had
  exact (h g a ha).spares hroster (hroster.slots g a ha).1 hactivity notice rest hcleanup hsender
    g a ha rfl

theorem setsUp_slot {a : Acceptance} (hsets : s.setsUp event = some a) {b : GatewaySlot}
    (hb : (s.perform event).slot a.gatewayId = some b) :
    b.duologue.gatewayId = a.gatewayId ∧
      s.nextRegistration ≤ b.duologue.subscription.registration := by
  obtain ⟨m, hperform, houtcome⟩ := setsUp_eq_some hsets
  rw [hperform] at hb
  rcases handshake_slot houtcome hb with hold | ⟨-, hid, hreg, -⟩
  · cases houtcome with
    | established _ _ _ _ _ hempty => cases hempty.symm.trans hold
  · exact ⟨hid, hreg⟩

theorem Undisturbed.after {g : Nat} {d : Duologue} (h : s.Undisturbed g d) (hroster : s.Roster)
    (hknown : d.subscription.registration < s.nextRegistration) (events : List Event) :
    (s.after events).Undisturbed g d ∧ (s.after events).Roster := by
  induction events generalizing s with
  | nil => exact ⟨h, hroster⟩
  | cons event rest ih =>
    have heffect := s.perform_effect event
    refine ih (h.effect hroster hknown heffect) (hroster.effect heffect) ?_
    exact hknown.trans_le (nextRegistration_le_of_effect heffect)

theorem exists_not_spares {g : Nat} {b : GatewaySlot} {notices : List Notice}
    (hactivity : s.activity = .draining) (hcleanup : s.cleanup = notices)
    (hb : s.slot g = some b) (hgateway : ∃ n ∈ notices, n.gatewayId = g)
    (hsender : ∀ n ∈ notices, n.sender ≠ b.duologue) :
    ∃ more, ¬(s.after more).Spares b.duologue := by
  induction notices generalizing s with
  | nil =>
    obtain ⟨n, hn, -⟩ := hgateway
    cases hn
  | cons notice rest ih =>
    by_cases hg : notice.gatewayId = g
    · refine ⟨[], fun hspares => ?_⟩
      have hkept := (hspares hactivity notice rest hcleanup (hsender notice List.mem_cons_self) g b
        hb rfl).1
      have hgone : (s.perform .receive).slot g = none := by
        rw [perform_receive_cons hactivity hcleanup]
        show (s.manager.removeGatewaySession s.clock notice.gatewayId).1.slot g = none
        rw [GatewayManager.removeGatewaySession_slot, if_pos hg.symm]
      rw [show (s.after []).perform .receive = s.perform .receive from rfl, hgone] at hkept
      cases hkept
    · obtain ⟨hkept, -⟩ := receive_kept hactivity hcleanup hb (Ne.symm hg)
      have hperform := perform_receive_cons hactivity hcleanup
      obtain ⟨more, hmore⟩ := ih (s := s.perform .receive) (by rw [hperform]; exact hactivity)
        (by rw [hperform]) hkept (by
          obtain ⟨n, hn, hng⟩ := hgateway
          rcases List.mem_cons.mp hn with rfl | hn
          · exact absurd hng hg
          · exact ⟨n, hn, hng⟩) (fun n hn => hsender n (List.mem_cons_of_mem _ hn))
      exact ⟨.receive :: more, hmore⟩

/-- A handshake that is answered, and the poll after it. -/
def announce : List Event := [.answer true fun _ => .ok (), .poll]

theorem after_announce {a : Acceptance} (h : s.activity = .announcing a) :
    (s.after announce).activity = .draining ∧ (s.after announce).cleanup = s.cleanup ∧
      (s.after announce).manager = s.manager := by
  simp [after, announce, perform, h, become, GatewayManager.answerHandshake,
    GatewayManager.sendMessageWithRetries, GatewayManager.messageRetryCount]

theorem exists_not_spares_of_announcing {a : Acceptance} (h : s.activity = .announcing a) {g : Nat}
    {b : GatewaySlot} (hb : s.slot g = some b) (hgateway : ∃ n ∈ s.cleanup, n.gatewayId = g)
    (hsender : ∀ n ∈ s.cleanup, n.sender ≠ b.duologue) :
    ∃ more, ¬(s.after more).Spares b.duologue := by
  obtain ⟨hactivity, hcleanup, hmanager⟩ := after_announce h
  obtain ⟨more, hmore⟩ := exists_not_spares (s := s.after announce) hactivity hcleanup
    ((congrArg (fun m => GatewayManager.slot m g) hmanager).trans hb) hgateway hsender
  refine ⟨announce ++ more, ?_⟩
  rwa [after, List.foldl_append]

theorem spares_iff_quiet (hroster : s.Roster) {a : Acceptance} (hsets : s.setsUp event = some a)
    {b : GatewaySlot} (hb : (s.perform event).slot a.gatewayId = some b) :
    (∀ more, ((s.perform event).after more).Spares b.duologue) ↔ s.Quiet a.gatewayId := by
  obtain ⟨hid, hnew⟩ := setsUp_slot hsets hb
  have hroster' := hroster.effect (s.perform_effect event)
  constructor
  · intro hspares
    obtain ⟨m, hperform, -⟩ := setsUp_eq_some hsets
    have hother : ∀ d : Duologue, d.subscription.registration < s.nextRegistration →
        d ≠ b.duologue := by
      rintro d hd rfl
      omega
    constructor
    · -- a message that is under way
      intro n hn hng
      obtain ⟨more, hmore⟩ := exists_not_spares_of_announcing (s := s.perform event)
        (by rw [hperform]) hb ⟨n, by rw [hperform]; exact hn, hng⟩ (by
          rw [hperform]
          exact fun n hn => hother _ (hroster.notices n hn).2)
      exact hmore (hspares more)
    · -- a subscription that still sends one
      intro d hd hdg
      have hclosing : d ∈ (s.perform event).closing := by
        rw [hperform]
        exact mem_become_closing.mpr (.inl hd)
      have hsend : (s.perform event).perform (.imageUnavailable d) =
          { s.perform event with cleanup := s.cleanup ++ [⟨d.gatewayId, d⟩] } := by
        have hlistening := mem_listening.mpr (.inr hclosing)
        rw [perform, if_pos hlistening, hperform]
        rfl
      obtain ⟨more, hmore⟩ := exists_not_spares_of_announcing
        (s := (s.perform event).perform (.imageUnavailable d)) (a := a) (b := b)
        (g := a.gatewayId) (by rw [hsend, hperform]) (by rw [hsend]; exact hb)
        ⟨⟨d.gatewayId, d⟩, by rw [hsend]; simp, hdg⟩ (by
          rw [hsend]
          intro n hn
          rcases List.mem_append.mp hn with hn | hn
          · exact hother _ (hroster.notices n hn).2
          · rw [List.mem_singleton.mp hn]
            exact hother d (hroster.closing d hd))
      exact hmore (hspares (.imageUnavailable d :: more))
  · intro hquiet more
    obtain ⟨hundisturbed, hroster''⟩ := (hquiet.undisturbed hsets b.duologue).after hroster'
      (hroster'.slots _ b hb).2 more
    exact hundisturbed.spares hroster'' hid

end Steps

end System

/-- In a run whose sessions are set up at quiet gateways no message takes another's session away;
and a session that is set up is safe in every continuation exactly when its gateway is quiet. -/
theorem run_spares_iff {config : CoreNetworkingConfig} {aeron : Aeron} {m : GatewayManager}
    (h : GatewayManager.new config aeron .new = .ok m) (clock : Nat) (events : List System.Event) :
    ((System.start m clock).Quietly events →
      ∀ d, ((System.start m clock).after events).Spares d) ∧
    ∀ event a b, ((System.start m clock).after events).setsUp event = some a →
      (((System.start m clock).after events).perform event).slot a.gatewayId = some b →
      ((∀ more, ((((System.start m clock).after events).perform event).after more).Spares
          b.duologue) ↔
        ((System.start m clock).after events).Quiet a.gatewayId) := by
  have hroster := System.Roster.start m clock (GatewayManager.new_slot h)
  constructor
  · intro hquiet d
    have hsettled : (System.start m clock).Settled := by
      intro g a ha
      cases (GatewayManager.new_slot h g).symm.trans ha
    obtain ⟨hafter, hroster'⟩ := hsettled.after hroster hquiet
    exact hafter.spares hroster' d
  · intro event a b hsets hb
    exact System.spares_iff_quiet (hroster.after events) hsets hb

def firstSession : Duologue := ⟨3, ⟨1, "aeron:udp?endpoint=localhost:50000|session-id=1000", 1002⟩⟩

def secondSession : Duologue :=
  ⟨3, ⟨3, "aeron:udp?endpoint=localhost:50002|session-id=1002", 1002⟩⟩

/-- A gateway connects and is disconnected; its subscription, not closed yet, sends once more. -/
def disconnect : List System.Event :=
  connect 0 "HELLO gateway-3 5" ++
    [.imageUnavailable firstSession, .poll, .receive, .receive, .imageUnavailable firstSession]

/-- The gateway comes back and the next poll begins. -/
def comeBack : List System.Event := disconnect ++ connect 2 "HELLO gateway-3 6" ++ [.poll]

def secondHandshake : System.Event :=
  .handshake (granted 2) 7 "HELLO gateway-3 6".toUTF8.data.toList

theorem run_spares_iff_disconnect :
    (∀ d, ((System.start exampleManager 0).after disconnect).Spares d) ∧
      ¬∀ more, ((((System.start exampleManager 0).after disconnect).perform secondHandshake).after
        more).Spares secondSession := by
  refine ⟨(run_spares_iff exampleManager_new 0 disconnect).1 ?_, ?_⟩
  · refine ⟨fun a _ => ⟨?_, ?_⟩, ?_, ?_, ?_, ?_, ?_, ?_, trivial⟩
    · intro n hn
      cases hn
    · intro d hd
      cases hd
    all_goals
      intro a ha
      cases ha
  · intro hspares
    have hquiet := ((run_spares_iff exampleManager_new 0 disconnect).2 secondHandshake
      ⟨7, 3, 1002, 50002, 50003, xorI32 6 1002⟩ ⟨secondSession, 50002, 50003, 1002⟩
      (by decide +kernel) (by decide +kernel)).mp hspares
    exact hquiet.closing firstSession (by decide +kernel) rfl

/-- The late message of the first session takes the second one away. -/
theorem comeBack_not_spares :
    ¬∀ (events : List System.Event) (d : Duologue),
      ((System.start exampleManager 0).after events).Spares d := by
  intro h
  have hkept := h comeBack secondSession (by decide +kernel) ⟨3, firstSession⟩ []
    (by decide +kernel) (by decide) 3 ⟨secondSession, 50002, 50003, 1002⟩ (by decide +kernel) rfl
  exact absurd hkept.1 (by decide +kernel)

end VexCore.Networking
