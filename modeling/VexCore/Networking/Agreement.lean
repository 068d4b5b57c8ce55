import VexCore.Networking.Protocol

/-!
# What the core and its gateways agree on

Every text on the stream of answers belongs to a session. The core answers a greeting once, so a
gateway that has read an acceptance knows the one session that was set up for it.
-/

namespace VexCore.Networking

open GatewayManager

namespace World

variable (stranger : Int → Bool)

def Unaccepted (w : World) (session : Int) : Prop :=
  ∀ a ∈ w.acceptances, a.clientSession ≠ session

/-- An acceptance fits its texts and belongs to a greeting that has arrived. -/
structure Accepted (w : World) (a : Acceptance) : Prop where
  session : IsI32 a.clientSession
  gateway : a.gatewayId < maxGateways
  data : a.portData < 2 ^ 16
  control : a.portControl < 2 ^ 16
  dedicated : IsI32 a.dedicatedSession
  encrypted : IsI32 a.encryptedSession
  known : stranger a.clientSession = true ∨ ∃ g, w.gateways a.clientSession = some g ∧
    g.underWay = false ∧ a.gatewayId = g.gatewayId ∧
    a.encryptedSession = xorI32 g.encryptionKey a.dedicatedSession

/-- An answer announces an acceptance, or it turns down a greeting that was not accepted. -/
def Sound (w : World) (text : String) : Prop :=
  (∃ a ∈ w.acceptances, text = Acceptance.message a) ∨
    ∃ session, IsI32 session ∧ Refuses session text ∧ (stranger session = true ∨
      ∃ g, w.gateways session = some g ∧ g.underWay = false ∧ w.Unaccepted session)

/-- What a gateway has heard is an acceptance of its greeting, or that it was turned down. -/
def Justifies (w : World) (session : Int) (g : Gateway) (response : CoreResponse) : Prop :=
  (∃ a ∈ w.acceptances, a.clientSession = session ∧
      response = .accept a.portData a.portControl a.encryptedSession a.gatewayId) ∨
    ∃ reason, response = .reject reason ∧ g.underWay = false ∧ w.Unaccepted session

/-- The core holds what it has accepted, or has freed its ports since. -/
structure Keeps (w : World) (a : Acceptance) : Prop where
  before : w.freedBefore a ≤ w.core.freed.length
  held : w.core.Holds a ∨ w.core.GaveUp (w.freedBefore a) a

structure Consistent (config : CoreNetworkingConfig) (w : World) : Prop where
  core : Invariant config w.core
  announcing : ∀ a, w.core.activity = .announcing a → a ∈ w.acceptances
  held : ∀ a ∈ w.acceptances, w.Keeps a
  own : ∀ session g, w.gateways session = some g → stranger session = false ∧ IsI32 session ∧
    IsI32 g.encryptionKey ∧ g.gatewayId < 2 ^ 8
  accepted : ∀ a ∈ w.acceptances, w.Accepted stranger a
  once : ∀ a ∈ w.acceptances, ∀ b ∈ w.acceptances, stranger a.clientSession = false →
    b.clientSession = a.clientSession → b = a
  answers : ∀ text ∈ w.answers, w.Sound stranger text
  heard : ∀ session g, w.gateways session = some g → ∀ response,
    g.response = some response ∨ g.ending = some (.answered response) →
    w.Justifies session g response

variable {stranger}

/-- The gateways of `w'` are those of `w`, with the same greetings. -/
structure SameGreetings (w w' : World) : Prop where
  acceptances : w'.acceptances = w.acceptances
  kept : ∀ session g, w.gateways session = some g → ∃ g', w'.gateways session = some g' ∧
    g'.gatewayId = g.gatewayId ∧ g'.encryptionKey = g.encryptionKey ∧ g'.underWay = g.underWay

section SameGreetings

variable {w w' : World} (h : SameGreetings w w')

include h

theorem SameGreetings.unaccepted {session : Int} (hw : w.Unaccepted session) :
    w'.Unaccepted session := by
  intro a ha
  rw [h.acceptances] at ha
  exact hw a ha

theorem SameGreetings.accepted {a : Acceptance} (ha : w.Accepted stranger a) :
    w'.Accepted stranger a := by
  refine ⟨ha.session, ha.gateway, ha.data, ha.control, ha.dedicated, ha.encrypted, ?_⟩
  rcases ha.known with hstranger | ⟨g, hg, hunderWay, hid, hkey⟩
  · exact .inl hstranger
  · obtain ⟨g', hg', hid', hkey', hunderWay'⟩ := h.kept _ g hg
    exact .inr ⟨g', hg', hunderWay'.trans hunderWay, hid.trans hid'.symm, by rw [hkey, hkey']⟩

theorem SameGreetings.sound {text : String} (ht : w.Sound stranger text) :
    w'.Sound stranger text := by
  rcases ht with ⟨a, ha, htext⟩ | ⟨session, hsession, hrefuses, hknown⟩
  · exact .inl ⟨a, h.acceptances.symm ▸ ha, htext⟩
  · refine .inr ⟨session, hsession, hrefuses, ?_⟩
    rcases hknown with hstranger | ⟨g, hg, hunderWay, hnone⟩
    · exact .inl hstranger
    · obtain ⟨g', hg', -, -, hunderWay'⟩ := h.kept _ g hg
      exact .inr ⟨g', hg', hunderWay'.trans hunderWay, h.unaccepted hnone⟩

theorem SameGreetings.justifies {session : Int} {g g' : Gateway} {response : CoreResponse}
    (hunderWay : g'.underWay = g.underWay) (hr : w.Justifies session g response) :
    w'.Justifies session g' response := by
  rcases hr with ⟨a, ha, hsession, hresponse⟩ | ⟨reason, hresponse, harrived, hnone⟩
  · exact .inl ⟨a, h.acceptances.symm ▸ ha, hsession, hresponse⟩
  · exact .inr ⟨reason, hresponse, hunderWay.trans harrived, h.unaccepted hnone⟩

end SameGreetings

theorem Keeps.setGateway {w : World} {a : Acceptance} (h : w.Keeps a) (session : Int)
    (g : Gateway) : (w.setGateway session g).Keeps a := ⟨h.before, h.held⟩

theorem Keeps.perform {w w' : World} {a : Acceptance} (h : w.Keeps a) {event : System.Event}
    (hcore : w'.core = w.core.perform event) (hbefore : w'.freedBefore a = w.freedBefore a) :
    w'.Keeps a := by
  constructor
  · rw [hcore, hbefore]
    exact h.before.trans (w.core.freed_length_perform event)
  · rw [hcore, hbefore]
    exact System.holds_perform h.held h.before event

namespace Consistent

variable {config : CoreNetworkingConfig} {w : World}

theorem start {aeron : Aeron} {m : GatewayManager}
    (h : GatewayManager.new config aeron .new = .ok m) (clock : Nat) :
    Consistent stranger config (World.start m clock) where
  core := .start h clock
  announcing _ ha := by cases ha
  held _ ha := by cases ha
  own _ _ hg := by cases hg
  accepted _ ha := by cases ha
  once _ ha := by cases ha
  answers _ ht := by cases ht
  heard _ _ hg := by cases hg

theorem unaccepted (h : Consistent stranger config w) {session : Int} {g : Gateway}
    (hg : w.gateways session = some g) (hunderWay : g.underWay = true) : w.Unaccepted session := by
  intro a ha hsession
  rcases (h.accepted a ha).known with hstranger | ⟨g', hg', harrived, -⟩
  · rw [hsession, (h.own session g hg).1] at hstranger
    cases hstranger
  · rw [hsession, hg] at hg'
    cases hg'
    rw [hunderWay] at harrived
    cases harrived

/-- A gateway ignores an answer, or is told the truth. -/
theorem read (h : Consistent stranger config w) {session : Int} {g : Gateway}
    (hg : w.gateways session = some g) {text : String} (ht : w.Sound stranger text) :
    parseCoreResponse text.toList session g.gatewayId = .ignore ∨
      w.Justifies session g (parseCoreResponse text.toList session g.gatewayId) := by
  rcases ht with ⟨a, ha, rfl⟩ | ⟨session', hsession', hrefuses, hknown⟩
  · have haccepted := h.accepted a ha
    have hread : OnlyRead (Acceptance.message a) a.clientSession a.gatewayId
        (.accept a.portData a.portControl a.encryptedSession a.gatewayId) :=
      onlyRead_message haccepted.session.1 haccepted.session.2
        (haccepted.gateway.trans (by decide)) haccepted.data haccepted.control haccepted.encrypted
    by_cases haddressed : session = a.clientSession ∧ g.gatewayId = a.gatewayId
    · obtain ⟨hsession, hid⟩ := haddressed
      rw [hsession, hid, hread.addressee]
      exact .inr (.inl ⟨a, ha, rfl, rfl⟩)
    · exact .inl (hread.others _ _ (not_and_or.mp haddressed))
  · rcases hrefuses.read hsession'.1 hsession'.2 with ⟨id, -, reason, -, hread⟩ | hunread
    · by_cases haddressed : session = session' ∧ g.gatewayId = id
      · obtain ⟨rfl, hid⟩ := haddressed
        rw [hid, hread.addressee]
        rcases hknown with hstranger | ⟨g', hg', harrived, hnone⟩
        · rw [(h.own session g hg).1] at hstranger
          cases hstranger
        · rw [hg] at hg'
          cases hg'
          exact .inr (.inr ⟨reason.text, rfl, harrived, hnone⟩)
      · exact .inl (hread.others _ _ (not_and_or.mp haddressed))
    · exact .inl (hunread _ _)

/-- An act that changes no greeting. -/
theorem same (h : Consistent stranger config w) {w' : World} (hsame : SameGreetings w w')
    (hcore : Invariant config w'.core)
    (hannouncing : ∀ a, w'.core.activity = .announcing a → a ∈ w.acceptances)
    (hheld : ∀ a ∈ w.acceptances, w'.Keeps a)
    (hanswers : ∀ text ∈ w'.answers, w.Sound stranger text)
    (hown : ∀ session g, w'.gateways session = some g → stranger session = false ∧
      IsI32 session ∧ IsI32 g.encryptionKey ∧ g.gatewayId < 2 ^ 8)
    (hheard : ∀ session g, w'.gateways session = some g → ∀ response,
      g.response = some response ∨ g.ending = some (.answered response) →
      w'.Justifies session g response) : Consistent stranger config w' where
  core := hcore
  announcing a ha := hsame.acceptances.symm ▸ hannouncing a ha
  held a ha := hheld a (hsame.acceptances ▸ ha)
  own := hown
  accepted a ha := hsame.accepted (h.accepted a (hsame.acceptances ▸ ha))
  once a ha b hb := h.once a (hsame.acceptances ▸ ha) b (hsame.acceptances ▸ hb)
  answers text ht := hsame.sound (hanswers text ht)
  heard := hheard

theorem goesOn (h : Consistent stranger config w) (event : System.Event)
    (hevent : ∀ outcomes session buffer, event ≠ .handshake outcomes session buffer)
    {answers : List String} (hanswers : ∀ text ∈ answers, w.Sound stranger text) :
    Consistent stranger config { w with core := w.core.perform event, answers } := by
  have hsame : SameGreetings w { w with core := w.core.perform event, answers } :=
    ⟨rfl, fun session g hg => ⟨g, hg, rfl, rfl, rfl⟩⟩
  refine h.same hsame (h.core.effect (w.core.perform_effect event)) ?_
    (fun a ha => (h.held a ha).perform rfl rfl) hanswers h.own ?_
  · intro a ha
    apply h.announcing a
    have heffect : (w.core.perform event).activity = .announcing a →
        w.core.activity = .announcing a := by
      cases event with
      | handshake outcomes session buffer => exact absurd rfl (hevent _ _ _)
      | elapse time => exact id
      | closed d => exact id
      | imageUnavailable d =>
        simp only [System.perform]
        split <;> exact id
      | shutdown =>
        simp only [System.perform]
        split <;> exact id
      | answer connected offers =>
        simp only [System.perform]
        split
        · exact fun hidle => by cases hidle
        · exact id
      | poll =>
        simp only [System.perform]
        split
        · exact fun hdraining => by cases hdraining
        · exact id
      | receive =>
        simp only [System.perform]
        split
        · split
          · exact fun hidle => by cases hidle
          · exact id
        · exact id
    exact heffect ha
  · intro session g hg response hresponse
    exact hsame.justifies rfl (h.heard session g hg response hresponse)

/-- A gateway goes on, with the same greeting and nothing heard that is not so. -/
theorem waiting (h : Consistent stranger config w) (session : Int) (next : Gateway → Gateway)
    (hnext : ∀ g, w.gateways session = some g → g.ending = none →
      ((next g).gatewayId = g.gatewayId ∧ (next g).encryptionKey = g.encryptionKey ∧
        (next g).underWay = g.underWay) ∧
      ∀ response, (next g).response = some response ∨
        (next g).ending = some (.answered response) → w.Justifies session g response) :
    Consistent stranger config (w.waiting session next) := by
  unfold World.waiting
  cases hg : w.gateways session with
  | none => exact h
  | some g =>
    simp only
    split
    · next hending =>
      obtain ⟨⟨hid, hkey, hunderWay⟩, hjustified⟩ := hnext g hg hending
      have hgateways {session' : Int} {g' : Gateway}
          (hg' : (w.setGateway session (next g)).gateways session' = some g') :
          (session' = session ∧ g' = next g) ∨
            (session' ≠ session ∧ w.gateways session' = some g') := by
        by_cases hsession : session' = session
        · subst hsession
          exact .inl ⟨rfl, by simpa [setGateway] using hg'.symm⟩
        · exact .inr ⟨hsession, by simpa [setGateway, hsession] using hg'⟩
      have hsame : SameGreetings w (w.setGateway session (next g)) := by
        refine ⟨rfl, fun session' g' hg' => ?_⟩
        by_cases hsession : session' = session
        · subst hsession
          rw [hg] at hg'
          cases hg'
          exact ⟨next g, by simp [setGateway], hid, hkey, hunderWay⟩
        · exact ⟨g', by simpa [setGateway, hsession] using hg', rfl, rfl, rfl⟩
      refine h.same hsame h.core h.announcing (fun a ha => (h.held a ha).setGateway _ _)
        h.answers ?_ ?_
      · intro session' g' hg'
        rcases hgateways hg' with ⟨rfl, rfl⟩ | ⟨-, hold⟩
        · rw [hid, hkey]
          exact h.own _ g hg
        · exact h.own _ g' hold
      · intro session' g' hg' response hresponse
        rcases hgateways hg' with ⟨rfl, rfl⟩ | ⟨-, hold⟩
        · exact hsame.justifies hunderWay (hjustified response hresponse)
        · exact hsame.justifies rfl (h.heard _ g' hold response hresponse)
    · exact h

theorem hear (h : Consistent stranger config w) {session : Int} {text : String}
    (ht : text ∈ w.answers) :
    Consistent stranger config (w.waiting session fun g => g.hear session text) := by
  apply h.waiting
  intro g hg _
  have hold := h.heard session g hg
  unfold Gateway.hear
  dsimp only
  split
  · next hread =>
    refine ⟨⟨rfl, rfl, rfl⟩, ?_⟩
    intro response hresponse
    rcases hresponse with hresponse | hending
    · obtain rfl := Option.some.inj hresponse
      exact (h.read hg (h.answers text ht)).resolve_left hread
    · exact hold response (.inr hending)
  · exact ⟨⟨rfl, rfl, rfl⟩, hold⟩

theorem conclude (h : Consistent stranger config w) (session : Int) :
    Consistent stranger config (w.waiting session Gateway.conclude) := by
  apply h.waiting
  intro g hg _
  have hold := h.heard session g hg
  unfold Gateway.conclude
  cases hresponse : g.response with
  | none => exact ⟨⟨rfl, rfl, rfl⟩, hold⟩
  | some heard =>
    refine ⟨⟨rfl, rfl, rfl⟩, ?_⟩
    intro response htaken
    rcases htaken with hnone | hending
    · cases hnone
    · cases hending
      exact hold _ (.inl hresponse)

theorem timeOut (h : Consistent stranger config w) (session : Int) :
    Consistent stranger config
      (w.waiting session fun g => { g with ending := some .timedOut }) := by
  apply h.waiting
  intro g hg _
  refine ⟨⟨rfl, rfl, rfl⟩, ?_⟩
  intro response hresponse
  rcases hresponse with hresponse | hending
  · exact h.heard session g hg response (.inl hresponse)
  · cases hending

/-- A new gateway has a session of its own, which nothing in the world names. -/
theorem greet (h : Consistent stranger config w) {session : Int} {gatewayId : Nat}
    {encryptionKey : Int} (hunused : w.gateways session = none)
    (hown : stranger session = false) (hsession : IsI32 session) (hkey : IsI32 encryptionKey)
    (hgateway : gatewayId < 2 ^ 8) :
    Consistent stranger config (w.setGateway session { gatewayId, encryptionKey }) := by
  have hother {session' : Int} {g : Gateway} (hg : w.gateways session' = some g) :
      session' ≠ session := by
    rintro rfl
    rw [hunused] at hg
    cases hg
  have hsame : SameGreetings w (w.setGateway session { gatewayId, encryptionKey }) :=
    ⟨rfl, fun session' g hg => ⟨g, by simpa [setGateway, hother hg] using hg, rfl, rfl, rfl⟩⟩
  refine h.same hsame h.core h.announcing (fun a ha => (h.held a ha).setGateway _ _) h.answers ?_ ?_
  · intro session' g hg
    by_cases heq : session' = session
    · subst heq
      have hnew : { gatewayId, encryptionKey } = g := by simpa [setGateway] using hg
      rw [← hnew]
      exact ⟨hown, hsession, hkey, hgateway⟩
    · exact h.own session' g (by simpa [setGateway, heq] using hg)
  · intro session' g hg response hresponse
    by_cases heq : session' = session
    · subst heq
      have hnew : { gatewayId, encryptionKey } = g := by simpa [setGateway] using hg
      rw [← hnew] at hresponse
      rcases hresponse with hnone | hnone <;> cases hnone
    · have hold : w.gateways session' = some g := by simpa [setGateway, heq] using hg
      exact hsame.justifies rfl (h.heard session' g hold response hresponse)

end Consistent

/-- The greeting of a gateway reaches the core; nobody else's changes anything here. -/
def arrive (w : World) (session : Int) : World :=
  match w.gateways session with
  | some g => w.setGateway session { g with underWay := false }
  | none => w

/-- A message that reaches the core is the greeting of a gateway, or a stranger's. -/
def Arrives (stranger : Int → Bool) (w : World) (session : Int) (buffer : List UInt8) : Prop :=
  stranger session = true ∨
    ∃ g, w.gateways session = some g ∧ g.underWay = true ∧ buffer = g.greeting

section Receive

variable {config : CoreNetworkingConfig} {w : World} {outcomes : Outcomes} {session : Int}
  {buffer : List UInt8}

theorem arrive_eq (w : World) (session : Int) :
    w.arrive session = { w with gateways := (w.arrive session).gateways } := by
  unfold arrive
  split <;> rfl

theorem arrive_gateways_ne {session' : Int} (hne : session' ≠ session) :
    (w.arrive session).gateways session' = w.gateways session' := by
  unfold arrive
  split
  · simp [setGateway, hne]
  · rfl

theorem arrive_gateways_self : (w.arrive session).gateways session =
    (w.gateways session).map fun g => { g with underWay := false } := by
  unfold arrive
  split
  · next g hg => simp [setGateway, hg]
  · next hnone => simp [hnone]

/-- The core turns a message down or sets up a session for it, and not both. -/
theorem receive_cases (hidle : w.core.activity = .idle) :
    (∃ a, (w.receive outcomes session buffer).acceptances = w.acceptances ++ [a] ∧
        (w.receive outcomes session buffer).answers = w.answers ∧
        (w.receive outcomes session buffer).core.activity = .announcing a ∧
        (w.core.manager.processHandshakeMessage w.core.clock outcomes session buffer).2 = .ok a) ∨
      ((w.receive outcomes session buffer).acceptances = w.acceptances ∧
        (∀ text ∈ (w.receive outcomes session buffer).answers,
          text ∈ w.answers ∨ Refuses session text) ∧
        (w.receive outcomes session buffer).core.activity = .idle) := by
  have hactivity : (w.receive outcomes session buffer).core.activity = .next
      (w.core.manager.processHandshakeMessage w.core.clock outcomes session buffer).2 := by
    simp only [receive, System.perform, if_pos hidle]
  cases hprocessed :
      (w.core.manager.processHandshakeMessage w.core.clock outcomes session buffer).2 with
  | ok a =>
    obtain ⟨hnotRefused, -⟩ := processHandshakeMessage_ok hprocessed
    rw [hprocessed] at hactivity
    refine .inl ⟨a, ?_, ?_, hactivity, rfl⟩
    · simp only [receive, hprocessed]
    · simp only [receive, hnotRefused, List.append_nil]
  | error e =>
    rw [hprocessed] at hactivity
    refine .inr ⟨?_, ?_, hactivity⟩
    · simp only [receive, hprocessed, List.append_nil]
    · intro text ht
      simp only [receive, List.mem_append] at ht
      rcases ht with hold | hnew
      · exact .inl hold
      · right
        cases hrefusal : w.core.manager.refusalText outcomes session buffer with
        | none => simp [hrefusal] at hnew
        | some refusal =>
          cases hsent : outcomes.replySent with
          | error e => simp [hrefusal, hsent] at hnew
          | ok _ =>
            simp only [hrefusal, hsent, List.mem_singleton] at hnew
            subst hnew
            exact refuses_of_refusalText hrefusal

theorem receive_since {a : Acceptance}
    (h : (w.core.manager.processHandshakeMessage w.core.clock outcomes session buffer).2 = .ok a) :
    (w.receive outcomes session buffer).freedBefore a = w.core.freed.length := by
  simp only [receive, h, Function.update_self]

theorem receive_earlier {a : Acceptance}
    (h : (w.core.manager.processHandshakeMessage w.core.clock outcomes session buffer).2 ≠ .ok a) :
    (w.receive outcomes session buffer).freedBefore a = w.freedBefore a := by
  unfold receive
  cases hprocessed :
      (w.core.manager.processHandshakeMessage w.core.clock outcomes session buffer).2 with
  | error e => simp only
  | ok b =>
    simp only
    refine Function.update_of_ne ?_ _ _
    rintro rfl
    exact h hprocessed

/-- What becomes of the world when a message of the session reaches the core. -/
structure Receives (w w' : World) (outcomes : Outcomes) (session : Int) (buffer : List UInt8) :
    Prop where
  core : w'.core = w.core.perform (.handshake outcomes session buffer)
  gateways : w'.gateways = (w.arrive session).gateways
  older : ∀ a ∈ w.acceptances, a ∈ w'.acceptances
  newer : ∀ a ∈ w'.acceptances, a ∈ w.acceptances ∨
    (w.core.manager.processHandshakeMessage w.core.clock outcomes session buffer).2 = .ok a
  answers : ∀ text ∈ w'.answers, text ∈ w.answers ∨
    Refuses session text ∧ w'.acceptances = w.acceptances
  announcing : ∀ a, w'.core.activity = .announcing a → a ∈ w'.acceptances
  since : ∀ a,
    (w.core.manager.processHandshakeMessage w.core.clock outcomes session buffer).2 = .ok a →
    w'.freedBefore a = w.core.freed.length
  earlier : ∀ a,
    (w.core.manager.processHandshakeMessage w.core.clock outcomes session buffer).2 ≠ .ok a →
    w'.freedBefore a = w.freedBefore a

theorem receives_receive (hidle : w.core.activity = .idle) :
    Receives w ((w.arrive session).receive outcomes session buffer) outcomes session buffer := by
  have hcore : (w.arrive session).core = w.core := by rw [arrive_eq]
  have hold : (w.arrive session).acceptances = w.acceptances ∧
      (w.arrive session).answers = w.answers := by
    rw [arrive_eq]
    exact ⟨rfl, rfl⟩
  have hbefore : (w.arrive session).freedBefore = w.freedBefore := by rw [arrive_eq]
  have hcases := @receive_cases (w.arrive session) outcomes session buffer (hcore ▸ hidle)
  have hperformed : ((w.arrive session).receive outcomes session buffer).core =
      w.core.perform (.handshake outcomes session buffer) := by
    rw [arrive_eq]
    rfl
  have hgateways : ((w.arrive session).receive outcomes session buffer).gateways =
      (w.arrive session).gateways := rfl
  have hsince := fun a => @receive_since (w.arrive session) outcomes session buffer a
  have hearlier := fun a => @receive_earlier (w.arrive session) outcomes session buffer a
  rw [hcore] at hsince hearlier
  rw [hbefore] at hearlier
  rw [hcore, hold.1, hold.2] at hcases
  generalize (w.arrive session).receive outcomes session buffer = w' at *
  rcases hcases with ⟨a, hacceptances, hsame, hactivity, hprocessed⟩ | ⟨hsame, hrefused, hactivity⟩
  · refine ⟨hperformed, hgateways, fun b hb => ?_, fun b hb => ?_, fun text ht => ?_,
      fun b hb => ?_, hsince, hearlier⟩
    · rw [hacceptances]
      exact List.mem_append_left _ hb
    · rw [hacceptances] at hb
      rcases List.mem_append.mp hb with hb | hb
      · exact .inl hb
      · rw [List.mem_singleton.mp hb]
        exact .inr hprocessed
    · exact .inl (hsame ▸ ht)
    · rw [hactivity] at hb
      cases hb
      rw [hacceptances]
      exact List.mem_append_right _ (List.mem_singleton_self a)
  · refine ⟨hperformed, hgateways, fun b hb => ?_, fun b hb => ?_, fun text ht => ?_,
      fun b hb => ?_, hsince, hearlier⟩
    · rwa [hsame]
    · exact .inl (hsame ▸ hb)
    · exact (hrefused text ht).imp_right fun hrefuses => ⟨hrefuses, hsame⟩
    · rw [hactivity] at hb
      cases hb

namespace Receives

variable {w' : World} (r : Receives w w' outcomes session buffer)

include r

theorem from_gateway {session' : Int} {g' : Gateway} (hg' : w'.gateways session' = some g') :
    ∃ g, w.gateways session' = some g ∧ (g' = g ∨ g' = { g with underWay := false }) := by
  rw [r.gateways] at hg'
  by_cases hsession' : session' = session
  · subst hsession'
    rw [arrive_gateways_self] at hg'
    obtain ⟨g, hg, rfl⟩ := Option.map_eq_some_iff.mp hg'
    exact ⟨g, hg, .inr rfl⟩
  · rw [arrive_gateways_ne hsession'] at hg'
    exact ⟨g', hg', .inl rfl⟩

theorem gateways_self {g : Gateway} (hg : w.gateways session = some g) :
    w'.gateways session = some { g with underWay := false } := by
  rw [r.gateways, arrive_gateways_self, hg]
  rfl

theorem gateways_ne {session' : Int} (hne : session' ≠ session) :
    w'.gateways session' = w.gateways session' := by
  rw [r.gateways, arrive_gateways_ne hne]

theorem unaccepted_ne {session' : Int} (hne : session' ≠ session)
    (hnone : w.Unaccepted session') : w'.Unaccepted session' := by
  intro a ha
  rcases r.newer a ha with ha | hprocessed
  · exact hnone a ha
  · obtain ⟨-, -, -, -, -, hclient, -⟩ := processHandshakeMessage_ok hprocessed
    rw [hclient]
    exact hne.symm

end Receives

variable (h : Consistent stranger config w) (harrives : w.Arrives stranger session buffer)

include h harrives

/-- A gateway that has greeted before is another one. -/
theorem Arrives.other {session' : Int} {g : Gateway} (hg : w.gateways session' = some g)
    (harrived : g.underWay = false) : session' ≠ session := by
  rintro rfl
  rcases harrives with hstranger | ⟨g', hg', hunderWay, -⟩
  · rw [(h.own _ g hg).1] at hstranger
    cases hstranger
  · rw [hg] at hg'
    cases hg'
    rw [harrived] at hunderWay
    cases hunderWay

/-- The session of a message that just arrives has not been accepted before, unless it is a
stranger's. -/
theorem Arrives.unaccepted : stranger session = true ∨ w.Unaccepted session := by
  rcases harrives with hstranger | ⟨g, hg, hunderWay, -⟩
  · exact .inl hstranger
  · exact .inr (h.unaccepted hg hunderWay)

variable {w' : World} (r : Receives w w' outcomes session buffer)

include r

/-- What is accepted is the greeting of the gateway. -/
theorem Arrives.accepted (ids : IsI32 config.reservedSessionIdLow ∧ IsI32 config.reservedSessionIdHigh)
    (hsession : IsI32 session) (hidle : w.core.activity = .idle) {a : Acceptance}
    (hprocessed :
      (w.core.manager.processHandshakeMessage w.core.clock outcomes session buffer).2 = .ok a) :
    w'.Accepted stranger a := by
  obtain ⟨-, message, hello, hmessage, hhello, hclient, hid, hencrypted⟩ :=
    processHandshakeMessage_ok hprocessed
  have hafter := h.core.effect (w.core.perform_effect (.handshake outcomes session buffer))
  obtain ⟨d, hd⟩ := System.holds_handshake hidle hprocessed
  have hports := hafter.portRange _ _ PortKind.data hd
  have hcontrol := hafter.portRange _ _ PortKind.control hd
  have hbound : config.baseGatewayPort + config.maxGateways ≤ 2 ^ 16 := by
    have htop := h.core.topPort
    have hvalid := w.core.manager.portAllocator.valid
    omega
  have hdedicated := hafter.sessionRange _ _ hd
  refine ⟨hclient ▸ hsession, hid ▸ parseHello_lt hhello, hports.2.trans_le hbound,
    hcontrol.2.trans_le hbound, ?_, hencrypted ▸ xorI32_range _ _, ?_⟩
  · exact ⟨ids.1.1.trans hdedicated.1, hdedicated.2.trans ids.2.2⟩
  · rw [hclient]
    rcases harrives with hstranger | ⟨g, hg, -, rfl⟩
    · exact .inl hstranger
    · right
      have hwritten : fromUtf8 g.greeting = some (helloMessage g.gatewayId g.encryptionKey).toList :=
        fromUtf8_encode _
      obtain ⟨-, -, hkey, hgateway⟩ := h.own session g hg
      obtain rfl := Option.some.inj (hwritten.symm.trans hmessage)
      rw [parseHello_eq hgateway hkey hhello] at hid hencrypted
      exact ⟨{ g with underWay := false }, r.gateways_self hg, rfl, hid, hencrypted⟩

/-- The message belongs to none of the greetings that came before. -/
theorem Arrives.kept {session' : Int} {g : Gateway} (hg : w.gateways session' = some g)
    (harrived : g.underWay = false) : w'.gateways session' = some g := by
  rw [r.gateways_ne (harrives.other h hg harrived), hg]

/-- A session is accepted once. -/
theorem Arrives.once : ∀ a ∈ w'.acceptances, ∀ b ∈ w'.acceptances,
    stranger a.clientSession = false → b.clientSession = a.clientSession → b = a := by
  intro a ha b hb hstranger hsame
  have hclient {a : Acceptance} (ha : (w.core.manager.processHandshakeMessage
      w.core.clock outcomes session buffer).2 = .ok a) : a.clientSession = session := by
    obtain ⟨-, -, -, -, -, hclient, -⟩ := processHandshakeMessage_ok ha
    exact hclient
  -- a session that has been accepted before is not the one that arrives
  have hbefore {c : Acceptance} (hc : c ∈ w.acceptances)
      (hown : stranger c.clientSession = false) : c.clientSession ≠ session := by
    intro hc'
    rcases harrives.unaccepted h with hforeign | hnone
    · rw [hc', hforeign] at hown
      cases hown
    · exact hnone c hc hc'
  rcases r.newer a ha with ha | ha' <;> rcases r.newer b hb with hb | hb'
  · exact h.once a ha b hb hstranger hsame
  · exact absurd (hsame.symm.trans (hclient hb')) (hbefore ha hstranger)
  · exact absurd (hsame.trans (hclient ha')) (hbefore hb (hsame ▸ hstranger))
  · rw [ha'] at hb'
    exact (Except.ok.inj hb').symm

theorem Arrives.sound (hsession : IsI32 session) {text : String} (ht : text ∈ w'.answers) :
    w'.Sound stranger text := by
  rcases r.answers text ht with ht | ⟨hrefuses, hsame⟩
  · rcases h.answers text ht with ⟨a, ha, htext⟩ | ⟨session', hsession', hrefuses, hknown⟩
    · exact .inl ⟨a, r.older a ha, htext⟩
    · refine .inr ⟨session', hsession', hrefuses, hknown.imp_right ?_⟩
      intro ⟨g, hg, harrived, hnone⟩
      exact ⟨g, harrives.kept h r hg harrived, harrived,
        r.unaccepted_ne (harrives.other h hg harrived) hnone⟩
  · refine .inr ⟨session, hsession, hrefuses, harrives.imp_right ?_⟩
    intro ⟨g, hg, hunderWay, _⟩
    refine ⟨{ g with underWay := false }, r.gateways_self hg, rfl, fun a ha => ?_⟩
    exact h.unaccepted hg hunderWay a (hsame ▸ ha)

theorem Arrives.justifies {session' : Int} {g' : Gateway} (hg' : w'.gateways session' = some g')
    {response : CoreResponse}
    (hresponse : g'.response = some response ∨ g'.ending = some (.answered response)) :
    w'.Justifies session' g' response := by
  obtain ⟨g, hg, hg'⟩ := r.from_gateway hg'
  have hheard : g.response = some response ∨ g.ending = some (.answered response) := by
    rcases hg' with rfl | rfl <;> exact hresponse
  rcases h.heard session' g hg response hheard with
    ⟨a, ha, hclient, hresponse⟩ | ⟨reason, hresponse, harrived, hnone⟩
  · exact .inl ⟨a, r.older a ha, hclient, hresponse⟩
  · refine .inr ⟨reason, hresponse, ?_, r.unaccepted_ne (harrives.other h hg harrived) hnone⟩
    rcases hg' with rfl | rfl
    · exact harrived
    · rfl

omit r in
theorem Consistent.receive
    (ids : IsI32 config.reservedSessionIdLow ∧ IsI32 config.reservedSessionIdHigh)
    (hsession : IsI32 session) (hidle : w.core.activity = .idle) :
    Consistent stranger config ((w.arrive session).receive outcomes session buffer) := by
  have r := @receives_receive w outcomes session buffer hidle
  constructor
  · rw [r.core]
    exact h.core.effect (w.core.perform_effect _)
  · exact r.announcing
  · intro a ha
    by_cases hprocessed :
        (w.core.manager.processHandshakeMessage w.core.clock outcomes session buffer).2 = .ok a
    · constructor
      · rw [r.core, r.since a hprocessed]
        exact w.core.freed_length_perform _
      · rw [r.core]
        exact .inl (System.holds_handshake hidle hprocessed)
    · exact (h.held a ((r.newer a ha).resolve_right hprocessed)).perform r.core
        (r.earlier a hprocessed)
  · intro session' g' hg'
    obtain ⟨g, hg, rfl | rfl⟩ := r.from_gateway hg'
    · exact h.own session' _ hg
    · exact h.own session' g hg
  · intro a ha
    rcases r.newer a ha with ha | hprocessed
    · have haccepted := h.accepted a ha
      refine ⟨haccepted.session, haccepted.gateway, haccepted.data, haccepted.control,
        haccepted.dedicated, haccepted.encrypted, haccepted.known.imp_right ?_⟩
      intro ⟨g, hg, harrived, hagrees⟩
      exact ⟨g, harrives.kept h r hg harrived, harrived, hagrees⟩
    · exact harrives.accepted h r ids hsession hidle hprocessed
  · exact harrives.once h r
  · exact fun text ht => harrives.sound h r hsession ht
  · exact fun session' g' hg' response hresponse => harrives.justifies h r hg' hresponse

end Receive

section Runs

variable {config : CoreNetworkingConfig} {w : World}

theorem Consistent.perform
    (ids : IsI32 config.reservedSessionIdLow ∧ IsI32 config.reservedSessionIdHigh)
    (h : Consistent stranger config w) (act : Act) :
    Consistent stranger config (w.perform stranger act) := by
  cases act with
  | greet session gatewayId encryptionKey =>
    simp only [World.perform]
    split
    · next hnew =>
      obtain ⟨hunused, hown, hsession, hkey, hgateway⟩ := hnew
      exact h.greet hunused hown hsession hkey hgateway
    · exact h
  | deliver outcomes session =>
    simp only [World.perform]
    split
    · next g hg =>
      split
      · next hready =>
        have harrive : w.setGateway session { g with underWay := false } = w.arrive session := by
          simp only [arrive, hg]
        rw [harrive]
        exact h.receive (.inr ⟨g, hg, hready.1, rfl⟩) ids (h.own session g hg).2.1 hready.2
      · exact h
    · exact h
  | stray outcomes session buffer =>
    simp only [World.perform]
    split
    · next hforeign =>
      obtain ⟨hstranger, hsession, hidle⟩ := hforeign
      have harrive : w.arrive session = w := by
        unfold arrive
        split
        · next g hg =>
          rw [(h.own session g hg).1] at hstranger
          cases hstranger
        · rfl
      have hreceived := @Consistent.receive stranger config w outcomes session buffer h
        (.inl hstranger) ids hsession hidle
      rwa [harrive] at hreceived
    · exact h
  | answer connected offers =>
    apply h.goesOn (.answer connected offers) fun _ _ _ => System.Event.noConfusion
    intro text ht
    rcases List.mem_append.mp ht with ht | ht
    · exact h.answers text ht
    · unfold announcement at ht
      split at ht
      · next a _ hannouncing _ _ =>
        exact .inl ⟨a, h.announcing a hannouncing, List.mem_singleton.mp ht⟩
      · cases ht
  | core event =>
    cases event with
    | handshake outcomes session buffer => exact h
    | answer connected offers => exact h
    | elapse time => exact h.goesOn (.elapse time) (fun _ _ _ => System.Event.noConfusion) h.answers
    | poll => exact h.goesOn .poll (fun _ _ _ => System.Event.noConfusion) h.answers
    | receive => exact h.goesOn .receive (fun _ _ _ => System.Event.noConfusion) h.answers
    | shutdown => exact h.goesOn .shutdown (fun _ _ _ => System.Event.noConfusion) h.answers
    | imageUnavailable d =>
      exact h.goesOn (.imageUnavailable d) (fun _ _ _ => System.Event.noConfusion) h.answers
    | closed d => exact h.goesOn (.closed d) (fun _ _ _ => System.Event.noConfusion) h.answers
  | hear session text =>
    simp only [World.perform]
    split
    · next ht => exact h.hear ht
    · exact h
  | conclude session => exact h.conclude session
  | timeOut session => exact h.timeOut session

theorem Consistent.after
    (ids : IsI32 config.reservedSessionIdLow ∧ IsI32 config.reservedSessionIdHigh)
    (h : Consistent stranger config w) (acts : List Act) :
    Consistent stranger config (w.after stranger acts) := by
  induction acts generalizing w with
  | nil => exact h
  | cons act acts ih => exact ih (h.perform ids act)

/-- The core has set up one session for the greeting of this gateway, and holds it unless it has
freed the ports since. -/
structure Serves (w : World) (session : Int) (g : Gateway) (a : Acceptance) : Prop where
  accepted : a ∈ w.acceptances
  client : a.clientSession = session
  gateway : a.gatewayId = g.gatewayId
  only : ∀ b ∈ w.acceptances, b.clientSession = session → b = a
  held : w.Keeps a

/-- A gateway that was accepted uses the ports and the session the core has set up for it. -/
theorem Consistent.serves (h : Consistent stranger config w) {session : Int} {g : Gateway}
    (hg : w.gateways session = some g) {portData portControl : Nat} {dedicated : Int}
    (hresult : g.result = some (.ok (portData, portControl, dedicated))) :
    ∃ a, w.Serves session g a ∧ a.portData = portData ∧ a.portControl = portControl ∧
      a.dedicatedSession = dedicated := by
  unfold Gateway.result at hresult
  obtain ⟨ending, hending, hestablish⟩ := Option.map_eq_some_iff.mp hresult
  cases ending with
  | timedOut => cases hestablish
  | answered response =>
    rcases h.heard session g hg response (.inr hending) with
      ⟨a, ha, hclient, rfl⟩ | ⟨reason, rfl, -, -⟩
    · have haccepted := h.accepted a ha
      have hown := (h.own session g hg).1
      rcases haccepted.known with hstranger | ⟨g', hg', -, hid, hencrypted⟩
      · rw [hclient, hown] at hstranger
        cases hstranger
      · rw [hclient, hg] at hg'
        cases hg'
        have hdecrypted : xorI32 a.encryptedSession g.encryptionKey = a.dedicatedSession := by
          rw [hencrypted, xorI32_xorI32 _ haccepted.dedicated.1 haccepted.dedicated.2]
        simp only [establish, hdecrypted, Except.ok.injEq, Prod.mk.injEq] at hestablish
        refine ⟨a, ⟨ha, hclient, hid, ?_, h.held a ha⟩, hestablish⟩
        intro b hb hb'
        exact h.once a ha b hb (hclient ▸ hown) (hb'.trans hclient.symm)
    · cases hestablish

theorem Consistent.turnedDown (h : Consistent stranger config w) {session : Int} {g : Gateway}
    (hg : w.gateways session = some g) {reason : String}
    (hending : g.ending = some (.answered (.reject reason))) : w.Unaccepted session := by
  rcases h.heard session g hg _ (.inr hending) with ⟨a, -, -, hresponse⟩ | ⟨-, -, -, hnone⟩
  · cases hresponse
  · exact hnone

end Runs

end World

/-- The core and its gateways agree, whatever was sent to the core by others, and in whatever
order greetings and answers arrive: a gateway that was accepted uses the ports and the session of
the one session that was set up for it, and one that was turned down has none. -/
theorem handshakes_agree {config : CoreNetworkingConfig} {aeron : Aeron} {m : GatewayManager}
    (ids : IsI32 config.reservedSessionIdLow ∧ IsI32 config.reservedSessionIdHigh)
    (hnew : GatewayManager.new config aeron .new = .ok m) (stranger : Int → Bool) (clock : Nat)
    (acts : List Act) {w : World} (hw : w = (World.start m clock).after stranger acts)
    {session : Int} {g : Gateway} (hg : w.gateways session = some g) :
    (∀ portData portControl dedicated,
        g.result = some (.ok (portData, portControl, dedicated)) →
        ∃ a, w.Serves session g a ∧ a.portData = portData ∧ a.portControl = portControl ∧
          a.dedicatedSession = dedicated) ∧
      ∀ reason, g.ending = some (.answered (.reject reason)) → w.Unaccepted session := by
  subst hw
  have h := (@World.Consistent.start stranger config aeron m hnew clock).after ids acts
  exact ⟨fun _ _ _ hresult => h.serves hg hresult, fun _ hending => h.turnedDown hg hending⟩

/-- Two gateways greet as gateway 3; the second one is turned down. -/
def twoGreetings : List Act :=
  [.greet 7 3 5, .greet 8 3 6, .deliver (granted 0) 7, .answer true fun _ => .ok (),
    .deliver (granted 1) 8, .hear 8 "7 gateway-3 ACCEPT 50000 50001 1005",
    .hear 7 "7 gateway-3 ACCEPT 50000 50001 1005",
    .hear 8 (rejectMessage 8 3 .alreadyConnected), .conclude 7, .conclude 8]

def greeted : World := (World.start exampleManager 0).after (fun session => session < 0) twoGreetings

theorem handshakes_agree_greeted :
    (∃ g, greeted.gateways 7 = some g ∧ g.result = some (.ok (50000, 50001, 1000)) ∧
      ∃ a, greeted.Serves 7 g a ∧ a.portData = 50000 ∧ a.portControl = 50001 ∧
        a.dedicatedSession = 1000) ∧ greeted.Unaccepted 8 := by
  have hids : IsI32 exampleConfig.reservedSessionIdLow ∧ IsI32 exampleConfig.reservedSessionIdHigh := by
    decide
  constructor
  · refine ⟨⟨3, 5, false, none, some (.answered (.accept 50000 50001 1005 3))⟩,
      by decide +kernel, by decide +kernel, ?_⟩
    exact (handshakes_agree hids exampleManager_new _ 0 twoGreetings rfl
      (by decide +kernel : greeted.gateways 7 = _)).1 _ _ _ (by decide +kernel)
  · exact (handshakes_agree hids exampleManager_new _ 0 twoGreetings rfl
      (by decide +kernel : greeted.gateways 8 = some ⟨3, 6, false, none,
        some (.answered (.reject "Gateway already connected"))⟩)).2 _ rfl

end VexCore.Networking
