import Mathlib.Algebra.Order.Ring.Nat
import Mathlib.Data.List.Basic
import Mathlib.Tactic.Common

/-!
# Snowflake ids

An id packs a tick of 48 bits, a sequence number of 12 and a gateway of 4. The generator reads a
clock that does not go back; the readings are nanoseconds since its start, and a call consumes
those it makes. Sums that leave their word panic in a build with overflow checks (`checked`) and
wrap in the release build.
-/

namespace VexCore

def nodeBits : Nat := 4
def stepBits : Nat := 12
def timestampBits : Nat := 48
def timeGranularityShift : Nat := 10

def nodeMax : Nat := 2 ^ nodeBits - 1
def stepMax : Nat := 2 ^ stepBits - 1
def timestampMax : Nat := 2 ^ timestampBits - 1

def timestampShift : Nat := stepBits + nodeBits
def sequenceShift : Nat := nodeBits

/-- 2025-01-01T00:00:00Z in nanoseconds since the Unix epoch. -/
def defaultEpoch : Nat := 1735689600000000000

inductive SnowflakeError
  | machineIdOutOfRange
  | sequenceOverflow
  | epochInTheFuture
  | epochTooOld
  | timeBackwards
  | timestampOverflow
deriving DecidableEq, Repr

structure Snowflake where
  startSystemNs : Nat
  epochNs : Nat
  lastTick : Nat
  sequence : Nat
deriving DecidableEq, Repr

namespace Snowflake

/-- How a call can fail. -/
inductive Failure
  | error (e : SnowflakeError)
  | panic
deriving DecidableEq, Repr

def new (currentUnixNs : Nat) (epoch : Option Nat) : Except SnowflakeError Snowflake :=
  let epochNs := epoch.getD defaultEpoch
  if epochNs > currentUnixNs then .error .epochInTheFuture
  else
    let rawDelta := currentUnixNs - epochNs
    if rawDelta >>> timeGranularityShift > timestampMax then .error .epochTooOld
    else .ok { epochNs, startSystemNs := currentUnixNs, lastTick := 0, sequence := 0 }

variable (checked : Bool)

/-- The tick of a reading. -/
def currentTick (s : Snowflake) (elapsedNs : Nat) : Except Failure Nat :=
  if checked = true ∧ 2 ^ 64 ≤ s.startSystemNs + elapsedNs then .error .panic
  else
    let currentNs := (s.startSystemNs + elapsedNs) % 2 ^ 64
    if currentNs < s.epochNs then .error (.error .timeBackwards)
    else
      let deltaNs := currentNs - s.epochNs
      let shiftedTime := deltaNs >>> timeGranularityShift
      if shiftedTime > timestampMax then .error (.error .timestampOverflow)
      else .ok shiftedTime

/-- The loop of the busy wait, with a number of spins left before the deadline is looked at.
It is still waiting when the readings end. -/
def spin (s : Snowflake) (lastTick deadline : Nat) :
    Nat → List Nat → Option (Except Failure Nat × List Nat)
  | _, [] => none
  | 0, now :: clock =>
      if now > deadline then some (.error (.error .sequenceOverflow), clock)
      else s.spin lastTick deadline 64 clock
  | spins + 1, elapsed :: clock =>
      match s.currentTick checked elapsed with
      | .error failure => some (.error failure, clock)
      | .ok current =>
          if current > lastTick then some (.ok current, clock)
          else s.spin lastTick deadline spins clock

/-- The deadline lies 100 microseconds ahead. -/
def waitNextTick (s : Snowflake) (lastTick : Nat) :
    List Nat → Option (Except Failure Nat × List Nat)
  | [] => none
  | now :: clock => s.spin checked lastTick (now + 100000) 64 clock

def createId (timestamp sequence gateway : Nat) : Nat :=
  (timestamp <<< timestampShift) % 2 ^ 64 ||| sequence <<< sequenceShift ||| gateway

/-- What a call leaves: the generator, its result and the readings it did not consume. -/
structure Return where
  after : Snowflake
  result : Except Failure Nat
  clock : List Nat

/-- One call; it has not returned when the readings end before it does. -/
def generate (s : Snowflake) (gateway : Nat) (clock : List Nat) : Option Return :=
  if gateway > nodeMax then some ⟨s, .error (.error .machineIdOutOfRange), clock⟩
  else
    match clock with
    | [] => none
    | elapsed :: clock =>
        match s.currentTick checked elapsed with
        | .error failure => some ⟨s, .error failure, clock⟩
        | .ok currentTick =>
            if currentTick = s.lastTick then
              if checked = true ∧ 2 ^ 16 ≤ s.sequence + 1 then
                some ⟨s, .error .panic, clock⟩
              else
                let s := { s with sequence := (s.sequence + 1) % 2 ^ 16 }
                if s.sequence > stepMax then
                  (s.waitNextTick checked currentTick clock).map fun waited =>
                    match waited.1 with
                    | .error failure => ⟨s, .error failure, waited.2⟩
                    | .ok currentTick =>
                        ⟨{ s with sequence := 0, lastTick := currentTick },
                          .ok (createId currentTick 0 gateway), waited.2⟩
                else
                  some ⟨{ s with lastTick := currentTick },
                    .ok (createId currentTick s.sequence gateway), clock⟩
            else
              some ⟨{ s with sequence := 0, lastTick := currentTick },
                .ok (createId currentTick 0 gateway), clock⟩

/-- Timestamp, node and sequence. -/
def parseId (id : Nat) : Nat × Nat × Nat :=
  (id >>> timestampShift &&& timestampMax, id &&& nodeMax, id >>> sequenceShift &&& stepMax)

def gatewayFromId (id : Nat) : Nat := id &&& nodeMax

section Layout

variable {timestamp sequence gateway : Nat}

theorem createId_eq (ht : timestamp < 2 ^ 48) (hs : sequence < 2 ^ 12) (hg : gateway < 2 ^ 4) :
    createId timestamp sequence gateway = (timestamp * 4096 + sequence) * 16 + gateway := by
  have hlow : sequence <<< 4 + gateway = sequence <<< 4 ||| gateway :=
    Nat.shiftLeft_add_eq_or_of_lt hg sequence
  have hfits : sequence <<< 4 + gateway < 2 ^ 16 := by
    rw [Nat.shiftLeft_eq]
    omega
  have hhigh : timestamp <<< 16 + (sequence <<< 4 + gateway) =
      timestamp <<< 16 ||| (sequence <<< 4 + gateway) :=
    Nat.shiftLeft_add_eq_or_of_lt hfits timestamp
  have hword : timestamp <<< 16 < 2 ^ 64 := by
    rw [Nat.shiftLeft_eq]
    omega
  simp only [createId, timestampShift, sequenceShift, stepBits, nodeBits, Nat.reduceAdd,
    Nat.mod_eq_of_lt hword, Nat.or_assoc, ← hlow, ← hhigh]
  rw [Nat.shiftLeft_eq, Nat.shiftLeft_eq]
  omega

theorem parseId_createId (ht : timestamp < 2 ^ 48) (hs : sequence < 2 ^ 12)
    (hg : gateway < 2 ^ 4) :
    parseId (createId timestamp sequence gateway) = (timestamp, gateway, sequence) := by
  rw [createId_eq ht hs hg, parseId]
  simp only [timestampShift, sequenceShift, timestampMax, nodeMax, stepMax, stepBits, nodeBits,
    timestampBits, Nat.and_two_pow_sub_one_eq_mod, Nat.shiftRight_eq_div_pow, Prod.mk.injEq]
  omega

theorem gatewayFromId_createId (ht : timestamp < 2 ^ 48) (hs : sequence < 2 ^ 12)
    (hg : gateway < 2 ^ 4) : gatewayFromId (createId timestamp sequence gateway) = gateway :=
  congrArg (fun parsed => parsed.2.1) (parseId_createId ht hs hg)

end Layout

/-- The clock does not go back from one reading to another: neither the reading nor, where sums
wrap, the word of its nanoseconds. -/
def Forward (s : Snowflake) (r r' : Nat) : Prop :=
  r ≤ r' ∧ (checked = false → r' < 2 ^ 64 ∧
    (s.startSystemNs + r) % 2 ^ 64 ≤ (s.startSystemNs + r') % 2 ^ 64)

instance (s : Snowflake) (r r' : Nat) : Decidable (s.Forward checked r r') :=
  inferInstanceAs (Decidable (_ ∧ (_ → _ ∧ _)))

variable {checked}

section Clock

variable {s : Snowflake} {r r' tick tick' : Nat}

theorem Forward.currentNs (h : s.Forward checked r r')
    (hword : checked = true → s.startSystemNs + r' < 2 ^ 64) :
    (s.startSystemNs + r') % 2 ^ 64 = (s.startSystemNs + r) % 2 ^ 64 + (r' - r) := by
  obtain ⟨hle, hwrapped⟩ := h
  cases checked with
  | true =>
    have hlt := hword rfl
    rw [Nat.mod_eq_of_lt hlt, Nat.mod_eq_of_lt (by omega)]
    omega
  | false =>
    obtain ⟨hlt, hmod⟩ := hwrapped rfl
    omega

theorem currentTick_eq_ok (h : s.currentTick checked r = .ok tick) :
    (checked = true → s.startSystemNs + r < 2 ^ 64) ∧
      s.epochNs ≤ (s.startSystemNs + r) % 2 ^ 64 ∧ tick < 2 ^ 48 ∧
      tick = ((s.startSystemNs + r) % 2 ^ 64 - s.epochNs) / 1024 := by
  simp only [currentTick, timeGranularityShift, timestampMax, timestampBits,
    Nat.shiftRight_eq_div_pow] at h
  split_ifs at h with hword hepoch hmax
  cases h
  refine ⟨fun hchecked => ?_, by omega, by omega, rfl⟩
  rw [not_and] at hword
  exact Nat.lt_of_not_le (hword hchecked)

/-- A later reading has no earlier tick. -/
theorem currentTick_mono (hforward : s.Forward checked r r')
    (h : s.currentTick checked r = .ok tick) (h' : s.currentTick checked r' = .ok tick') :
    tick ≤ tick' := by
  obtain ⟨-, -, -, rfl⟩ := currentTick_eq_ok h
  obtain ⟨hword, -, -, rfl⟩ := currentTick_eq_ok h'
  rw [hforward.currentNs hword]
  omega

/-- A reading more than a hundred microseconds later has a later tick. -/
theorem currentTick_lt (hforward : s.Forward checked r r') (hlt : r + 100000 < r')
    (h : s.currentTick checked r = .ok tick) (h' : s.currentTick checked r' = .ok tick') :
    tick < tick' := by
  obtain ⟨-, hepoch, -, rfl⟩ := currentTick_eq_ok h
  obtain ⟨hword, -, -, rfl⟩ := currentTick_eq_ok h'
  rw [hforward.currentNs hword]
  omega

/-- Once readings have left the range of ticks they stay out of it. -/
theorem currentTick_lost {r'' tick'' : Nat} {failure : Failure}
    (hforward : s.Forward checked r r') (hforward' : s.Forward checked r' r'')
    (h : s.currentTick checked r = .ok tick)
    (hfailed : s.currentTick checked r' = .error failure) :
    s.currentTick checked r'' ≠ .ok tick'' := by
  intro h''
  obtain ⟨-, hepoch, -, -⟩ := currentTick_eq_ok h
  obtain ⟨hword'', -, hmax'', htick''⟩ := currentTick_eq_ok h''
  have hword : checked = true → s.startSystemNs + r' < 2 ^ 64 :=
    fun hchecked => (Nat.add_le_add_left hforward'.1 _).trans_lt (hword'' hchecked)
  have hsecond := hforward.currentNs hword
  have hthird := hforward'.currentNs hword''
  simp only [currentTick, timeGranularityShift, timestampMax, timestampBits,
    Nat.shiftRight_eq_div_pow] at hfailed
  rw [if_neg fun hpanic => Nat.not_le_of_lt (hword hpanic.1) hpanic.2, if_neg (by omega),
    if_neg (by omega)] at hfailed
  cases hfailed

end Clock

variable (checked)

/-- How a busy wait can end at a reading: past the deadline, at a tick that fails, or at a later
tick. -/
def EndsAt (s : Snowflake) (lastTick deadline : Nat) (result : Except Failure Nat) (r : Nat) :
    Prop :=
  (deadline < r ∧ result = .error (.error .sequenceOverflow)) ∨
    (∃ failure, s.currentTick checked r = .error failure ∧ result = .error failure) ∨
    ∃ tick, s.currentTick checked r = .ok tick ∧ lastTick < tick ∧ result = .ok tick

variable {checked}

theorem spin_ends {s : Snowflake} {lastTick deadline spins : Nat} {clock rest : List Nat}
    {result : Except Failure Nat}
    (h : s.spin checked lastTick deadline spins clock = some (result, rest)) :
    ∃ before r, clock = before ++ r :: rest ∧ s.EndsAt checked lastTick deadline result r := by
  induction clock generalizing spins with
  | nil => simp [spin] at h
  | cons reading clock ih =>
    -- a reading that does not end the loop goes in front of those before the end
    have hlater : ∀ {n}, s.spin checked lastTick deadline n clock = some (result, rest) →
        ∃ before r, reading :: clock = before ++ r :: rest ∧
          s.EndsAt checked lastTick deadline result r := by
      intro n hn
      obtain ⟨before, r, rfl, hends⟩ := ih hn
      exact ⟨reading :: before, r, rfl, hends⟩
    cases spins with
    | zero =>
      rw [spin] at h
      split_ifs at h with hdeadline
      · cases h
        exact ⟨[], reading, rfl, .inl ⟨hdeadline, rfl⟩⟩
      · exact hlater h
    | succ spins =>
      rw [spin] at h
      cases htick : s.currentTick checked reading with
      | error failure =>
        rw [htick] at h
        cases h
        exact ⟨[], reading, rfl, .inr (.inl ⟨failure, htick, rfl⟩)⟩
      | ok tick =>
        simp only [htick] at h
        split_ifs at h with hlast
        · cases h
          exact ⟨[], reading, rfl, .inr (.inr ⟨tick, htick, hlast, rfl⟩)⟩
        · exact hlater h

/-- The place of an id in the order of ids, without its gateway. -/
def place (tick sequence : Nat) : Nat := tick * 4096 + sequence

variable (checked)

/-- What holds between calls, of the readings still to come. After a wait that timed out the
sequence is past its maximum, and no reading has the tick it belongs to. -/
structure Ready (s : Snowflake) (clock : List Nat) : Prop where
  forward : clock.Pairwise (s.Forward checked)
  sequence : s.sequence ≤ 4096
  spent : s.sequence = 4096 → ∀ r ∈ clock, s.currentTick checked r ≠ .ok s.lastTick
  behind : ∀ r ∈ clock, ∀ tick, s.currentTick checked r = .ok tick → s.lastTick ≤ tick

/-- What a call guarantees. -/
structure Advances (s : Snowflake) (gateway : Nat) (clock : List Nat) (call : Return) : Prop where
  ready : call.after.Ready checked call.clock
  suffix : call.clock <:+ clock
  forward : place s.lastTick (min s.sequence 4095) ≤
    place call.after.lastTick (min call.after.sequence 4095)
  returned : ∀ id, call.result = .ok id →
    id = createId call.after.lastTick call.after.sequence gateway ∧
      call.after.lastTick < 2 ^ 48 ∧ call.after.sequence ≤ stepMax ∧ gateway ≤ nodeMax ∧
      place s.lastTick (min s.sequence 4095) < place call.after.lastTick call.after.sequence

variable {checked}

theorem advances_of_same {s : Snowflake} {gateway : Nat} {clock rest : List Nat}
    {failure : Failure} (h : s.Ready checked clock) (hsuffix : rest <:+ clock) :
    s.Advances checked gateway clock ⟨s, .error failure, rest⟩ where
  ready :=
    ⟨h.forward.sublist hsuffix.sublist, h.sequence,
      fun hs r hr => h.spent hs r (hsuffix.subset hr),
      fun r hr => h.behind r (hsuffix.subset hr)⟩
  suffix := hsuffix
  forward := Nat.le_refl _
  returned := nofun

theorem advances_of_taken {s : Snowflake} {gateway tick sequence r : Nat}
    {clock before rest : List Nat} (hclock : clock = before ++ r :: rest)
    (h : s.Ready checked clock) (hgateway : gateway ≤ nodeMax)
    (htick : s.currentTick checked r = .ok tick) (hsequence : sequence ≤ stepMax)
    (hplace : place s.lastTick (min s.sequence 4095) < place tick sequence) :
    s.Advances checked gateway clock
      ⟨{ s with lastTick := tick, sequence }, .ok (createId tick sequence gateway), rest⟩ := by
  have hlater : ∀ r' ∈ rest, s.Forward checked r r' := by
    have hforward := h.forward
    rw [hclock] at hforward
    exact (List.pairwise_cons.mp (List.pairwise_append.mp hforward).2.1).1
  have hmax : sequence ≤ 4095 := hsequence
  have hrest : rest <:+ clock := ⟨before ++ [r], by simp [hclock]⟩
  obtain ⟨-, -, hfits, -⟩ := currentTick_eq_ok htick
  refine ⟨⟨h.forward.sublist hrest.sublist, by simp only; omega, fun h => ?_,
    fun r' hr' tick' htick' => ?_⟩, hrest, ?_, ?_⟩
  · simp only at h
    omega
  · exact currentTick_mono (hlater r' hr') htick htick'
  · simp only [Nat.min_eq_left hmax]
    exact hplace.le
  · intro id hid
    cases hid
    exact ⟨rfl, hfits, hsequence, hgateway, hplace⟩

theorem advances_of_timeout {s : Snowflake} {gateway r now r' deadline tick : Nat}
    {clock before rest : List Nat} {failure : Failure}
    (hclock : clock = r :: now :: (before ++ r' :: rest)) (h : s.Ready checked clock)
    (htick : s.currentTick checked r = .ok s.lastTick)
    (hsequence : s.sequence = 4095) (hdeadline : now + 100000 ≤ deadline)
    (hends : s.EndsAt checked tick deadline (.error failure) r') :
    s.Advances checked gateway clock
      ⟨{ s with sequence := s.sequence + 1 }, .error failure, rest⟩ := by
  subst hclock
  have hsuffix : rest <:+ r :: now :: (before ++ r' :: rest) :=
    ⟨r :: now :: before ++ [r'], by simp⟩
  obtain ⟨hfirst, hforward⟩ := List.pairwise_cons.mp h.forward
  have hrest := (List.pairwise_append.mp (List.pairwise_cons.mp hforward).2).2.1
  have hnow : r ≤ now := (hfirst now List.mem_cons_self).1
  have hend : s.Forward checked r r' := hfirst r' (by simp)
  have hlater : ∀ r'' ∈ rest, s.Forward checked r' r'' := (List.pairwise_cons.mp hrest).1
  refine ⟨⟨h.forward.sublist hsuffix.sublist, ?_, fun _ r'' hr'' hsame => ?_,
    fun r'' hr'' => h.behind r'' (hsuffix.subset hr'')⟩, hsuffix, ?_, nofun⟩
  · simp only [hsequence, Nat.reduceAdd, Nat.le_refl]
  · rcases hends with ⟨hpast, -⟩ | ⟨failed, hfailed, -⟩ | ⟨later, hlater, -, hresult⟩
    · have hle := (hlater r'' hr'').1
      have hlt := currentTick_lt (hfirst r'' (by simp [hr''])) (by omega) htick hsame
      exact Nat.lt_irrefl _ hlt
    · exact currentTick_lost hend (hlater r'' hr'') htick hfailed hsame
    · cases hresult
  · simp only [place, hsequence]
    omega

theorem generate_advances {s : Snowflake} {gateway : Nat} {clock : List Nat} {call : Return}
    (h : s.Ready checked clock) (hcall : s.generate checked gateway clock = some call) :
    s.Advances checked gateway clock call := by
  unfold generate at hcall
  by_cases hgateway : gateway > nodeMax
  · rw [if_pos hgateway] at hcall
    cases hcall
    exact advances_of_same h List.suffix_rfl
  rw [if_neg hgateway] at hcall
  cases clock with
  | nil => cases hcall
  | cons r clock =>
    cases htick : s.currentTick checked r with
    | error failure =>
      simp only [htick] at hcall
      cases hcall
      exact advances_of_same h (List.suffix_cons r clock)
    | ok tick =>
      simp only [htick] at hcall
      have hbehind := h.behind r List.mem_cons_self tick htick
      by_cases hsame : tick = s.lastTick
      swap
      · rw [if_neg hsame] at hcall
        cases hcall
        have hclock : r :: clock = [] ++ r :: clock := rfl
        apply advances_of_taken hclock h (by omega) htick (Nat.zero_le _)
        unfold place
        omega
      rw [if_pos hsame] at hcall
      have hsequence : s.sequence ≤ 4095 := by
        have hspent := fun hs => h.spent hs r List.mem_cons_self
        have hle := h.sequence
        have hne : s.sequence ≠ 4096 := fun hs => hspent hs (hsame ▸ htick)
        omega
      rw [if_neg (by omega), Nat.mod_eq_of_lt (by omega)] at hcall
      by_cases hmax : s.sequence + 1 > stepMax
      swap
      · rw [if_neg hmax] at hcall
        cases hcall
        have hclock : r :: clock = [] ++ r :: clock := rfl
        apply advances_of_taken hclock h (by omega) htick (by omega)
        unfold place
        omega
      -- the last sequence number of the tick was used: the call waits
      rw [if_pos hmax] at hcall
      have hlast : s.sequence = 4095 := by
        have hmax : 4095 < s.sequence + 1 := hmax
        omega
      obtain ⟨⟨result, rest⟩, hwait, rfl⟩ := Option.map_eq_some_iff.mp hcall
      cases clock with
      | nil => cases hwait
      | cons now clock =>
        obtain ⟨before, r', rfl, hends⟩ := spin_ends hwait
        cases result with
        | error failure =>
          exact advances_of_timeout rfl h (hsame ▸ htick) hlast (Nat.le_refl _) hends
        | ok tick' =>
          rcases hends with ⟨-, hresult⟩ | ⟨_, -, hresult⟩ | ⟨_, htick', hgreater, hresult⟩
          · cases hresult
          · cases hresult
          · cases hresult
            have hclock : r :: now :: (before ++ r' :: rest) =
                (r :: now :: before) ++ r' :: rest := rfl
            have htick' : s.currentTick checked r' = .ok tick' := htick'
            refine advances_of_taken hclock h (by omega) htick' (Nat.zero_le _) ?_
            unfold place
            omega

/-- One call of a run, with the generator it leaves. -/
structure Call where
  gateway : Nat
  after : Snowflake
  result : Except Failure Nat

def Call.id? (call : Call) : Option Nat := call.result.toOption

variable (checked) in
/-- The calls made one after the other, for as long as the clock's readings last. -/
def run (s : Snowflake) : List Nat → List Nat → List Call
  | [], _ => []
  | gateway :: gateways, clock =>
      (s.generate checked gateway clock).elim [] fun call =>
        ⟨gateway, call.after, call.result⟩ :: call.after.run gateways call.clock

/-- An id is what its call's tick, sequence and gateway make, and parses back to them. -/
structure Call.Decodable (call : Call) (id : Nat) : Prop where
  built : id = createId call.after.lastTick call.after.sequence call.gateway
  parsed : parseId id = (call.after.lastTick, call.gateway, call.after.sequence)
  gateway : gatewayFromId id = call.gateway
  sequence : call.after.sequence ≤ 4095
  tick : call.after.lastTick < 2 ^ 48

/-- The id of a call, its parse, and where it lies. -/
theorem Advances.id {s : Snowflake} {gateway : Nat} {clock : List Nat} {call : Return}
    (h : s.Advances checked gateway clock call) {id : Nat} (hid : call.result = .ok id) :
    Call.Decodable ⟨gateway, call.after, call.result⟩ id ∧
      id / 16 = place call.after.lastTick call.after.sequence ∧
      place s.lastTick (min s.sequence 4095) < id / 16 := by
  obtain ⟨hbuilt, htick, hsequence, hgateway, hplace⟩ := h.returned id hid
  have hs : call.after.sequence < 2 ^ 12 := Nat.lt_succ_of_le hsequence
  have hg : gateway < 2 ^ 4 := Nat.lt_succ_of_le hgateway
  have hvalue := hbuilt.trans (createId_eq htick hs hg)
  have hid16 : id / 16 = place call.after.lastTick call.after.sequence := by
    unfold place
    omega
  refine ⟨⟨hbuilt, ?_, ?_, hsequence, htick⟩, hid16, hplace.trans_eq hid16.symm⟩
  · rw [hbuilt]
    exact parseId_createId htick hs hg
  · rw [hbuilt]
    exact gatewayFromId_createId htick hs hg

theorem run_increases {s : Snowflake} {clock : List Nat} (h : s.Ready checked clock)
    (gateways : List Nat) :
    (∀ call ∈ s.run checked gateways clock, ∀ id, call.result = .ok id → call.Decodable id ∧
      place s.lastTick (min s.sequence 4095) < id / 16) ∧
    ((s.run checked gateways clock).filterMap Call.id?).Pairwise (· < ·) := by
  induction gateways generalizing s clock with
  | nil => simp [run]
  | cons gateway gateways ih =>
    cases hcall : s.generate checked gateway clock with
    | none => simp [run, hcall]
    | some call =>
      have hadvances := generate_advances h hcall
      obtain ⟨hrest, hpairs⟩ := ih hadvances.ready
      have hforward := hadvances.forward
      rw [run, hcall, Option.elim_some]
      constructor
      · intro entry hentry id hid
        rcases List.mem_cons.mp hentry with rfl | hentry
        · obtain ⟨hdecodable, -, hplace⟩ := hadvances.id hid
          exact ⟨hdecodable, hplace⟩
        · obtain ⟨hdecodable, hplace⟩ := hrest entry hentry id hid
          exact ⟨hdecodable, hforward.trans_lt hplace⟩
      · cases hresult : call.result with
        | error failure => exact hpairs
        | ok id =>
          obtain ⟨hdecodable, hplace, -⟩ := hadvances.id hresult
          refine List.pairwise_cons.mpr ⟨?_, hpairs⟩
          intro later hlater
          obtain ⟨entry, hentry, hid⟩ := List.mem_filterMap.mp hlater
          have hok : entry.result = .ok later := by
            cases hentryResult : entry.result with
            | error failure => simp [Call.id?, hentryResult, Except.toOption] at hid
            | ok found => simpa [Call.id?, hentryResult, Except.toOption] using hid
          have hafter := (hrest entry hentry later hok).2
          have hsequence : call.after.sequence ≤ 4095 := hdecodable.sequence
          rw [Nat.min_eq_left hsequence, ← hplace] at hafter
          exact Nat.lt_of_div_lt_div hafter

/-- A new generator is ready for any clock that does not go back. -/
theorem ready_of_new {currentUnixNs : Nat} {epoch : Option Nat} {s : Snowflake}
    (h : new currentUnixNs epoch = .ok s) {clock : List Nat}
    (hforward : clock.Pairwise (s.Forward checked)) : s.Ready checked clock := by
  simp only [new] at h
  split_ifs at h
  cases h
  exact ⟨hforward, Nat.zero_le _, nofun, fun _ _ _ _ => Nat.zero_le _⟩

/-- Whatever the clock and the calls, the ids returned increase, and each parses back to the tick,
gateway and sequence of its call. -/
theorem ids_increase_and_parse {currentUnixNs : Nat} {epoch : Option Nat} {s : Snowflake}
    (hnew : new currentUnixNs epoch = .ok s) {clock : List Nat}
    (hclock : clock.Pairwise (s.Forward checked)) (gateways : List Nat) :
    ((s.run checked gateways clock).filterMap Call.id?).Pairwise (· < ·) ∧
      ((s.run checked gateways clock).filterMap Call.id?).Nodup ∧
      ∀ call ∈ s.run checked gateways clock, ∀ id, call.result = .ok id → call.Decodable id := by
  obtain ⟨hcalls, hpairs⟩ := run_increases (ready_of_new hnew hclock) gateways
  refine ⟨hpairs, hpairs.imp fun hlt => Nat.ne_of_lt hlt, ?_⟩
  intro call hcall id hid
  exact (hcalls call hcall id hid).1

/-- Two gateways in one tick, then a later one, in the release build. -/
theorem ids_increase_and_parse_burst :
    let s : Snowflake := ⟨2 ^ 61, 2 ^ 61, 0, 0⟩
    ((s.run false [3, 2, 15] [0, 1, 5000]).filterMap Call.id?).Pairwise (· < ·) ∧
      ((s.run false [3, 2, 15] [0, 1, 5000]).filterMap Call.id?).Nodup ∧
      ∀ call ∈ s.run false [3, 2, 15] [0, 1, 5000], ∀ id, call.result = .ok id →
        call.Decodable id :=
  ids_increase_and_parse (rfl : new (2 ^ 61) (some (2 ^ 61)) = .ok ⟨2 ^ 61, 2 ^ 61, 0, 0⟩)
    (by decide) [3, 2, 15]

end Snowflake

end VexCore
