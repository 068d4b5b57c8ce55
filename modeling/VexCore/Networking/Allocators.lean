import VexCore.Framework.SortedMap
import Mathlib.Algebra.Order.Ring.Nat
import Mathlib.Data.Int.Order.Basic

/-!
# Port and session allocators

Both draw at random until a value is free. They keep no list of what they handed out: the
caller passes what is in use. The draws of a call are a stream of raw words.
-/

namespace VexCore.Networking

open Framework

/-- What Aeron reports of a failed call. -/
abbrev AeronError := String

inductive ServerError
  | aeronConnectionError (e : AeronError)
  | resourceAllocationError (text : String)
  | gatewayMessageError (text : String)
deriving DecidableEq, Repr

def ServerError.toString : ServerError → String
  | .aeronConnectionError e => s!"Aeron connection failed: {e}"
  | .resourceAllocationError text => s!"Resource allocation error: {text}"
  | .gatewayMessageError text => s!"Gateway message error: {text}"

abbrev Draws := Nat → Nat

/-- Nanoseconds. -/
def portCooldown : Nat := 10 * 1000000000

structure PortAllocator where
  low : Nat
  high : Nat
  /-- When each port was freed. -/
  recentlyFreedPorts : SortedMap Nat Nat (· < ·)
  valid : 0 < low ∧ low ≤ high ∧ high ≤ 65535

namespace PortAllocator

/-- Both arguments are 16-bit numbers of the configuration. -/
def new (portBase maxPorts : Nat) : Except ServerError PortAllocator :=
  if hbase : portBase = 0 then
    .error (.resourceAllocationError "Base port must be greater than 0")
  else if hmax : maxPorts = 0 then
    .error (.resourceAllocationError "Max ports must be greater than 0")
  else if hhigh : portBase + maxPorts - 1 > 65535 then
    .error (.resourceAllocationError "Port range exceeds u16::MAX")
  else
    .ok ⟨portBase, portBase + maxPorts - 1, .empty, by omega⟩

theorem new_eq_ok {portBase maxPorts : Nat} {a : PortAllocator}
    (h : new portBase maxPorts = .ok a) :
    a.low = portBase ∧ a.high + 1 = portBase + maxPorts ∧ a.recentlyFreedPorts = .empty := by
  unfold new at h
  split at h
  · cases h
  · split at h
    · cases h
    · split at h
      · cases h
      · cases h
        refine ⟨rfl, ?_, rfl⟩
        show portBase + maxPorts - 1 + 1 = portBase + maxPorts
        omega

def totalPorts (a : PortAllocator) : Nat := a.high - a.low + 1

/-- `gen_range(low..=high)`. -/
def genRange (a : PortAllocator) (draw : Nat) : Nat := a.low + draw % a.totalPorts

theorem genRange_mem (a : PortAllocator) (draw : Nat) :
    a.low ≤ a.genRange draw ∧ a.genRange draw ≤ a.high := by
  have hvalid := a.valid
  have hlt : draw % a.totalPorts < a.totalPorts := Nat.mod_lt _ (Nat.succ_pos _)
  unfold genRange
  unfold totalPorts at hlt ⊢
  omega

def cleanupExpiredPorts (a : PortAllocator) (now : Nat) : PortAllocator :=
  { a with
    recentlyFreedPorts := a.recentlyFreedPorts.retain fun e => decide (now - e.2 < portCooldown) }

def recentlyFreed (a : PortAllocator) : List Nat := a.recentlyFreedPorts.entries.map Prod.fst

/-- The loop, from attempt number `attempts` with `left` attempts to go. -/
def draw (a : PortAllocator) (rng : Draws) (count : Nat) (portsInUse : List Nat)
    (maxAttempts : Nat) : Nat → Nat → List Nat → Except ServerError (List Nat)
  | left, attempts, result =>
      if count ≤ result.length then .ok result
      else
        match left with
        | 0 =>
            let allocated := result.length
            let inCooldown := a.recentlyFreed.length
            .error (.resourceAllocationError
              s!"Failed to allocate {count} ports after {maxAttempts} attempts ({allocated} already allocated, {inCooldown} in cooldown)")
        | left + 1 =>
            let port := a.genRange (rng attempts)
            if port ∉ portsInUse ∧ port ∉ a.recentlyFreed ∧ port ∉ result then
              draw a rng count portsInUse maxAttempts left (attempts + 1) (result ++ [port])
            else draw a rng count portsInUse maxAttempts left (attempts + 1) result

def allocate (a : PortAllocator) (now : Nat) (rng : Draws) (count : Nat) (portsInUse : List Nat) :
    PortAllocator × Except ServerError (List Nat) :=
  if count = 0 then (a, .ok [])
  else
    let a := a.cleanupExpiredPorts now
    let used := portsInUse.length
    let inCooldown := a.recentlyFreed.length
    let available := a.totalPorts - used - inCooldown
    if available < count then
      (a, .error (.resourceAllocationError
        s!"Requested {count} ports, but only {available} available ({used} in use, {inCooldown} in cooldown)"))
    else
      let maxAttempts := max (a.totalPorts * 2) 100
      (a, a.draw rng count portsInUse maxAttempts maxAttempts 0 [])

def markFreed (a : PortAllocator) (now : Nat) (ports : List Nat) : PortAllocator :=
  { a with
    recentlyFreedPorts :=
      ports.foldl (fun freed port => freed.upsert port now fun _ => now) a.recentlyFreedPorts }

/-- When the port was freed, as far as the allocator remembers. -/
def freedAt (a : PortAllocator) (port : Nat) : Option Nat := a.recentlyFreedPorts.find? port

theorem notMem_recentlyFreed {a : PortAllocator} {port : Nat} :
    port ∉ a.recentlyFreed ↔ a.freedAt port = none :=
  SortedMap.find?_eq_none.symm

theorem freedAt_cleanupExpiredPorts {a : PortAllocator} {now port t : Nat} :
    (a.cleanupExpiredPorts now).freedAt port = some t ↔
      a.freedAt port = some t ∧ now - t < portCooldown := by
  unfold freedAt cleanupExpiredPorts
  rw [SortedMap.find?_retain_eq_some]
  simp

theorem freedAt_markFreed (a : PortAllocator) (now : Nat) (ports : List Nat) (port : Nat) :
    (a.markFreed now ports).freedAt port =
      if port ∈ ports then some now else a.freedAt port := by
  unfold freedAt markFreed
  generalize a.recentlyFreedPorts = freed
  induction ports generalizing freed with
  | nil => simp
  | cons p ps ih =>
    show ((List.foldl _ (freed.upsert p now fun _ => now) ps)).find? port = _
    rw [ih, SortedMap.find?_upsert]
    by_cases hps : port ∈ ps
    · simp [hps]
    · by_cases hp : port = p
      · simp [hp]
      · simp [hps, hp]

/-- Ports that may be handed out together: in the range, distinct, and neither in use nor in
cooldown. -/
structure Grant (a : PortAllocator) (portsInUse ports : List Nat) : Prop where
  inRange : ∀ p ∈ ports, a.low ≤ p ∧ p ≤ a.high
  unused : ∀ p ∈ ports, p ∉ portsInUse
  rested : ∀ p ∈ ports, a.freedAt p = none
  nodup : ports.Nodup

theorem Grant.nil (a : PortAllocator) (portsInUse : List Nat) : a.Grant portsInUse [] :=
  ⟨by simp, by simp, by simp, List.nodup_nil⟩

theorem Grant.concat {a : PortAllocator} {portsInUse ports : List Nat} {port : Nat}
    (h : a.Grant portsInUse ports) (hrange : a.low ≤ port ∧ port ≤ a.high)
    (huse : port ∉ portsInUse) (hfreed : port ∉ a.recentlyFreed) (hnew : port ∉ ports) :
    a.Grant portsInUse (ports ++ [port]) where
  inRange p hp := by
    rcases List.mem_append.mp hp with hp | hp
    · exact h.inRange p hp
    · rwa [List.mem_singleton.mp hp]
  unused p hp := by
    rcases List.mem_append.mp hp with hp | hp
    · exact h.unused p hp
    · rwa [List.mem_singleton.mp hp]
  rested p hp := by
    rcases List.mem_append.mp hp with hp | hp
    · exact h.rested p hp
    · rw [List.mem_singleton.mp hp]
      exact notMem_recentlyFreed.mp hfreed
  nodup := List.nodup_append.mpr ⟨h.nodup, List.nodup_singleton _, by
    rintro p hp q hq rfl
    exact hnew (List.mem_singleton.mp hq ▸ hp)⟩

theorem draw_grant {a : PortAllocator} {rng : Draws} {count : Nat} {portsInUse : List Nat}
    {maxAttempts left attempts : Nat} {result ports : List Nat}
    (hgrant : a.Grant portsInUse result) (hlen : result.length ≤ count)
    (h : a.draw rng count portsInUse maxAttempts left attempts result = .ok ports) :
    a.Grant portsInUse ports ∧ ports.length = count := by
  induction left generalizing attempts result with
  | zero =>
    unfold draw at h
    split at h
    · cases h
      exact ⟨hgrant, by omega⟩
    · cases h
  | succ left ih =>
    unfold draw at h
    split at h
    · cases h
      exact ⟨hgrant, by omega⟩
    · dsimp only at h
      split at h
      · next hcount hfree =>
        obtain ⟨huse, hfreed, hnew⟩ := hfree
        refine ih (hgrant.concat (a.genRange_mem _) huse hfreed hnew) ?_ h
        rw [List.length_append, List.length_singleton]
        omega
      · exact ih hgrant hlen h

/-- A successful allocation hands out `count` ports that were free after the expired entries of
the cooldown map were dropped. -/
theorem allocate_eq_ok {a a' : PortAllocator} {now : Nat} {rng : Draws} {count : Nat}
    {portsInUse ports : List Nat} (hcount : count ≠ 0)
    (h : a.allocate now rng count portsInUse = (a', .ok ports)) :
    a' = a.cleanupExpiredPorts now ∧ a'.Grant portsInUse ports ∧ ports.length = count := by
  unfold allocate at h
  rw [if_neg hcount] at h
  dsimp only at h
  split at h
  · cases h
  · obtain ⟨rfl, hdraw⟩ := Prod.mk.inj h
    exact ⟨rfl, draw_grant (Grant.nil _ _) (Nat.zero_le _) hdraw⟩

/-- Whatever the outcome, an allocation changes the allocator by dropping expired entries only. -/
theorem allocate_fst (a : PortAllocator) (now : Nat) (rng : Draws) {count : Nat}
    (hcount : count ≠ 0) (portsInUse : List Nat) :
    (a.allocate now rng count portsInUse).1 = a.cleanupExpiredPorts now := by
  unfold allocate
  rw [if_neg hcount]
  dsimp only
  split <;> rfl

end PortAllocator

/-- The value a 32-bit signed word keeps. -/
def toI32 (x : Int) : Int := x.bmod (2 ^ 32)

theorem toI32_le {x : Int} (h : 0 ≤ x) : toI32 x ≤ x := by
  have hmod : x % (2 ^ 32 : Nat) ≤ x := by
    have := Int.mul_ediv_add_emod x (2 ^ 32 : Nat)
    have := Int.ediv_nonneg h (b := (2 ^ 32 : Nat)) (by decide)
    omega
  unfold toI32 Int.bmod
  dsimp only
  split <;> omega

structure SessionAllocator where
  min : Int
  maxCount : Int
  positive : 0 < maxCount

namespace SessionAllocator

def new (min max : Int) : Except ServerError SessionAllocator :=
  if max ≤ min then
    .error (.resourceAllocationError s!"Maximum value {max} must be >= minimum value {min}")
  else .ok ⟨min, Max.max (toI32 (max - min)) 1, by omega⟩

theorem new_eq_ok {min max : Int} {a : SessionAllocator} (h : new min max = .ok a) :
    a.min = min ∧ a.min + a.maxCount ≤ max := by
  unfold new at h
  split at h
  · cases h
  · next hlt =>
    cases h
    have hle := toI32_le (x := max - min) (by omega)
    refine ⟨rfl, ?_⟩
    show min + Max.max (toI32 (max - min)) 1 ≤ max
    omega

/-- `gen_range(min..min + max_count)`. -/
def genRange (a : SessionAllocator) (draw : Nat) : Int := a.min + draw % a.maxCount

theorem genRange_mem (a : SessionAllocator) (draw : Nat) :
    a.min ≤ a.genRange draw ∧ a.genRange draw < a.min + a.maxCount := by
  have hpos := a.positive
  have hnonneg := Int.emod_nonneg (draw : Int) (b := a.maxCount) (by omega)
  have hlt := Int.emod_lt_of_pos (draw : Int) hpos
  unfold genRange
  omega

/-- The loop, with `left` attempts to go. -/
def draw (a : SessionAllocator) (rng : Draws) (sessionsInUse : List Int) :
    Nat → Nat → Except ServerError Int
  | 0, _ =>
      let maxCount := a.maxCount
      let used := sessionsInUse.length
      .error (.resourceAllocationError
        s!"Unable to allocate a session ID after {maxCount} attempts ({used} values in use)")
  | left + 1, attempts =>
      let session := a.genRange (rng attempts)
      if session ∉ sessionsInUse then .ok session
      else draw a rng sessionsInUse left (attempts + 1)

def allocate (a : SessionAllocator) (rng : Draws) (sessionsInUse : List Int) :
    Except ServerError Int :=
  if a.maxCount ≤ sessionsInUse.length then
    .error (.resourceAllocationError "No session IDs left to allocate")
  else a.draw rng sessionsInUse a.maxCount.toNat 0

/-- An identifier that may be handed out. -/
structure Grant (a : SessionAllocator) (sessionsInUse : List Int) (session : Int) : Prop where
  inRange : a.min ≤ session ∧ session < a.min + a.maxCount
  unused : session ∉ sessionsInUse

theorem draw_grant {a : SessionAllocator} {rng : Draws} {sessionsInUse : List Int}
    {left attempts : Nat} {session : Int}
    (h : a.draw rng sessionsInUse left attempts = .ok session) :
    a.Grant sessionsInUse session := by
  induction left generalizing attempts with
  | zero => cases h
  | succ left ih =>
    simp only [draw] at h
    split at h
    · next hfree =>
      cases h
      exact ⟨a.genRange_mem _, hfree⟩
    · exact ih h

theorem allocate_eq_ok {a : SessionAllocator} {rng : Draws} {sessionsInUse : List Int}
    {session : Int} (h : a.allocate rng sessionsInUse = .ok session) :
    a.Grant sessionsInUse session := by
  unfold allocate at h
  split at h
  · cases h
  · exact draw_grant h

end SessionAllocator

end VexCore.Networking
