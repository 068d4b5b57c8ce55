import Mathlib.Order.Defs.Unbundled
import Mathlib.Data.List.Sort
import Mathlib.Tactic.Common

/-!
# Ordered maps

A finite map kept as its entry list in strictly increasing key order with respect to an
arbitrary strict order. The order is a field, so a map with unsorted or repeated keys
cannot be built.
-/

namespace Framework

structure SortedMap (κ ν : Type) (lt : κ → κ → Prop) where
  entries : List (κ × ν)
  sorted : (entries.map Prod.fst).Pairwise lt

namespace SortedMap

variable {κ ν : Type} {lt : κ → κ → Prop}

@[ext] theorem ext_entries {m m' : SortedMap κ ν lt} (h : m.entries = m'.entries) : m = m' := by
  cases m
  cases m'
  subst h
  rfl

def empty : SortedMap κ ν lt := ⟨[], List.Pairwise.nil⟩

@[simp] theorem empty_entries : (empty : SortedMap κ ν lt).entries = [] := rfl

/-- The same keys, or fewer, with other values. -/
def rebuild (m : SortedMap κ ν lt) (entries : List (κ × ν))
    (h : (entries.map Prod.fst).Sublist (m.entries.map Prod.fst)) : SortedMap κ ν lt :=
  ⟨entries, m.sorted.sublist h⟩

variable [DecidableEq κ]

/-- Lookup in an entry list. -/
def lookupList (k : κ) : List (κ × ν) → Option ν
  | [] => none
  | (k', v) :: rest => if k' = k then some v else lookupList k rest

def find? (m : SortedMap κ ν lt) (k : κ) : Option ν := lookupList k m.entries

theorem mem_of_lookupList {k : κ} {v : ν} {l : List (κ × ν)} (h : lookupList k l = some v) :
    (k, v) ∈ l := by
  induction l with
  | nil => cases h
  | cons e rest ih =>
    obtain ⟨k', v'⟩ := e
    by_cases hk : k' = k
    · subst hk
      simp only [lookupList, if_pos, Option.some.injEq] at h
      simp [h]
    · simp only [lookupList, if_neg hk] at h
      exact List.mem_cons_of_mem _ (ih h)

theorem lookupList_eq_none {k : κ} {l : List (κ × ν)} :
    lookupList k l = none ↔ k ∉ l.map Prod.fst := by
  induction l with
  | nil => simp [lookupList]
  | cons e rest ih =>
    obtain ⟨k', v'⟩ := e
    by_cases hk : k' = k
    · simp [lookupList, hk]
    · simp [lookupList, hk, ih, Ne.symm hk]

theorem lookupList_of_mem [Std.Irrefl lt] {k : κ} {v : ν} {l : List (κ × ν)}
    (hs : (l.map Prod.fst).Pairwise lt) (h : (k, v) ∈ l) : lookupList k l = some v := by
  induction l with
  | nil => cases h
  | cons e rest ih =>
    obtain ⟨k', v'⟩ := e
    simp only [List.map_cons, List.pairwise_cons] at hs
    rcases List.mem_cons.mp h with h | h
    · cases h
      simp [lookupList]
    · have hlt := hs.1 k (List.mem_map_of_mem (f := Prod.fst) h)
      have hne : k' ≠ k := by
        rintro rfl
        exact Std.Irrefl.irrefl _ hlt
      simp only [lookupList, if_neg hne]
      exact ih hs.2 h

theorem find?_eq_some [Std.Irrefl lt] {m : SortedMap κ ν lt} {k : κ} {v : ν} :
    m.find? k = some v ↔ (k, v) ∈ m.entries :=
  ⟨mem_of_lookupList, lookupList_of_mem m.sorted⟩

theorem find?_eq_none {m : SortedMap κ ν lt} {k : κ} :
    m.find? k = none ↔ k ∉ m.entries.map Prod.fst := lookupList_eq_none

/-- Two maps with the same lookups are the same map. -/
theorem ext_find? [IsStrictTotalOrder κ lt] {m m' : SortedMap κ ν lt}
    (h : ∀ k, m.find? k = m'.find? k) : m = m' := by
  have hmem (e : κ × ν) : e ∈ m.entries ↔ e ∈ m'.entries := by
    obtain ⟨k, v⟩ := e
    rw [← find?_eq_some, ← find?_eq_some, h k]
  have hs := List.pairwise_map.mp m.sorted
  have hs' := List.pairwise_map.mp m'.sorted
  have hne {a b : κ × ν} (hab : lt a.1 b.1) : a ≠ b := by
    rintro rfl
    exact irrefl (r := lt) _ hab
  apply ext_entries
  apply @List.Perm.eq_of_pairwise _ (fun a b => lt a.1 b.1)
  · intro a b _ _ hab hba
    exact (asymm (r := lt) hab hba).elim
  · exact hs
  · exact hs'
  · exact (List.perm_ext_iff_of_nodup (hs.imp hne) (hs'.imp hne)).mpr hmem

def modifyList (k : κ) (f : ν → ν) : List (κ × ν) → List (κ × ν)
  | [] => []
  | (k', v) :: rest => if k' = k then (k', f v) :: rest else (k', v) :: modifyList k f rest

theorem modifyList_keys (k : κ) (f : ν → ν) (l : List (κ × ν)) :
    (modifyList k f l).map Prod.fst = l.map Prod.fst := by
  induction l with
  | nil => rfl
  | cons e rest ih =>
    obtain ⟨k', v⟩ := e
    by_cases hk : k' = k <;> simp [modifyList, hk, ih]

theorem lookupList_modifyList (k q : κ) (f : ν → ν) (l : List (κ × ν)) :
    lookupList q (modifyList k f l) =
      if q = k then (lookupList q l).map f else lookupList q l := by
  induction l with
  | nil => simp [modifyList, lookupList]
  | cons e rest ih =>
    obtain ⟨k', v⟩ := e
    by_cases hk : k' = k
    · subst hk
      by_cases hq : k' = q
      · subst hq
        simp [modifyList, lookupList]
      · simp [modifyList, lookupList, hq, Ne.symm hq]
    · by_cases hq : k' = q
      · subst hq
        simp [modifyList, lookupList, hk]
      · simp [modifyList, lookupList, hk, hq, ih]

/-- Write through a mutable reference to the value at `k`, if there is one. -/
def modify (m : SortedMap κ ν lt) (k : κ) (f : ν → ν) : SortedMap κ ν lt :=
  m.rebuild (modifyList k f m.entries) (by rw [modifyList_keys])

theorem find?_modify (m : SortedMap κ ν lt) (k q : κ) (f : ν → ν) :
    (m.modify k f).find? q = if q = k then (m.find? q).map f else m.find? q :=
  lookupList_modifyList k q f m.entries

def erase (m : SortedMap κ ν lt) (k : κ) : SortedMap κ ν lt :=
  m.rebuild (m.entries.filter fun e => e.1 ≠ k) (List.filter_sublist.map Prod.fst)

theorem lookupList_filter_ne (k q : κ) (l : List (κ × ν)) :
    lookupList q (l.filter fun e => e.1 ≠ k) = if q = k then none else lookupList q l := by
  induction l with
  | nil => simp [lookupList]
  | cons e rest ih =>
    obtain ⟨k', v⟩ := e
    by_cases hk : k' = k
    · subst hk
      by_cases hq : q = k'
      · subst hq
        simpa using ih
      · simpa [lookupList, hq, Ne.symm hq] using ih
    · by_cases hq : k' = q
      · subst hq
        simp [lookupList, hk]
      · simpa [lookupList, hk, hq] using ih

theorem find?_erase (m : SortedMap κ ν lt) (k q : κ) :
    (m.erase k).find? q = if q = k then none else m.find? q :=
  lookupList_filter_ne k q m.entries

theorem erase_of_find?_none {m : SortedMap κ ν lt} {k : κ} (h : m.find? k = none) :
    m.erase k = m := by
  apply ext_entries
  change m.entries.filter _ = m.entries
  rw [List.filter_eq_self]
  intro e he
  have hk := find?_eq_none.mp h
  have hne : e.1 ≠ k := by
    rintro rfl
    exact hk (List.mem_map_of_mem (f := Prod.fst) he)
  simpa using hne

/-- Remove the entry at `k` when its value satisfies `p`. -/
def eraseIf (m : SortedMap κ ν lt) (k : κ) (p : ν → Bool) : SortedMap κ ν lt :=
  match m.find? k with
  | some v => if p v then m.erase k else m
  | none => m

theorem find?_eraseIf (m : SortedMap κ ν lt) (k q : κ) (p : ν → Bool) :
    (m.eraseIf k p).find? q =
      if q = k then (m.find? q).filter (fun v => !p v) else m.find? q := by
  unfold eraseIf
  by_cases hq : q = k
  · subst hq
    cases h : m.find? q with
    | none => simp [h]
    | some v => cases hp : p v <;> simp [h, hp, find?_erase, Option.filter]
  · cases h : m.find? k with
    | none => simp [hq]
    | some v => cases hp : p v <;> simp [hp, hq, find?_erase]

theorem eraseIf_entries [Std.Irrefl lt] (m : SortedMap κ ν lt) (k : κ) (p : ν → Bool) :
    (m.eraseIf k p).entries = m.entries.filter fun e => !(e.1 = k && p e.2) := by
  unfold eraseIf
  cases h : m.find? k with
  | none =>
    symm
    apply List.filter_eq_self.mpr
    intro e he
    have hne : e.1 ≠ k := by
      rintro rfl
      exact find?_eq_none.mp h (List.mem_map_of_mem (f := Prod.fst) he)
    simp [hne]
  | some v =>
    have huniq : ∀ e ∈ m.entries, e.1 = k → e.2 = v := by
      rintro ⟨k', v'⟩ he rfl
      have he' := find?_eq_some.mpr he
      rw [h] at he'
      exact (Option.some.inj he').symm
    cases hp : p v with
    | false =>
      simp only [hp, Bool.false_eq_true, if_false]
      symm
      apply List.filter_eq_self.mpr
      intro e he
      by_cases hk : e.1 = k
      · simp [huniq e he hk, hp]
      · simp [hk]
    | true =>
      simp only [hp, if_pos]
      apply List.filter_congr
      intro e he
      by_cases hk : e.1 = k
      · simp [huniq e he hk, hp, hk]
      · simp [hk]

/-- The entries that satisfy `p`. -/
def retain (m : SortedMap κ ν lt) (p : κ × ν → Bool) : SortedMap κ ν lt :=
  m.rebuild (m.entries.filter p) (List.filter_sublist.map _)

theorem find?_retain_eq_some [Std.Irrefl lt] {m : SortedMap κ ν lt} {p : κ × ν → Bool} {k : κ}
    {v : ν} : (m.retain p).find? k = some v ↔ m.find? k = some v ∧ p (k, v) := by
  simp only [find?_eq_some, retain, rebuild, List.mem_filter]

variable [DecidableRel lt]

/-- Update the value at `k`, or put a fresh one at the position the order gives it. -/
def upsertList (lt : κ → κ → Prop) [DecidableRel lt] (k : κ) (fresh : ν) (f : ν → ν) :
    List (κ × ν) → List (κ × ν)
  | [] => [(k, f fresh)]
  | (k', v) :: rest =>
      if k' = k then (k', f v) :: rest
      else if lt k k' then (k, f fresh) :: (k', v) :: rest
      else (k', v) :: upsertList lt k fresh f rest

theorem mem_upsertList_keys {k q : κ} {fresh : ν} {f : ν → ν} {l : List (κ × ν)} :
    q ∈ (upsertList lt k fresh f l).map Prod.fst ↔ q = k ∨ q ∈ l.map Prod.fst := by
  induction l with
  | nil => simp [upsertList]
  | cons e rest ih =>
    obtain ⟨k', v⟩ := e
    by_cases hk : k' = k
    · subst hk
      simp [upsertList]
    · by_cases hlt : lt k k'
      · simp [upsertList, hk, hlt]
      · simp only [upsertList, hk, hlt, if_false, List.map_cons, List.mem_cons, ih]
        tauto

theorem upsertList_sorted [IsStrictTotalOrder κ lt] (k : κ) (fresh : ν) (f : ν → ν)
    {l : List (κ × ν)} (hs : (l.map Prod.fst).Pairwise lt) :
    ((upsertList lt k fresh f l).map Prod.fst).Pairwise lt := by
  induction l with
  | nil => simp [upsertList]
  | cons e rest ih =>
    obtain ⟨k', v⟩ := e
    simp only [List.map_cons, List.pairwise_cons] at hs
    by_cases hk : k' = k
    · subst hk
      simpa [upsertList] using hs
    · by_cases hlt : lt k k'
      · simp only [upsertList, if_neg hk, if_pos hlt, List.map_cons, List.pairwise_cons]
        refine ⟨?_, hs⟩
        intro q hq
        rcases List.mem_cons.mp hq with rfl | hq
        · exact hlt
        · exact IsTrans.trans _ _ _ hlt (hs.1 q hq)
      · have hgt : lt k' k := by
          rcases trichotomous (r := lt) k' k with h | h | h
          · exact h
          · exact absurd h hk
          · exact absurd h hlt
        simp only [upsertList, if_neg hk, if_neg hlt, List.map_cons, List.pairwise_cons]
        refine ⟨?_, ih hs.2⟩
        intro q hq
        rcases mem_upsertList_keys.mp hq with rfl | hq
        · exact hgt
        · exact hs.1 q hq

/-- `entry(k).or_insert(fresh)` followed by the update `f` through the reference. -/
def upsert [IsStrictTotalOrder κ lt] (m : SortedMap κ ν lt) (k : κ) (fresh : ν) (f : ν → ν) :
    SortedMap κ ν lt :=
  ⟨upsertList lt k fresh f m.entries, upsertList_sorted k fresh f m.sorted⟩

theorem lookupList_upsertList [IsStrictTotalOrder κ lt] (k q : κ) (fresh : ν) (f : ν → ν)
    {l : List (κ × ν)} (hs : (l.map Prod.fst).Pairwise lt) :
    lookupList q (upsertList lt k fresh f l) =
      if q = k then some (f ((lookupList q l).getD fresh)) else lookupList q l := by
  induction l with
  | nil =>
    by_cases hq : q = k
    · simp [upsertList, lookupList, hq]
    · simp [upsertList, lookupList, hq, Ne.symm hq]
  | cons e rest ih =>
    obtain ⟨k', v⟩ := e
    simp only [List.map_cons, List.pairwise_cons] at hs
    by_cases hk : k' = k
    · subst hk
      by_cases hq : q = k'
      · subst hq
        simp [upsertList, lookupList]
      · simp [upsertList, lookupList, hq, Ne.symm hq]
    · by_cases hlt : lt k k'
      · by_cases hq : q = k
        · subst hq
          -- the order leaves no room for `q` behind a greater key
          have hnone : lookupList q rest = none := by
            rw [lookupList_eq_none]
            intro hmem
            exact asymm (r := lt) hlt (hs.1 q hmem)
          simp [upsertList, lookupList, hk, hlt, hnone]
        · simp [upsertList, lookupList, hk, hlt, hq, Ne.symm hq]
      · by_cases hq : k' = q
        · subst hq
          simp [upsertList, lookupList, hk, hlt]
        · simp [upsertList, lookupList, hk, hlt, hq, ih hs.2]

theorem find?_upsert [IsStrictTotalOrder κ lt] (m : SortedMap κ ν lt) (k q : κ) (fresh : ν)
    (f : ν → ν) :
    (m.upsert k fresh f).find? q =
      if q = k then some (f ((m.find? q).getD fresh)) else m.find? q :=
  lookupList_upsertList k q fresh f m.sorted

end SortedMap

end Framework
