import VexCore.Framework.Log

/-!
# Logs about many things

Each entry of a log concerns one key. The history of a key is what the log says about it, its
current entry the last of them. A reader who keeps the current entries needs batches in which no
key occurs twice to know what a batch does to them.
-/

namespace Framework

variable {α κ : Type} [DecidableEq κ]

/-- The entries of a log that concern a key. -/
def historyOf (key : α → κ) (k : κ) (log : List α) : List α := log.filter fun a => key a = k

/-- The last entry about a key. -/
def currentOf (key : α → κ) (k : κ) (log : List α) : Option α := (historyOf key k log).getLast?

section History

variable {key : α → κ} {k : κ} {log batch : List α} {a : α}

@[simp] theorem historyOf_nil : historyOf key k [] = [] := rfl

@[simp] theorem historyOf_append :
    historyOf key k (log ++ batch) = historyOf key k log ++ historyOf key k batch :=
  List.filter_append ..

theorem historyOf_of_not_mem (h : ∀ b ∈ batch, key b ≠ k) : historyOf key k batch = [] := by
  simpa [historyOf] using h

theorem historyOf_of_mem (hnodup : (batch.map key).Nodup) (hmem : a ∈ batch) :
    historyOf key (key a) batch = [a] := by
  induction batch with
  | nil => cases hmem
  | cons b rest ih =>
    rw [List.map_cons, List.nodup_cons] at hnodup
    obtain ⟨hfresh, hrest⟩ := hnodup
    rcases List.mem_cons.mp hmem with rfl | hmem
    · have hnone : historyOf key (key a) rest = [] := by
        apply historyOf_of_not_mem
        intro c hc heq
        exact hfresh (heq ▸ List.mem_map_of_mem hc)
      simpa [historyOf] using hnone
    · have hne : key b ≠ key a := by
        intro heq
        exact hfresh (heq ▸ List.mem_map_of_mem hmem)
      simpa [historyOf, hne] using ih hrest hmem

@[simp] theorem currentOf_nil : currentOf key k [] = none := rfl

theorem currentOf_append_of_not_mem (h : ∀ b ∈ batch, key b ≠ k) :
    currentOf key k (log ++ batch) = currentOf key k log := by
  simp [currentOf, historyOf_of_not_mem h]

theorem currentOf_append_of_mem (hnodup : (batch.map key).Nodup) (hmem : a ∈ batch) :
    currentOf key (key a) (log ++ batch) = some a := by
  simp [currentOf, historyOf_of_mem hnodup hmem]

end History

/-- Every history obeys a law, entry by entry. -/
def EachHistory (key : α → κ) (P : List α → α → Prop) (log : List α) : Prop :=
  ∀ k, Each P (historyOf key k log)

namespace EachHistory

variable {key : α → κ} {P : List α → α → Prop} {log batch : List α}

theorem nil : EachHistory key P [] := fun _ => .nil

/-- A batch without repetitions, each of whose entries fits the history before the batch. -/
theorem append (h : EachHistory key P log) (hnodup : (batch.map key).Nodup)
    (hbatch : ∀ a ∈ batch, P (historyOf key (key a) log) a) :
    EachHistory key P (log ++ batch) := by
  intro k
  rw [historyOf_append]
  by_cases hmem : ∃ a ∈ batch, key a = k
  · obtain ⟨a, ha, rfl⟩ := hmem
    rw [historyOf_of_mem hnodup ha]
    exact (h (key a)).concat (hbatch a ha)
  · rw [historyOf_of_not_mem fun a ha hk => hmem ⟨a, ha, hk⟩, List.append_nil]
    exact h k

end EachHistory

end Framework
