import Mathlib.Tactic.Common

/-!
# Logs

A law of a log says of each entry how it fits what was logged before it. Such a law is kept by
appending, so a log that grows entry by entry is checked entry by entry.
-/

namespace Framework

variable {α : Type}

/-- Every entry satisfies `P` with respect to the entries before it. -/
def Each (P : List α → α → Prop) (log : List α) : Prop :=
  ∀ before entry later, log = before ++ entry :: later → P before entry

variable {P : List α → α → Prop}

theorem Each.nil : Each P [] := by
  intro before entry later h
  cases List.append_ne_nil_of_right_ne_nil before (List.cons_ne_nil entry later) h.symm

theorem Each.concat {log : List α} (h : Each P log) {entry : α} (hentry : P log entry) :
    Each P (log ++ [entry]) := by
  intro before x later heq
  rcases List.eq_nil_or_concat later with rfl | ⟨later, last, rfl⟩
  · obtain ⟨rfl, hlast⟩ := List.append_inj' heq rfl
    cases hlast
    exact hentry
  · have hsplit : log ++ [entry] = (before ++ x :: later) ++ [last] := by
      rw [heq]
      simp
    obtain ⟨hlog, _⟩ := List.append_inj' hsplit rfl
    exact h before x later hlog

/-- Entries that satisfy the law after any log. -/
theorem Each.append {log more : List α} (h : Each P log)
    (hmore : ∀ entry ∈ more, ∀ before, P before entry) : Each P (log ++ more) := by
  induction more generalizing log with
  | nil =>
    rw [List.append_nil]
    exact h
  | cons entry more ih =>
    have hstep := h.concat (hmore entry List.mem_cons_self log)
    rw [List.append_cons]
    exact ih hstep fun x hx => hmore x (List.mem_cons_of_mem _ hx)

theorem Each.imp {Q : List α → α → Prop} {log : List α} (h : Each P log)
    (hPQ : ∀ before entry, P before entry → Q before entry) : Each Q log :=
  fun before entry later heq => hPQ before entry (h before entry later heq)

/-- A law speaks about every entry of a log. -/
theorem Each.of_mem {log : List α} (h : Each P log) {entry : α} (hentry : entry ∈ log) :
    ∃ before, P before entry := by
  obtain ⟨before, later, heq⟩ := List.append_of_mem hentry
  exact ⟨before, h before entry later heq⟩

end Framework
