import VexCore.Framework.Greedy

/-!
# What a demand leaves of its supplies

A greedy allocation says what was taken. Here is the other half: the supplies that remain, some
of them drawn down, some gone. Two demands one after the other leave what their sum leaves, and
take together what it takes.
-/

namespace Framework

variable {α : Type}

/-- Supplies that can be drawn down. Drawing twice is drawing the sum, and whether a supply may
be used does not change with it. -/
structure Draws (cap : α → Nat) (draw : α → Nat → α) (usable : α → Bool) : Prop where
  draw_zero : ∀ a, draw a 0 = a
  draw_draw : ∀ a m n, draw (draw a m) n = draw a (m + n)
  cap_draw : ∀ a n, cap (draw a n) = cap a - n
  usable_draw : ∀ a n, usable (draw a n) = usable a

/-- Serve the demand from the usable supplies in order; one that is used up disappears. -/
def deplete (cap : α → Nat) (draw : α → Nat → α) (usable : α → Bool) : Nat → List α → List α
  | _, [] => []
  | demand, a :: rest =>
      if usable a then
        if cap a ≤ demand then deplete cap draw usable (demand - cap a) rest
        else draw a demand :: deplete cap draw usable 0 rest
      else a :: deplete cap draw usable demand rest

section

variable {cap : α → Nat} {draw : α → Nat → α} {usable : α → Bool}

theorem deplete_unusable {a : α} (h : usable a = false) (demand : Nat) (rest : List α) :
    deplete cap draw usable demand (a :: rest) = a :: deplete cap draw usable demand rest := by
  simp [deplete, h]

theorem deplete_whole {a : α} (h : usable a = true) {demand : Nat} (hcap : cap a ≤ demand)
    (rest : List α) :
    deplete cap draw usable demand (a :: rest) =
      deplete cap draw usable (demand - cap a) rest := by
  simp [deplete, h, hcap]

theorem deplete_part {a : α} (h : usable a = true) {demand : Nat} (hcap : demand < cap a)
    (rest : List α) :
    deplete cap draw usable demand (a :: rest) =
      draw a demand :: deplete cap draw usable 0 rest := by
  have hnot : ¬cap a ≤ demand := Nat.not_le.mpr hcap
  simp [deplete, h, hnot]

/-- Nothing is taken for nothing. -/
theorem deplete_zero (laws : Draws cap draw usable) {supply : List α}
    (hpos : ∀ a ∈ supply, 0 < cap a) : deplete cap draw usable 0 supply = supply := by
  induction supply with
  | nil => rfl
  | cons a rest ih =>
    have hrest := ih fun b hb => hpos b (List.mem_cons_of_mem _ hb)
    cases hu : usable a with
    | true => rw [deplete_part hu (hpos a List.mem_cons_self), laws.draw_zero, hrest]
    | false => rw [deplete_unusable hu, hrest]

/-- Two demands in turn leave what their sum leaves. -/
theorem deplete_add (laws : Draws cap draw usable) (m n : Nat) (supply : List α) :
    deplete cap draw usable n (deplete cap draw usable m supply) =
      deplete cap draw usable (m + n) supply := by
  induction supply generalizing m n with
  | nil => rfl
  | cons a rest ih =>
    cases hu : usable a with
    | false => rw [deplete_unusable hu, deplete_unusable hu, deplete_unusable hu, ih]
    | true =>
      rcases Nat.lt_or_ge m (cap a) with hm | hm
      · have hu' : usable (draw a m) = true := by rw [laws.usable_draw, hu]
        have hcap := laws.cap_draw a m
        rw [deplete_part hu hm]
        rcases Nat.lt_or_ge (m + n) (cap a) with hmn | hmn
        · rw [deplete_part hu' (by omega), deplete_part hu hmn, laws.draw_draw, ih]
        · have hleft : n - (cap a - m) = m + n - cap a := by omega
          rw [deplete_whole hu' (by omega), deplete_whole hu hmn, ih, hcap, Nat.zero_add, hleft]
      · have hleft : m - cap a + n = m + n - cap a := by omega
        rw [deplete_whole hu hm, deplete_whole hu (by omega), ih, hleft]

/-- The amounts taken, each weighed by its source. -/
def weighed (w : α → Nat) (fills : List (Fill α)) : Nat :=
  (fills.map fun f => f.amount * w f.source).sum

@[simp] theorem weighed_nil (w : α → Nat) : weighed w [] = 0 := rfl

@[simp] theorem weighed_cons (w : α → Nat) (f : Fill α) (fs : List (Fill α)) :
    weighed w (f :: fs) = f.amount * w f.source + weighed w fs := rfl

theorem filled_eq_weighed (fills : List (Fill α)) : filled fills = weighed (fun _ => 1) fills := by
  simp [filled, weighed]

theorem weighed_allocate_cons (w : α → Nat) (demand : Nat) (a : α) (rest : List α) :
    weighed w (allocate cap demand (a :: rest)) =
      min demand (cap a) * w a + weighed w (allocate cap (demand - cap a) rest) := by
  by_cases h : demand = 0
  · simp [h]
  · have hleft : demand - min demand (cap a) = demand - cap a := by omega
    rw [allocate_cons h, weighed_cons, hleft]

/-- The first part takes what it would, the second takes from what is left, and together they
take what the whole takes. -/
theorem weighed_allocate_add (laws : Draws cap draw usable) {w : α → Nat}
    (hw : ∀ a n, w (draw a n) = w a) (m n : Nat) (supply : List α) :
    weighed w (allocate cap m (supply.filter usable)) +
        weighed w (allocate cap n ((deplete cap draw usable m supply).filter usable)) =
      weighed w (allocate cap (m + n) (supply.filter usable)) := by
  induction supply generalizing m n with
  | nil => rfl
  | cons a rest ih =>
    cases hu : usable a with
    | false =>
      rw [deplete_unusable hu, List.filter_cons_of_neg (by simp [hu]),
        List.filter_cons_of_neg (by simp [hu]), ih]
    | true =>
      rw [List.filter_cons_of_pos hu, weighed_allocate_cons, weighed_allocate_cons]
      rcases Nat.lt_or_ge m (cap a) with hm | hm
      · have hu' : usable (draw a m) = true := by rw [laws.usable_draw, hu]
        have hrest := ih (m - cap a) (n - (cap a - m))
        have hm0 : m - cap a = 0 := by omega
        have hsum : m + n - cap a = 0 + (n - (cap a - m)) := by omega
        have hshare : min (m + n) (cap a) = min m (cap a) + min n (cap a - m) := by omega
        rw [hm0] at hrest
        rw [deplete_part hu hm, List.filter_cons_of_pos hu', weighed_allocate_cons, laws.cap_draw, hw,
          hm0, hsum, hshare, Nat.add_mul, ← hrest]
        omega
      · have hrest := ih (m - cap a) n
        have hsum : m + n - cap a = m - cap a + n := by omega
        have hshare : min (m + n) (cap a) = min m (cap a) := by omega
        rw [deplete_whole hu hm, hsum, hshare, ← hrest, Nat.add_assoc]

end

end Framework
