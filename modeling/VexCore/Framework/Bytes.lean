import Mathlib.Algebra.Order.Ring.Nat
import Mathlib.Data.List.Basic
import Mathlib.Tactic.Common

/-!
# Words in byte buffers

Little-endian words, overwriting a range of a buffer, and reading a range back. Writes to
disjoint ranges that fit the buffer can all be read back, and leave the rest of it alone.
-/

namespace Framework

/-- The low `n` bytes of a number, least significant first. -/
def toLeBytes : Nat → Nat → List UInt8
  | 0, _ => []
  | n + 1, v => UInt8.ofNat v :: toLeBytes n (v / 256)

def fromLeBytes : List UInt8 → Nat
  | [] => 0
  | b :: rest => b.toNat + 256 * fromLeBytes rest

@[simp] theorem length_toLeBytes (n v : Nat) : (toLeBytes n v).length = n := by
  induction n generalizing v with
  | zero => rfl
  | succ n ih => simp [toLeBytes, ih]

/-- Reading back keeps the value modulo the width. -/
theorem fromLeBytes_toLeBytes (n v : Nat) : fromLeBytes (toLeBytes n v) = v % 256 ^ n := by
  induction n generalizing v with
  | zero => simp [toLeBytes, fromLeBytes, Nat.mod_one]
  | succ n ih =>
    have hbyte : (UInt8.ofNat v).toNat = v % 256 := by simp
    rw [toLeBytes, fromLeBytes, ih, hbyte, Nat.pow_succ', Nat.mod_mul]

theorem fromLeBytes_lt (bytes : List UInt8) : fromLeBytes bytes < 256 ^ bytes.length := by
  induction bytes with
  | nil => decide
  | cons b rest ih =>
    have hb : b.toNat < 256 := b.toNat_lt
    rw [fromLeBytes, List.length_cons, Nat.pow_succ']
    omega

/-- Writing back what was read gives the bytes. -/
theorem toLeBytes_fromLeBytes (bytes : List UInt8) :
    toLeBytes bytes.length (fromLeBytes bytes) = bytes := by
  induction bytes with
  | nil => rfl
  | cons b rest ih =>
    have hb : b.toNat < 256 := b.toNat_lt
    have hdiv : (b.toNat + 256 * fromLeBytes rest) / 256 = fromLeBytes rest := by omega
    have hbyte : UInt8.ofNat (b.toNat + 256 * fromLeBytes rest) = b := by
      apply UInt8.toNat_inj.mp
      rw [UInt8.toNat_ofNat']
      omega
    rw [List.length_cons, fromLeBytes, toLeBytes, hdiv, ih, hbyte]

section Ranges

variable {data : List UInt8}

/-- The buffer with `bytes` written at `index`. -/
def overwrite (data : List UInt8) (index : Nat) (bytes : List UInt8) : List UInt8 :=
  data.take index ++ (bytes ++ data.drop (index + bytes.length))

/-- The `n` bytes at `index`. -/
def slice (data : List UInt8) (index n : Nat) : List UInt8 := (data.drop index).take n

theorem length_overwrite {index : Nat} {bytes : List UInt8}
    (h : index + bytes.length ≤ data.length) :
    (overwrite data index bytes).length = data.length := by
  simp only [overwrite, List.length_append, List.length_take, List.length_drop]
  omega

theorem slice_overwrite_self {index : Nat} {bytes : List UInt8}
    (h : index + bytes.length ≤ data.length) :
    slice (overwrite data index bytes) index bytes.length = bytes := by
  have hlen : (data.take index).length = index := by
    rw [List.length_take]
    omega
  rw [slice, overwrite, List.drop_append_of_le_length (by omega), List.drop_of_length_le (by omega),
    List.nil_append, List.take_append_of_le_length (Nat.le_refl _),
    List.take_length]

theorem slice_overwrite_of_disjoint {index j n : Nat} {bytes : List UInt8}
    (h : index + bytes.length ≤ data.length)
    (hdisjoint : j + n ≤ index ∨ index + bytes.length ≤ j) :
    slice (overwrite data index bytes) j n = slice data j n := by
  apply List.ext_getElem?
  intro k
  rw [slice, slice, overwrite]
  by_cases hk : k < n
  · simp only [List.getElem?_take, if_pos hk, List.getElem?_drop, List.getElem?_append,
      List.length_take]
    rcases hdisjoint with hleft | hright
    · rw [if_pos (by omega), if_pos (by omega)]
    · rw [if_neg (by omega), if_neg (by omega)]
      congr 1
      omega
  · rw [List.getElem?_take, List.getElem?_take, if_neg hk, if_neg hk]

theorem drop_overwrite {index j : Nat} {bytes : List UInt8}
    (h : index + bytes.length ≤ data.length) (hj : index + bytes.length ≤ j) :
    (overwrite data index bytes).drop j = data.drop j := by
  apply List.ext_getElem?
  intro k
  simp only [overwrite, List.getElem?_drop, List.getElem?_append, List.length_take]
  rw [if_neg (by omega), if_neg (by omega)]
  congr 1
  omega

end Ranges

/-- Bytes to write, and where. -/
structure Write where
  index : Nat
  bytes : List UInt8

def Write.stop (w : Write) : Nat := w.index + w.bytes.length

def Write.Disjoint (w v : Write) : Prop := w.stop ≤ v.index ∨ v.stop ≤ w.index

def overwriteAll (data : List UInt8) (writes : List Write) : List UInt8 :=
  writes.foldl (fun data w => overwrite data w.index w.bytes) data

section Writes

variable {data : List UInt8} {writes : List Write}

theorem length_overwriteAll (fits : ∀ w ∈ writes, w.stop ≤ data.length) :
    (overwriteAll data writes).length = data.length := by
  induction writes generalizing data with
  | nil => rfl
  | cons w rest ih =>
    have hfirst := length_overwrite (fits w List.mem_cons_self)
    rw [overwriteAll, List.foldl_cons]
    refine (ih ?_).trans hfirst
    intro v hv
    rw [hfirst]
    exact fits v (List.mem_cons_of_mem w hv)

theorem slice_overwriteAll_of_disjoint (fits : ∀ w ∈ writes, w.stop ≤ data.length) {j n : Nat}
    (hdisjoint : ∀ w ∈ writes, j + n ≤ w.index ∨ w.stop ≤ j) :
    slice (overwriteAll data writes) j n = slice data j n := by
  induction writes generalizing data with
  | nil => rfl
  | cons w rest ih =>
    have hfirst := length_overwrite (fits w List.mem_cons_self)
    rw [overwriteAll, List.foldl_cons]
    refine (ih ?_ fun v hv => hdisjoint v (List.mem_cons_of_mem w hv)).trans ?_
    · intro v hv
      rw [hfirst]
      exact fits v (List.mem_cons_of_mem w hv)
    · exact slice_overwrite_of_disjoint (fits w List.mem_cons_self) (hdisjoint w List.mem_cons_self)

/-- Every one of several disjoint writes can be read back. -/
theorem slice_overwriteAll (fits : ∀ w ∈ writes, w.stop ≤ data.length)
    (hdisjoint : writes.Pairwise Write.Disjoint) {w : Write} (hw : w ∈ writes) :
    slice (overwriteAll data writes) w.index w.bytes.length = w.bytes := by
  induction writes generalizing data with
  | nil => cases hw
  | cons v rest ih =>
    have hfirst := length_overwrite (fits v List.mem_cons_self)
    have hrest : ∀ u ∈ rest, u.stop ≤ (overwrite data v.index v.bytes).length := by
      intro u hu
      rw [hfirst]
      exact fits u (List.mem_cons_of_mem v hu)
    obtain ⟨hv, hpairs⟩ := List.pairwise_cons.mp hdisjoint
    rw [overwriteAll, List.foldl_cons]
    rcases List.mem_cons.mp hw with rfl | hw
    · have hkept := slice_overwriteAll_of_disjoint (j := w.index) (n := w.bytes.length) hrest
        fun u hu => hv u hu
      exact hkept.trans (slice_overwrite_self (fits w List.mem_cons_self))
    · exact ih hrest hpairs hw

/-- Writes that leave no gap determine the buffer. -/
theorem overwriteAll_eq {target : List UInt8} (fits : ∀ w ∈ writes, w.stop ≤ data.length)
    (hdisjoint : writes.Pairwise Write.Disjoint) (hlength : target.length = data.length)
    (htiled : ∀ i < data.length, ∃ w ∈ writes, w.index ≤ i ∧ i < w.stop)
    (hslices : ∀ w ∈ writes, slice target w.index w.bytes.length = w.bytes) :
    overwriteAll data writes = target := by
  apply List.ext_getElem?
  intro i
  by_cases hi : i < data.length
  · obtain ⟨w, hw, hle, hlt⟩ := htiled i hi
    have hslice := (slice_overwriteAll fits hdisjoint hw).trans (hslices w hw).symm
    have hat := congrArg (fun bytes => bytes[i - w.index]?) hslice
    have hinside : i - w.index < w.bytes.length := by
      unfold Write.stop at hlt
      omega
    simpa only [slice, List.getElem?_take, if_pos hinside, List.getElem?_drop,
      Nat.add_sub_cancel' hle] using hat
  · rw [List.getElem?_eq_none (by rw [length_overwriteAll fits]; omega),
      List.getElem?_eq_none (by omega)]

/-- Bytes after the last write stay. -/
theorem drop_overwriteAll (fits : ∀ w ∈ writes, w.stop ≤ data.length) {j : Nat}
    (hstop : ∀ w ∈ writes, w.stop ≤ j) : (overwriteAll data writes).drop j = data.drop j := by
  induction writes generalizing data with
  | nil => rfl
  | cons w rest ih =>
    have hfirst := length_overwrite (fits w List.mem_cons_self)
    rw [overwriteAll, List.foldl_cons]
    refine (ih ?_ fun v hv => hstop v (List.mem_cons_of_mem w hv)).trans ?_
    · intro v hv
      rw [hfirst]
      exact fits v (List.mem_cons_of_mem w hv)
    · exact drop_overwrite (fits w List.mem_cons_self) (hstop w List.mem_cons_self)

end Writes

end Framework
