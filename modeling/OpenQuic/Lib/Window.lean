import Mathlib.Data.List.Basic

/-!
# Windows of a buffer

A buffer is a list of bytes, a position an index into it.  Reading or writing outside of the buffer
has no result.

* `slice`, `store`           the bytes at a position, and other bytes in their place;
* `xorBytes`, `xorAt`        a window masked with a key stream;
* `slice_middle`, `store_middle`, `xorAt_middle`   the operations on a buffer that is split at the
                             window;
* `xorBytes_xorBytes`        masking twice gives the bytes back;
* `xor_and_disjoint`         a mask does not reach the bits outside of it.
-/

namespace Window

section
variable {α : Type*}

def slice (p : List α) (off len : Nat) : Option (List α) :=
  if off + len ≤ p.length then some ((p.drop off).take len) else none

def store (p : List α) (off : Nat) (bytes : List α) : Option (List α) :=
  if off + bytes.length ≤ p.length then
    some (p.take off ++ bytes ++ p.drop (off + bytes.length))
  else none

theorem slice_middle {a b c : List α} {off len : Nat} (ha : a.length = off) (hb : b.length = len) :
    slice (a ++ b ++ c) off len = some b := by
  subst ha hb
  rw [slice, if_pos (by simp), List.append_assoc, List.drop_left, List.take_left]

theorem store_middle {a b bytes c : List α} {off : Nat} (ha : a.length = off)
    (hb : b.length = bytes.length) : store (a ++ b ++ c) off bytes = some (a ++ bytes ++ c) := by
  subst ha
  have htake : (a ++ b ++ c).take a.length = a := by rw [List.append_assoc, List.take_left]
  have hdrop : (a ++ b ++ c).drop (a.length + bytes.length) = c := by
    rw [← hb, ← List.length_append, List.drop_left]
  rw [store, if_pos (by simp [hb]), htake, hdrop]

theorem slice_eq_some {p q : List α} {off len : Nat} (h : slice p off len = some q) :
    ∃ a c, p = a ++ q ++ c ∧ a.length = off ∧ q.length = len := by
  rw [slice] at h
  split at h
  · rename_i hle
    cases h
    refine ⟨p.take off, (p.drop off).drop len, ?_, ?_, ?_⟩
    · rw [List.append_assoc, List.take_append_drop, List.take_append_drop]
    · rw [List.length_take]
      omega
    · rw [List.length_take, List.length_drop]
      omega
  · cases h

theorem store_length {p q bytes : List α} {off : Nat} (h : store p off bytes = some q) :
    q.length = p.length := by
  rw [store] at h
  split at h
  · cases h
    simp only [List.length_append, List.length_take, List.length_drop]
    omega
  · cases h

theorem store_room {p q bytes : List α} {off : Nat} (h : store p off bytes = some q) :
    off + bytes.length ≤ p.length := by
  rw [store] at h
  split at h
  · assumption
  · cases h

/-- what is before the bytes that are stored stays -/
theorem store_before {p q bytes : List α} {off i : Nat} (h : store p off bytes = some q)
    (hi : i < off) : q[i]? = p[i]? := by
  rw [store] at h
  split at h
  · rename_i hle
    rw [← Option.some.inj h, List.append_assoc, List.getElem?_append_left, List.getElem?_take_of_lt hi]
    rw [List.length_take]
    omega
  · cases h

theorem slice_store {p q bytes : List α} {off : Nat} (h : store p off bytes = some q) :
    slice q off bytes.length = some bytes := by
  rw [store] at h
  split at h
  · rename_i hle
    rw [← Option.some.inj h]
    exact slice_middle (by rw [List.length_take]; omega) rfl
  · cases h

/-- a window that two buffers share -/
theorem slice_congr {p q b : List α} {off len : Nat} (hlen : 0 < len)
    (h : ∀ i, off ≤ i → i < off + len → q[i]? = p[i]?) (hb : slice p off len = some b) :
    slice q off len = some b := by
  unfold slice at hb
  split at hb
  · rename_i hle
    have hlast : q[off + len - 1]? = p[off + len - 1]? := h _ (by omega) (by omega)
    have hin : off + len - 1 < p.length := by omega
    rw [List.getElem?_eq_getElem hin] at hlast
    obtain ⟨hq, _⟩ := List.getElem?_eq_some_iff.mp hlast
    unfold slice
    rw [if_pos (by omega), ← hb]
    congr 1
    refine List.ext_getElem? fun i => ?_
    rw [List.getElem?_take, List.getElem?_take]
    split
    · rw [List.getElem?_drop, List.getElem?_drop]
      exact h _ (by omega) (by omega)
    · rfl
  · cases hb

/-- a buffer that is long enough, split at a window -/
theorem exists_split {p : List α} {off len : Nat} (h : off + len ≤ p.length) :
    ∃ a b c, p = a ++ b ++ c ∧ a.length = off ∧ b.length = len := by
  have hslice : slice p off len = some ((p.drop off).take len) := if_pos h
  obtain ⟨a, c, hp, ha, hb⟩ := slice_eq_some hslice
  exact ⟨a, _, c, hp, ha, hb⟩

end

/-! ## masks -/

def xorBytes (mask : Nat → UInt8) (b : List UInt8) : List UInt8 := b.mapIdx fun i x => x ^^^ mask i

def xorAt (mask : Nat → UInt8) (p : List UInt8) (off len : Nat) : Option (List UInt8) := do
  let b ← slice p off len
  store p off (xorBytes mask b)

@[simp] theorem length_xorBytes (mask : Nat → UInt8) (b : List UInt8) :
    (xorBytes mask b).length = b.length := List.length_mapIdx

theorem xorBytes_xorBytes (mask : Nat → UInt8) (b : List UInt8) :
    xorBytes mask (xorBytes mask b) = b := by
  refine List.ext_getElem (by simp) fun i h1 h2 => ?_
  simp only [xorBytes, List.getElem_mapIdx]
  rw [UInt8.xor_assoc, UInt8.xor_self, UInt8.xor_zero]

theorem xorAt_middle (mask : Nat → UInt8) {a b c : List UInt8} {off len : Nat}
    (ha : a.length = off) (hb : b.length = len) :
    xorAt mask (a ++ b ++ c) off len = some (a ++ xorBytes mask b ++ c) := by
  rw [xorAt, slice_middle ha hb]
  exact store_middle ha (length_xorBytes mask b).symm

theorem xorAt_length {mask : Nat → UInt8} {p q : List UInt8} {off len : Nat}
    (h : xorAt mask p off len = some q) : q.length = p.length := by
  obtain ⟨b, _, h⟩ := Option.bind_eq_some_iff.mp h
  exact store_length h

theorem xorAt_before {mask : Nat → UInt8} {p q : List UInt8} {off len i : Nat}
    (h : xorAt mask p off len = some q) (hi : i < off) : q[i]? = p[i]? := by
  obtain ⟨b, _, h⟩ := Option.bind_eq_some_iff.mp h
  exact store_before h hi

theorem xor_and_disjoint {j k : UInt8} (h : j &&& k = 0) (b m : UInt8) :
    (b ^^^ (m &&& j)) &&& k = b &&& k := by
  apply UInt8.toBitVec_inj.mp
  apply BitVec.eq_of_getElem_eq
  intro i hi
  have hjk : (j.toBitVec[i] && k.toBitVec[i]) = false := by
    have := congrArg (fun b : UInt8 => b.toBitVec[i]) h
    simpa using this
  rw [UInt8.toBitVec_and, UInt8.toBitVec_xor, UInt8.toBitVec_and, UInt8.toBitVec_and,
    BitVec.getElem_and, BitVec.getElem_xor, BitVec.getElem_and, BitVec.getElem_and]
  cases hj : j.toBitVec[i] <;> cases hk : k.toBitVec[i] <;> simp_all

end Window
