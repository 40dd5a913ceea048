import Mathlib.Order.Basic
import Mathlib.Order.Lattice
import Mathlib.Algebra.Notation.Defs

/-!
# The earliest deadline

A clock keeps one deadline, and 0 says that it has none.  Deadlines are noted one after another, and
the earliest stays.

* `note`, `notes`     one deadline, and some of them;
* `note_ne_zero`      there is a deadline as soon as one is noted;
* `notes_le`          it is not after any of them;
* `notes_mem`         it is one of them, or the one that there was.
-/

namespace Deadlines

variable {α : Type*} [LinearOrder α] [Zero α] {t d : α} {ds : List α}

def note (t d : α) : α := if t = 0 ∨ d < t then d else t

def notes (t : α) (ds : List α) : α := ds.foldl note t

theorem note_ne_zero (hd : d ≠ 0) : note t d ≠ 0 := by
  unfold note
  split
  · exact hd
  · rename_i h
    exact (not_or.mp h).1

theorem note_le (t d : α) : note t d ≤ d := by
  unfold note
  split
  · exact le_refl d
  · rename_i h
    exact not_lt.mp (not_or.mp h).2

theorem note_le_self (ht : t ≠ 0) (d : α) : note t d ≤ t := by
  unfold note
  split
  · rename_i h
    exact (h.resolve_left ht).le
  · exact le_refl t

theorem note_mem (t d : α) : note t d = t ∨ note t d = d := by
  unfold note
  split
  · exact Or.inr rfl
  · exact Or.inl rfl

theorem notes_cons (t d : α) (ds : List α) : notes t (d :: ds) = notes (note t d) ds := rfl

theorem notes_le_self (ht : t ≠ 0) (h : ∀ d ∈ ds, d ≠ 0) : notes t ds ≤ t := by
  induction ds generalizing t with
  | nil => exact le_refl t
  | cons d ds ih =>
    obtain ⟨hd, hds⟩ := List.forall_mem_cons.mp h
    exact (ih (note_ne_zero hd) hds).trans (note_le_self ht d)

theorem notes_le (h : ∀ d ∈ ds, d ≠ 0) : ∀ d ∈ ds, notes t ds ≤ d := by
  induction ds generalizing t with
  | nil => exact List.forall_mem_nil _
  | cons d ds ih =>
    obtain ⟨hd, hds⟩ := List.forall_mem_cons.mp h
    refine List.forall_mem_cons.mpr ⟨?_, ih hds⟩
    exact (notes_le_self (note_ne_zero hd) hds).trans (note_le t d)

theorem notes_mem (t : α) (ds : List α) : notes t ds ∈ t :: ds := by
  induction ds generalizing t with
  | nil => exact List.mem_singleton_self t
  | cons d ds ih =>
    rw [notes_cons]
    rcases List.mem_cons.mp (ih (note t d)) with h | h
    · rw [h]
      rcases note_mem t d with h | h
      · rw [h]
        exact List.mem_cons_self
      · rw [h]
        exact List.mem_cons_of_mem _ List.mem_cons_self
    · exact List.mem_cons_of_mem _ (List.mem_cons_of_mem _ h)

end Deadlines
