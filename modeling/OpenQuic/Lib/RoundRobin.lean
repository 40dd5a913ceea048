import Mathlib.Data.List.Basic
import Mathlib.Data.List.Nodup

/-!
# Round robin

A queue whose head is served and goes to the end, or leaves; others join at the end.

* `Moves q o q'`      one move, which serves `o`;
* `Stays S q l q'`    moves that serve `l` one after the other, with all of `S` in the queue all along;
* `Alternates a b l`  in `l`, the elements `a` and `b` take turns, and `a` is the first;
* `Stays.alternates`  **two that stay in the queue are served in turn.**
-/

namespace RoundRobin

variable {α : Type*}

inductive Moves : List α → Option α → List α → Prop
  | rest (q : List α) : Moves q none q
  | join {q : List α} {a : α} (h : a ∉ q) : Moves q none (q ++ [a])
  | again (a : α) (q : List α) : Moves (a :: q) (some a) (q ++ [a])
  | leave (a : α) (q : List α) : Moves (a :: q) (some a) q

inductive Stays (S : Set α) : List α → List α → List α → Prop
  | none {q : List α} (h : ∀ a ∈ S, a ∈ q) : Stays S q [] q
  | more {q q1 q2 l : List α} {o : Option α} (h : ∀ a ∈ S, a ∈ q) (hm : Moves q o q1)
      (hs : Stays S q1 l q2) : Stays S q (o.toList ++ l) q2

def Alternates [DecidableEq α] : α → α → List α → Prop
  | _, _, [] => True
  | a, b, x :: l => if x = a then Alternates b a l else x ≠ b ∧ Alternates a b l

section
variable {S : Set α} {a b x : α} {q q' l : List α} {o : Option α}

/-- a queue of different elements stays one -/
theorem Moves.nodup (h : Moves q o q') (hnd : q.Nodup) : q'.Nodup := by
  cases h with
  | rest => exact hnd
  | join hnew => exact (List.perm_append_singleton _ q).nodup_iff.mpr (List.nodup_cons.mpr ⟨hnew, hnd⟩)
  | again c q => exact (List.perm_append_singleton c q).nodup_iff.mpr hnd
  | leave c q => exact (List.nodup_cons.mp hnd).2

theorem Stays.mem (h : Stays S q l q') (ha : a ∈ S) : a ∈ q := by
  cases h with
  | none h => exact h a ha
  | more h _ _ => exact h a ha

/-- the element behind another one is not the head -/
theorem ne_head_of_sublist (hnd : (x :: q).Nodup) (h : [a, b].Sublist (x :: q)) : x ≠ b := by
  intro hx
  have hq : b ∈ q := by
    cases h with
    | cons _ h => exact h.subset (List.mem_cons_of_mem _ List.mem_cons_self)
    | cons_cons _ h => exact h.subset List.mem_cons_self
  exact (List.nodup_cons.mp hnd).1 (hx ▸ hq)

variable [DecidableEq α]

theorem alternates_cons_self : Alternates a b (a :: l) ↔ Alternates b a l := by
  rw [Alternates, if_pos rfl]

theorem alternates_cons_of_ne (ha : x ≠ a) (hb : x ≠ b) :
    Alternates a b (x :: l) ↔ Alternates a b l := by
  rw [Alternates, if_neg ha]
  exact and_iff_right hb

/-- **Two that stay in the queue are served in turn**, the one in front first. -/
theorem Stays.alternates (h : Stays S q l q') (hnd : q.Nodup) (ha : a ∈ S) (hb : b ∈ S)
    (hab : [a, b].Sublist q) : Alternates a b l := by
  induction h generalizing a b with
  | none => trivial
  | more _ hm hs ih =>
    have hnd1 := hm.nodup hnd
    cases hm with
    | rest => exact ih hnd1 ha hb hab
    | join => exact ih hnd1 ha hb (hab.trans (List.sublist_append_left _ _))
    | again x q =>
      have hxb := ne_head_of_sublist hnd hab
      by_cases hxa : x = a
      · -- the one in front is served, and is behind the other one now
        subst hxa
        have hbq : b ∈ q := by
          rcases List.mem_cons.mp (hab.subset (List.mem_cons_of_mem _ List.mem_cons_self)) with h | h
          · exact absurd h.symm hxb
          · exact h
        have hba : [b, x].Sublist (q ++ [x]) :=
          (List.singleton_sublist.mpr hbq).append (List.Sublist.refl [x])
        exact alternates_cons_self.mpr (ih hnd1 hb ha hba)
      · have hq : [a, b].Sublist q := by
          cases hab with
          | cons _ h => exact h
          | cons_cons => exact absurd rfl hxa
        have hrest := ih hnd1 ha hb (hq.trans (List.sublist_append_left _ _))
        exact (alternates_cons_of_ne hxa hxb).mpr hrest
    | leave x =>
      have hout := (List.nodup_cons.mp hnd).1
      have hxa : x ≠ a := fun h => hout (h ▸ hs.mem ha)
      have hxb : x ≠ b := fun h => hout (h ▸ hs.mem hb)
      refine (alternates_cons_of_ne hxa hxb).mpr (ih hnd1 ha hb ?_)
      cases hab with
      | cons _ h => exact h
      | cons_cons => exact absurd rfl hxa

end

end RoundRobin
