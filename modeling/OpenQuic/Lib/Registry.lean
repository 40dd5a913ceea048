import Mathlib.Data.List.Pairwise
import Mathlib.Data.List.Count
import Mathlib.Data.Set.Insert

/-!
# Registries that create their members on demand

A registry knows which members are alive.  A reference to an identifier without a member creates
one, and may announce it; a removal ends the member of an identifier.  The trace records what
happened.

* `refer`, `remove`      the two operations;
* `Once`                 every identifier is created at most once, announced at most once, and
                         neither after its removal;
* `Sound`                a registry whose trace is `Once` and tells who is alive;
* `refers_sound`, `removes_sound`   references to identifiers that were not removed, and removals,
                         keep a registry sound;
* `refers_stale`         a reference to an identifier that was removed ends `Once` for good.
-/

namespace Registry

inductive Mark (κ : Type*) where
  | created (k : κ)
  | announced (k : κ)
  | removed (k : κ)
  deriving DecidableEq

structure Members (κ : Type*) where
  alive : Set κ
  trace : List (Mark κ)

variable {κ : Type*}

/-- the marks of a creation -/
def creation (announce : Bool) (k : κ) : List (Mark κ) :=
  if announce then [.created k, .announced k] else [.created k]

open Classical in
noncomputable def refer (announce : Bool) (r : Members κ) (k : κ) : Members κ :=
  if k ∈ r.alive then r else ⟨insert k r.alive, r.trace ++ creation announce k⟩

open Classical in
noncomputable def remove (r : Members κ) (k : κ) : Members κ :=
  if k ∈ r.alive then ⟨r.alive \ {k}, r.trace ++ [.removed k]⟩ else r

noncomputable def refers (announce : Bool) (ks : List κ) (r : Members κ) : Members κ :=
  ks.foldl (refer announce) r

noncomputable def removes (ks : List κ) (r : Members κ) : Members κ := ks.foldl remove r

@[simp] theorem refers_nil (announce : Bool) (r : Members κ) : refers announce [] r = r := rfl
@[simp] theorem removes_nil (r : Members κ) : removes [] r = r := rfl

theorem refers_append (announce : Bool) (ks js : List κ) (r : Members κ) :
    refers announce (ks ++ js) r = refers announce js (refers announce ks r) := List.foldl_append

theorem removes_append (ks js : List κ) (r : Members κ) :
    removes (ks ++ js) r = removes js (removes ks r) := List.foldl_append

/-- what may not come after what -/
def InOrder (a b : Mark κ) : Prop := ∀ k, a = .removed k → b ≠ .created k ∧ b ≠ .announced k

/-- a list of marks in which nothing is created or announced again -/
structure Once (t : List (Mark κ)) : Prop where
  created : ∀ k, t.Pairwise fun a b => ¬ (a = .created k ∧ b = .created k)
  announced : ∀ k, t.Pairwise fun a b => ¬ (a = .announced k ∧ b = .announced k)
  order : t.Pairwise InOrder

theorem once_nil : Once ([] : List (Mark κ)) :=
  ⟨fun _ => List.Pairwise.nil, fun _ => List.Pairwise.nil, List.Pairwise.nil⟩

theorem Once.of_isPrefix {t u : List (Mark κ)} (h : Once u) (ht : t <+: u) : Once t :=
  ⟨fun k => (h.created k).sublist ht.sublist, fun k => (h.announced k).sublist ht.sublist,
    h.order.sublist ht.sublist⟩

structure Sound (r : Members κ) : Prop where
  once : Once r.trace
  alive : ∀ k, k ∈ r.alive ↔ Mark.created k ∈ r.trace ∧ Mark.removed k ∉ r.trace
  announced : ∀ k, Mark.announced k ∈ r.trace → Mark.created k ∈ r.trace

theorem sound_empty : Sound (⟨∅, []⟩ : Members κ) :=
  ⟨once_nil, fun k => by simp, fun k h => absurd h List.not_mem_nil⟩

theorem mem_creation {announce : Bool} {k : κ} {a : Mark κ} (h : a ∈ creation announce k) :
    a = .created k ∨ a = .announced k := by
  unfold creation at h
  split at h
  · simpa using h
  · exact Or.inl (by simpa using h)

theorem created_mem_creation (announce : Bool) (k : κ) : Mark.created k ∈ creation announce k := by
  unfold creation
  split <;> simp

theorem creation_pairwise (announce : Bool) (k : κ) {R : Mark κ → Mark κ → Prop}
    (h : R (.created k) (.announced k)) : (creation announce k).Pairwise R := by
  unfold creation
  split
  · simpa using h
  · exact List.pairwise_singleton _ _

/-! ## one operation -/

theorem refer_sound {r : Members κ} (h : Sound r) (announce : Bool) {k : κ}
    (hk : Mark.removed k ∉ r.trace) : Sound (refer announce r k) := by
  unfold refer
  split
  · exact h
  · rename_i halive
    have hnew : Mark.created k ∉ r.trace := fun hc => halive ((h.alive k).mpr ⟨hc, hk⟩)
    have hann : Mark.announced k ∉ r.trace := fun ha => hnew (h.announced k ha)
    refine ⟨⟨fun j => ?_, fun j => ?_, ?_⟩, fun j => ?_, fun j hj => ?_⟩
    · refine List.pairwise_append.mpr ⟨h.once.created j, creation_pairwise announce k (by simp), ?_⟩
      rintro a ha b hb ⟨rfl, rfl⟩
      rcases mem_creation hb with he | he
      · cases he
        exact hnew ha
      · cases he
    · refine List.pairwise_append.mpr
        ⟨h.once.announced j, creation_pairwise announce k (by simp), ?_⟩
      rintro a ha b hb ⟨rfl, rfl⟩
      rcases mem_creation hb with he | he
      · cases he
      · cases he
        exact hann ha
    · refine List.pairwise_append.mpr
        ⟨h.once.order, creation_pairwise announce k (fun _ hj => nomatch hj), ?_⟩
      rintro a ha b hb j rfl
      have hne : j ≠ k := fun he => hk (he ▸ ha)
      rcases mem_creation hb with rfl | rfl <;> simp [hne.symm]
    · have hrem : Mark.removed j ∉ creation announce k := fun hm => by
        rcases mem_creation hm with he | he <;> cases he
      have hcre : Mark.created j ∈ creation announce k ↔ j = k := by
        refine ⟨fun hm => ?_, fun he => he ▸ created_mem_creation announce k⟩
        rcases mem_creation hm with he | he <;> cases he
        rfl
      show j ∈ insert k r.alive ↔ _
      rw [Set.mem_insert_iff, List.mem_append, List.mem_append, hcre, h.alive j]
      by_cases hj : j = k
      · subst hj
        simp [hk, hrem]
      · simp [hj, hrem]
    · rcases List.mem_append.mp hj with hj | hj
      · exact List.mem_append_left _ (h.announced j hj)
      · rcases mem_creation hj with he | he
        · cases he
        · cases he
          exact List.mem_append_right _ (created_mem_creation announce k)

theorem remove_sound {r : Members κ} (h : Sound r) (k : κ) : Sound (remove r k) := by
  unfold remove
  split
  · rename_i halive
    refine ⟨⟨fun j => ?_, fun j => ?_, ?_⟩, fun j => ?_, fun j hj => ?_⟩
    · refine List.pairwise_append.mpr ⟨h.once.created j, List.pairwise_singleton _ _, ?_⟩
      intro a _ b hb
      rw [List.mem_singleton.mp hb]
      simp
    · refine List.pairwise_append.mpr ⟨h.once.announced j, List.pairwise_singleton _ _, ?_⟩
      intro a _ b hb
      rw [List.mem_singleton.mp hb]
      simp
    · refine List.pairwise_append.mpr ⟨h.once.order, List.pairwise_singleton _ _, ?_⟩
      intro a _ b hb j _
      rw [List.mem_singleton.mp hb]
      simp
    · show j ∈ r.alive \ {k} ↔ _
      rw [Set.mem_sdiff, h.alive j, Set.mem_singleton_iff]
      simp only [List.mem_append, List.mem_singleton, Mark.removed.injEq, reduceCtorEq, or_false,
        not_or, and_assoc]
    · have hj' : Mark.announced j ∈ r.trace := by simpa using hj
      exact List.mem_append_left _ (h.announced j hj')
  · exact h

theorem refer_trace (announce : Bool) (r : Members κ) (k : κ) :
    r.trace <+: (refer announce r k).trace := by
  unfold refer
  split
  · exact List.prefix_rfl
  · exact List.prefix_append _ _

theorem remove_trace (r : Members κ) (k : κ) : r.trace <+: (remove r k).trace := by
  unfold remove
  split
  · exact List.prefix_append _ _
  · exact List.prefix_rfl

theorem removed_mem_refer {announce : Bool} {r : Members κ} {k j : κ} :
    Mark.removed j ∈ (refer announce r k).trace ↔ Mark.removed j ∈ r.trace := by
  unfold refer
  split
  · exact Iff.rfl
  · refine List.mem_append.trans (or_iff_left ?_)
    intro hm
    rcases mem_creation hm with he | he <;> cases he

/-- the identifier is created although it was removed -/
theorem refer_stale {r : Members κ} (h : Sound r) (announce : Bool) {k : κ}
    (hk : Mark.removed k ∈ r.trace) : ¬ Once (refer announce r k).trace := by
  intro ho
  have halive : k ∉ r.alive := fun ha => ((h.alive k).mp ha).2 hk
  unfold refer at ho
  rw [if_neg halive] at ho
  exact ((List.pairwise_append.mp ho.order).2.2 _ hk _ (created_mem_creation announce k) k rfl).1 rfl

/-! ## several operations -/

theorem refers_trace (announce : Bool) (ks : List κ) (r : Members κ) :
    r.trace <+: (refers announce ks r).trace := by
  induction ks generalizing r with
  | nil => exact List.prefix_rfl
  | cons k ks ih => exact (refer_trace announce r k).trans (ih _)

theorem removes_trace (ks : List κ) (r : Members κ) : r.trace <+: (removes ks r).trace := by
  induction ks generalizing r with
  | nil => exact List.prefix_rfl
  | cons k ks ih => exact (remove_trace r k).trans (ih _)

theorem refers_sound {r : Members κ} (h : Sound r) (announce : Bool) (ks : List κ)
    (hk : ∀ k ∈ ks, Mark.removed k ∉ r.trace) : Sound (refers announce ks r) := by
  induction ks generalizing r with
  | nil => exact h
  | cons k ks ih =>
    refine ih (refer_sound h announce (hk k List.mem_cons_self)) fun j hj => ?_
    rw [removed_mem_refer]
    exact hk j (List.mem_cons_of_mem _ hj)

theorem removes_sound {r : Members κ} (h : Sound r) (ks : List κ) : Sound (removes ks r) := by
  induction ks generalizing r with
  | nil => exact h
  | cons k ks ih => exact ih (remove_sound h k)

theorem refers_stale {r : Members κ} (h : Sound r) (announce : Bool) {ks : List κ} {k : κ}
    (hk : k ∈ ks) (hr : Mark.removed k ∈ r.trace) : ¬ Once (refers announce ks r).trace := by
  induction ks generalizing r with
  | nil => exact absurd hk List.not_mem_nil
  | cons j ks ih =>
    by_cases hj : Mark.removed j ∈ r.trace
    · intro ho
      exact refer_stale h announce hj (ho.of_isPrefix (refers_trace announce ks _))
    · have hne : k ≠ j := fun he => hj (he ▸ hr)
      exact ih (refer_sound h announce hj) ((List.mem_cons.mp hk).resolve_left hne)
        (removed_mem_refer.mpr hr)

end Registry
