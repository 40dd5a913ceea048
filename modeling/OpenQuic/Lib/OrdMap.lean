import Mathlib.Order.Basic
import Mathlib.Order.Lattice
import Mathlib.Data.List.Basic
import Mathlib.Data.List.Perm.Basic
import Mathlib.Data.List.Pairwise

/-!
# Ordered maps

A finite map from a linearly ordered key, kept as the list of its entries in key order.  The
order is a field, so a map with a repeated key cannot be built.

* `find`, `insert`, `erase`, `keep`, `mapVal`   the operations;
* `foreach`                 a loop over the entries that updates them in place;
* `least`, `least_eq_some`  the entry with the least key;
* `mem_insert`, `mem_erase`, `mem_keep`         what is in the result;
* `find_insert`, `find_erase`  the map laws, also for an equal key (`_self`), for another one
                            (`_of_ne`) and for a value that is there (`_eq_some`);
* `foreach_fst`, `foreach_snd`   the loop as a map and a fold;
* `insert_perm`, `erase_perm`   the entries as a multiset, for sums and counts.
-/

set_option linter.unusedSectionVars false

structure OrdMap (κ ν : Type*) [LinearOrder κ] where
  entries : List (κ × ν)
  sorted : entries.Pairwise fun a b => a.1 < b.1

namespace OrdMap

variable {κ ν : Type*} [LinearOrder κ]

def empty : OrdMap κ ν := ⟨[], List.Pairwise.nil⟩

def find (m : OrdMap κ ν) (k : κ) : Option ν := (m.entries.find? fun e => e.1 = k).map Prod.snd

/-- put an entry where its key belongs; an entry with the same key is replaced -/
def put (k : κ) (v : ν) : List (κ × ν) → List (κ × ν)
  | [] => [(k, v)]
  | e :: l => if k < e.1 then (k, v) :: e :: l else if k = e.1 then (k, v) :: l else e :: put k v l

theorem mem_put {k : κ} {v : ν} {l : List (κ × ν)} (hl : l.Pairwise fun a b => a.1 < b.1)
    (e : κ × ν) : e ∈ put k v l ↔ e = (k, v) ∨ (e ∈ l ∧ e.1 ≠ k) := by
  induction l with
  | nil => simp [put]
  | cons f l ih =>
    obtain ⟨hf, hl'⟩ := List.pairwise_cons.mp hl
    have hne : k ≤ f.1 → ∀ g ∈ l, g.1 ≠ k := fun hk g hg => (lt_of_le_of_lt hk (hf g hg)).ne'
    rw [put]
    split
    · rename_i hk
      have h0 : ∀ g ∈ f :: l, g.1 ≠ k := by
        intro g hg
        rcases List.mem_cons.mp hg with rfl | hg
        · exact hk.ne'
        · exact hne hk.le g hg
      rw [List.mem_cons]
      exact or_congr_right ⟨fun h => ⟨h, h0 e h⟩, And.left⟩
    · split
      · rename_i hk
        rw [List.mem_cons, List.mem_cons]
        refine or_congr_right ⟨fun h => ⟨Or.inr h, hne hk.le e h⟩, ?_⟩
        rintro ⟨rfl | h, hne'⟩
        · exact absurd hk.symm hne'
        · exact h
      · rename_i hk1 hk2
        rw [List.mem_cons, ih hl', List.mem_cons]
        constructor
        · rintro (rfl | rfl | ⟨h, hne'⟩)
          · exact Or.inr ⟨Or.inl rfl, fun h => hk2 h.symm⟩
          · exact Or.inl rfl
          · exact Or.inr ⟨Or.inr h, hne'⟩
        · rintro (rfl | ⟨rfl | h, hne'⟩)
          · exact Or.inr (Or.inl rfl)
          · exact Or.inl rfl
          · exact Or.inr (Or.inr ⟨h, hne'⟩)

theorem put_sorted {k : κ} {v : ν} {l : List (κ × ν)} (hl : l.Pairwise fun a b => a.1 < b.1) :
    (put k v l).Pairwise fun a b => a.1 < b.1 := by
  induction l with
  | nil => exact List.pairwise_singleton _ _
  | cons f l ih =>
    obtain ⟨hf, hl'⟩ := List.pairwise_cons.mp hl
    rw [put]
    split
    · rename_i hk
      refine List.pairwise_cons.mpr ⟨fun g hg => ?_, hl⟩
      rcases List.mem_cons.mp hg with rfl | hg
      · exact hk
      · exact lt_trans hk (hf g hg)
    · split
      · rename_i hk
        exact List.pairwise_cons.mpr ⟨fun g hg => lt_of_eq_of_lt hk (hf g hg), hl'⟩
      · rename_i hk1 hk2
        refine List.pairwise_cons.mpr ⟨fun g hg => ?_, ih hl'⟩
        rcases (mem_put hl' g).mp hg with rfl | ⟨hg, _⟩
        · exact lt_of_le_of_ne (not_lt.mp hk1) (Ne.symm hk2)
        · exact hf g hg

def insert (m : OrdMap κ ν) (k : κ) (v : ν) : OrdMap κ ν := ⟨put k v m.entries, put_sorted m.sorted⟩

/-- the entries that pass a test -/
def keep (m : OrdMap κ ν) (p : κ → ν → Bool) : OrdMap κ ν :=
  ⟨m.entries.filter fun e => p e.1 e.2, m.sorted.filter _⟩

def erase (m : OrdMap κ ν) (k : κ) : OrdMap κ ν := m.keep fun j _ => j ≠ k

def mapVal (m : OrdMap κ ν) (f : κ → ν → ν) : OrdMap κ ν :=
  ⟨m.entries.map fun e => (e.1, f e.1 e.2), List.pairwise_map.mpr m.sorted⟩

/-- the entries after a loop over them, and its state -/
def visit {σ : Type*} (f : κ → ν → σ → ν × σ) : List (κ × ν) → σ → List (κ × ν) × σ
  | [], s => ([], s)
  | e :: l, s =>
    let x := f e.1 e.2 s
    let y := visit f l x.2
    ((e.1, x.1) :: y.1, y.2)

theorem visit_keys {σ : Type*} (f : κ → ν → σ → ν × σ) (l : List (κ × ν)) (s : σ) :
    (visit f l s).1.map Prod.fst = l.map Prod.fst := by
  induction l generalizing s with
  | nil => rfl
  | cons e l ih =>
    show e.1 :: (visit f l (f e.1 e.2 s).2).1.map Prod.fst = e.1 :: l.map Prod.fst
    rw [ih]

/-- a loop over the entries in key order that may change a value and has a state of its own -/
def foreach {σ : Type*} (m : OrdMap κ ν) (f : κ → ν → σ → ν × σ) (s : σ) : OrdMap κ ν × σ :=
  (⟨(visit f m.entries s).1, by
    have h := m.sorted
    rw [← List.pairwise_map (f := Prod.fst)] at h ⊢
    rwa [visit_keys]⟩, (visit f m.entries s).2)

/-! ## what is in a map -/

@[simp] theorem entries_empty : (empty : OrdMap κ ν).entries = [] := rfl

theorem mem_insert {m : OrdMap κ ν} {k : κ} {v : ν} {e : κ × ν} :
    e ∈ (m.insert k v).entries ↔ e = (k, v) ∨ (e ∈ m.entries ∧ e.1 ≠ k) := mem_put m.sorted e

theorem mem_keep {m : OrdMap κ ν} {p : κ → ν → Bool} {e : κ × ν} :
    e ∈ (m.keep p).entries ↔ e ∈ m.entries ∧ p e.1 e.2 = true := List.mem_filter

theorem mem_erase {m : OrdMap κ ν} {k : κ} {e : κ × ν} :
    e ∈ (m.erase k).entries ↔ e ∈ m.entries ∧ e.1 ≠ k := by
  rw [erase, mem_keep, decide_eq_true_eq]

theorem nodup (m : OrdMap κ ν) : m.entries.Nodup := by
  refine m.sorted.imp ?_
  rintro a b h rfl
  exact lt_irrefl _ h

/-- a key has one value -/
theorem val_unique (m : OrdMap κ ν) {k : κ} {v w : ν} (hv : (k, v) ∈ m.entries)
    (hw : (k, w) ∈ m.entries) : v = w := by
  by_contra hne
  have hp : m.entries.Pairwise fun a b => a.1 ≠ b.1 := m.sorted.imp LT.lt.ne
  have : Std.Symm fun a b : κ × ν => a.1 ≠ b.1 := ⟨fun _ _ => Ne.symm⟩
  exact hp.forall hv hw (fun h => hne (congrArg Prod.snd h)) rfl

theorem find_eq_some {m : OrdMap κ ν} {k : κ} {v : ν} :
    m.find k = some v ↔ (k, v) ∈ m.entries := by
  rw [find, Option.map_eq_some_iff]
  constructor
  · rintro ⟨⟨j, w⟩, h, rfl⟩
    have hj : j = k := by simpa using List.find?_some h
    exact hj ▸ List.mem_of_find?_eq_some h
  · intro h
    rcases hf : m.entries.find? fun e => e.1 = k with _ | ⟨j, w⟩
    · have := List.find?_eq_none.mp hf (k, v) h
      simp at this
    · have hj : j = k := by simpa using List.find?_some hf
      exact ⟨(j, w), hf, m.val_unique (hj ▸ List.mem_of_find?_eq_some hf) h⟩

theorem find_eq_none {m : OrdMap κ ν} {k : κ} :
    m.find k = none ↔ ∀ e ∈ m.entries, e.1 ≠ k := by
  rw [find, Option.map_eq_none_iff, List.find?_eq_none]
  simp

@[simp] theorem find_empty (k : κ) : (empty : OrdMap κ ν).find k = none := rfl

theorem nodup_keys (m : OrdMap κ ν) : (m.entries.map Prod.fst).Nodup := by
  refine List.pairwise_map.mpr (m.sorted.imp ?_)
  exact fun h => ne_of_lt h

theorem mem_keys {m : OrdMap κ ν} {k : κ} :
    k ∈ m.entries.map Prod.fst ↔ ∃ v, m.find k = some v := by
  rw [List.mem_map]
  constructor
  · rintro ⟨e, he, rfl⟩
    exact ⟨e.2, find_eq_some.mpr he⟩
  · rintro ⟨v, hv⟩
    exact ⟨(k, v), find_eq_some.mp hv, rfl⟩

/-! ## the map laws -/

@[simp] theorem find_insert_self (m : OrdMap κ ν) (k : κ) (v : ν) :
    (m.insert k v).find k = some v := find_eq_some.mpr (mem_insert.mpr (Or.inl rfl))

theorem find_insert_of_ne (m : OrdMap κ ν) {k j : κ} (v : ν) (h : j ≠ k) :
    (m.insert k v).find j = m.find j := by
  ext w
  rw [find_eq_some, find_eq_some, mem_insert]
  constructor
  · rintro (he | ⟨hm, _⟩)
    · exact absurd (congrArg Prod.fst he) h
    · exact hm
  · exact fun hm => Or.inr ⟨hm, h⟩

@[simp] theorem find_erase_self (m : OrdMap κ ν) (k : κ) : (m.erase k).find k = none :=
  find_eq_none.mpr fun _ he => (mem_erase.mp he).2

theorem find_erase_of_ne (m : OrdMap κ ν) {k j : κ} (h : j ≠ k) :
    (m.erase k).find j = m.find j := by
  ext w
  rw [find_eq_some, find_eq_some, mem_erase]
  exact ⟨And.left, fun hm => ⟨hm, h⟩⟩

theorem find_insert (m : OrdMap κ ν) (k j : κ) (v : ν) [Decidable (j = k)] :
    (m.insert k v).find j = if j = k then some v else m.find j := by
  split
  · rename_i h
    rw [h, find_insert_self]
  · rename_i h
    exact find_insert_of_ne m v h

theorem find_erase (m : OrdMap κ ν) (k j : κ) [Decidable (j = k)] :
    (m.erase k).find j = if j = k then none else m.find j := by
  split
  · rename_i h
    rw [h, find_erase_self]
  · rename_i h
    exact find_erase_of_ne m h

theorem find_insert_eq_some {m : OrdMap κ ν} {k j : κ} {v w : ν} :
    (m.insert k v).find j = some w ↔ (j = k ∧ w = v) ∨ (j ≠ k ∧ m.find j = some w) := by
  rw [find_insert]
  split
  · rename_i h
    simp [h, eq_comm]
  · rename_i h
    simp [h]

theorem find_erase_eq_some {m : OrdMap κ ν} {k j : κ} {w : ν} :
    (m.erase k).find j = some w ↔ j ≠ k ∧ m.find j = some w := by
  rw [find_erase]
  split
  · rename_i h
    simp [h]
  · rename_i h
    simp [h]

theorem erase_eq_self {m : OrdMap κ ν} {k : κ} (h : m.find k = none) : m.erase k = m := by
  obtain ⟨entries, sorted⟩ := m
  show OrdMap.mk _ _ = OrdMap.mk _ _
  congr 1
  exact List.filter_eq_self.mpr fun e he => decide_eq_true (find_eq_none.mp h e he)

theorem put_put (k : κ) (v w : ν) (l : List (κ × ν)) : put k w (put k v l) = put k w l := by
  induction l with
  | nil => simp [put]
  | cons e l ih =>
    rw [put, put]
    split
    · rw [put, if_neg (lt_irrefl k), if_pos rfl]
    · rename_i hlt
      split
      · rw [put, if_neg (lt_irrefl k), if_pos rfl]
      · rename_i hne
        rw [put, if_neg hlt, if_neg hne, ih]

theorem insert_insert (m : OrdMap κ ν) (k : κ) (v w : ν) :
    (m.insert k v).insert k w = m.insert k w := by
  show OrdMap.mk _ _ = OrdMap.mk _ _
  congr 1
  exact put_put k v w m.entries

theorem keep_eq_self {m : OrdMap κ ν} {p : κ → ν → Bool} (h : ∀ e ∈ m.entries, p e.1 e.2 = true) :
    m.keep p = m := by
  obtain ⟨entries, sorted⟩ := m
  show OrdMap.mk _ _ = OrdMap.mk _ _
  congr 1
  exact List.filter_eq_self.mpr h

theorem keep_keep (m : OrdMap κ ν) (p q : κ → ν → Bool) :
    (m.keep p).keep q = m.keep fun k v => p k v && q k v := by
  show OrdMap.mk _ _ = OrdMap.mk _ _
  congr 1
  rw [keep, List.filter_filter]
  simp only [Bool.and_comm]

theorem find_keep {m : OrdMap κ ν} {p : κ → ν → Bool} {k : κ} {v : ν} :
    (m.keep p).find k = some v ↔ m.find k = some v ∧ p k v = true := by
  rw [find_eq_some, find_eq_some, mem_keep]

/-! ## the entry with the least key -/

def least (m : OrdMap κ ν) : Option (κ × ν) := m.entries.head?

theorem least_eq_none {m : OrdMap κ ν} : m.least = none ↔ m.entries = [] := List.head?_eq_none_iff

theorem least_eq_some {m : OrdMap κ ν} {e : κ × ν} (h : m.least = some e) :
    e ∈ m.entries ∧ ∀ f ∈ m.entries, e.1 ≤ f.1 := by
  obtain ⟨entries, sorted⟩ := m
  obtain ⟨l, rfl⟩ := List.head?_eq_some_iff.mp h
  refine ⟨List.mem_cons_self, fun f hf => ?_⟩
  rcases List.mem_cons.mp hf with rfl | hf
  · exact le_rfl
  · exact ((List.pairwise_cons.mp sorted).1 f hf).le

/-- the entries without the least one -/
theorem entries_erase_least {m : OrdMap κ ν} {e : κ × ν} (h : m.least = some e) :
    m.entries = e :: (m.erase e.1).entries := by
  obtain ⟨entries, sorted⟩ := m
  obtain ⟨l, rfl⟩ := List.head?_eq_some_iff.mp h
  show e :: l = e :: (e :: l).filter fun f => decide (f.1 ≠ e.1)
  rw [List.filter_cons_of_neg (by simp)]
  congr 1
  refine (List.filter_eq_self.mpr fun f hf => ?_).symm
  exact decide_eq_true ((List.pairwise_cons.mp sorted).1 f hf).ne'

/-! ## loops -/

/-- what the loop leaves of a value does not depend on its state -/
theorem foreach_fst {σ : Type*} (m : OrdMap κ ν) {f : κ → ν → σ → ν × σ} {g : κ → ν → ν}
    (h : ∀ e ∈ m.entries, ∀ s, (f e.1 e.2 s).1 = g e.1 e.2) (s : σ) :
    (m.foreach f s).1 = m.mapVal g := by
  have hl : ∀ (l : List (κ × ν)), (∀ e ∈ l, ∀ s, (f e.1 e.2 s).1 = g e.1 e.2) → ∀ s : σ,
      (visit f l s).1 = l.map fun e => (e.1, g e.1 e.2) := by
    intro l
    induction l with
    | nil => intro _ s; rfl
    | cons e l ih =>
      intro hl s
      show (e.1, (f e.1 e.2 s).1) :: (visit f l (f e.1 e.2 s).2).1 = _
      rw [ih fun e he => hl e (List.mem_cons_of_mem _ he), hl e List.mem_cons_self]
      rfl
  show OrdMap.mk _ _ = OrdMap.mk _ _
  congr 1
  exact hl m.entries h s

theorem foreach_snd {σ : Type*} (m : OrdMap κ ν) (f : κ → ν → σ → ν × σ) (s : σ) :
    (m.foreach f s).2 = m.entries.foldl (fun s e => (f e.1 e.2 s).2) s := by
  show (visit f m.entries s).2 = _
  induction m.entries generalizing s with
  | nil => rfl
  | cons e l ih => exact ih _

/-- the loop rule: what one turn keeps of the values and of the state, the loop keeps -/
theorem foreach_keeps {σ : Type*} (m : OrdMap κ ν) {f : κ → ν → σ → ν × σ} {P : κ → ν → Prop}
    {I : σ → Prop} (h : ∀ k v s, P k v → I s → P k (f k v s).1 ∧ I (f k v s).2) {s : σ}
    (hm : ∀ e ∈ m.entries, P e.1 e.2) (hs : I s) :
    (∀ e ∈ (m.foreach f s).1.entries, P e.1 e.2) ∧ I (m.foreach f s).2 := by
  have hl : ∀ (l : List (κ × ν)) (s : σ), (∀ e ∈ l, P e.1 e.2) → I s →
      (∀ e ∈ (visit f l s).1, P e.1 e.2) ∧ I (visit f l s).2 := by
    intro l
    induction l with
    | nil => exact fun s hl hs => ⟨hl, hs⟩
    | cons e l ih =>
      intro s hl hs
      obtain ⟨hv, hs'⟩ := h e.1 e.2 s (hl e List.mem_cons_self) hs
      obtain ⟨hvs, hs''⟩ := ih (f e.1 e.2 s).2 (fun e he => hl e (List.mem_cons_of_mem _ he)) hs'
      refine ⟨fun g hg => ?_, hs''⟩
      rcases List.mem_cons.mp hg with rfl | hg
      · exact hv
      · exact hvs g hg
  exact hl m.entries s hm hs

/-! ## the entries as a multiset -/

theorem put_perm {k : κ} {v : ν} {l : List (κ × ν)} (h : ∀ e ∈ l, e.1 ≠ k) :
    (put k v l).Perm ((k, v) :: l) := by
  induction l with
  | nil => exact List.Perm.refl _
  | cons f l ih =>
    rw [put]
    split
    · exact List.Perm.refl _
    · rw [if_neg (h f List.mem_cons_self).symm]
      exact ((ih fun e he => h e (List.mem_cons_of_mem _ he)).cons f).trans (List.Perm.swap _ _ _)

theorem insert_perm (m : OrdMap κ ν) {k : κ} (v : ν) (h : m.find k = none) :
    (m.insert k v).entries.Perm ((k, v) :: m.entries) := put_perm (find_eq_none.mp h)

theorem erase_perm (m : OrdMap κ ν) {k : κ} {v : ν} (h : m.find k = some v) :
    m.entries.Perm ((k, v) :: (m.erase k).entries) := by
  refine (List.perm_ext_iff_of_nodup m.nodup ?_).mpr fun e => ?_
  · exact List.nodup_cons.mpr ⟨fun hm => (mem_erase.mp hm).2 rfl, (m.erase k).nodup⟩
  · rw [List.mem_cons, mem_erase]
    constructor
    · intro he
      by_cases hk : e.1 = k
      · subst hk
        exact Or.inl (Prod.ext rfl (m.val_unique he (find_eq_some.mp h)))
      · exact Or.inr ⟨he, hk⟩
    · rintro (he | ⟨he, _⟩)
      · rw [he]
        exact find_eq_some.mp h
      · exact he

theorem insert_perm_erase (m : OrdMap κ ν) (k : κ) (v : ν) :
    (m.insert k v).entries.Perm ((k, v) :: (m.erase k).entries) := by
  refine (List.perm_ext_iff_of_nodup (m.insert k v).nodup ?_).mpr fun e => ?_
  · exact List.nodup_cons.mpr ⟨fun hm => (mem_erase.mp hm).2 rfl, (m.erase k).nodup⟩
  · rw [List.mem_cons, mem_erase, mem_insert]

end OrdMap
