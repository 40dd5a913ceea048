import Mathlib.Order.Interval.Set.Basic
import Mathlib.Order.MinMax
import Mathlib.Data.List.Basic

/-!
# Separated lists of half-open spans

A span is a half-open interval `[lo, hi)` of a linear order.  A list of spans is `Separated`
when its spans are non-empty, ascending and no two of them touch, so the list is the canonical
form of the set it covers.

* `cover l`       the set of points that lie in a span of `l`;
* `carve a b l`   the list with `[a, b)` taken out of every span;
* `carve_cover`, `carve_separated`   carving removes exactly `[a, b)` and keeps the form;
* `Separated.split`   a window `[a, b)` cuts a separated list into the spans before it, the spans
                  that meet it, and the spans after it;
* `Separated.meets_one`   a window that is covered as a whole or not at all meets one span at most.
-/

namespace Spans

variable {α : Type*} [LinearOrder α]

structure Span (α : Type*) where
  lo : α
  hi : α

def Span.Mem (s : Span α) (x : α) : Prop := s.lo ≤ x ∧ x < s.hi

/-- the points of a list of spans -/
def cover (l : List (Span α)) : Set α := {x | ∃ s ∈ l, s.Mem x}

structure Separated (l : List (Span α)) : Prop where
  pos : ∀ s ∈ l, s.lo < s.hi
  sep : l.Pairwise fun s t => s.hi < t.lo

theorem mem_cover {l : List (Span α)} {x : α} : x ∈ cover l ↔ ∃ s ∈ l, s.lo ≤ x ∧ x < s.hi := Iff.rfl

theorem cover_nil : cover ([] : List (Span α)) = ∅ := by
  ext x
  simp [mem_cover]

theorem cover_cons (s : Span α) (l : List (Span α)) :
    cover (s :: l) = Set.Ico s.lo s.hi ∪ cover l := by
  ext x
  simp [mem_cover]

theorem cover_append (l m : List (Span α)) : cover (l ++ m) = cover l ∪ cover m := by
  ext x
  simp only [mem_cover, List.mem_append, Set.mem_union]
  constructor
  · rintro ⟨s, hs | hs, hx⟩
    · exact Or.inl ⟨s, hs, hx⟩
    · exact Or.inr ⟨s, hs, hx⟩
  · rintro (⟨s, hs, hx⟩ | ⟨s, hs, hx⟩)
    · exact ⟨s, Or.inl hs, hx⟩
    · exact ⟨s, Or.inr hs, hx⟩

theorem separated_nil : Separated ([] : List (Span α)) := ⟨by simp, List.Pairwise.nil⟩

theorem separated_cons {s : Span α} {l : List (Span α)} :
    Separated (s :: l) ↔ s.lo < s.hi ∧ (∀ t ∈ l, s.hi < t.lo) ∧ Separated l := by
  constructor
  · intro h
    obtain ⟨h1, h2⟩ := List.pairwise_cons.mp h.sep
    exact ⟨h.pos s List.mem_cons_self, h1, fun t ht => h.pos t (List.mem_cons_of_mem _ ht), h2⟩
  · rintro ⟨h1, h2, h3⟩
    refine ⟨fun t ht => ?_, List.pairwise_cons.mpr ⟨h2, h3.sep⟩⟩
    rcases List.mem_cons.mp ht with rfl | ht
    · exact h1
    · exact h3.pos t ht

theorem separated_append {l m : List (Span α)} :
    Separated (l ++ m) ↔ Separated l ∧ Separated m ∧ ∀ s ∈ l, ∀ t ∈ m, s.hi < t.lo := by
  constructor
  · intro h
    obtain ⟨h1, h2, h3⟩ := List.pairwise_append.mp h.sep
    exact ⟨⟨fun s hs => h.pos s (List.mem_append_left _ hs), h1⟩,
      ⟨fun s hs => h.pos s (List.mem_append_right _ hs), h2⟩, h3⟩
  · rintro ⟨h1, h2, h3⟩
    refine ⟨fun s hs => ?_, List.pairwise_append.mpr ⟨h1.sep, h2.sep, h3⟩⟩
    rcases List.mem_append.mp hs with hs | hs
    · exact h1.pos s hs
    · exact h2.pos s hs

/-- the first point of a separated list is the least point that it covers -/
theorem Separated.head_le {s : Span α} {l : List (Span α)} (h : Separated (s :: l)) {x : α}
    (hx : x ∈ cover (s :: l)) : s.lo ≤ x := by
  obtain ⟨hs, hl, _⟩ := separated_cons.mp h
  obtain ⟨t, ht, h1, _⟩ := hx
  rcases List.mem_cons.mp ht with rfl | ht
  · exact h1
  · exact (hs.le.trans (hl t ht).le).trans h1

theorem Separated.head_mem {s : Span α} {l : List (Span α)} (h : Separated (s :: l)) :
    s.lo ∈ cover (s :: l) :=
  ⟨s, List.mem_cons_self, le_refl _, (separated_cons.mp h).1⟩

/-! ## carving -/

/-- what `[a, b)` leaves of one span -/
def Span.carve (a b : α) (s : Span α) : List (Span α) :=
  (if s.lo < min s.hi a then [⟨s.lo, min s.hi a⟩] else [])
    ++ (if max s.lo b < s.hi then [⟨max s.lo b, s.hi⟩] else [])

def carve (a b : α) (l : List (Span α)) : List (Span α) := l.flatMap (Span.carve a b)

theorem carve_nil (a b : α) : carve a b [] = [] := rfl

theorem carve_cons (a b : α) (s : Span α) (l : List (Span α)) :
    carve a b (s :: l) = s.carve a b ++ carve a b l := rfl

theorem carve_append (a b : α) (l m : List (Span α)) :
    carve a b (l ++ m) = carve a b l ++ carve a b m := by
  simp [carve, List.flatMap_append]

theorem Span.cover_carve (a b : α) (s : Span α) :
    cover (s.carve a b) = Set.Ico s.lo s.hi \ Set.Ico a b := by
  ext x
  unfold Span.carve
  rw [cover_append]
  have h1 : x ∈ cover (if s.lo < min s.hi a then [(⟨s.lo, min s.hi a⟩ : Span α)] else [])
      ↔ s.lo ≤ x ∧ x < s.hi ∧ x < a := by
    split
    · simp [cover_cons, cover_nil]
    · rename_i hn
      simp only [cover_nil, Set.mem_empty_iff_false, false_iff, not_and]
      intro hx1 hx2 hx3
      exact hn (lt_of_le_of_lt hx1 (lt_min hx2 hx3))
  have h2 : x ∈ cover (if max s.lo b < s.hi then [(⟨max s.lo b, s.hi⟩ : Span α)] else [])
      ↔ s.lo ≤ x ∧ b ≤ x ∧ x < s.hi := by
    split
    · simp [cover_cons, cover_nil, and_assoc]
    · rename_i hn
      simp only [cover_nil, Set.mem_empty_iff_false, false_iff, not_and]
      intro hx1 hx2 hx3
      exact hn (lt_of_le_of_lt (max_le hx1 hx2) hx3)
  rw [Set.mem_union, h1, h2]
  simp only [Set.mem_sdiff, Set.mem_Ico, not_and, not_lt]
  constructor
  · rintro (⟨h, h', h''⟩ | ⟨h, h', h''⟩)
    · exact ⟨⟨h, h'⟩, fun ha => absurd h'' (not_lt.mpr ha)⟩
    · exact ⟨⟨h, h''⟩, fun _ => h'⟩
  · rintro ⟨⟨h, h'⟩, hn⟩
    rcases lt_or_ge x a with hx | hx
    · exact Or.inl ⟨h, h', hx⟩
    · exact Or.inr ⟨h, hn hx, h'⟩

theorem carve_cover (a b : α) (l : List (Span α)) :
    cover (carve a b l) = cover l \ Set.Ico a b := by
  induction l with
  | nil => simp [carve_nil, cover_nil]
  | cons s l ih => rw [carve_cons, cover_append, s.cover_carve a b, ih, cover_cons,
      Set.union_sdiff_distrib]

theorem Span.carve_within (a b : α) (s t : Span α) (ht : t ∈ s.carve a b) :
    s.lo ≤ t.lo ∧ t.hi ≤ s.hi ∧ t.lo < t.hi := by
  rcases List.mem_append.mp ht with h | h <;> split at h <;> simp only [List.mem_singleton,
    List.not_mem_nil] at h <;> rename_i hlt <;> subst h
  · exact ⟨le_refl _, min_le_left _ _, hlt⟩
  · exact ⟨le_max_left _ _, le_refl _, hlt⟩

theorem Span.carve_separated (a b : α) (s : Span α) (hab : a < b) : Separated (s.carve a b) := by
  refine ⟨fun t ht => (s.carve_within a b t ht).2.2, ?_⟩
  unfold Span.carve
  have hm : min s.hi a < max s.lo b :=
    lt_of_le_of_lt (min_le_right _ _) (lt_of_lt_of_le hab (le_max_right _ _))
  split <;> split <;> simp [-lt_sup_iff, -sup_lt_iff, -inf_lt_iff, hm]

theorem carve_within (a b : α) (l : List (Span α)) (t : Span α) (ht : t ∈ carve a b l) :
    ∃ s ∈ l, s.lo ≤ t.lo ∧ t.hi ≤ s.hi := by
  obtain ⟨s, hs, h⟩ := List.mem_flatMap.mp ht
  exact ⟨s, hs, (s.carve_within a b t h).1, (s.carve_within a b t h).2.1⟩

theorem carve_separated (a b : α) (l : List (Span α)) (hab : a < b) (h : Separated l) :
    Separated (carve a b l) := by
  induction l with
  | nil => exact separated_nil
  | cons s l ih =>
    obtain ⟨_, hl, hsep⟩ := separated_cons.mp h
    rw [carve_cons]
    refine separated_append.mpr ⟨s.carve_separated a b hab, ih hsep, fun t ht u hu => ?_⟩
    obtain ⟨v, hv, hvu, _⟩ := carve_within a b l u hu
    exact lt_of_le_of_lt (s.carve_within a b t ht).2.1 (lt_of_lt_of_le (hl v hv) hvu)

theorem Span.carve_before (a b : α) (s : Span α) (hs : s.lo < s.hi) (hab : a < b) (h : s.hi ≤ a) :
    s.carve a b = [s] := by
  unfold Span.carve
  have h1 : min s.hi a = s.hi := min_eq_left h
  have h2 : ¬ max s.lo b < s.hi := not_lt.mpr ((h.trans hab.le).trans (le_max_right _ _))
  rw [h1, if_pos hs, if_neg h2]
  rfl

theorem Span.carve_after (a b : α) (s : Span α) (hs : s.lo < s.hi) (hab : a < b) (h : b ≤ s.lo) :
    s.carve a b = [s] := by
  unfold Span.carve
  have h1 : ¬ s.lo < min s.hi a := not_lt.mpr ((min_le_right _ _).trans (hab.le.trans h))
  have h2 : max s.lo b = s.lo := max_eq_left h
  rw [h2, if_neg h1, if_pos hs]
  rfl

theorem carve_before (a b : α) (l : List (Span α)) (hpos : ∀ s ∈ l, s.lo < s.hi) (hab : a < b)
    (h : ∀ s ∈ l, s.hi ≤ a) : carve a b l = l := by
  induction l with
  | nil => rfl
  | cons s l ih =>
    rw [carve_cons, s.carve_before a b (hpos s List.mem_cons_self) hab (h s List.mem_cons_self),
      ih (fun t ht => hpos t (List.mem_cons_of_mem _ ht)) (fun t ht => h t (List.mem_cons_of_mem _ ht))]
    rfl

theorem carve_after (a b : α) (l : List (Span α)) (hpos : ∀ s ∈ l, s.lo < s.hi) (hab : a < b)
    (h : ∀ s ∈ l, b ≤ s.lo) : carve a b l = l := by
  induction l with
  | nil => rfl
  | cons s l ih =>
    rw [carve_cons, s.carve_after a b (hpos s List.mem_cons_self) hab (h s List.mem_cons_self),
      ih (fun t ht => hpos t (List.mem_cons_of_mem _ ht)) (fun t ht => h t (List.mem_cons_of_mem _ ht))]
    rfl

theorem Span.carve_inside (a b : α) (s : Span α) (ha : a ≤ s.lo) (hb : s.hi ≤ b) :
    s.carve a b = [] := by
  unfold Span.carve
  have h1 : ¬ s.lo < min s.hi a := not_lt.mpr ((min_le_right _ _).trans ha)
  have h2 : ¬ max s.lo b < s.hi := not_lt.mpr (hb.trans (le_max_right _ _))
  rw [if_neg h1, if_neg h2]
  rfl

theorem Span.carve_right (a b : α) (s : Span α) (ha : a ≤ s.lo) (hb : s.lo ≤ b) (h : b < s.hi) :
    s.carve a b = [⟨b, s.hi⟩] := by
  unfold Span.carve
  have h1 : ¬ s.lo < min s.hi a := not_lt.mpr ((min_le_right _ _).trans ha)
  rw [if_neg h1, max_eq_right hb, if_pos h]
  rfl

theorem Span.carve_left (a b : α) (s : Span α) (ha : s.lo < a) (h : a ≤ s.hi) (hb : s.hi ≤ b) :
    s.carve a b = [⟨s.lo, a⟩] := by
  unfold Span.carve
  have h2 : ¬ max s.lo b < s.hi := not_lt.mpr (hb.trans (le_max_right _ _))
  rw [min_eq_right h, if_pos ha, if_neg h2]
  rfl

theorem Span.carve_middle (a b : α) (s : Span α) (ha : s.lo < a) (hab : a < b) (hb : b < s.hi) :
    s.carve a b = [⟨s.lo, a⟩, ⟨b, s.hi⟩] := by
  unfold Span.carve
  rw [min_eq_right (hab.trans hb).le, if_pos ha, max_eq_right (ha.trans hab).le, if_pos hb]
  rfl

theorem carve_inside (a b : α) (l : List (Span α)) (ha : ∀ s ∈ l, a ≤ s.lo)
    (hb : ∀ s ∈ l, s.hi ≤ b) : carve a b l = [] :=
  List.flatMap_eq_nil_iff.mpr fun s hs => s.carve_inside a b (ha s hs) (hb s hs)

/-- The middle of a separated list may be replaced by separated spans that lie inside its own. -/
theorem Separated.replace {pre ts post us : List (Span α)} (h : Separated (pre ++ ts ++ post))
    (hu : Separated us) (hin : ∀ u ∈ us, ∃ t ∈ ts, t.lo ≤ u.lo ∧ u.hi ≤ t.hi) :
    Separated (pre ++ us ++ post) := by
  obtain ⟨h1, h2, h3⟩ := separated_append.mp h
  obtain ⟨hpre, _, h4⟩ := separated_append.mp h1
  refine separated_append.mpr ⟨separated_append.mpr ⟨hpre, hu, ?_⟩, h2, ?_⟩
  · intro s hs u hu'
    obtain ⟨t, ht, hlo, _⟩ := hin u hu'
    exact (h4 s hs t ht).trans_le hlo
  · intro u hu' s hs
    rcases List.mem_append.mp hu' with hu' | hu'
    · exact h3 u (List.mem_append_left _ hu') s hs
    · obtain ⟨t, ht, _, hhi⟩ := hin u hu'
      exact hhi.trans_lt (h3 t (List.mem_append_right _ ht) s hs)

/-! ## a window in a separated list -/

def Span.Meets (a b : α) (s : Span α) : Prop := s.lo < b ∧ a < s.hi

instance (a b : α) (s : Span α) : Decidable (s.Meets a b) := inferInstanceAs (Decidable (_ ∧ _))

/-- The spans before a window, the spans that meet it and the spans after it. -/
theorem Separated.split {l : List (Span α)} (h : Separated l) (a b : α) :
    ∃ pre ts post, l = pre ++ ts ++ post ∧ (∀ s ∈ pre, s.hi ≤ a) ∧ (∀ s ∈ ts, s.Meets a b) ∧
      (∀ s ∈ post, b ≤ s.lo) := by
  induction l with
  | nil => exact ⟨[], [], [], rfl, by simp, by simp, by simp⟩
  | cons s l ih =>
    obtain ⟨hs, hl, hsep⟩ := separated_cons.mp h
    obtain ⟨pre, ts, post, rfl, h1, h2, h3⟩ := ih hsep
    rcases le_or_gt s.hi a with ha | ha
    · refine ⟨s :: pre, ts, post, by simp, fun t ht => ?_, h2, h3⟩
      rcases List.mem_cons.mp ht with rfl | ht
      · exact ha
      · exact h1 t ht
    · -- every later span starts after `s.hi`, hence after `a`
      have hpre : pre = [] := by
        cases pre with
        | nil => rfl
        | cons t pre =>
          have e1 := hl t (by simp)
          have e2 := h1 t List.mem_cons_self
          have e3 := hsep.pos t (by simp)
          exact absurd (ha.trans (e1.trans e3)) (not_lt.mpr e2)
      subst hpre
      rcases lt_or_ge s.lo b with hb | hb
      · refine ⟨[], s :: ts, post, by simp, by simp, fun t ht => ?_, h3⟩
        rcases List.mem_cons.mp ht with rfl | ht
        · exact ⟨hb, ha⟩
        · exact h2 t ht
      · have hts : ts = [] := by
          cases ts with
          | nil => rfl
          | cons t ts =>
            have e1 := hl t (by simp)
            have e2 := (h2 t List.mem_cons_self).1
            exact absurd ((hb.trans_lt hs).trans e1) (not_lt.mpr e2.le)
        subst hts
        refine ⟨[], [], s :: post, by simp, by simp, by simp, fun t ht => ?_⟩
        rcases List.mem_cons.mp ht with rfl | ht
        · exact hb
        · exact h3 t ht

/-- Between two spans of a separated list lies a point that is not covered. -/
theorem Separated.hi_notMem {l : List (Span α)} (h : Separated l) {s : Span α} (hs : s ∈ l) :
    s.hi ∉ cover l := by
  obtain ⟨pre, post, rfl⟩ := List.append_of_mem hs
  obtain ⟨_, hpost, hbefore⟩ := separated_append.mp h
  obtain ⟨_, hafter, _⟩ := separated_cons.mp hpost
  rintro ⟨t, ht, hlo, hhi⟩
  rcases List.mem_append.mp ht with ht | ht
  · have hlt := hbefore t ht s List.mem_cons_self
    exact lt_asymm hhi (hlt.trans (h.pos s hs))
  · rcases List.mem_cons.mp ht with rfl | ht
    · exact lt_irrefl _ hhi
    · exact not_lt.mpr hlo (hafter t ht)

/-- A window that a separated list covers as a whole or not at all meets one span at most. -/
theorem Separated.meets_one {pre ts post : List (Span α)} (h : Separated (pre ++ ts ++ post))
    {a b : α} (hts : ∀ s ∈ ts, s.Meets a b)
    (hw : ∀ x y, a ≤ x → x < b → a ≤ y → y < b → x ∈ cover (pre ++ ts ++ post) →
      y ∈ cover (pre ++ ts ++ post)) : ts.length ≤ 1 := by
  match ts with
  | [] => exact Nat.zero_le _
  | [_] => exact le_refl _
  | s :: t :: rest =>
    exfalso
    have hs : s ∈ pre ++ (s :: t :: rest) ++ post := by simp
    obtain ⟨hmid, _, _⟩ := separated_append.mp h
    obtain ⟨_, hrest, _⟩ := separated_append.mp hmid
    have hlt : s.hi < t.lo := (separated_cons.mp hrest).2.1 t List.mem_cons_self
    obtain ⟨hsb, has⟩ := hts s List.mem_cons_self
    have htb : t.lo < b := (hts t (by simp)).1
    -- a point of the first span that lies in the window, and the end of that span
    have hin : max a s.lo ∈ cover (pre ++ (s :: t :: rest) ++ post) :=
      ⟨s, hs, le_max_right _ _, max_lt has (h.pos s hs)⟩
    have hmax : max a s.lo < b := max_lt (has.trans (hlt.trans htb)) hsb
    exact h.hi_notMem hs (hw _ s.hi (le_max_left _ _) hmax has.le (hlt.trans htb) hin)

end Spans
