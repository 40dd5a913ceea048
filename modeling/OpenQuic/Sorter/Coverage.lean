import OpenQuic.Sorter.Gaps

/-!
# The gap list over a run of writes

A run is any list of fragments, written one after the other from `init`.  `Exact` says what the
gap list is for: it is the canonical list of the offsets that no fragment has covered, and
`availSize` is the length of the longest prefix that is there.

* `write_clean`   a clean write of an exact sorter leaves it exact;
* `run_exact`     **every run of clean writes is exact in every state.**
-/

namespace OpenQuic
open Spans Runs

/-- one call of `quic_sorter_write` -/
structure Fragment where
  off : Nat
  len : Nat
  data : Nat → UInt8

namespace Fragment

def Covers (f : Fragment) (x : Nat) : Prop := f.off ≤ x ∧ x < f.off + f.len

/-- offset and length are what a variable-length integer can carry -/
def Fits (f : Fragment) : Prop := f.off ≤ 2 ^ 62 - 1 ∧ f.len ≤ 2 ^ 62 - 1

instance (f : Fragment) : Decidable f.Fits := inferInstanceAs (Decidable (_ ∧ _))

def step (s : Sorter) (f : Fragment) : Option Sorter :=
  (s.write Sorter.Alloc.ok f.off f.len f.data).map Prod.fst

end Fragment

namespace Sorter

instance (a b : Nat) : (ts : List Gap) → Decidable (Clean a b ts)
  | [] => isTrue trivial
  | _ :: ts => inferInstanceAs (Decidable (ts = [] ∨ _))

instance (a b : Nat) : (ts : List Gap) → Decidable (Safe a b ts)
  | [] => isTrue trivial
  | _ :: ts => inferInstanceAs (Decidable (ts = [] ∨ _))

/-- the gaps a fragment touches in this state are cut as they should be -/
def CleanWrite (s : Sorter) (f : Fragment) : Prop :=
  Clean f.off (f.off + f.len) (touched s.gaps f.off (f.off + f.len))

instance (s : Sorter) (f : Fragment) : Decidable (CleanWrite s f) :=
  inferInstanceAs (Decidable (Clean _ _ _))

/-- the offsets that no fragment covers -/
def missing (fs : List Fragment) : Set Nat := {x | x < maxSize ∧ ∀ f ∈ fs, ¬ f.Covers x}

/-- the lengths of the prefixes that the fragments cover -/
def prefixes (fs : List Fragment) : Set Nat := {n | ∀ x < n, ∃ f ∈ fs, f.Covers x}

structure Exact (s : Sorter) (fs : List Fragment) : Prop where
  sorted : Separated (spans s.gaps)
  gaps : cover (spans s.gaps) = missing fs
  avail : IsGreatest (prefixes fs) s.availSize

theorem missing_nil : missing [] = Set.Ico 0 maxSize := by
  ext x
  simp [missing]

theorem missing_concat (fs : List Fragment) (f : Fragment) :
    missing (fs ++ [f]) = missing fs \ Set.Ico f.off (f.off + f.len) := by
  ext x
  simp only [missing, List.mem_append, List.mem_singleton, Set.mem_sdiff, Set.mem_ofPred_eq,
    Set.mem_Ico]
  constructor
  · rintro ⟨h1, h2⟩
    exact ⟨⟨h1, fun g hg => h2 g (Or.inl hg)⟩, h2 f (Or.inr rfl)⟩
  · rintro ⟨⟨h1, h2⟩, h3⟩
    refine ⟨h1, ?_⟩
    rintro g (hg | rfl)
    · exact h2 g hg
    · exact h3

/-- the first missing offset is the length of the longest covered prefix -/
theorem greatest_prefix {fs : List Fragment} {n : Nat} (h : IsLeast (missing fs) n) :
    IsGreatest (prefixes fs) n := by
  refine ⟨fun x hx => ?_, fun m hm => ?_⟩
  · by_contra hno
    have hmem : x ∈ missing fs := by
      refine ⟨hx.trans h.1.1, fun f hf hc => hno ⟨f, hf, hc⟩⟩
    exact absurd (h.2 hmem) (not_le.mpr hx)
  · by_contra hlt
    obtain ⟨f, hf, hc⟩ := hm n (not_le.mp hlt)
    exact h.1.2 f hf hc

theorem Fragment_end {f : Fragment} (h : f.Fits) : f.off + f.len < maxSize := by
  obtain ⟨h1, h2⟩ := h
  have : maxSize = 2 ^ 63 - 1 := rfl
  omega

/-! ## runs -/

structure ExactInv (fs : List Fragment) (s : Sorter) : Prop where
  ordered : Ordered s
  gaps : cover (spans s.gaps) = missing fs

theorem ExactInv.exact {fs : List Fragment} {s : Sorter} (h : ExactInv fs s) : Exact s fs :=
  ⟨h.ordered.gaps.sep, h.gaps, greatest_prefix (h.gaps ▸ h.ordered.least)⟩

theorem exact_init : ExactInv [] init := by
  refine ⟨ordered_init, ?_⟩
  rw [missing_nil]
  show cover [(⟨0, 0 + maxSize⟩ : Span Nat)] = _
  rw [cover_cons, cover_nil, Set.union_empty, Nat.zero_add]

theorem write_clean {fs : List Fragment} {s : Sorter} {f : Fragment} (h : ExactInv fs s)
    (hf : f.Fits) (hc : CleanWrite s f) :
    ∃ s', f.step s = some s' ∧ ExactInv (fs ++ [f]) s' := by
  rcases Nat.eq_zero_or_pos f.len with h0 | hpos
  · refine ⟨s, ?_, h.ordered, ?_⟩
    · rw [Fragment.step, h0, write_zero, Option.map_some]
    · rw [missing_concat, h0, Nat.add_zero, Set.Ico_self, Set.sdiff_empty, h.gaps]
  · obtain ⟨s', start, n, hw, he, _⟩ :=
      write_safe f.data hpos (Fragment_end hf) h.ordered hc.safe
    refine ⟨s', ?_, hw.ordered, ?_⟩
    · rw [Fragment.step, he, Option.map_some]
    · rw [hw.clean hc, carve_cover, missing_concat, h.gaps]

/-- **The gap list is exact in every state of a run of clean writes.** -/
theorem run_exact (fs : List Fragment) (hfit : ∀ f ∈ fs, f.Fits)
    (hclean : Along Fragment.step CleanWrite init fs) :
    ∀ past, past <+: fs → ∃ s, run Fragment.step init past = some s ∧ Exact s past := by
  rintro past ⟨fut, rfl⟩
  have hpast := hclean.append_left Fragment.step
  obtain ⟨s, hs, hinv⟩ := run_inv exact_init
    (fun past s f hi hg => write_clean hi hg.1 hg.2) past
    (hpast.and_mem Fragment.step fun f hf => hfit f (List.mem_append_left _ hf))
  exact ⟨s, hs, hinv.exact⟩

/-- five bytes and five more with a hole before each, and a fragment that fills the first hole and
ends inside the second -/
theorem run_exact_three :
    Along Fragment.step CleanWrite init
        [⟨5, 5, fun _ => 1⟩, ⟨15, 5, fun _ => 2⟩, ⟨0, 12, fun _ => 3⟩] ∧
      ∀ past, past <+: [⟨5, 5, fun _ => 1⟩, ⟨15, 5, fun _ => 2⟩, ⟨0, 12, fun _ => 3⟩] →
        ∃ s, run Fragment.step init past = some s ∧ Exact s past :=
  ⟨by decide, run_exact _ (by simp [Fragment.Fits]) (by decide)⟩

/-- Two fragments with a hole before each, and one that fills both holes: the second hole stays in
the gap list. -/
theorem run_not_exact :
    ¬ ∀ fs : List Fragment, (∀ f ∈ fs, f.Fits) →
      ∀ past, past <+: fs → ∃ s, run Fragment.step init past = some s ∧ Exact s past := by
  intro h
  obtain ⟨s, hs, hex⟩ :=
    h [⟨5, 5, fun _ => 1⟩, ⟨15, 5, fun _ => 2⟩, ⟨0, 15, fun _ => 3⟩] (by simp [Fragment.Fits]) _
      (List.prefix_refl _)
  have hgaps : (run Fragment.step init
      [⟨5, 5, fun _ => 1⟩, ⟨15, 5, fun _ => 2⟩, ⟨0, 15, fun _ => 3⟩]).map Sorter.gaps
        = some [⟨10, 5⟩, ⟨20, maxSize - 20⟩] := by decide
  rw [hs, Option.map_some, Option.some_inj] at hgaps
  have hmem : 10 ∈ cover (spans s.gaps) := by
    rw [hgaps]
    exact mem_cover_spans.mpr ⟨⟨10, 5⟩, List.mem_cons_self, by decide, by decide⟩
  rw [hex.gaps] at hmem
  exact hmem.2 ⟨0, 15, fun _ => 3⟩ (by simp) ⟨by decide, by decide⟩

end Sorter

end OpenQuic
