import OpenQuic.Sorter.Gaps

/-!
# Fragments that were received before

* `covers`          the search for a gap that the fragment touches ends before one is found;
* `write_covers`    such a fragment changes nothing;
* `write_changes`   any other one changes the gaps of a sorter whose gap list is in form.
-/

namespace OpenQuic
open Word Spans

namespace Sorter

/-- the fragment is empty or touches no gap, as the code finds out -/
def covers (s : Sorter) (off len : Nat) : Prop :=
  len = 0 ∨ scanStart off (sub64 (add64 off len) 1) [] s.gaps = .covered

instance (s : Sorter) (off len : Nat) : Decidable (s.covers off len) := inferInstanceAs (Decidable (_ ∨ _))

theorem write_covers (mem : Alloc) {s : Sorter} {off len : Nat} (data : Nat → UInt8)
    (h : s.covers off len) : write mem s off len data = some (s, .success) := by
  rw [write_eq_writeAt]
  by_cases hlen : len = 0
  · rw [if_pos hlen]
  · rw [if_neg hlen, h.resolve_left hlen]
    rfl

/-! ## fragments that touch a gap -/

theorem scanStart_reaches {a b : Nat} {pre gs pre' post : List Gap} {g : Gap}
    (h : scanStart a b pre gs = .found pre' g post) : a ≤ gapEnd g := by
  induction gs generalizing pre with
  | nil => cases h
  | cons f gs ih =>
    rw [scanStart] at h
    split at h
    · cases h
    · split at h
      · rename_i hin
        cases h
        exact hin.1
      · exact ih h

/-- the walk removes the gaps in between, and goes on only where the fragment passes a gap -/
theorem scanEnd_split {fin : Nat} {g : Gap} {e e' : Option Gap} {post post' : List Gap}
    (h : scanEnd fin g e post = some (e', post')) :
    (e' = e ∧ post' = post) ∨
      ∃ l us, e' = some l ∧ post = us ++ l :: post' ∧ gapEnd (e.getD g) < fin := by
  induction post generalizing e with
  | nil =>
    rw [scanEnd] at h
    split at h
    · cases h
    · cases h
      exact Or.inl ⟨rfl, rfl⟩
  | cons f post ih =>
    rw [scanEnd] at h
    split at h
    · rename_i hpast
      split at h
      · cases h
        exact Or.inl ⟨rfl, rfl⟩
      · obtain ⟨rfl, rfl⟩ | ⟨l, us, rfl, rfl, _⟩ := ih h
        · exact Or.inr ⟨f, [], rfl, rfl, hpast⟩
        · exact Or.inr ⟨l, f :: us, rfl, rfl, hpast⟩
    · cases h
      exact Or.inl ⟨rfl, rfl⟩

/-- a gap is all that is ever allocated -/
theorem cut_isSome {mem : Alloc} (hmem : mem.gap = true) (g : Gap) (e : Option Gap) (a b : Nat) :
    ∃ gs, cut mem g e a b = some gs := by
  cases e with
  | none =>
    by_cases hstart : a = gapStart g
    · exact ⟨_, by rw [cut, if_pos hstart]⟩
    · rw [cut, if_neg hstart]
      split
      · exact ⟨_, rfl⟩
      · exact ⟨_, rfl⟩
  | some l =>
    by_cases hstart : a = gapStart g
    · exact ⟨_, by rw [cut, if_pos hstart]⟩
    · rw [cut, if_neg hstart]
      split <;> exact ⟨_, rfl⟩

/-- a fragment that starts behind the first touched gap shortens it -/
theorem cut_shorter {mem : Alloc} {g : Gap} {e : Option Gap} {gs : List Gap} {a b : Nat}
    (hg : Fits g) (h1 : g.off < a) (h2 : a < g.off + g.len) (h : cut mem g e a b = some gs) :
    ∃ c l, gs = c :: l ∧ c.len < g.len := by
  have hne : a ≠ gapStart g := by
    unfold gapStart
    omega
  have hshort : (shorten g a).len < g.len := by
    rw [shorten_eq hg h1 h2]
    show a - g.off < g.len
    omega
  cases e with
  | none =>
    rw [cut, if_neg hne] at h
    split at h
    · exact ⟨_, _, (Option.some.inj h).symm, hshort⟩
    · split at h
      · exact ⟨_, _, (Option.some.inj h).symm, hshort⟩
      · cases h
  | some l =>
    rw [cut, if_neg hne] at h
    split at h
    · exact ⟨_, _, (Option.some.inj h).symm, hshort⟩
    · exact ⟨_, _, (Option.some.inj h).symm, hshort⟩

/-- what is left of the touched gaps is not what they were -/
theorem cut_changes {mem : Alloc} {g : Gap} {e : Option Gap} {us gs : List Gap} {off fin : Nat}
    (hg : Fits g) (hoff : off ≤ gapEnd g) (hfin : gapStart g ≤ fin) (hus : e = none → us = [])
    (hlast : ∀ l, e = some l → gapEnd g < fin ∧ gapEnd g < gapEnd l)
    (h : cut mem g e (max off (gapStart g)) (min fin (gapEnd (e.getD g))) = some gs) :
    gs ≠ g :: (us ++ e.toList) := by
  have hend := gapEnd_fits hg
  have hpos := hg.1
  have hwithin : gapEnd g + 1 < 2 ^ 64 := by
    have hmax := maxSize_lt
    have := hg.2
    omega
  intro heq
  by_cases hstart : max off (gapStart g) = gapStart g
  · cases e with
    | none =>
      rw [cut, if_pos hstart] at h
      dsimp only [Option.getD_none] at h
      rw [hus rfl] at heq
      by_cases hlt : min fin (gapEnd g) < gapEnd g
      · -- the gap gets a new start
        rw [if_pos hlt] at h
        have hhead := (Option.some.inj h).trans heq
        have hoffs : add64 (min fin (gapEnd g)) 1 = g.off := congrArg Gap.off (List.cons.inj hhead).1
        rw [add64_of_lt (by omega)] at hoffs
        unfold gapStart at hfin
        omega
      · rw [if_neg hlt, if_pos (Nat.le_of_not_lt hlt)] at h
        have hnil := (Option.some.inj h).trans heq
        cases hnil
    | some l =>
      obtain ⟨h1, h2⟩ := hlast l rfl
      rw [cut, if_pos hstart] at h
      dsimp only [Option.getD_some] at h
      have hpast : gapEnd g ≤ min fin (gapEnd l) := by omega
      rw [if_pos hpast, List.nil_append] at h
      have hlens := congrArg List.length ((Option.some.inj h).trans heq)
      rw [List.length_cons, List.length_cons, List.length_append, Option.toList_some,
        List.length_singleton, List.length_nil] at hlens
      omega
  · obtain ⟨c, l, hc, hlen⟩ := cut_shorter hg (a := max off (gapStart g))
      (by unfold gapStart at hstart ⊢; omega) (by unfold gapStart at hstart ⊢; omega) h
    rw [hc] at heq
    rw [(List.cons.inj heq).1] at hlen
    exact Nat.lt_irrefl _ hlen

/-- the touched gaps as they were, and the walk to the last of them -/
theorem scan_gaps {s : Sorter} (hs : GapsOk s.gaps) {off fin : Nat} {g : Gap} {e : Option Gap}
    {pre post post' : List Gap} (hstart : scanStart off fin [] s.gaps = .found pre g post)
    (hend : scanEnd fin g none post = some (e, post')) :
    ∃ us, (e = none → us = []) ∧ s.gaps = pre ++ (g :: (us ++ e.toList)) ++ post' ∧ Fits g ∧
      ∀ l, e = some l → gapEnd g < fin ∧ gapEnd g < gapEnd l := by
  have hsplit : pre ++ g :: post = s.gaps := (scanStart_split hstart).1
  have hfit : ∀ m, m ∈ g :: post → Fits m := fun m hm =>
    hs.fits m (hsplit ▸ List.mem_append_right pre hm)
  have hg := hfit g List.mem_cons_self
  obtain ⟨rfl, rfl⟩ | ⟨l, us, rfl, rfl, hpast⟩ := scanEnd_split hend
  · refine ⟨[], fun _ => rfl, ?_, hg, nofun⟩
    rw [← hsplit]
    simp
  · refine ⟨us, nofun, ?_, hg, fun m hm => ?_⟩
    · rw [← hsplit]
      simp
    · obtain rfl := Option.some.inj hm
      refine ⟨hpast, ?_⟩
      have hl := hfit l (List.mem_cons_of_mem _ (List.mem_append_right _ List.mem_cons_self))
      have hsep := hs.sep
      rw [← hsplit, spans_append, separated_append] at hsep
      have hlt := (separated_cons.mp hsep.2.1).2.1 l.span
        (List.mem_map_of_mem (List.mem_append_right _ List.mem_cons_self))
      have hlt' : g.off + g.len < l.off := hlt
      have hpos := hl.1
      rw [gapEnd_fits hg, gapEnd_fits hl]
      omega

theorem writeAt_changes {mem : Alloc} (hmem : mem.gap = true) {s : Sorter} {x : Sorter × Err}
    {off fin : Nat} {data : Nat → UInt8} (hs : GapsOk s.gaps)
    (h : scanStart off fin [] s.gaps ≠ .covered)
    (hw : writeAt mem s off data fin (scanStart off fin [] s.gaps) = some x) :
    x.1.gaps ≠ s.gaps := by
  cases hsc : scanStart off fin [] s.gaps with
  | covered => exact absurd hsc h
  | head =>
    rw [hsc] at hw
    cases hw
  | found pre g post =>
    rw [hsc] at hw
    obtain ⟨l, post', start, last, n, hend, rfl, rfl, _, hcases⟩ := writeAt_found hw
    obtain ⟨us, hus, hgaps, hfit, hlast⟩ := scan_gaps hs hsc hend
    obtain ⟨gs, hcut⟩ := cut_isSome hmem g l (max off (gapStart g)) (min fin (gapEnd (l.getD g)))
    have hne := cut_changes hfit (scanStart_reaches hsc) (scanStart_split hsc).2 hus hlast hcut
    rcases hcases with ⟨hnone, _⟩ | ⟨gs', first, rest, cs, err, hcut', hall, _, rfl⟩
    · exact absurd (hcut.symm.trans hnone) (Option.some_ne_none gs)
    · obtain rfl := Option.some.inj (hcut.symm.trans hcut')
      show first :: rest ≠ s.gaps
      rw [← hall, hgaps]
      intro heq
      exact hne (List.append_cancel_left (List.append_cancel_right heq))

/-- A fragment that touches a gap changes the gap list. -/
theorem write_changes {mem : Alloc} (hmem : mem.gap = true) {s : Sorter} {x : Sorter × Err}
    {off len : Nat} {data : Nat → UInt8} (hs : GapsOk s.gaps) (h : ¬ s.covers off len)
    (hw : write mem s off len data = some x) : x.1.gaps ≠ s.gaps := by
  obtain ⟨hlen, hscan⟩ := not_or.mp h
  rw [write_eq_writeAt, if_neg hlen] at hw
  exact writeAt_changes hmem hs hscan hw

end Sorter

end OpenQuic
