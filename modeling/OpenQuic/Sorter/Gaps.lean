import OpenQuic.Lib.Runs
import OpenQuic.Lib.Spans
import OpenQuic.Sorter.Impl
import Mathlib.Order.Lattice.Nat

/-!
# The gap list of the sorter

A gap list stands for the offsets that are still missing.  `GapsOk` is the form every reachable
gap list has: sorted, non-empty gaps that do not touch, inside `[0, maxSize)`, with the last
offset still missing (no fragment reaches it).

* `scanStart_found`, `scanEnd_spec`   the walk finds the first and the last gap that a fragment
                     touches;
* `cut_head`, `cut_tail`, `cut_middle`   what is left of the touched gaps;
* `write_gaps`       the gap list after a write, in terms of the touched gaps;
* `write_carve`      **a clean write takes exactly the range of the fragment out of the gap list.**

A write that touches one gap is clean.  A write that touches several is clean when it starts at or
before the first one and ends inside the last one; in the other cases the code leaves the last
touched gap as it is, or moves its start without changing its length.
-/

set_option linter.unusedVariables false

namespace OpenQuic
open Word Spans

def Gap.span (g : Gap) : Span Nat := ⟨g.off, g.off + g.len⟩

def spans (gs : List Gap) : List (Span Nat) := gs.map Gap.span

theorem spans_append (gs hs : List Gap) : spans (gs ++ hs) = spans gs ++ spans hs := List.map_append

theorem spans_cons (g : Gap) (gs : List Gap) : spans (g :: gs) = g.span :: spans gs := rfl

theorem mem_cover_spans {gs : List Gap} {x : Nat} :
    x ∈ cover (spans gs) ↔ ∃ g ∈ gs, g.off ≤ x ∧ x < g.off + g.len := by
  simp only [mem_cover, spans, List.mem_map, exists_exists_and_eq_and, Gap.span]

namespace Sorter

theorem maxSize_lt : maxSize < 2 ^ 63 := by decide

/-- a gap that is not empty and does not pass the end -/
def Fits (g : Gap) : Prop := 0 < g.len ∧ g.off + g.len ≤ maxSize

theorem gapEnd_fits {g : Gap} (h : Fits g) : gapEnd g = g.off + g.len - 1 := by
  obtain ⟨h0, h1⟩ := h
  have hm := maxSize_lt
  rw [gapEnd, add64_of_lt (by omega), sub64_of_le (by omega) (by omega)]

structure GapsOk (gs : List Gap) : Prop where
  sep : Separated (spans gs)
  within : ∀ g ∈ gs, g.off + g.len ≤ maxSize
  final : maxSize - 1 ∈ cover (spans gs)

theorem GapsOk.fits {gs : List Gap} (h : GapsOk gs) : ∀ g ∈ gs, Fits g := fun g hg => by
  have hp := h.sep.pos g.span (List.mem_map_of_mem hg)
  have hw := h.within g hg
  simp only [Gap.span] at hp
  exact ⟨by omega, hw⟩

/-! ## the walk over the list -/

/-- gaps that a fragment `[a, b)` has behind it, meets, and has before it -/
structure Parts (gs pre ts post : List Gap) (a b : Nat) : Prop where
  eq : gs = pre ++ ts ++ post
  before : ∀ g ∈ pre, g.off + g.len ≤ a
  touched : ∀ g ∈ ts, g.off < b ∧ a < g.off + g.len
  after : ∀ g ∈ post, b ≤ g.off

/-- the last offset of a fragment -/
theorem sub64_add64_one {off len : Nat} (hlen : len ≠ 0) (hend : off + len < 2 ^ 64) :
    sub64 (add64 off len) 1 = off + len - 1 := by
  rw [add64_of_lt hend, sub64_of_le (by omega) hend]

theorem parts_exist {gs : List Gap} (h : GapsOk gs) (a b : Nat) :
    ∃ pre ts post, Parts gs pre ts post a b := by
  obtain ⟨pre, ts, post, he, h1, h2, h3⟩ := h.sep.split a b
  obtain ⟨l, post', hl, he1, rfl⟩ := List.map_eq_append_iff.mp he
  obtain ⟨pre', ts', rfl, rfl, rfl⟩ := List.map_eq_append_iff.mp he1
  refine ⟨pre', ts', post', hl, ?_, ?_, ?_⟩
  · exact fun g hg => h1 g.span (List.mem_map_of_mem hg)
  · exact fun g hg => h2 g.span (List.mem_map_of_mem hg)
  · exact fun g hg => h3 g.span (List.mem_map_of_mem hg)

theorem Parts.separated {gs pre ts post : List Gap} {a b : Nat} (h : Parts gs pre ts post a b)
    (hok : GapsOk gs) : Separated (spans ts) ∧ Separated (spans (ts ++ post)) := by
  have hsep := hok.sep
  rw [h.eq, List.append_assoc, spans_append] at hsep
  have hback := (separated_append.mp hsep).2.1
  refine ⟨?_, hback⟩
  rw [spans_append] at hback
  exact (separated_append.mp hback).1

theorem scanStart_skip {a b : Nat} (hab : a < b) {pre : List Gap} (hf : ∀ g ∈ pre, Fits g)
    (h : ∀ g ∈ pre, g.off + g.len ≤ a) (done rest : List Gap) :
    scanStart a (b - 1) done (pre ++ rest) = scanStart a (b - 1) (done ++ pre) rest := by
  induction pre generalizing done with
  | nil => rw [List.nil_append, List.append_nil]
  | cons g pre ih =>
    have h0 := h g List.mem_cons_self
    have hg := hf g List.mem_cons_self
    have hpos := hg.1
    have hc1 : ¬ b - 1 < gapStart g := by
      simp only [gapStart]
      omega
    have hc2 : ¬ (a ≤ gapEnd g ∧ gapStart g ≤ b - 1) := by
      rw [gapEnd_fits hg]
      omega
    rw [List.cons_append, scanStart, if_neg hc1, if_neg hc2,
      ih (fun t ht => hf t (List.mem_cons_of_mem _ ht))
        (fun t ht => h t (List.mem_cons_of_mem _ ht)), List.append_assoc]
    rfl

/-- The search stops at the first touched gap. -/
theorem scanStart_found {gs pre ts post : List Gap} {g : Gap} {a b : Nat} (hab : a < b)
    (hok : ∀ g ∈ gs, Fits g) (h : Parts gs pre (g :: ts) post a b) :
    scanStart a (b - 1) [] gs = .found pre g (ts ++ post) := by
  obtain ⟨rfl, h1, h2, h3⟩ := h
  obtain ⟨hb, ha⟩ := h2 g List.mem_cons_self
  have hg := hok g (by simp)
  have hc1 : ¬ b - 1 < gapStart g := by
    simp only [gapStart]
    omega
  have hc2 : a ≤ gapEnd g ∧ gapStart g ≤ b - 1 := by
    rw [gapEnd_fits hg]
    simp only [gapStart]
    omega
  rw [List.append_assoc, scanStart_skip hab (fun g hg => hok g (by simp [hg])) h1,
    List.nil_append, List.cons_append, scanStart, if_neg hc1, if_pos hc2]

/-- Without a touched gap it stops at the first gap after the fragment. -/
theorem scanStart_covered {gs pre post : List Gap} {g : Gap} {a b : Nat} (hab : a < b)
    (hok : ∀ g ∈ gs, Fits g) (h : Parts gs pre [] (g :: post) a b) :
    scanStart a (b - 1) [] gs = .covered := by
  obtain ⟨rfl, h1, _, h3⟩ := h
  have hb := h3 g List.mem_cons_self
  have hc : b - 1 < gapStart g := by
    simp only [gapStart]
    omega
  rw [List.append_nil, scanStart_skip hab (fun g hg => hok g (by simp [hg])) h1, scanStart,
    if_pos hc]

/-- The walk ends at the last touched gap, if it does not run out of gaps behind the fragment. -/
theorem scanEnd_spec {g : Gap} {e : Option Gap} {ts post : List Gap} {b : Nat}
    (hsep : Separated (spans (e.getD g :: ts ++ post))) (hfit : ∀ t ∈ e.getD g :: ts, Fits t)
    (hts : ∀ t ∈ ts, t.off < b) (hpost : ∀ t ∈ post, b ≤ t.off) (hb : 0 < b)
    (hlast : post = [] → b ≤ (ts.getLast?.getD (e.getD g)).off + (ts.getLast?.getD (e.getD g)).len) :
    scanEnd (b - 1) g e (ts ++ post) = some (ts.getLast?.or e, post) := by
  induction ts generalizing e with
  | nil =>
    have he := hfit _ List.mem_cons_self
    have hpos := he.1
    cases post with
    | nil =>
      have hl := hlast rfl
      simp only [List.getLast?_nil, Option.getD_none] at hl
      have hc : ¬ gapEnd (e.getD g) < b - 1 := by
        rw [gapEnd_fits he]
        omega
      rw [List.nil_append, scanEnd, if_neg hc]
      rfl
    | cons n post =>
      have hn := hpost n List.mem_cons_self
      have hc : b - 1 < gapStart n := by
        simp only [gapStart]
        omega
      rw [List.nil_append, scanEnd, if_pos hc]
      split <;> rfl
  | cons t ts ih =>
    have he := hfit _ List.mem_cons_self
    have ht := hts t List.mem_cons_self
    rw [List.cons_append, spans_cons] at hsep
    obtain ⟨_, hnext, hrest⟩ := separated_cons.mp hsep
    have hgap := hnext t.span (by simp [spans])
    simp only [Gap.span] at hgap
    have hc1 : gapEnd (e.getD g) < b - 1 := by
      rw [gapEnd_fits he]
      have := he.1
      omega
    have hc2 : ¬ b - 1 < gapStart t := by
      simp only [gapStart]
      omega
    have hor : ((t :: ts).getLast?).or e = ts.getLast?.or (some t) := by
      cases ts with
      | nil => rfl
      | cons u us => simp [List.getLast?_cons]
    have hgd : (ts.getLast?.getD t) = ((t :: ts).getLast?.getD (e.getD g)) := by
      cases ts with
      | nil => rfl
      | cons u us => simp [List.getLast?_cons]
    rw [List.cons_append, scanEnd, if_pos hc1, if_neg hc2, hor]
    refine ih hrest ?_ (fun u hu => hts u (List.mem_cons_of_mem _ hu)) ?_
    · exact fun u hu => hfit u (List.mem_cons_of_mem _ hu)
    · intro hp
      rw [Option.getD_some, hgd]
      exact hlast hp

/-! ## cutting the touched gaps -/

/-- `fin`, the last offset of the fragment inside the touched gaps, in terms of its end `b` -/
theorem fin_lt_iff {l : Gap} {b : Nat} (hl : Fits l) (hb : 0 < b) :
    min (b - 1) (gapEnd l) < gapEnd l ↔ b < l.off + l.len := by
  have := hl.1
  rw [gapEnd_fits hl]
  omega

/-- A fragment that starts at or before the first gap removes it, and trims the last one if it
ends inside it. -/
theorem cut_head {g : Gap} {e : Option Gap} {b : Nat} (hg : Fits g) (hl : Fits (e.getD g))
    (hb : 0 < b) (hlt : (e.getD g).off < b) (hge : ∀ l ∈ e, g.off + g.len < l.off) :
    cut Alloc.ok g e g.off (min (b - 1) (gapEnd (e.getD g))) =
      some (if b < (e.getD g).off + (e.getD g).len
        then [⟨b, (e.getD g).off + (e.getD g).len - b⟩] else e.toList) := by
  have hm := maxSize_lt
  have hiff := fin_lt_iff hl hb
  have htrim : b < (e.getD g).off + (e.getD g).len →
      add64 (min (b - 1) (gapEnd (e.getD g))) 1 = b ∧
      sub64 (gapEnd (e.getD g)) (min (b - 1) (gapEnd (e.getD g)))
        = (e.getD g).off + (e.getD g).len - b := by
    intro hlt
    have hmin : min (b - 1) (gapEnd (e.getD g)) = b - 1 := by
      rw [gapEnd_fits hl]
      omega
    obtain ⟨_, h2⟩ := hl
    rw [hmin, add64_of_lt (by omega), gapEnd_fits ⟨‹_›, h2⟩, sub64_of_le (by omega) (by omega)]
    omega
  have hfirst : ∀ l ∈ e, gapEnd g ≤ min (b - 1) (gapEnd (e.getD g)) := by
    intro l hle
    have h1 := hge l hle
    cases hle
    simp only [Option.getD_some] at *
    rw [gapEnd_fits hg, gapEnd_fits hl]
    have := hl.1
    omega
  unfold cut
  rw [if_pos (show g.off = gapStart g from rfl)]
  by_cases hc : b < (e.getD g).off + (e.getD g).len
  · obtain ⟨h1, h2⟩ := htrim hc
    have hfin := hiff.mpr hc
    rw [if_pos hc, h1, h2]
    cases e with
    | none =>
      dsimp only [Option.getD_none] at hfin ⊢
      rw [if_pos hfin]
    | some l =>
      have hg' := hfirst l rfl
      dsimp only [Option.getD_some] at hfin hg' ⊢
      rw [if_pos hfin, if_pos hg', List.nil_append]
  · have hfin := mt hiff.mp hc
    rw [if_neg hc]
    cases e with
    | none =>
      dsimp only [Option.getD_none, Option.toList_none] at hfin ⊢
      rw [if_neg hfin, if_pos (not_lt.mp hfin)]
    | some l =>
      have hg' := hfirst l rfl
      dsimp only [Option.getD_some, Option.toList_some] at hfin hg' ⊢
      rw [if_neg hfin, if_pos hg', List.nil_append]

theorem shorten_eq {g : Gap} {a : Nat} (hg : Fits g) (h1 : g.off < a) (h2 : a < g.off + g.len) :
    shorten g a = ⟨g.off, a - g.off⟩ := by
  have hm := maxSize_lt
  obtain ⟨_, h3⟩ := hg
  have hlen : add64 (sub64 (sub64 a 1) g.off) 1 = a - g.off := by
    rw [sub64_of_le (a := a) (b := 1) (by omega) (by omega), sub64_of_le (by omega) (by omega),
      add64_of_lt (by omega)]
    omega
  rw [shorten, hlen]

/-- A fragment that starts inside the first gap and reaches the end of the last one shortens the
first and leaves the last. -/
theorem cut_tail {g : Gap} {e : Option Gap} {a b : Nat} (hg : Fits g) (hl : Fits (e.getD g))
    (h1 : g.off < a) (h2 : a < g.off + g.len) (hb : (e.getD g).off + (e.getD g).len ≤ b) :
    cut Alloc.ok g e a (min (b - 1) (gapEnd (e.getD g))) =
      some (⟨g.off, a - g.off⟩ :: e.toList) := by
  have hne : ¬ a = gapStart g := by
    simp only [gapStart]
    omega
  have hfin : min (b - 1) (gapEnd (e.getD g)) = gapEnd (e.getD g) := by
    rw [gapEnd_fits hl]
    omega
  unfold cut
  rw [if_neg hne, if_pos hfin, shorten_eq hg h1 h2]

/-- A fragment inside one gap leaves a gap on either side. -/
theorem cut_middle {g : Gap} {a b : Nat} (hg : Fits g) (h1 : g.off < a) (hab : a < b)
    (hb : b < g.off + g.len) :
    cut Alloc.ok g none a (min (b - 1) (gapEnd g)) =
      some [⟨g.off, a - g.off⟩, ⟨b, g.off + g.len - b⟩] := by
  have hm := maxSize_lt
  have hne : ¬ a = gapStart g := by
    simp only [gapStart]
    omega
  have hfin : min (b - 1) (gapEnd g) = b - 1 := by
    rw [gapEnd_fits hg]
    omega
  have hfin' : ¬ b - 1 = gapEnd g := by
    rw [gapEnd_fits hg]
    omega
  have hoff : add64 (b - 1) 1 = b := by
    obtain ⟨_, h3⟩ := hg
    rw [add64_of_lt (by omega)]
    omega
  have hlen : add64 (sub64 (gapEnd g) b) 1 = g.off + g.len - b := by
    rw [gapEnd_fits hg]
    obtain ⟨_, h3⟩ := hg
    rw [sub64_of_le (by omega) (by omega), add64_of_lt (by omega)]
    omega
  unfold cut
  rw [if_neg hne, hfin, Option.getD_none, if_neg hfin', shorten_eq hg h1 (by omega), hoff]
  dsimp only
  rw [hlen]
  rfl

/-! ## a write -/

section
variable {g : Gap} {ts : List Gap}

/-- the last of the touched gaps `g :: ts` -/
def lastOf (g : Gap) (ts : List Gap) : Gap := ts.getLast?.getD g

theorem lastOf_concat (l : Gap) : lastOf g (ts ++ [l]) = l := by
  simp [lastOf]

theorem lastOf_mem (g : Gap) (ts : List Gap) : lastOf g ts ∈ g :: ts := by
  rcases List.eq_nil_or_concat ts with rfl | ⟨us, l, rfl⟩
  · exact List.mem_cons_self
  · rw [List.concat_eq_append, lastOf_concat]
    simp

theorem lastOf_max (h : Separated (spans (g :: ts))) :
    ∀ t ∈ g :: ts, t.off + t.len ≤ (lastOf g ts).off + (lastOf g ts).len := by
  rcases List.eq_nil_or_concat ts with rfl | ⟨us, l, rfl⟩
  · simp [lastOf]
  · rw [List.concat_eq_append] at h ⊢
    rw [lastOf_concat]
    rw [← List.cons_append, spans_append] at h
    obtain ⟨_, _, h1⟩ := separated_append.mp h
    intro t ht
    rw [← List.cons_append] at ht
    rcases List.mem_append.mp ht with ht | ht
    · have := h1 t.span (List.mem_map_of_mem ht) l.span (by simp [spans])
      simp only [Gap.span] at this
      omega
    · rw [List.mem_singleton.mp ht]

theorem lastOf_gap (h : Separated (spans (g :: ts))) : ∀ l ∈ ts.getLast?, g.off + g.len < l.off := by
  intro l hl
  have hlt : l ∈ ts := List.mem_of_getLast? hl
  exact (separated_cons.mp h).2.1 l.span (List.mem_map_of_mem hlt)

end

section
variable {s : Sorter} {off len : Nat} {pre ts post : List Gap} {g : Gap}

/-- no gap list ends before the fragment does -/
theorem last_touched (hend : off + len < maxSize) (hok : GapsOk s.gaps)
    (h : Parts s.gaps pre (g :: ts) [] off (off + len)) :
    off + len < (lastOf g ts).off + (lastOf g ts).len := by
  obtain ⟨t, ht, h1, h2⟩ := mem_cover_spans.mp hok.final
  have hsep := hok.sep
  rw [h.eq, List.append_nil, spans_append] at hsep
  rw [h.eq, List.append_nil] at ht
  rcases List.mem_append.mp ht with ht | ht
  · have := h.before t ht
    omega
  · have := lastOf_max (separated_append.mp hsep).2.1 t ht
    omega

/-- what is missing of the fragment lies between the first and the last touched gap -/
theorem Parts.between {gs : List Gap} {a b x : Nat} (h : Parts gs pre (g :: ts) post a b)
    (hsep : Separated (spans (g :: ts))) (hx : x ∈ cover (spans gs)) (ha : a ≤ x) (hb : x < b) :
    g.off ≤ x ∧ x < (lastOf g ts).off + (lastOf g ts).len := by
  obtain ⟨t, ht, h3, h4⟩ := mem_cover_spans.mp hx
  rw [h.eq] at ht
  rcases List.mem_append.mp ht with ht | ht
  · rcases List.mem_append.mp ht with ht | ht
    · have := h.before t ht
      omega
    · have hmax := lastOf_max hsep t ht
      exact ⟨hsep.head_le (mem_cover_spans.mpr ⟨t, ht, h3, h4⟩), by omega⟩
  · have := h.after t ht
    omega

theorem write_zero (mem : Alloc) (s : Sorter) (off : Nat) (data : Nat → UInt8) :
    write mem s off 0 data = some (s, .success) := by
  rw [write, if_pos rfl]

theorem write_covered (data : Nat → UInt8) (hpos : 0 < len) (hend : off + len < maxSize)
    (hok : GapsOk s.gaps) (h : Parts s.gaps pre [] post off (off + len)) :
    write Alloc.ok s off len data = some (s, .success) := by
  have hm := maxSize_lt
  cases post with
  | nil =>
    -- the last offset is missing, and no gap lies behind the fragment
    obtain ⟨t, ht, h1, h2⟩ := mem_cover_spans.mp hok.final
    rw [h.eq, List.append_nil, List.append_nil] at ht
    have := h.before t ht
    omega
  | cons g post =>
    rw [write, if_neg (by omega), sub64_add64_one (by omega) (by omega)]
    dsimp only
    rw [scanStart_covered (by omega) hok.fits h]

theorem write_found (data : Nat → UInt8) (hpos : 0 < len) (hend : off + len < maxSize)
    (hok : GapsOk s.gaps) (h : Parts s.gaps pre (g :: ts) post off (off + len)) {gs : List Gap}
    (hcut : cut Alloc.ok g ts.getLast? (max off g.off)
      (min (off + len - 1) (gapEnd (lastOf g ts))) = some gs)
    {first : Gap} {rest : List Gap} (hgs : pre ++ gs ++ post = first :: rest)
    {start n : Nat} (hstart : start = max off g.off)
    (hn : n = min (off + len) ((lastOf g ts).off + (lastOf g ts).len) - start) :
    write Alloc.ok s off len data =
      some ({ s with
          gaps := first :: rest
          availSize := first.off
          clusters := (writeCluster Alloc.ok n s.clusters start n
            fun i => data (i + (start - off))).1 },
        (writeCluster Alloc.ok n s.clusters start n fun i => data (i + (start - off))).2) := by
  have hm := maxSize_lt
  have hfit := hok.fits
  obtain ⟨hsep2, hsep1⟩ := h.separated hok
  have hend' : Parts s.gaps pre (g :: ts) [] off (off + len) →
      off + len < (lastOf g ts).off + (lastOf g ts).len := last_touched hend hok
  obtain ⟨heq, h1, h2, h3⟩ := h
  have hlast := h2 _ (lastOf_mem g ts)
  rw [heq] at hfit
  have hfl : Fits (lastOf g ts) :=
    hfit _ (List.mem_append_left _ (List.mem_append_right _ (lastOf_mem _ _)))
  have hmax := lastOf_max hsep2 g List.mem_cons_self
  have hg := h2 g List.mem_cons_self
  have hwalk : scanEnd (off + len - 1) g none (ts ++ post) = some (ts.getLast?, post) := by
    rw [scanEnd_spec (e := none) hsep1
      (fun t ht => hfit t (List.mem_append_left _ (List.mem_append_right _ ht)))
      (fun t ht => (h2 t (List.mem_cons_of_mem _ ht)).1) h3 (by omega) ?_, Option.or_none]
    rintro rfl
    exact (hend' ⟨heq, h1, h2, h3⟩).le
  have hnum : add64 (sub64 (min (off + len - 1) (gapEnd (lastOf g ts))) start) 1 = n := by
    have hg0 := (hfit g (by simp)).1
    rw [gapEnd_fits hfl]
    obtain ⟨hl1, hl2⟩ := hfl
    rw [sub64_of_le (by omega) (by omega), add64_of_lt (by omega)]
    omega
  rw [write, if_neg (by omega), sub64_add64_one (by omega) (by omega)]
  dsimp only
  rw [scanStart_found (by omega) hok.fits ⟨heq, h1, h2, h3⟩]
  dsimp only [gapStart]
  rw [hwalk, ← hstart]
  dsimp only
  rw [show (ts.getLast?.getD g) = lastOf g ts from rfl]
  rw [hstart, hcut, ← hstart]
  dsimp only
  rw [hgs, hnum]

end

/-! ## what a cut leaves -/

/-- the gaps that a fragment `[a, b)` touches -/
def touched (gs : List Gap) (a b : Nat) : List Gap :=
  gs.filter fun g => g.off < b ∧ a < g.off + g.len

/-- a fragment that touches one gap, or starts at or before the first and ends inside the last -/
def Clean (a b : Nat) : List Gap → Prop
  | [] => True
  | g :: ts => ts = [] ∨ (a ≤ g.off ∧ b < (lastOf g ts).off + (lastOf g ts).len)

/-- a fragment that touches one gap, or does not start inside the first and end inside the last -/
def Safe (a b : Nat) : List Gap → Prop
  | [] => True
  | g :: ts => ts = [] ∨ a ≤ g.off ∨ (lastOf g ts).off + (lastOf g ts).len ≤ b

theorem Clean.safe {a b : Nat} {ts : List Gap} (h : Clean a b ts) : Safe a b ts := by
  cases ts with
  | nil => trivial
  | cons g ts => exact h.imp_right fun h => Or.inl h.1

theorem touched_parts {gs pre ts post : List Gap} {a b : Nat} (h : Parts gs pre ts post a b) :
    touched gs a b = ts := by
  obtain ⟨rfl, h1, h2, h3⟩ := h
  have e1 : touched pre a b = [] := by
    refine List.filter_eq_nil_iff.mpr fun g hg => ?_
    have := h1 g hg
    simp only [decide_eq_true_eq, not_and]
    omega
  have e2 : touched ts a b = ts :=
    List.filter_eq_self.mpr fun g hg => decide_eq_true (h2 g hg)
  have e3 : touched post a b = [] := by
    refine List.filter_eq_nil_iff.mpr fun g hg => ?_
    have := h3 g hg
    simp only [decide_eq_true_eq, not_and]
    omega
  show List.filter _ _ = _
  rw [List.filter_append, List.filter_append]
  show touched pre a b ++ touched ts a b ++ touched post a b = ts
  rw [e1, e2, e3, List.nil_append, List.append_nil]

/-- what a safe cut leaves of the touched gaps: at least what the fragment does not cover -/
structure Trimmed (ts gs : List Gap) (a b : Nat) : Prop where
  sep : Separated (spans gs)
  inside : ∀ u ∈ spans gs, ∃ t ∈ spans ts, t.lo ≤ u.lo ∧ u.hi ≤ t.hi
  keeps : ∀ x ∈ cover (spans ts), x < a ∨ b ≤ x → x ∈ cover (spans gs)

theorem trimmed_carve {ts gs : List Gap} {a b : Nat} (hab : a < b) (hsep : Separated (spans ts))
    (h : spans gs = carve a b (spans ts)) : Trimmed ts gs a b := by
  refine ⟨?_, fun u hu => ?_, fun x hx hout => ?_⟩
  · rw [h]
    exact carve_separated a b _ hab hsep
  · rw [h] at hu
    exact carve_within a b _ u hu
  · rw [h, carve_cover]
    refine ⟨hx, fun hin => ?_⟩
    have := hin.1
    have := hin.2
    omega

/-- what the code computes as the new gaps between the untouched ones -/
def cutOf (g : Gap) (ts : List Gap) (a b : Nat) : Option (List Gap) :=
  cut Alloc.ok g ts.getLast? (max a g.off) (min (b - 1) (gapEnd (lastOf g ts)))

section
variable {g : Gap} {a b : Nat}

theorem cut_one (hg : Fits g) (hab : a < b) (hb : g.off < b) (ha : a < g.off + g.len) :
    ∃ gs, cutOf g [] a b = some gs ∧ spans gs = carve a b (spans [g]) := by
  have hcarve : carve a b (spans [g]) = g.span.carve a b := by
    show g.span.carve a b ++ [] = _
    rw [List.append_nil]
  unfold cutOf
  rw [hcarve]
  show ∃ gs, cut Alloc.ok g none (max a g.off) (min (b - 1) (gapEnd g)) = some gs ∧ _
  rcases le_or_gt a g.off with h | h
  · refine ⟨if b < g.off + g.len then [⟨b, g.off + g.len - b⟩] else [], ?_, ?_⟩
    · rw [max_eq_right h]
      exact cut_head (e := none) hg hg (by omega) hb (by simp)
    · split
      · rename_i hlt
        rw [g.span.carve_right a b h hb.le hlt]
        have : b + (g.off + g.len - b) = g.off + g.len := by omega
        simp only [spans, List.map_cons, List.map_nil, Gap.span, this]
      · rename_i hlt
        rw [g.span.carve_inside a b h (not_lt.mp hlt)]
        rfl
  · rw [max_eq_left h.le]
    have e1 : g.off + (a - g.off) = a := by omega
    rcases lt_or_ge b (g.off + g.len) with h2 | h2
    · refine ⟨_, cut_middle hg h hab h2, ?_⟩
      rw [g.span.carve_middle a b h hab h2]
      have e2 : b + (g.off + g.len - b) = g.off + g.len := by omega
      simp only [spans, List.map_cons, List.map_nil, Gap.span, e1, e2]
    · refine ⟨_, cut_tail (e := none) hg hg h ha h2, ?_⟩
      rw [g.span.carve_left a b h ha.le h2]
      simp only [spans, Option.toList_none, List.map_cons, List.map_nil, Gap.span, e1]

variable {us : List Gap} {l : Gap}

theorem cutOf_many : cutOf g (us ++ [l]) a b =
    cut Alloc.ok g (some l) (max a g.off) (min (b - 1) (gapEnd l)) := by
  rw [cutOf, lastOf_concat, List.getLast?_append, List.getLast?_singleton]
  rfl

theorem cut_many_clean (hfit : ∀ t ∈ g :: (us ++ [l]), Fits t)
    (hsep : Separated (spans (g :: (us ++ [l])))) (ha : a ≤ g.off) (hl : l.off < b)
    (hb : b < l.off + l.len) :
    ∃ gs, cutOf g (us ++ [l]) a b = some gs ∧
      spans gs = carve a b (spans (g :: (us ++ [l]))) := by
  have hg := hfit g List.mem_cons_self
  have hfl := hfit l (by simp)
  have hgl : g.off + g.len < l.off := lastOf_gap hsep l (by simp)
  refine ⟨[⟨b, l.off + l.len - b⟩], ?_, ?_⟩
  · rw [cutOf_many, max_eq_right ha]
    refine (cut_head (e := some l) hg hfl (by omega) hl (by simp [hgl])).trans ?_
    rw [Option.getD_some, if_pos hb]
  · have hsplit : spans (g :: (us ++ [l])) = spans (g :: us) ++ [l.span] := by
      rw [← List.cons_append, spans_append]
      rfl
    rw [hsplit] at hsep ⊢
    obtain ⟨h1, _, h2⟩ := separated_append.mp hsep
    have hin : carve a b (spans (g :: us)) = [] := by
      refine carve_inside a b _ (fun t ht => ha.trans (h1.head_le ⟨t, ht, le_refl _, h1.pos t ht⟩))
        fun t ht => ?_
      exact ((h2 t ht l.span List.mem_cons_self).le.trans hl.le)
    rw [carve_append, hin, List.nil_append, carve_cons,
      l.span.carve_right a b (by show a ≤ l.off; omega) hl.le hb, carve_nil, List.append_nil]
    have e : b + (l.off + l.len - b) = l.off + l.len := by omega
    simp only [spans, List.map_cons, List.map_nil, Gap.span, e]

/-- A fragment that reaches the end of the last of several gaps leaves that gap as it is. -/
theorem cut_many_safe (hfit : ∀ t ∈ g :: (us ++ [l]), Fits t)
    (hsep : Separated (spans (g :: (us ++ [l])))) (ha : a < g.off + g.len) (hl : l.off < b)
    (hb : l.off + l.len ≤ b) :
    ∃ gs, cutOf g (us ++ [l]) a b = some gs ∧ Trimmed (g :: (us ++ [l])) gs a b := by
  have hg := hfit g List.mem_cons_self
  have hfl := hfit l (by simp)
  have hgl : g.off + g.len < l.off := lastOf_gap hsep l (by simp)
  have hmax := lastOf_max hsep
  rw [lastOf_concat] at hmax
  have hpos := hfl.1
  rw [cutOf_many]
  rcases le_or_gt a g.off with h | h
  · refine ⟨[l], ?_, ?_, ?_, ?_⟩
    · rw [max_eq_right h]
      refine (cut_head (e := some l) hg hfl (by omega) hl (by simp [hgl])).trans ?_
      rw [Option.getD_some, if_neg (by omega)]
      rfl
    · exact separated_cons.mpr ⟨show l.off < l.off + l.len by omega, by simp, separated_nil⟩
    · intro u hu
      rw [List.mem_singleton.mp hu]
      exact ⟨l.span, by simp [spans], le_refl _, le_refl _⟩
    · intro x hx hout
      have hlo : g.off ≤ x := hsep.head_le hx
      obtain ⟨t, ht, _, h2⟩ := mem_cover_spans.mp hx
      have := hmax t ht
      omega
  · have e1 : g.off + (a - g.off) = a := by omega
    refine ⟨[⟨g.off, a - g.off⟩, l], ?_, ?_, ?_, ?_⟩
    · rw [max_eq_left h.le]
      exact cut_tail (e := some l) hg hfl h ha hb
    · simp only [spans, List.map_cons, List.map_nil, Gap.span, e1]
      refine separated_cons.mpr ⟨h, ?_, separated_cons.mpr ⟨by dsimp only; omega, by simp,
        separated_nil⟩⟩
      simp only [List.mem_singleton, forall_eq]
      omega
    · intro u hu
      simp only [spans, List.map_cons, List.map_nil, Gap.span, e1, List.mem_cons,
        List.not_mem_nil, or_false] at hu
      rcases hu with rfl | rfl
      · exact ⟨g.span, by simp [spans], le_refl _, ha.le⟩
      · exact ⟨l.span, by simp [spans], le_refl _, le_refl _⟩
    · intro x hx hout
      have hlo : g.off ≤ x := hsep.head_le hx
      obtain ⟨t, ht, _, h2⟩ := mem_cover_spans.mp hx
      have := hmax t ht
      refine mem_cover_spans.mpr ⟨⟨g.off, a - g.off⟩, List.mem_cons_self, hlo, ?_⟩
      dsimp only
      omega

end

theorem cut_safe {g : Gap} {ts : List Gap} {a b : Nat} (hab : a < b)
    (hfit : ∀ t ∈ g :: ts, Fits t) (hsep : Separated (spans (g :: ts)))
    (hmeet : ∀ t ∈ g :: ts, t.off < b ∧ a < t.off + t.len) (hsafe : Safe a b (g :: ts)) :
    ∃ gs, cutOf g ts a b = some gs ∧ Trimmed (g :: ts) gs a b ∧
      (Clean a b (g :: ts) → spans gs = carve a b (spans (g :: ts))) := by
  obtain ⟨hgb, hga⟩ := hmeet g List.mem_cons_self
  rcases List.eq_nil_or_concat ts with rfl | ⟨us, l, rfl⟩
  · obtain ⟨gs, h1, h2⟩ := cut_one (hfit g List.mem_cons_self) hab hgb hga
    exact ⟨gs, h1, trimmed_carve hab hsep h2, fun _ => h2⟩
  · rw [List.concat_eq_append] at *
    have hl := (hmeet l (by simp)).1
    simp only [Safe, Clean, lastOf_concat] at hsafe ⊢
    have hne : us ++ [l] ≠ [] := by simp
    rcases lt_or_ge b (l.off + l.len) with hb | hb
    · -- a safe fragment that ends inside the last gap starts at or before the first
      have ha : a ≤ g.off := by
        rcases hsafe with h | h | h
        · exact absurd h hne
        · exact h
        · omega
      obtain ⟨gs, h1, h2⟩ := cut_many_clean hfit hsep ha hl hb
      exact ⟨gs, h1, trimmed_carve hab hsep h2, fun _ => h2⟩
    · obtain ⟨gs, h1, h2⟩ := cut_many_safe hfit hsep hga hl hb
      refine ⟨gs, h1, h2, ?_⟩
      rintro (h | ⟨_, h⟩)
      · exact absurd h hne
      · omega

/-! ## what every write keeps -/

/-- what `write` does with the outcome of its search; `fin` is the offset of the last byte -/
def writeAt (mem : Alloc) (s : Sorter) (off : Nat) (data : Nat → UInt8) (fin : Nat) :
    Scan → Option (Sorter × Err)
  | .covered => some (s, .success)
  | .head => none
  | .found pre startGap post =>
    let start := max off (gapStart startGap)
    match scanEnd fin startGap none post with
    | none => none
    | some (endGap, post) =>
      let fin := min fin (gapEnd (endGap.getD startGap))
      match cut mem startGap endGap start fin with
      | none => some ({ s with gaps := pre ++ [startGap] ++ endGap.toList ++ post },
          .internalError)
      | some gs =>
        match pre ++ gs ++ post with
        | [] => none
        | first :: rest =>
          let n := add64 (sub64 fin start) 1
          let (cs, err) := writeCluster mem n s.clusters start n fun i => data (i + (start - off))
          some ({ s with gaps := first :: rest, availSize := first.off, clusters := cs }, err)

theorem write_eq_writeAt (mem : Alloc) (s : Sorter) (off len : Nat) (data : Nat → UInt8) :
    write mem s off len data = if len = 0 then some (s, .success)
      else writeAt mem s off data (sub64 (add64 off len) 1)
        (scanStart off (sub64 (add64 off len) 1) [] s.gaps) := by
  delta write writeAt
  rfl

/-- A write that has found a gap to cut lacks the memory for a new gap, or it copies from the first
missing byte of the fragment to the last one. -/
theorem writeAt_found {mem : Alloc} {s : Sorter} {off fin : Nat} {data : Nat → UInt8}
    {pre post : List Gap} {g : Gap} {x : Sorter × Err}
    (hw : writeAt mem s off data fin (.found pre g post) = some x) :
    ∃ e post' start last n, scanEnd fin g none post = some (e, post') ∧ start = max off (gapStart g) ∧
      last = min fin (gapEnd (e.getD g)) ∧ n = add64 (sub64 last start) 1 ∧
      ((cut mem g e start last = none ∧
          x = ({ s with gaps := pre ++ [g] ++ e.toList ++ post' }, .internalError)) ∨
        ∃ gs first rest cs err, cut mem g e start last = some gs ∧
          pre ++ gs ++ post' = first :: rest ∧
          writeCluster mem n s.clusters start n (fun i => data (i + (start - off))) = (cs, err) ∧
          x = ({ s with gaps := first :: rest, availSize := first.off, clusters := cs }, err)) := by
  unfold writeAt at hw
  dsimp only at hw
  generalize hw1 : scanEnd fin g none post = w at hw
  cases w with
  | none => cases hw
  | some w =>
    obtain ⟨e, post'⟩ := w
    refine ⟨e, post', _, _, _, rfl, rfl, rfl, rfl, ?_⟩
    dsimp only at hw
    generalize max off (gapStart g) = start at hw ⊢
    generalize min fin (gapEnd (e.getD g)) = last at hw ⊢
    generalize add64 (sub64 last start) 1 = n at hw ⊢
    cases hcut : cut mem g e start last with
    | none =>
      rw [hcut] at hw
      exact Or.inl ⟨rfl, (Option.some.inj hw).symm⟩
    | some gs =>
      rw [hcut] at hw
      dsimp only at hw
      cases hgs : pre ++ gs ++ post' with
      | nil =>
        rw [hgs] at hw
        cases hw
      | cons first rest =>
        rw [hgs] at hw
        exact Or.inr ⟨gs, first, rest, _, _, rfl, hgs, rfl, (Option.some.inj hw).symm⟩

/-- `availSize` is the offset of the first gap -/
def HeadFirst (s : Sorter) : Prop := s.gaps.head?.map Gap.off = some s.availSize

theorem scanStart_split {a b : Nat} {pre gs pre' post : List Gap} {g : Gap}
    (h : scanStart a b pre gs = .found pre' g post) :
    pre' ++ g :: post = pre ++ gs ∧ gapStart g ≤ b := by
  induction gs generalizing pre with
  | nil => cases h
  | cons f gs ih =>
    rw [scanStart] at h
    split at h
    · cases h
    · split at h
      · rename_i hin
        cases h
        exact ⟨rfl, hin.2⟩
      · obtain ⟨h1, h2⟩ := ih h
        rw [List.append_assoc] at h1
        exact ⟨h1, h2⟩

theorem cut_keeps_head {mem : Alloc} {g : Gap} {e : Option Gap} {start fin : Nat} {gs : List Gap}
    (hs : start ≠ gapStart g) (h : cut mem g e start fin = some gs) :
    gs.head?.map Gap.off = some g.off := by
  have hshort : ∀ l, (shorten g start :: l).head?.map Gap.off = some g.off := fun l => by
    rw [shorten]
    rfl
  cases e with
  | none =>
    rw [cut, if_neg hs] at h
    split at h
    · rw [← Option.some.inj h]
      exact hshort _
    · split at h
      · rw [← Option.some.inj h]
        exact hshort _
      · cases h
  | some g' =>
    rw [cut, if_neg hs] at h
    split at h
    · rw [← Option.some.inj h]
      exact hshort _
    · rw [← Option.some.inj h]
      exact hshort _


theorem writeAt_headFirst {mem : Alloc} {s : Sorter} {off fin : Nat} {data : Nat → UInt8} {sc : Scan}
    {x : Sorter × Err} (h : HeadFirst s)
    (hsc : ∀ pre g post, sc = .found pre g post → pre ++ g :: post = s.gaps ∧ gapStart g ≤ fin)
    (hw : writeAt mem s off data fin sc = some x) :
    HeadFirst x.1 ∧ x.1.readedSize = s.readedSize ∧
      (s.availSize < off ∨ fin < s.availSize → x.1.availSize = s.availSize) := by
  cases sc with
  | covered =>
    rw [← Option.some.inj hw]
    exact ⟨h, rfl, fun _ => rfl⟩
  | head => cases hw
  | found pre g post =>
    obtain ⟨hsplit, hbefore⟩ := hsc pre g post rfl
    have hfirst : ∀ l, (pre ++ g :: l).head?.map Gap.off = some s.availSize := by
      intro l
      rw [HeadFirst, ← hsplit] at h
      cases pre with
      | nil => exact h
      | cons p pre => exact h
    obtain ⟨e, post', start, last, n, _, hstart, _, _, ⟨_, rfl⟩ | ⟨gs, first, rest, cs, err, hcut, hgs, _,
      rfl⟩⟩ := writeAt_found hw
    · refine ⟨?_, rfl, fun _ => rfl⟩
      show (pre ++ [g] ++ e.toList ++ post').head?.map Gap.off = _
      rw [List.append_assoc, List.append_assoc, List.singleton_append]
      exact hfirst _
    · refine ⟨rfl, rfl, fun hout => ?_⟩
      show first.off = s.availSize
      have hhead : (pre ++ gs ++ post').head?.map Gap.off = some first.off := by
        rw [hgs]
        rfl
      cases pre with
      | cons p pre =>
        have hp := (hfirst []).symm.trans hhead
        exact (Option.some.inj hp).symm
      | nil =>
        have hg : g.off = s.availSize := Option.some.inj (hfirst [])
        rw [gapStart, hg] at hbefore
        -- the fragment starts behind the first missing byte
        have hoff : s.availSize < off := by omega
        have hne : start ≠ gapStart g := by
          rw [hstart, gapStart, hg]
          omega
        have hc := cut_keeps_head hne hcut
        rw [hg] at hc
        cases gs with
        | nil => cases hc
        | cons c gs => exact (Option.some.inj (hhead.symm.trans hc))

/-- A write leaves `availSize` where it is unless the fragment holds the first missing byte. -/
theorem write_headFirst {mem : Alloc} {s : Sorter} {off len : Nat} {data : Nat → UInt8}
    {x : Sorter × Err} (h : HeadFirst s) (hw : write mem s off len data = some x) :
    HeadFirst x.1 ∧ x.1.readedSize = s.readedSize ∧
      (off + len < 2 ^ 64 → s.availSize < off ∨ off + len ≤ s.availSize →
        x.1.availSize = s.availSize) := by
  rw [write_eq_writeAt] at hw
  split at hw
  · rw [← Option.some.inj hw]
    exact ⟨h, rfl, fun _ _ => rfl⟩
  · rename_i hlen
    have hfin : off + len < 2 ^ 64 → sub64 (add64 off len) 1 = off + len - 1 :=
      sub64_add64_one hlen
    generalize sub64 (add64 off len) 1 = fin at hw hfin
    have hsc : ∀ pre g post, scanStart off fin [] s.gaps = .found pre g post →
        pre ++ g :: post = s.gaps ∧ gapStart g ≤ fin := fun pre g post hs => scanStart_split hs
    obtain ⟨h1, h2, h3⟩ := writeAt_headFirst h hsc hw
    refine ⟨h1, h2, fun hend hout => h3 ?_⟩
    rw [hfin hend]
    omega

/-! ## the state after a write -/

/-- the gap list is in form, and `availSize` is the offset of its first gap -/
structure Ordered (s : Sorter) : Prop where
  gaps : GapsOk s.gaps
  avail : s.gaps.head?.map Gap.off = some s.availSize

theorem Ordered.least {s : Sorter} (h : Ordered s) : IsLeast (cover (spans s.gaps)) s.availSize := by
  obtain ⟨hg, ha⟩ := h
  obtain ⟨gs, cs, av, rd⟩ := s
  cases gs with
  | nil => cases ha
  | cons g gs =>
    cases ha
    exact ⟨hg.sep.head_mem, fun x hx => hg.sep.head_le hx⟩

theorem Ordered.avail_lt {s : Sorter} (h : Ordered s) : s.availSize < maxSize := by
  obtain ⟨g, hg, h1, h2⟩ := mem_cover_spans.mp h.least.1
  have := h.gaps.within g hg
  omega

theorem ordered_init : Ordered init := by
  refine ⟨⟨?_, ?_, ?_⟩, rfl⟩
  · exact separated_cons.mpr ⟨by decide, by simp, separated_nil⟩
  · simp [init]
  · exact mem_cover_spans.mpr ⟨_, List.mem_cons_self, Nat.zero_le _, by decide⟩

/-- the first fragment is always taken -/
theorem write_init_isSome (mem : Alloc) {off len : Nat} (data : Nat → UInt8)
    (hend : off + len < maxSize) : (write mem init off len data).isSome := by
  by_cases hlen : len = 0
  · rw [write, if_pos hlen]
    rfl
  · have hmax := maxSize_lt
    have hg : Fits ⟨0, maxSize⟩ := ⟨by decide, by simp⟩
    have hend' : gapEnd ⟨0, maxSize⟩ = maxSize - 1 := by
      rw [gapEnd_fits hg]
      simp
    have hscan : scanStart off (off + len - 1) [] init.gaps = .found [] ⟨0, maxSize⟩ [] := by
      rw [init, scanStart, if_neg (by simp [gapStart]), if_pos ?_]
      rw [hend']
      exact ⟨by omega, by simp [gapStart]⟩
    have hwalk : scanEnd (off + len - 1) ⟨0, maxSize⟩ none [] = some (none, []) := by
      rw [scanEnd, Option.getD_none, hend', if_neg (by omega)]
    rw [write, if_neg hlen, sub64_add64_one hlen (by omega)]
    dsimp only
    rw [hscan]
    dsimp only
    rw [hwalk]
    dsimp only
    rw [Option.getD_none, hend', Nat.min_eq_left (by omega)]
    cases hcut : cut mem ⟨0, maxSize⟩ none (max off (gapStart ⟨0, maxSize⟩)) (off + len - 1) with
    | none => rfl
    | some gs =>
      cases gs with
      | cons g gs => rfl
      | nil =>
        rw [cut, Option.getD_none, hend'] at hcut
        split at hcut
        · dsimp only at hcut
          rw [if_pos (by omega)] at hcut
          cases hcut
        · rw [if_neg (by omega)] at hcut
          dsimp only at hcut
          split at hcut <;> cases hcut

/-! ### the list with the touched gaps replaced -/

section
variable {l pre ts post gs : List Gap} {a b : Nat}

theorem Parts.trimmed_subset (hp : Parts l pre ts post a b) (h : Trimmed ts gs a b) :
    cover (spans (pre ++ gs ++ post)) ⊆ cover (spans l) := by
  rintro x ⟨u, hu, h1, h2⟩
  rw [hp.eq]
  rw [spans_append, spans_append] at hu ⊢
  rcases List.mem_append.mp hu with hu | hu
  · rcases List.mem_append.mp hu with hu | hu
    · exact ⟨u, by simp [hu], h1, h2⟩
    · obtain ⟨t, ht, hlo, hhi⟩ := h.inside u hu
      exact ⟨t, by simp [ht], hlo.trans h1, h2.trans_le hhi⟩
  · exact ⟨u, by simp [hu], h1, h2⟩

theorem Parts.trimmed_keeps (hp : Parts l pre ts post a b) (h : Trimmed ts gs a b) :
    ∀ x ∈ cover (spans l), x < a ∨ b ≤ x → x ∈ cover (spans (pre ++ gs ++ post)) := by
  intro x hx hout
  rw [hp.eq, spans_append, spans_append, cover_append, cover_append] at hx
  rw [spans_append, spans_append, cover_append, cover_append]
  rcases hx with (hx | hx) | hx
  · exact Or.inl (Or.inl hx)
  · exact Or.inl (Or.inr (h.keeps x hx hout))
  · exact Or.inr hx

theorem Parts.trimmed_ok (hok : GapsOk l) (hp : Parts l pre ts post a b) (h : Trimmed ts gs a b)
    (hb : b < maxSize) : GapsOk (pre ++ gs ++ post) := by
  have hsep : Separated (spans (pre ++ gs ++ post)) := by
    have hl := hok.sep
    rw [hp.eq, spans_append, spans_append] at hl
    rw [spans_append, spans_append]
    exact hl.replace h.sep h.inside
  refine ⟨hsep, fun t ht => ?_, hp.trimmed_keeps h _ hok.final (Or.inr (by omega))⟩
  have hpos := hsep.pos t.span (List.mem_map_of_mem ht)
  simp only [Gap.span] at hpos
  have hin : t.off + t.len - 1 ∈ cover (spans (pre ++ gs ++ post)) :=
    mem_cover_spans.mpr ⟨t, ht, by omega, by omega⟩
  obtain ⟨v, hv, _, h2⟩ := mem_cover_spans.mp (hp.trimmed_subset h hin)
  have := hok.within v hv
  omega

/-- what is carved out of the touched gaps is carved out of the list -/
theorem Parts.carved (hok : GapsOk l) (hp : Parts l pre ts post a b) (hab : a < b)
    (h : spans gs = carve a b (spans ts)) : spans (pre ++ gs ++ post) = carve a b (spans l) := by
  have hsep := hok.sep
  obtain ⟨heq, hbefore, _, hafter⟩ := hp
  rw [heq, spans_append, spans_append] at hsep
  have hpre := (separated_append.mp (separated_append.mp hsep).1).1
  have hpost := (separated_append.mp hsep).2.1
  rw [heq, spans_append, spans_append, spans_append, spans_append, carve_append, carve_append,
    carve_before a b _ hpre.pos hab (List.forall_mem_map.mpr hbefore),
    carve_after a b _ hpost.pos hab (List.forall_mem_map.mpr hafter), h]

end

/-- How a write of `[off, off + len)` takes `s` to `s'`: it copies the bytes of
`[start, start + n)`, which holds every missing offset of the fragment. -/
structure Written (s s' : Sorter) (off len start n : Nat) : Prop where
  ordered : Ordered s'
  readed : s'.readedSize = s.readedSize
  lower : off ≤ start ∧ (0 < n → s.availSize ≤ start)
  upper : start + n ≤ off + len
  shrinks : cover (spans s'.gaps) ⊆ cover (spans s.gaps)
  keeps : ∀ x ∈ cover (spans s.gaps), x < off ∨ off + len ≤ x → x ∈ cover (spans s'.gaps)
  copies : ∀ x ∈ cover (spans s.gaps), off ≤ x → x < off + len → start ≤ x ∧ x < start + n
  clean : Clean off (off + len) (touched s.gaps off (off + len)) →
    spans s'.gaps = carve off (off + len) (spans s.gaps)

section
variable {s : Sorter} {off len : Nat}

theorem written_covered (hpos : 0 < len) (h : Ordered s) {pre post : List Gap}
    (hp : Parts s.gaps pre [] post off (off + len)) : Written s s off len off 0 := by
  have hfit := h.gaps.fits
  have hsep := h.gaps.sep
  have hout : ∀ x ∈ cover (spans s.gaps), ¬ (off ≤ x ∧ x < off + len) := by
    rintro x hx ⟨h1, h2⟩
    obtain ⟨t, ht, h3, h4⟩ := mem_cover_spans.mp hx
    rw [hp.eq, List.append_nil] at ht
    rcases List.mem_append.mp ht with ht | ht
    · have := hp.before t ht
      omega
    · have := hp.after t ht
      omega
  refine ⟨h, rfl, ⟨le_refl _, fun h => absurd h (lt_irrefl 0)⟩, by omega, Set.Subset.rfl,
    fun x hx _ => hx, fun x hx h1 h2 => absurd ⟨h1, h2⟩ (hout x hx), fun _ => ?_⟩
  have hcarved : spans (pre ++ [] ++ post) = carve off (off + len) (spans s.gaps) :=
    hp.carved h.gaps (by omega) rfl
  rwa [← hp.eq] at hcarved

/-- **A safe write.**  It never fails, and its effect on the gap list is `Written`. -/
theorem write_safe (data : Nat → UInt8) (hpos : 0 < len) (hend : off + len < maxSize)
    (h : Ordered s) (hsafe : Safe off (off + len) (touched s.gaps off (off + len))) :
    ∃ s' start n, Written s s' off len start n ∧
      write Alloc.ok s off len data = some (s', (writeCluster Alloc.ok n s.clusters start n
        fun i => data (i + (start - off))).2) ∧
      s'.clusters = (writeCluster Alloc.ok n s.clusters start n
        fun i => data (i + (start - off))).1 := by
  have hab : off < off + len := by omega
  have hok := h.gaps
  have hleast := h.least
  obtain ⟨pre, ts, post, hp⟩ := parts_exist hok off (off + len)
  rw [touched_parts hp] at hsafe
  cases ts with
  | nil => exact ⟨s, off, 0, written_covered hpos h hp, write_covered data hpos hend hok hp, rfl⟩
  | cons g ts =>
    have hsept := (hp.separated hok).1
    have hfit : ∀ t ∈ g :: ts, Fits t := fun t ht =>
      hok.fits t (hp.eq ▸ List.mem_append_left _ (List.mem_append_right _ ht))
    obtain ⟨gs, hcut, htrim, hclean⟩ := cut_safe hab hfit hsept hp.touched hsafe
    have hgmem : g ∈ s.gaps := hp.eq ▸ by simp
    -- the new list: between the old one and what the fragment leaves of it
    have hsub := hp.trimmed_subset htrim
    have hkeep := hp.trimmed_keeps htrim
    have hok' := hp.trimmed_ok hok htrim (by omega)
    have hcarved : Clean off (off + len) (g :: ts) →
        spans (pre ++ gs ++ post) = carve off (off + len) (spans s.gaps) :=
      fun hc => hp.carved hok hab (hclean hc)
    generalize hfr : pre ++ gs ++ post = gaps' at *
    cases gaps' with
    | nil =>
      obtain ⟨_, ht, _⟩ := hok'.final
      cases ht
    | cons first rest =>
      refine ⟨_, max off g.off, _, ?_, write_found data hpos hend hok hp hcut hfr rfl rfl, rfl⟩
      have hglo := (hp.touched g List.mem_cons_self)
      have hllo := (hp.touched _ (lastOf_mem g ts))
      have hgp := (hfit g List.mem_cons_self).1
      have hgm := lastOf_max hsept g List.mem_cons_self
      refine ⟨⟨hok', rfl⟩, rfl, ⟨le_max_left _ _, fun _ => ?_⟩, ?_, hsub, hkeep, ?_, ?_⟩
      · have : s.availSize ≤ g.off :=
          hleast.2 (mem_cover_spans.mpr ⟨g, hgmem, le_refl _, by omega⟩)
        exact this.trans (le_max_right _ _)
      · omega
      · intro x hx h1 h2
        have := hp.between hsept hx h1 h2
        omega
      · intro hc
        rw [touched_parts hp] at hc
        exact hcarved hc

end

end Sorter
end OpenQuic
