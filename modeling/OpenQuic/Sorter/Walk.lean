import OpenQuic.Sorter.Coverage
import OpenQuic.Sorter.Covered

/-!
# The two loops over the gap list

Neither loop of `write` looks for the end of the list: they rely on a last gap that covers the end of
every fragment.  That gap is there in every state that writes lead to, also where the lengths of other
gaps are not exact.

* `startVisits`, `endVisits`   the gaps whose bounds the loops read, in order;
* `Tail`               the bounds of the last gap; `write_tail` keeps them;
* `OnePass`            the loops stop at gaps of the list, and together pass over it at most once;
* `onePass_run`        **every call of every run is one pass.**
-/

namespace OpenQuic
open Word

namespace Sorter

/-- the gaps that the first loop reads -/
def startVisits (start fin : Nat) : List Gap → List Gap
  | [] => []
  | g :: post =>
    if fin < gapStart g then [g]
    else if start ≤ gapEnd g ∧ gapStart g ≤ fin then [g]
    else g :: startVisits start fin post

/-- the gaps that the second loop reads behind `start_gap` -/
def endVisits (fin : Nat) (startGap : Gap) (endGap : Option Gap) : List Gap → List Gap
  | [] => []
  | next :: post =>
    if gapEnd (endGap.getD startGap) < fin then
      if fin < gapStart next then [next] else next :: endVisits fin startGap (some next) post
    else []

theorem startVisits_prefix (a b : Nat) (gs : List Gap) : startVisits a b gs <+: gs := by
  induction gs with
  | nil => exact List.prefix_rfl
  | cons g gs ih =>
    rw [startVisits]
    split
    · exact List.prefix_append [g] gs
    · split
      · exact List.prefix_append [g] gs
      · exact List.cons_prefix_cons.mpr ⟨rfl, ih⟩

theorem endVisits_prefix (b : Nat) (g : Gap) (e : Option Gap) (post : List Gap) :
    endVisits b g e post <+: post := by
  induction post generalizing e with
  | nil => exact List.prefix_rfl
  | cons f post ih =>
    rw [endVisits]
    split
    · split
      · exact List.prefix_append [f] post
      · exact List.cons_prefix_cons.mpr ⟨rfl, ih (some f)⟩
    · exact List.nil_prefix

/-- a search that finds a gap has read the gaps up to it -/
theorem startVisits_found {a b : Nat} {pre gs pre' post : List Gap} {g : Gap}
    (h : scanStart a b pre gs = .found pre' g post) : pre ++ startVisits a b gs = pre' ++ [g] := by
  induction gs generalizing pre with
  | nil => cases h
  | cons f gs ih =>
    rw [scanStart] at h
    rw [startVisits]
    split at h
    · cases h
    · rename_i hgt
      rw [if_neg hgt]
      split at h
      · rename_i hin
        cases h
        rw [if_pos hin]
      · rename_i hout
        rw [if_neg hout, ← ih h, List.append_assoc]
        rfl

/-! ## the last gap -/

/-- a gap that covers the end of every fragment, and whose own end is a 64-bit number -/
structure Tail (l : Gap) : Prop where
  off : l.off < maxSize
  len : l.len ≤ maxSize
  fin : maxSize ≤ l.off + l.len

def EndsInTail (gs : List Gap) : Prop := ∃ us l, gs = us ++ [l] ∧ Tail l

theorem gapEnd_tail {l : Gap} (h : Tail l) : gapEnd l = l.off + l.len - 1 := by
  have hmax := maxSize_lt
  have hoff := h.off
  have hlen := h.len
  have hfin := h.fin
  unfold gapEnd
  rw [add64_of_lt (by omega), sub64_of_le (by unfold maxSize at hfin; omega) (by omega)]

theorem EndsInTail.append {gs : List Gap} (h : EndsInTail gs) (us : List Gap) :
    EndsInTail (us ++ gs) := by
  obtain ⟨vs, l, rfl, hl⟩ := h
  exact ⟨us ++ vs, l, (List.append_assoc us vs [l]).symm, hl⟩

theorem EndsInTail.of_append {us gs : List Gap} (h : EndsInTail (us ++ gs)) (hgs : gs ≠ []) :
    EndsInTail gs := by
  obtain ⟨vs, l, heq, hl⟩ := h
  obtain ⟨ws, m, rfl⟩ := (List.eq_nil_or_concat' gs).resolve_left hgs
  rw [← List.append_assoc] at heq
  obtain rfl : m = l := List.singleton_inj.mp (List.append_inj_right' heq rfl)
  exact ⟨ws, m, rfl, hl⟩

/-- what is behind a gap that is not the last one -/
theorem EndsInTail.behind {g : Gap} {gs : List Gap} (h : EndsInTail (g :: gs)) (hgs : gs ≠ []) :
    EndsInTail gs :=
  EndsInTail.of_append (show EndsInTail ([g] ++ gs) from h) hgs

theorem EndsInTail.of_singleton {l : Gap} (h : EndsInTail [l]) : Tail l := by
  obtain ⟨us, m, heq, hm⟩ := h
  obtain rfl : l = m :=
    List.singleton_inj.mp (List.append_inj_right' (show [] ++ [l] = us ++ [m] from heq) rfl)
  exact hm

theorem EndsInTail.getLast {gs : List Gap} (h : EndsInTail gs) :
    ∃ l, gs.getLast? = some l ∧ maxSize - 1 ≤ gapEnd l := by
  obtain ⟨us, l, rfl, hl⟩ := h
  refine ⟨l, List.getLast?_concat, ?_⟩
  have := hl.fin
  rw [gapEnd_tail hl]
  omega

/-! ## the loops stop -/

theorem scanStart_stops {a b : Nat} (hab : a ≤ b) (hb : b + 1 < maxSize) {gs : List Gap}
    (h : EndsInTail gs) (pre : List Gap) : scanStart a b pre gs ≠ .head := by
  induction gs generalizing pre with
  | nil =>
    obtain ⟨us, l, heq, _⟩ := h
    cases us <;> cases heq
  | cons g gs ih =>
    rw [scanStart]
    split
    · exact fun heq => by cases heq
    · rename_i hgt
      split
      · exact fun heq => by cases heq
      · rename_i hout
        refine ih (h.behind fun hnil => hout ?_) _
        subst hnil
        have hg := h.of_singleton
        have := hg.fin
        rw [gapEnd_tail hg]
        omega

theorem scanEnd_stops {b : Nat} (hb : b + 1 < maxSize) {g : Gap} {e : Option Gap} {post : List Gap}
    (h : EndsInTail (e.getD g :: post)) : ∃ x, scanEnd b g e post = some x := by
  induction post generalizing e with
  | nil =>
    have hl := h.of_singleton
    have := hl.fin
    rw [scanEnd, if_neg (by rw [gapEnd_tail hl]; omega)]
    exact ⟨_, rfl⟩
  | cons f post ih =>
    rw [scanEnd]
    split
    · split
      · exact ⟨_, rfl⟩
      · exact ih (h.behind (List.cons_ne_nil f post))
    · exact ⟨_, rfl⟩

/-- the second loop goes on only to a gap that starts within the fragment -/
theorem scanEnd_within {b : Nat} {g : Gap} {e e' : Option Gap} {post post' : List Gap}
    (hs : gapStart (e.getD g) ≤ b) (h : scanEnd b g e post = some (e', post')) :
    gapStart (e'.getD g) ≤ b := by
  induction post generalizing e with
  | nil =>
    rw [scanEnd] at h
    split at h
    · cases h
    · cases h
      exact hs
  | cons f post ih =>
    rw [scanEnd] at h
    split at h
    · split at h
      · cases h
        exact hs
      · rename_i hgt
        exact ih (e := some f) (Nat.le_of_not_lt hgt) h
    · cases h
      exact hs

/-! ## what a write leaves -/

/-- The last gap gives up what is in front of the end of the fragment.  Its start moves, and its length
does not grow. -/
theorem cut_last {g : Gap} {e : Option Gap} {start fin : Nat} {gs : List Gap} (hl : Tail (e.getD g))
    (hs : gapStart (e.getD g) ≤ fin) (hfin : fin + 1 < maxSize)
    (h : cut .ok g e start (min fin (gapEnd (e.getD g))) = some gs) : EndsInTail gs := by
  have hmax := maxSize_lt
  have hoff := hl.off
  have hlen := hl.len
  have hend := hl.fin
  have hgap := gapEnd_tail hl
  unfold gapStart at hs
  rw [Nat.min_eq_left (by omega)] at h
  have hlt : fin < gapEnd (e.getD g) := by omega
  have hadd : add64 fin 1 = fin + 1 := add64_of_lt (by omega)
  have htrimmed : Tail ⟨add64 fin 1, sub64 (gapEnd (e.getD g)) fin⟩ := by
    rw [hadd, sub64_of_le hlt.le (by omega)]
    exact ⟨hfin, by dsimp only; omega, by dsimp only; omega⟩
  cases e with
  | none =>
    rw [cut] at h
    dsimp only [Option.getD_none] at *
    split at h
    · exact ⟨[], _, (Option.some.inj h).symm, htrimmed⟩
    · rw [if_neg (by omega), if_pos (show Alloc.ok.gap = true from rfl)] at h
      refine ⟨[_], _, (Option.some.inj h).symm, ?_⟩
      rw [hadd, sub64_of_le (by omega) (by omega), add64_of_lt (by omega)]
      exact ⟨hfin, by dsimp only; omega, by dsimp only; omega⟩
  | some l =>
    rw [cut] at h
    dsimp only [Option.getD_some] at *
    split at h
    · exact ⟨_, _, (Option.some.inj h).symm, htrimmed⟩
    · rw [if_neg (by omega)] at h
      refine ⟨[_], _, (Option.some.inj h).symm, ?_⟩
      rw [hadd]
      exact ⟨hfin, hlen, by dsimp only; omega⟩

/-- **A write keeps the last gap.** -/
theorem write_tail {s : Sorter} (hs : EndsInTail s.gaps) {off len : Nat} (data : Nat → UInt8)
    (hfit : off + len < maxSize) :
    ∃ x, write .ok s off len data = some x ∧ EndsInTail x.1.gaps := by
  rw [write_eq_writeAt]
  split
  · exact ⟨_, rfl, hs⟩
  · rename_i hlen
    have hmax := maxSize_lt
    rw [sub64_add64_one hlen (by omega)]
    have hhead := scanStart_stops (a := off) (b := off + len - 1) (by omega) (by omega) hs []
    cases hsc : scanStart off (off + len - 1) [] s.gaps with
    | head => exact absurd hsc hhead
    | covered => exact ⟨_, rfl, hs⟩
    | found pre g post =>
      obtain ⟨hgaps, hstart⟩ := scanStart_split hsc
      rw [List.nil_append] at hgaps
      rw [← hgaps] at hs
      have hback : EndsInTail (g :: post) := hs.of_append (List.cons_ne_nil g post)
      obtain ⟨⟨e, post'⟩, he⟩ := scanEnd_stops (b := off + len - 1) (by omega) (e := none) hback
      have hwithin := scanEnd_within (e := none) hstart he
      -- the list from the gap on that the walk has got to
      have hrest : EndsInTail (e.getD g :: post') := by
        obtain ⟨rfl, rfl⟩ | ⟨l, us, rfl, rfl, _⟩ := scanEnd_split he
        · exact hback
        · exact (hback.behind (List.append_ne_nil_of_right_ne_nil us (List.cons_ne_nil l post'))).of_append
            (List.cons_ne_nil l post')
      obtain ⟨gs, hgs⟩ := cut_isSome (show Alloc.ok.gap = true from rfl) g e (max off (gapStart g))
        (min (off + len - 1) (gapEnd (e.getD g)))
      have hcut : EndsInTail (gs ++ post') := by
        rcases post' with _ | ⟨f, post'⟩
        · rw [List.append_nil]
          exact cut_last hrest.of_singleton hwithin (by omega) hgs
        · exact (hrest.behind (List.cons_ne_nil f post')).append gs
      have hnew : EndsInTail (pre ++ gs ++ post') := by
        rw [List.append_assoc]
        exact hcut.append pre
      unfold writeAt
      dsimp only
      rw [he]
      dsimp only
      rw [hgs]
      dsimp only
      generalize pre ++ gs ++ post' = all at hnew ⊢
      cases all with
      | nil =>
        obtain ⟨us, l, heq, _⟩ := hnew
        cases us <;> cases heq
      | cons first rest => exact ⟨_, rfl, hnew⟩

/-! ## runs -/

/-- The loops of a call that covers the offsets from `off` to `fin`: `start_gap` and `end_gap` are gaps
of the list where they stop, and the gaps that they read, in order, are the first ones of the list. -/
structure OnePass (gs : List Gap) (off fin : Nat) : Prop where
  stops : scanStart off fin [] gs ≠ .head
  visits : startVisits off fin gs <+: gs
  goesOn : ∀ pre g post, scanStart off fin [] gs = .found pre g post →
    g ∈ gs ∧ startVisits off fin gs ++ endVisits fin g none post <+: gs ∧
      ∃ e post', scanEnd fin g none post = some (e, post') ∧ ∀ l, e = some l → l ∈ gs

theorem EndsInTail.onePass {gs : List Gap} (h : EndsInTail gs) {off fin : Nat} (hle : off ≤ fin)
    (hfin : fin + 1 < maxSize) : OnePass gs off fin := by
  refine ⟨scanStart_stops hle hfin h [], startVisits_prefix off fin gs, fun pre g post hsc => ?_⟩
  obtain ⟨hgs, _⟩ := scanStart_split hsc
  have hread := startVisits_found hsc
  rw [List.nil_append] at hgs hread
  subst hgs
  refine ⟨List.mem_append_right pre List.mem_cons_self, ?_, ?_⟩
  · rw [hread, List.append_assoc]
    exact (List.prefix_append_right_inj pre).mpr
      (List.cons_prefix_cons.mpr ⟨rfl, endVisits_prefix fin g none post⟩)
  · obtain ⟨⟨e, post'⟩, he⟩ := scanEnd_stops hfin (e := none)
      (h.of_append (List.cons_ne_nil g post))
    refine ⟨e, post', he, fun l hl => ?_⟩
    obtain ⟨rfl, rfl⟩ | ⟨m, us, rfl, rfl, _⟩ := scanEnd_split he
    · cases hl
    · cases hl
      simp

theorem endsInTail_init : EndsInTail init.gaps :=
  ⟨[], _, rfl, by decide, le_rfl, Nat.le_add_left _ _⟩

/-- **One pass.**  In every state of a run the gap list has a last gap that ends at the maximum or
behind it, and the loops of the next call stop at gaps, after one pass over the list at most. -/
theorem onePass_run (fs : List Fragment) (hfit : ∀ f ∈ fs, f.Fits) :
    ∀ past, past <+: fs → ∃ s, Runs.run Fragment.step init past = some s ∧
      (∃ l, s.gaps.getLast? = some l ∧ maxSize - 1 ≤ gapEnd l) ∧
      ∀ f, past ++ [f] <+: fs → 0 < f.len →
        OnePass s.gaps f.off (sub64 (add64 f.off f.len) 1) := by
  rintro past hpast
  have hgood : Runs.Along Fragment.step (fun _ f => f.Fits) init past :=
    Runs.Along.of_mem Fragment.step fun f hf => hfit f (hpast.subset hf)
  have hstep : ∀ (before : List Fragment) (s : Sorter) (f : Fragment), EndsInTail s.gaps → f.Fits →
      ∃ s', f.step s = some s' ∧ EndsInTail s'.gaps := by
    intro _ s f hs hf
    obtain ⟨x, hx, hx'⟩ := write_tail hs f.data (Fragment_end hf)
    exact ⟨x.1, by rw [Fragment.step, hx, Option.map_some], hx'⟩
  obtain ⟨s, hs, htail⟩ := Runs.run_inv endsInTail_init hstep past hgood
  refine ⟨s, hs, htail.getLast, fun f hf hpos => ?_⟩
  have hlt := Fragment_end (hfit f (hf.subset (by simp)))
  have hmax := maxSize_lt
  rw [add64_of_lt (by omega), sub64_of_le (by omega) (by omega)]
  exact htail.onePass (by omega) (by omega)

/-- the third fragment moves the start of the second gap and not its end -/
def inexact : List Fragment :=
  [⟨5, 5, fun _ => 0⟩, ⟨15, 1, fun _ => 0⟩, ⟨2, 12, fun _ => 0⟩, ⟨14, 4, fun _ => 0⟩]

theorem onePass_run_inexact : (∀ f ∈ inexact, f.Fits) ∧
    ∀ past, past <+: inexact → ∃ s, Runs.run Fragment.step init past = some s ∧
      (∃ l, s.gaps.getLast? = some l ∧ maxSize - 1 ≤ gapEnd l) ∧
      ∀ f, past ++ [f] <+: inexact → 0 < f.len →
        OnePass s.gaps f.off (sub64 (add64 f.off f.len) 1) :=
  ⟨by decide, onePass_run inexact (by decide)⟩

example : (Runs.run Fragment.step init (inexact.take 3)).map gaps =
    some [⟨0, 2⟩, ⟨14, 5⟩, ⟨16, maxSize - 16⟩] := by decide +kernel

end Sorter

end OpenQuic
