import OpenQuic.Modules.AckGenerator
import OpenQuic.Modules.AckSpans
import OpenQuic.Lib.Runs

/-!
# From received numbers to acknowledged packets

The ranges of the ACK generator after any numbers have been received, and what the peer does with
the frame that is made of them.

* `RangesOk`, `Held`         the ranges are apart from each other, and the numbers in them;
* `insertRanges_spec`        an insertion keeps that and adds one number; the merge that would go
                             on with a freed range is not reached;
* `received_inv`             the generator holds exactly the numbers that were received;
* `makeFrame_spans`          its frame is well-formed and names its ranges;
* `LowestRun`                the numbers of the last range of the frame;
* `acked_exactly_iff`        when the acknowledgement pass removes what the frame says.
-/

set_option linter.unusedSimpArgs false

namespace OpenQuic
open Word

namespace AckGenerator

/-! ## ranges -/

structure RangesOk (l : List AckGenRange) : Prop where
  each : ∀ r ∈ l, r.start ≤ r.stop ∧ r.stop < 2 ^ 32
  apart : l.Pairwise fun a b => a.stop + 1 < b.start

def Held (l : List AckGenRange) (n : Nat) : Prop := ∃ r ∈ l, r.start ≤ n ∧ n ≤ r.stop

theorem held_nil (n : Nat) : ¬ Held [] n := by
  rintro ⟨r, hr, _⟩
  cases hr

theorem held_cons (r : AckGenRange) (l : List AckGenRange) (n : Nat) :
    Held (r :: l) n ↔ (r.start ≤ n ∧ n ≤ r.stop) ∨ Held l n := by
  simp only [Held, List.exists_mem_cons_iff]

theorem rangesOk_cons {r : AckGenRange} {l : List AckGenRange} :
    RangesOk (r :: l) ↔ (r.start ≤ r.stop ∧ r.stop < 2 ^ 32) ∧
      (∀ q ∈ l, r.stop + 1 < q.start) ∧ RangesOk l := by
  constructor
  · rintro ⟨he, ha⟩
    obtain ⟨h1, h2⟩ := List.pairwise_cons.mp ha
    exact ⟨he r List.mem_cons_self, h1, fun q hq => he q (List.mem_cons_of_mem _ hq), h2⟩
  · rintro ⟨hr, h1, h2, h3⟩
    exact ⟨List.forall_mem_cons.mpr ⟨hr, h2⟩, List.pairwise_cons.mpr ⟨h1, h3⟩⟩

/-- there is room for half of the numbers only -/
theorem rangesOk_length {l : List AckGenRange} (h : RangesOk l) (b : Nat) (hb : b ≤ 2 ^ 32 + 1)
    (hl : ∀ r ∈ l, b ≤ r.start) : b + 2 * l.length ≤ 2 ^ 32 + 1 := by
  induction l generalizing b with
  | nil => exact hb
  | cons r l ih =>
    obtain ⟨hr, hap, hok⟩ := rangesOk_cons.mp h
    have hrb := hl r List.mem_cons_self
    have := ih hok (r.stop + 2) (by omega) fun q hq => by have := hap q hq; omega
    rw [List.length_cons]
    omega

/-! ## an insertion -/

theorem extend_spec {r : AckGenRange} {num : Nat} (hr : r.start ≤ r.stop ∧ r.stop < 2 ^ 32)
    (hn : num < 2 ^ 32) (hno : ¬ (r.start ≤ num ∧ num ≤ r.stop)) :
    (r.stop + 1 = num ∧ extend num r = some ⟨r.start, num⟩) ∨
      (r.start = num + 1 ∧ extend num r = some ⟨num, r.stop⟩) ∨
      (extend num r = none ∧ (num + 1 < r.start ∨ r.stop + 1 < num)) := by
  have hadd : add64 r.stop 1 = r.stop + 1 := add64_of_lt (by omega)
  rw [extend, hadd]
  by_cases h1 : r.stop + 1 = num
  · exact Or.inl ⟨h1, by rw [if_pos h1, ← h1]⟩
  · rw [if_neg h1]
    rcases Nat.eq_zero_or_pos r.start with h0 | hpos
    · have hsub : sub64 r.start 1 = r.start + 2 ^ 64 - 1 := sub64_of_lt (by omega) (by decide)
      rw [hsub, if_neg (by omega)]
      exact Or.inr (Or.inr ⟨rfl, by omega⟩)
    · have hsub : sub64 r.start 1 = r.start - 1 := sub64_of_le hpos (by omega)
      rw [hsub]
      by_cases h2 : r.start - 1 = num
      · exact Or.inr (Or.inl ⟨by omega, by rw [if_pos h2, h2]⟩)
      · rw [if_neg h2]
        exact Or.inr (Or.inr ⟨rfl, by omega⟩)

/-- a range that has grown by the number, on one side or the other -/
theorem extend_grows {r r' : AckGenRange} {num : Nat} {l : List AckGenRange}
    (hr : r.start ≤ r.stop ∧ r.stop < 2 ^ 32) (hn : num < 2 ^ 32)
    (hno : ¬ (r.start ≤ num ∧ num ≤ r.stop)) (hap : ∀ q ∈ l, r.stop + 1 < q.start)
    (h : extend num r = some r') :
    (r'.start ≤ r'.stop ∧ r'.stop < 2 ^ 32) ∧ (∀ q ∈ l, r'.stop < q.start) ∧
      (r'.start = num ∨ r'.start = r.start) ∧
      ∀ n, (r'.start ≤ n ∧ n ≤ r'.stop) ↔ n = num ∨ (r.start ≤ n ∧ n ≤ r.stop) := by
  rcases extend_spec hr hn hno with ⟨he, hx⟩ | ⟨he, hx⟩ | ⟨hx, _⟩
  · obtain rfl := Option.some.inj (hx.symm.trans h)
    dsimp only
    refine ⟨⟨by omega, hn⟩, fun q hq => ?_, Or.inr rfl, fun n => by omega⟩
    have := hap q hq
    omega
  · obtain rfl := Option.some.inj (hx.symm.trans h)
    dsimp only
    refine ⟨⟨by omega, hr.2⟩, fun q hq => ?_, Or.inl rfl, fun n => by omega⟩
    have := hap q hq
    omega
  · rw [hx] at h
    cases h

/-- a number that no side takes in lies apart from the range -/
theorem extend_apart {r : AckGenRange} {num : Nat} (hr : r.start ≤ r.stop ∧ r.stop < 2 ^ 32)
    (hn : num < 2 ^ 32) (hno : ¬ (r.start ≤ num ∧ num ≤ r.stop)) (h : extend num r = none) :
    num + 1 < r.start ∨ r.stop + 1 < num := by
  rcases extend_spec hr hn hno with ⟨_, hx⟩ | ⟨_, hx⟩ | ⟨_, hapart⟩
  · cases hx.symm.trans h
  · cases hx.symm.trans h
  · exact hapart

/-- a range that has grown up to the next one swallows it -/
theorem mergeNext_spec {r : AckGenRange} {l : List AckGenRange}
    (hr : r.start ≤ r.stop ∧ r.stop < 2 ^ 32) (hl : RangesOk l) (hap : ∀ q ∈ l, r.stop < q.start) :
    RangesOk (mergeNext r l).1 ∧
      (∀ n, Held (mergeNext r l).1 n ↔ (r.start ≤ n ∧ n ≤ r.stop) ∨ Held l n) ∧
      (mergeNext r l).1.length + (mergeNext r l).2 = l.length + 1 ∧ (mergeNext r l).2 ≤ l.length ∧
      ∀ b, b < r.start → ∀ q ∈ (mergeNext r l).1, b < q.start := by
  cases l with
  | nil =>
    refine ⟨rangesOk_cons.mpr ⟨hr, List.forall_mem_nil _, hl⟩, fun n => held_cons r [] n, rfl,
      Nat.le_refl _, ?_⟩
    intro b hb q hq
    rw [List.mem_singleton.mp hq]
    exact hb
  | cons q qs =>
    obtain ⟨hq, hqs, hok⟩ := rangesOk_cons.mp hl
    have hrq := hap q List.mem_cons_self
    have hsub : sub64 q.start 1 = q.start - 1 := sub64_of_le (by omega) (by omega)
    rw [mergeNext, hsub]
    split
    · rename_i hadj
      refine ⟨rangesOk_cons.mpr ⟨⟨?_, hq.2⟩, hqs, hok⟩, fun n => ?_, rfl, ?_, ?_⟩
      · show r.start ≤ q.stop
        omega
      · rw [held_cons, held_cons, ← or_assoc]
        refine or_congr_left ?_
        dsimp only
        omega
      · rw [List.length_cons]
        omega
      · intro b hb x hx
        rcases List.mem_cons.mp hx with rfl | hx
        · exact hb
        · have := hqs x hx
          omega
    · rename_i hadj
      refine ⟨rangesOk_cons.mpr ⟨hr, List.forall_mem_cons.mpr ⟨by omega, fun x hx => ?_⟩, hl⟩,
        fun n => held_cons r _ n, rfl, Nat.zero_le _, ?_⟩
      · have := hqs x hx
        omega
      · intro b hb x hx
        rcases List.mem_cons.mp hx with rfl | hx
        · exact hb
        · have := hap x hx
          omega

/-- what an insertion into the rest of the list leaves; `b` bounds the ranges from below -/
structure Inserted (num count : Nat) (l l' : List AckGenRange) (count' : Nat) : Prop where
  ok : RangesOk l'
  held : ∀ n, Held l' n ↔ n = num ∨ Held l n
  count : count' + l.length = count + l'.length
  above : ∀ b, b < num → (∀ r ∈ l, b < r.start) → ∀ r ∈ l', b < r.start

/-- the number is there already -/
theorem Inserted.same {num count : Nat} {l : List AckGenRange} (hok : RangesOk l)
    (h : Held l num) : Inserted num count l l count where
  ok := hok
  held := by
    intro n
    constructor
    · exact Or.inr
    · rintro (rfl | hn)
      · exact h
      · exact hn
  count := rfl
  above := fun _ _ hl => hl

/-- a new range in front of the others -/
theorem Inserted.front {num : Nat} (count : Nat) {l : List AckGenRange} (hn : num < 2 ^ 32)
    (hok : RangesOk l) (hlow : ∀ r ∈ l, num + 1 < r.start) :
    Inserted num count l (⟨num, num⟩ :: l) (count + 1) where
  ok := rangesOk_cons.mpr ⟨⟨Nat.le_refl _, hn⟩, hlow, hok⟩
  held := by
    intro n
    rw [held_cons]
    dsimp only
    exact or_congr_left (by omega)
  count := by
    rw [List.length_cons]
    omega
  above := by
    intro b hb hl
    exact List.forall_mem_cons.mpr ⟨hb, hl⟩

/-- the range takes the number in, and the next range if it grows up to it -/
theorem Inserted.grown {num count : Nat} {r r' : AckGenRange} {l : List AckGenRange}
    (hn : num < 2 ^ 32) (hcount : count < 2 ^ 32) (hlen : l.length < count)
    (hok : RangesOk (r :: l)) (hno : ¬ (r.start ≤ num ∧ num ≤ r.stop))
    (h : extend num r = some r') :
    Inserted num count (r :: l) (mergeNext r' l).1 (sub32 count (mergeNext r' l).2) := by
  obtain ⟨hr, hap, hl⟩ := rangesOk_cons.mp hok
  obtain ⟨hr', hap', hstart, hnum⟩ := extend_grows hr hn hno hap h
  obtain ⟨hok', hheld, hlength, hle, habove⟩ := mergeNext_spec hr' hl hap'
  rw [sub32_of_le (by omega) hcount]
  refine ⟨hok', fun n => ?_, ?_, fun b hb hbl => ?_⟩
  · rw [hheld, held_cons, hnum, or_assoc]
  · rw [List.length_cons]
    omega
  · have hbr := hbl r List.mem_cons_self
    exact habove b (by omega)

/-- a range in front of the place of insertion stays -/
theorem Inserted.behind {num count count' : Nat} {r : AckGenRange} {l l' : List AckGenRange}
    (h : Inserted num count l l' count') (hok : RangesOk (r :: l)) (hhi : r.stop + 1 < num) :
    Inserted num count (r :: l) (r :: l') count' := by
  obtain ⟨hr, hap, _⟩ := rangesOk_cons.mp hok
  refine ⟨rangesOk_cons.mpr ⟨hr, h.above _ hhi hap, h.ok⟩, fun n => ?_, ?_, fun b hb hbl => ?_⟩
  · rw [held_cons, held_cons, h.held]
    exact or_left_comm
  · have hcount := h.count
    rw [List.length_cons, List.length_cons]
    omega
  · obtain ⟨hbr, hbl⟩ := List.forall_mem_cons.mp hbl
    exact List.forall_mem_cons.mpr ⟨hbr, h.above b hb hbl⟩

/-- the range before a range that grows ends too far below to be met -/
theorem any_prev_eq_false {num start start' : Nat} {prev : Option AckGenRange}
    (hn : num < 2 ^ 32) (hprev : ∀ p, prev = some p → p.stop + 1 < num ∧ p.stop + 1 < start)
    (hs : start' = num ∨ start' = start) :
    prev.any (fun p => add64 p.stop 1 = start') = false := by
  cases prev with
  | none => rfl
  | some p =>
    obtain ⟨h1, h2⟩ := hprev p rfl
    rw [Option.any_some, decide_eq_false_iff_not, add64_of_lt (by omega)]
    omega

theorem insertRanges_spec {num : Nat} (count : Nat) (hn : num < 2 ^ 32) (hlt : count + 1 < 2 ^ 32)
    (prev : Option AckGenRange) (l : List AckGenRange) (hok : RangesOk l) (hlen : l.length ≤ count)
    (hprev : ∀ p, prev = some p → p.stop + 1 < num ∧ ∀ r ∈ l, p.stop + 1 < r.start) :
    ∃ new l' count', insertRanges true num count prev l = some (new, l', count') ∧
      Inserted num count l l' count' := by
  induction l generalizing prev with
  | nil =>
    refine ⟨true, [⟨num, num⟩], count + 1, ?_, .front count hn hok (List.forall_mem_nil _)⟩
    rw [insertRanges, if_pos rfl, add32_of_lt hlt]
  | cons r l ih =>
    obtain ⟨hr, hap, hl⟩ := rangesOk_cons.mp hok
    rw [List.length_cons] at hlen
    rw [insertRanges]
    by_cases hin : r.start ≤ num ∧ num ≤ r.stop
    · rw [if_pos hin]
      exact ⟨false, r :: l, count, rfl, .same hok ((held_cons r l num).mpr (Or.inl hin))⟩
    · rw [if_neg hin]
      cases hext : extend num r with
      | some r' =>
        obtain ⟨_, _, hs, _⟩ := extend_grows hr hn hin hap hext
        have hfar : ∀ p, prev = some p → p.stop + 1 < num ∧ p.stop + 1 < r.start := fun p hp =>
          ⟨(hprev p hp).1, (hprev p hp).2 r List.mem_cons_self⟩
        dsimp only
        rw [any_prev_eq_false hn hfar hs, if_neg Bool.false_ne_true]
        exact ⟨_, _, _, rfl, .grown hn (by omega) hlen hok hin hext⟩
      | none =>
        have hapart := extend_apart hr hn hin hext
        dsimp only
        by_cases hlow : num < r.start
        · rw [if_pos hlow, if_pos rfl, add32_of_lt hlt]
          refine ⟨true, ⟨num, num⟩ :: r :: l, count + 1, rfl, .front count hn hok ?_⟩
          refine List.forall_mem_cons.mpr ⟨by omega, fun q hq => ?_⟩
          have := hap q hq
          omega
        · rw [if_neg hlow]
          have hhi : r.stop + 1 < num := by omega
          obtain ⟨new, l', count', h1, h2⟩ := ih (some r) hl (by omega) fun p hp => by
            cases hp
            exact ⟨hhi, hap⟩
          refine ⟨new, r :: l', count', ?_, h2.behind hok hhi⟩
          rw [h1]
          rfl

/-! ## received numbers -/

/-- a packet that is received; its number has four bytes at most -/
structure Received where
  num : Nat
  recvTime : Time
  shouldAck : Bool

def Received.step (g : AckGenerator) (e : Received) : Option AckGenerator :=
  received g true e.num e.recvTime e.shouldAck

/-- the generator of a packet number space that holds exactly the numbers received so far -/
structure Holds (past : List Received) (g : AckGenerator) : Prop where
  ok : RangesOk g.ranges
  count : g.rangesCount = g.ranges.length
  held : ∀ n, Held g.ranges n ↔ n ∈ past.map Received.num
  live : g.dropped = false
  noThrehold : g.ignoreThrehold = 0

theorem holds_init : Holds [] init :=
  ⟨⟨List.forall_mem_nil _, List.Pairwise.nil⟩, rfl,
    fun n => iff_of_false (held_nil n) List.not_mem_nil, rfl, rfl⟩

theorem received_inv {past : List Received} {g : AckGenerator} {e : Received} (h : Holds past g)
    (hn : e.num < 2 ^ 32) : ∃ g', Received.step g e = some g' ∧ Holds (past ++ [e]) g' := by
  have hlen := rangesOk_length h.ok 0 (by omega) fun r _ => Nat.zero_le _
  obtain ⟨new, l', count', h1, h2⟩ := insertRanges_spec g.rangesCount hn
    (by rw [h.count]; omega) none g.ranges h.ok (by rw [h.count]) fun p hp => by cases hp
  have hc := h2.count
  have hheld : ∀ n, Held l' n ↔ n ∈ (past ++ [e]).map Received.num := by
    intro n
    rw [h2.held, h.held, List.map_append, List.mem_append, or_comm]
    simp
  rw [Received.step, received, if_neg (by rw [h.live, h.noThrehold]; simp)]
  dsimp only
  split
  · rw [h1]
    exact ⟨_, rfl, h2.ok, by dsimp only; rw [h.count] at hc; omega, hheld, h.live, h.noThrehold⟩
  · rw [h1]
    exact ⟨_, rfl, h2.ok, by dsimp only; rw [h.count] at hc; omega, hheld, h.live, h.noThrehold⟩

theorem run_holds (es : List Received) (h : ∀ e ∈ es, e.num < 2 ^ 32) :
    ∃ g, Runs.run Received.step init es = some g ∧ Holds es g := by
  have hgood : Runs.Along Received.step (fun _ e => e.num < 2 ^ 32) init es := Runs.Along.of_mem _ h
  exact Runs.run_inv holds_init (fun _ _ _ hi hg => received_inv hi hg) es hgood

/-! ## the frame -/

open Recovery in
theorem addRanges_spec (smallest : Nat) {l : List AckGenRange} (hs : smallest < 2 ^ 32)
    (hl : ∀ r ∈ l, r.start ≤ r.stop ∧ r.stop + 1 < smallest)
    (hap : l.Pairwise fun a b => b.stop + 1 < a.start) :
    RangesFit smallest (addRanges smallest l) ∧
      decode smallest (addRanges smallest l) = l.map fun r => (r.start, r.stop) := by
  induction l generalizing smallest with
  | nil => exact ⟨trivial, rfl⟩
  | cons r l ih =>
    obtain ⟨hr, hrs⟩ := hl r List.mem_cons_self
    obtain ⟨h1, h2⟩ := List.pairwise_cons.mp hap
    obtain ⟨ih1, ih2⟩ := ih r.start (by omega) (fun q hq =>
      ⟨(hl q (List.mem_cons_of_mem _ hq)).1, h1 q hq⟩) h2
    have hgap : sub64 (sub64 smallest r.stop) 2 = smallest - r.stop - 2 := by
      have h1 : sub64 smallest r.stop = smallest - r.stop := sub64_of_le (by omega) (by omega)
      rw [h1]
      exact sub64_of_le (by omega) (by omega)
    have hlen : sub64 r.stop r.start = r.stop - r.start := sub64_of_le hr (by omega)
    have hstop : smallest - (smallest - r.stop - 2) - 2 = r.stop := by omega
    have hstart : r.stop - (r.stop - r.start) = r.start := by omega
    rw [addRanges, RangesFit, decode, hgap, hlen]
    dsimp only
    rw [hstop, hstart]
    exact ⟨⟨by omega, ih1⟩, by rw [ih2, List.map_cons]⟩

theorem length_addRanges (smallest : Nat) (l : List AckGenRange) :
    (addRanges smallest l).length = l.length := by
  induction l generalizing smallest with
  | nil => rfl
  | cons r l ih => rw [addRanges, List.length_cons, List.length_cons, ih]

open Recovery in
/-- the frame names the ranges of the generator, the highest first -/
theorem makeFrame_spans {past : List Received} {g : AckGenerator} (h : Holds past g) (now : Time)
    {top : AckGenRange} {below : List AckGenRange} (hrev : g.ranges.reverse = top :: below) :
    WellFormed (makeFrame g now top below) ∧
      ackedSpans (makeFrame g now top below) = (top :: below).map fun r => (r.start, r.stop) := by
  have hpair : (top :: below).Pairwise fun a b => b.stop + 1 < a.start := by
    rw [← hrev, List.pairwise_reverse]
    exact h.ok.apart
  have heach : ∀ r ∈ top :: below, r.start ≤ r.stop ∧ r.stop < 2 ^ 32 := by
    intro r hr
    rw [← hrev, List.mem_reverse] at hr
    exact h.ok.each r hr
  obtain ⟨ht, hb⟩ := List.pairwise_cons.mp hpair
  obtain ⟨htop, hbelow⟩ := List.forall_mem_cons.mp heach
  obtain ⟨hfit, hdec⟩ := addRanges_spec top.start (by omega)
    (fun r hr => ⟨(hbelow r hr).1, ht r hr⟩) hb
  have hlen : g.ranges.length = below.length + 1 := by
    rw [← List.length_reverse, hrev, List.length_cons]
  have hbound := rangesOk_length h.ok 0 (by omega) fun r _ => Nat.zero_le _
  have hfirst : sub64 top.stop top.start = top.stop - top.start := sub64_of_le htop.1 (by omega)
  have hstart : top.stop - (top.stop - top.start) = top.start := by omega
  refine ⟨⟨?_, ?_, ?_, ?_⟩, ?_⟩
  · show top.stop < 2 ^ 64
    omega
  · show sub64 top.stop top.start ≤ top.stop
    omega
  · show RangesFit (top.stop - sub64 top.stop top.start) (addRanges top.start below)
    rw [hfirst, hstart]
    exact hfit
  · show sub32 g.rangesCount 1 = (addRanges top.start below).length
    rw [length_addRanges, h.count, sub32_of_le (by omega) (by omega)]
    omega
  · show (top.stop - sub64 top.stop top.start, top.stop) ::
      decode (top.stop - sub64 top.stop top.start) (addRanges top.start below) = _
    rw [hfirst, hstart, hdec, List.map_cons]

/-! ## the lowest run of numbers -/

/-- the number and every one below it down to the least of the list are in the list -/
def LowestRun (R : List Nat) (n : Nat) : Prop := n ∈ R ∧ ∀ k, k ≤ n → (∃ j ∈ R, j ≤ k) → k ∈ R

theorem lowestRun_iff {R : List Nat} {r : AckGenRange} {l : List AckGenRange}
    (hok : RangesOk (r :: l)) (hheld : ∀ n, Held (r :: l) n ↔ n ∈ R) (n : Nat) :
    LowestRun R n ↔ r.start ≤ n ∧ n ≤ r.stop := by
  obtain ⟨hr, hap, _⟩ := rangesOk_cons.mp hok
  have hmin : ∀ j ∈ R, r.start ≤ j := by
    intro j hj
    rcases (held_cons r l j).mp ((hheld j).mpr hj) with h | ⟨q, hq, h1, _⟩
    · exact h.1
    · have := hap q hq
      omega
  constructor
  · rintro ⟨hn, hdown⟩
    rcases (held_cons r l n).mp ((hheld n).mpr hn) with h | ⟨q, hq, h1, _⟩
    · exact h
    · -- the number behind the range would be received too
      have hqr := hap q hq
      have hstart : r.start ∈ R := (hheld _).mp ((held_cons r l _).mpr (Or.inl ⟨Nat.le_refl _, hr.1⟩))
      have hk := hdown (r.stop + 1) (by omega) ⟨r.start, hstart, by omega⟩
      rcases (held_cons r l _).mp ((hheld _).mpr hk) with h | ⟨x, hx, h2, _⟩
      · omega
      · have := hap x hx
        omega
  · rintro ⟨h1, h2⟩
    refine ⟨(hheld n).mp ((held_cons r l n).mpr (Or.inl ⟨h1, h2⟩)), fun k hk ⟨j, hj, hjk⟩ => ?_⟩
    have := hmin j hj
    exact (hheld k).mp ((held_cons r l k).mpr (Or.inl ⟨by omega, by omega⟩))

/-- the lowest run is everything when there is one range -/
theorem lowestRun_all_iff {R : List Nat} {r : AckGenRange} {l : List AckGenRange}
    (hok : RangesOk (r :: l)) (hheld : ∀ n, Held (r :: l) n ↔ n ∈ R) :
    (∀ n ∈ R, LowestRun R n) ↔ l = [] := by
  constructor
  · intro hall
    cases l with
    | nil => rfl
    | cons q l =>
      obtain ⟨_, hap, hl⟩ := rangesOk_cons.mp hok
      have hq := (rangesOk_cons.mp hl).1
      have hmem : q.start ∈ R := (hheld _).mp ⟨q, by simp, Nat.le_refl _, hq.1⟩
      have hlow := (lowestRun_iff hok hheld _).mp (hall _ hmem)
      have := hap q List.mem_cons_self
      omega
  · rintro rfl n hn
    refine (lowestRun_iff hok hheld n).mpr ?_
    rcases (held_cons r [] n).mp ((hheld n).mpr hn) with h | h
    · exact h
    · exact absurd h (held_nil n)

end AckGenerator

namespace Recovery
open AckGenerator

/-- the frame that is made names the received numbers, and its last range is their lowest run -/
theorem generated_covers {es : List Received} {g g' : AckGenerator} {mem : Bool} {now : Time}
    {a : AckFrame} (h : Holds es g) (hgen : g.generate mem now = some (some a, g')) :
    WellFormed a ∧ (∀ n, covers a n = decide (n ∈ es.map Received.num)) ∧
      ∀ n, inLastRange a n = true ↔ LowestRun (es.map Received.num) n ∧
        ¬ ∀ k ∈ es.map Received.num, LowestRun (es.map Received.num) k := by
  rw [generate, if_neg (by rw [h.live]; decide)] at hgen
  split at hgen
  · cases hgen
  · split at hgen
    · cases hgen
    · cases hrev : g.ranges.reverse with
      | nil => rw [hrev] at hgen; cases hgen
      | cons top below =>
        rw [hrev] at hgen
        dsimp only at hgen
        rw [if_pos h.count] at hgen
        have hframe : g.makeFrame now top below = a :=
          Option.some.inj (Prod.mk.inj (Option.some.inj hgen)).1
        subst hframe
        obtain ⟨hwf, hsp⟩ := makeFrame_spans h now hrev
        refine ⟨hwf, fun n => ?_, fun n => ?_⟩
        · rw [covers, hsp, List.any_map, Bool.eq_iff_iff, List.any_eq_true, decide_eq_true_eq,
            ← h.held, Held, ← hrev]
          simp only [List.mem_reverse, Function.comp_apply, within, decide_eq_true_eq]
        · have hlen : g.ranges.length = below.length + 1 := by
            rw [← List.length_reverse, hrev, List.length_cons]
          have hbound := rangesOk_length h.ok 0 (by omega) fun r _ => Nat.zero_le _
          have hcount : (makeFrame g now top below).count = below.length := by
            show sub32 g.rangesCount 1 = _
            rw [h.count, sub32_of_le (by omega) (by omega)]
            omega
          cases hr : g.ranges with
          | nil => rw [hr] at hlen; cases hlen
          | cons r l =>
            have hok := h.ok
            have hheld := h.held
            rw [hr] at hok hheld hlen
            have hlast : ((top :: below).map fun r : AckGenRange => (r.start, r.stop)).getLast? =
                some (r.start, r.stop) := by
              rw [List.getLast?_map, ← hrev, hr, List.getLast?_reverse]
              rfl
            rw [lowestRun_iff hok hheld, lowestRun_all_iff hok hheld, inLastRange, hsp, hlast, hcount,
              Option.any_some, Bool.and_eq_true, bne_iff_ne, within, decide_eq_true_eq, and_comm]
            refine and_congr_right fun _ => not_congr ?_
            rw [← List.length_eq_zero_iff]
            rw [List.length_cons] at hlen
            omega

/-- **When the acknowledgement pass removes exactly what the frame says.**  For a well-formed frame
no packet may be in the last additional range; for a frame of the generator, no packet may be in the
lowest run of the received numbers, unless that is all of them. -/
theorem acked_exactly_iff (cfg : Config) (cbrt : Nat → Nat) :
    (∀ (mem : Nat → Nat → Bool) (m : Recovery) (a : AckFrame), m.rtx.dropped = false → WellFormed a →
      ((∃ m' cs, findNewlyAcked cfg cbrt mem m a = some (m', cs) ∧ Removes m m' cs (covers a)) ↔
        ∀ e ∈ m.rtx.sentMem.entries, inLastRange a e.1 = false ∧
          (acks a e.1 = true → mem e.1 (ackedAt a e.1) = true))) ∧
    (∀ (m : Recovery) (es : List Received) (g g' : AckGenerator) (mem : Bool) (now : Time)
      (a : AckFrame) (type : UInt8) (recvTime : Time), m.rtx.dropped = false →
      (∀ e ∈ es, e.num < 2 ^ 32) → Runs.run Received.step AckGenerator.init es = some g →
      g.generate mem now = some (some a, g') →
      ((∃ m' cs, findNewlyAcked cfg cbrt (fun _ _ => true) m
          { a with packetType := type, recvTime := recvTime } = some (m', cs) ∧
          Removes m m' cs fun n => decide (n ∈ es.map Received.num)) ↔
        ∀ e ∈ m.rtx.sentMem.entries, LowestRun (es.map Received.num) e.1 →
          ∀ n ∈ es.map Received.num, LowestRun (es.map Received.num) n)) := by
  refine ⟨fun mem m a hd ha => removes_iff cfg cbrt mem m a hd ha, ?_⟩
  intro m es g g' mem now a type recvTime hd hes hrun hgen
  obtain ⟨g1, hrun1, hholds⟩ := run_holds es hes
  cases hrun.symm.trans hrun1
  obtain ⟨hwf, hcov, hlast⟩ := generated_covers hholds hgen
  -- the fields that the receiver fills in are not looked at by the ranges
  have hwf' : WellFormed { a with packetType := type, recvTime := recvTime } :=
    ⟨hwf.word, hwf.first, hwf.ranges, hwf.count⟩
  have hiff := removes_iff cfg cbrt (fun _ _ => true) m
    { a with packetType := type, recvTime := recvTime } hd hwf'
  have hfun : covers { a with packetType := type, recvTime := recvTime } =
      fun n => decide (n ∈ es.map Received.num) := funext hcov
  rw [hfun] at hiff
  rw [hiff]
  refine forall₂_congr fun e _ => ?_
  have hl : inLastRange { a with packetType := type, recvTime := recvTime } e.1 = inLastRange a e.1 :=
    rfl
  rw [hl, ← Bool.not_eq_true, hlast]
  constructor
  · rintro ⟨h, _⟩ hlow
    by_contra hall
    exact h ⟨hlow, hall⟩
  · exact fun h => ⟨fun ⟨hlow, hall⟩ => hall (h hlow), fun _ => rfl⟩

instance (R : List Nat) (n : Nat) : Decidable (LowestRun R n) :=
  inferInstanceAs (Decidable (n ∈ R ∧ ∀ k, k ≤ n → (∃ j ∈ R, j ≤ k) → k ∈ R))

/-- one packet in flight -/
def inFlight (num : Nat) : Recovery :=
  sentMemPush ⟨Retransmission.init, Congestion.init serverCfg, 0⟩ num ⟨0, 10, 1200, true, []⟩

/-- numbers 1 and 3 are received, and packet 3 is in flight at the peer -/
theorem acked_exactly_one_three : ∃ g g' a m' cs,
    Runs.run Received.step AckGenerator.init [⟨3, 5, true⟩, ⟨1, 6, true⟩] = some g ∧
      g.generate true 9 = some (some a, g') ∧
      findNewlyAcked serverCfg id (fun _ _ => true) (inFlight 3)
        { a with packetType := 0x40, recvTime := 20 } = some (m', cs) ∧
      Removes (inFlight 3) m' cs fun n => decide (n ∈ [3, 1]) := by
  obtain ⟨m', cs, h1, h2⟩ := ((acked_exactly_iff serverCfg id).2 (inFlight 3)
    [⟨3, 5, true⟩, ⟨1, 6, true⟩] _ _ true 9 _ 0x40 20 rfl (by decide) rfl rfl).mpr (by decide)
  exact ⟨_, _, _, m', cs, rfl, rfl, h1, h2⟩

/-- The frame acknowledges 5 and 3; packet 3 stays. -/
theorem not_acked_exactly :
    ¬ ∀ (cfg : Config) (cbrt : Nat → Nat) (m : Recovery) (a : AckFrame), m.rtx.dropped = false →
      WellFormed a →
      ∃ m' cs, findNewlyAcked cfg cbrt (fun _ _ => true) m a = some (m', cs) ∧
        Removes m m' cs (covers a) := by
  intro h
  have hwf : WellFormed ⟨0x40, 30, 5, 0, 0, 0, 0, 0, 1, [⟨0, 0⟩]⟩ :=
    ⟨by decide, by decide, by decide, rfl⟩
  have hex := h serverCfg id (inFlight 3) _ rfl hwf
  have hall := (removes_iff serverCfg id (fun _ _ => true) (inFlight 3) _ rfl hwf).mp hex
  exact absurd (hall (3, ⟨0, 10, 1200, true, []⟩) List.mem_cons_self).1 (by decide)

end Recovery

end OpenQuic
