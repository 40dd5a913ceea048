import OpenQuic.Modules.AckReceived

/-!
# The ranges and the frame of received numbers

What a run of received numbers leaves in the ACK generator, and what its frame says about them.

* `insertRanges_new`        an insertion reports true exactly for a number that is not held;
* `GapsFit`                 no gap of the frame is computed below zero;
* `generate_result`         a frame is made whenever it is asked for, never of an empty list;
* `received_canonical`      the list is the canonical form of the received numbers, and the frame
                            decodes to them.
-/

namespace OpenQuic
open Word

namespace AckGenerator

/-! ## the report of an insertion -/

theorem extend_isSome {r : AckGenRange} {num : Nat} (hr : r.start ≤ r.stop ∧ r.stop < 2 ^ 32)
    (hn : num < 2 ^ 32) (hno : ¬ (r.start ≤ num ∧ num ≤ r.stop)) {r' : AckGenRange}
    (h : extend num r = some r') : r.stop + 1 = num ∨ r.start = num + 1 := by
  rcases extend_spec hr hn hno with ⟨he, _⟩ | ⟨he, _⟩ | ⟨hx, _⟩
  · exact Or.inl he
  · exact Or.inr he
  · rw [hx] at h
    cases h

theorem insertRanges_new {num count : Nat} (hn : num < 2 ^ 32) (prev : Option AckGenRange)
    (l : List AckGenRange) (hok : RangesOk l) {new : Bool} {x : List AckGenRange × Nat}
    (h : insertRanges true num count prev l = some (new, x)) : new = true ↔ ¬ Held l num := by
  induction l generalizing prev x with
  | nil =>
    rw [insertRanges, if_pos rfl] at h
    obtain ⟨rfl, _⟩ := Prod.mk.inj (Option.some.inj h)
    exact iff_of_true rfl (held_nil num)
  | cons r l ih =>
    obtain ⟨hr, hap, hl⟩ := rangesOk_cons.mp hok
    rw [held_cons]
    rw [insertRanges] at h
    by_cases hin : r.start ≤ num ∧ num ≤ r.stop
    · rw [if_pos hin] at h
      obtain ⟨rfl, _⟩ := Prod.mk.inj (Option.some.inj h)
      exact iff_of_false Bool.false_ne_true fun hno => hno (Or.inl hin)
    · rw [if_neg hin] at h
      -- a range behind `r` begins behind the number
      have hbehind : num ≤ r.stop + 1 → ¬ Held l num := by
        rintro hle ⟨q, hq, h1, _⟩
        have := hap q hq
        omega
      cases hx : extend num r with
      | some r' =>
        rw [hx] at h
        dsimp only at h
        have hadj := extend_isSome hr hn hin hx
        split at h
        · cases h
        · obtain ⟨rfl, _⟩ := Prod.mk.inj (Option.some.inj h)
          refine iff_of_true rfl fun hheld => ?_
          exact hheld.elim hin (hbehind (by omega))
      | none =>
        rw [hx] at h
        dsimp only at h
        by_cases hlow : num < r.start
        · rw [if_pos hlow, if_pos rfl] at h
          obtain ⟨rfl, _⟩ := Prod.mk.inj (Option.some.inj h)
          refine iff_of_true rfl fun hheld => ?_
          exact hheld.elim hin (hbehind (by omega))
        · rw [if_neg hlow] at h
          obtain ⟨y, hy, he⟩ := Option.map_eq_some_iff.mp h
          obtain ⟨rfl, _⟩ := Prod.mk.inj he
          rw [ih (some r) hl hy, not_or]
          exact ⟨fun hno => ⟨hin, hno⟩, And.right⟩

theorem Holds.insert_new {past : List Received} {g : AckGenerator} (h : Holds past g) {num : Nat}
    (hn : num < 2 ^ 32) : ∃ x, insertRanges true num g.rangesCount none g.ranges =
      some (decide (num ∉ past.map Received.num), x) := by
  have hlen := rangesOk_length h.ok 0 (by omega) fun r _ => Nat.zero_le _
  obtain ⟨new, l', count', h1, _⟩ := insertRanges_spec g.rangesCount hn
    (by rw [h.count]; omega) none g.ranges h.ok (by rw [h.count]) fun p hp => by cases hp
  have hnew := insertRanges_new hn none g.ranges h.ok h1
  rw [h.held] at hnew
  refine ⟨(l', count'), ?_⟩
  rw [h1, Bool.eq_iff_iff.mpr (hnew.trans (decide_eq_true_iff).symm)]

/-! ## the frame -/

/-- the subtractions behind the gaps of `addRanges` -/
def GapsFit : (smallest : Nat) → List AckGenRange → Prop
  | _, [] => True
  | smallest, r :: rs => r.stop + 2 ≤ smallest ∧ GapsFit r.start rs

theorem gapsFit_of_apart {r : AckGenRange} {l : List AckGenRange}
    (h : (r :: l).Pairwise fun a b => b.stop + 1 < a.start) : GapsFit r.start l := by
  induction l generalizing r with
  | nil => trivial
  | cons q l ih =>
    obtain ⟨hr, hl⟩ := List.pairwise_cons.mp h
    exact ⟨hr q List.mem_cons_self, ih hl⟩

/-- the highest range holds the largest number -/
theorem Holds.largest {past : List Received} {g : AckGenerator} (h : Holds past g)
    {top : AckGenRange} {below : List AckGenRange} (hrev : g.ranges.reverse = top :: below) :
    top.stop ∈ past.map Received.num ∧ ∀ n ∈ past.map Received.num, n ≤ top.stop := by
  have hpair : (top :: below).Pairwise fun a b => b.stop + 1 < a.start := by
    rw [← hrev, List.pairwise_reverse]
    exact h.ok.apart
  have hmem : ∀ r ∈ top :: below, r ∈ g.ranges := by
    intro r hr
    rwa [← hrev, List.mem_reverse] at hr
  have htop := h.ok.each top (hmem top List.mem_cons_self)
  constructor
  · exact (h.held _).mp ⟨top, hmem top List.mem_cons_self, htop.1, Nat.le_refl _⟩
  · intro n hn
    obtain ⟨r, hr, _, hle⟩ := (h.held n).mpr hn
    rw [← List.mem_reverse, hrev] at hr
    rcases List.mem_cons.mp hr with rfl | hr
    · exact hle
    · have := (List.pairwise_cons.mp hpair).1 r hr
      omega

/-- there is a range as soon as a number has been received, and nothing is sent before -/
theorem Holds.generate_result {past : List Received} {g : AckGenerator} (h : Holds past g)
    (hrun : Runs.run Received.step init past = some g) (mem : Bool) (now : Time) :
    ∃ o g', g.generate mem now = some (o, g') ∧ ∀ a, o = some a → ∃ top below,
      g.ranges.reverse = top :: below ∧ a = g.makeFrame now top below := by
  cases past with
  | nil =>
    cases hrun
    refine ⟨none, init, rfl, fun a ha => ?_⟩
    cases ha
  | cons e past =>
    obtain ⟨r, hr, _⟩ := (h.held e.num).mpr (by simp)
    rw [generate, if_neg (by rw [h.live]; decide)]
    split
    · refine ⟨none, g, rfl, fun a ha => ?_⟩
      cases ha
    · split
      · refine ⟨none, g, rfl, fun a ha => ?_⟩
        cases ha
      · cases hrev : g.ranges.reverse with
        | nil =>
          rw [← List.mem_reverse, hrev] at hr
          cases hr
        | cons top below =>
          dsimp only
          rw [if_pos h.count]
          refine ⟨_, _, rfl, fun a ha => ⟨top, below, rfl, (Option.some.inj ha).symm⟩⟩

end AckGenerator

namespace Recovery
open AckGenerator

/-- **The list is the canonical form of the received numbers, and its frame decodes to them.**  The
ranges are ascending and not empty, a number is missing between any two of them, and the count is
their number; the next number is reported as new exactly when it has not been received. -/
theorem received_canonical (es : List Received) (hes : ∀ e ∈ es, e.num < 2 ^ 32) :
    ∃ g, Runs.run Received.step AckGenerator.init es = some g ∧
      (∀ r ∈ g.ranges, r.start ≤ r.stop) ∧
      (g.ranges.Pairwise fun a b => a.stop + 1 < b.start) ∧
      (∀ n, Held g.ranges n ↔ n ∈ es.map Received.num) ∧
      g.rangesCount = g.ranges.length ∧
      (∀ num < 2 ^ 32, ∃ x, insertRanges true num g.rangesCount none g.ranges =
        some (decide (num ∉ es.map Received.num), x)) ∧
      ∀ mem now, ∃ o g', g.generate mem now = some (o, g') ∧ ∀ a, o = some a →
        (∀ top below, g.ranges.reverse = top :: below → GapsFit top.start below) ∧ WellFormed a ∧
        (∀ n, covers a n = true ↔ n ∈ es.map Received.num) ∧
        a.largestAck ∈ es.map Received.num ∧ ∀ n ∈ es.map Received.num, n ≤ a.largestAck := by
  obtain ⟨g, hrun, hholds⟩ := run_holds es hes
  refine ⟨g, hrun, fun r hr => (hholds.ok.each r hr).1, hholds.ok.apart, hholds.held, hholds.count,
    fun num hn => hholds.insert_new hn, fun mem now => ?_⟩
  obtain ⟨o, g', hgen, hframe⟩ := hholds.generate_result hrun mem now
  refine ⟨o, g', hgen, fun a ha => ⟨fun top below hrev => ?_, ?_⟩⟩
  · refine gapsFit_of_apart ?_
    rw [← hrev, List.pairwise_reverse]
    exact hholds.ok.apart
  · subst ha
    obtain ⟨hwf, hcov, _⟩ := generated_covers hholds hgen
    obtain ⟨top, below, hrev, rfl⟩ := hframe a rfl
    obtain ⟨hmem, hmax⟩ := hholds.largest hrev
    refine ⟨hwf, fun n => ?_, hmem, hmax⟩
    rw [hcov n, decide_eq_true_iff]

/-- numbers 3, 1 and 2, and 3 once more -/
theorem received_canonical_three : ∃ g,
    Runs.run Received.step AckGenerator.init [⟨3, 5, true⟩, ⟨1, 6, true⟩, ⟨2, 7, true⟩, ⟨3, 8, true⟩] =
      some g ∧ g.rangesCount = g.ranges.length := by
  obtain ⟨g, hrun, _, _, _, hcount, _⟩ := received_canonical
    [⟨3, 5, true⟩, ⟨1, 6, true⟩, ⟨2, 7, true⟩, ⟨3, 8, true⟩] (by decide)
  exact ⟨g, hrun, hcount⟩

end Recovery

end OpenQuic
