import OpenQuic.Modules.Passes

/-!
# The packets that an ACK frame acknowledges

What the ranges of a well-formed ACK frame say, beside what the loop over them tests.

* `ackedSpans`              the ranges of the frame, with the subtractions of `Nat`;
* `WellFormed`         no subtraction goes below zero;
* `tested_eq`          the loop tests the first `max 1 count` of them: never the last additional one;
* `Removes`            exactly the packets of a set are removed, with one call for each frame;
* `removes_iff`        when the acknowledgement pass does that for the ranges of the frame.
-/

namespace OpenQuic
open Word

namespace Recovery

/-! ## the ranges of a frame -/

/-- the ranges below `start` -/
def decode : (start : Nat) → List AckRange → List (Nat × Nat)
  | _, [] => []
  | start, r :: rs =>
    (start - r.gap - 2 - r.len, start - r.gap - 2) :: decode (start - r.gap - 2 - r.len) rs

/-- the first range and the additional ones -/
def ackedSpans (a : AckFrame) : List (Nat × Nat) :=
  (a.largestAck - a.firstRange, a.largestAck) :: decode (a.largestAck - a.firstRange) a.ranges

def covers (a : AckFrame) (num : Nat) : Bool := (ackedSpans a).any (within num)

/-- no subtraction goes below zero -/
def RangesFit : (start : Nat) → List AckRange → Prop
  | _, [] => True
  | start, r :: rs => r.gap + 2 + r.len ≤ start ∧ RangesFit (start - r.gap - 2 - r.len) rs

instance decidableRangesFit : (start : Nat) → (rs : List AckRange) → Decidable (RangesFit start rs)
  | _, [] => isTrue trivial
  | start, r :: rs =>
    have := decidableRangesFit (start - r.gap - 2 - r.len) rs
    inferInstanceAs (Decidable (_ ∧ _))

structure WellFormed (a : AckFrame) : Prop where
  word : a.largestAck < 2 ^ 64
  first : a.firstRange ≤ a.largestAck
  ranges : RangesFit (a.largestAck - a.firstRange) a.ranges
  count : a.count = a.ranges.length

/-- the number is in the last additional range -/
def inLastRange (a : AckFrame) (num : Nat) : Bool :=
  a.count != 0 && (ackedSpans a).getLast?.any (within num)

/-! ## what the loop tests -/

theorem nextRange_fit {a : AckFrame} {i start : Nat} {r : AckRange} {rs : List AckRange}
    (stop : Nat) (hc : a.count ≠ 0) (hr : a.ranges.drop i = r :: rs) (hlt : start < 2 ^ 64)
    (hfit : r.gap + 2 + r.len ≤ start) :
    Pass.nextRange a i start stop = (start - r.gap - 2 - r.len, start - r.gap - 2) := by
  have hi : a.range i = r := by
    have h0 := congrArg List.head? hr
    rw [List.head?_drop, List.head?_cons] at h0
    rw [AckFrame.range, List.getD_eq_getElem?_getD, h0]
    rfl
  have h1 : sub64 start r.gap = start - r.gap := sub64_of_le (by omega) hlt
  have h2 : sub64 (start - r.gap) 2 = start - r.gap - 2 := sub64_of_le (by omega) (by omega)
  have h3 : sub64 (start - r.gap - 2) r.len = start - r.gap - 2 - r.len :=
    sub64_of_le (by omega) (by omega)
  rw [Pass.nextRange, if_pos hc, hi]
  dsimp only
  rw [h1, h2, h3]

theorem testedFrom_eq {a : AckFrame} (hc : a.count ≠ 0) (n i start stop : Nat)
    (hlt : start < 2 ^ 64) (hfit : RangesFit start (a.ranges.drop i))
    (hn : n + i ≤ a.ranges.length) :
    testedFrom a n i start stop = ((start, stop) :: decode start (a.ranges.drop i)).take n := by
  induction n generalizing i start stop with
  | zero => rfl
  | succ n ih =>
    obtain ⟨r, rs, hr⟩ : ∃ r rs, a.ranges.drop i = r :: rs := by
      cases hd : a.ranges.drop i with
      | nil =>
        have := List.drop_eq_nil_iff.mp hd
        omega
      | cons r rs => exact ⟨r, rs, rfl⟩
    have hdrop : a.ranges.drop (i + 1) = rs := by
      have htail := congrArg List.tail hr
      rwa [List.tail_drop] at htail
    rw [hr] at hfit
    rw [testedFrom, nextRange_fit stop hc hr hlt hfit.1, List.take_succ_cons, hr, decode]
    dsimp only
    rw [ih (i + 1) _ _ (by omega) (by rw [hdrop]; exact hfit.2) (by omega), hdrop]

theorem length_decode (start : Nat) (rs : List AckRange) :
    (decode start rs).length = rs.length := by
  induction rs generalizing start with
  | nil => rfl
  | cons r rs ih => rw [decode, List.length_cons, List.length_cons, ih]

/-- the loop leaves out the last additional range -/
theorem tested_eq {a : AckFrame} (h : WellFormed a) : tested a = (ackedSpans a).take (max 1 a.count) := by
  have hs : sub64 a.largestAck a.firstRange = a.largestAck - a.firstRange :=
    sub64_of_le h.first h.word
  rw [tested, hs]
  by_cases hc : a.count = 0
  · rw [hc]
    rfl
  · have hmax : max 1 a.count = a.count := by omega
    rw [hmax, testedFrom_eq hc _ _ _ _ (Nat.lt_of_le_of_lt (Nat.sub_le _ _) h.word) h.ranges
      (by rw [h.count, Nat.add_zero])]
    rfl

/-! ## the ranges are disjoint -/

theorem decode_below {start : Nat} {rs : List AckRange} (hfit : RangesFit start rs) :
    ∀ r ∈ decode start rs, r.2 < start := by
  induction rs generalizing start with
  | nil => exact List.forall_mem_nil _
  | cons q rs ih =>
    intro r hr
    obtain ⟨h1, h2⟩ := hfit
    rcases List.mem_cons.mp hr with rfl | hr
    · show start - q.gap - 2 < start
      omega
    · have := ih h2 r hr
      omega

theorem decode_disjoint {start : Nat} {rs : List AckRange} (hfit : RangesFit start rs) :
    (decode start rs).Pairwise fun a b => b.2 < a.1 := by
  induction rs generalizing start with
  | nil => exact List.Pairwise.nil
  | cons r rs ih => exact List.pairwise_cons.mpr ⟨decode_below hfit.2, ih hfit.2⟩

theorem ackedSpans_disjoint {a : AckFrame} (h : WellFormed a) :
    (ackedSpans a).Pairwise fun a b => b.2 < a.1 :=
  List.pairwise_cons.mpr ⟨decode_below h.ranges, decode_disjoint h.ranges⟩

/-- disjoint ranges hold a number once -/
theorem countP_within {rs : List (Nat × Nat)} (h : rs.Pairwise fun a b => b.2 < a.1) (num : Nat) :
    rs.countP (within num) ≤ 1 := by
  induction rs with
  | nil => exact Nat.zero_le _
  | cons r rs ih =>
    obtain ⟨hr, hrs⟩ := List.pairwise_cons.mp h
    rw [List.countP_cons]
    split
    · rename_i hw
      have hz : rs.countP (within num) = 0 := by
        rw [List.countP_eq_zero]
        intro q hq hwq
        have hlt := hr q hq
        simp only [within, decide_eq_true_eq] at hw hwq
        omega
      omega
    · exact ih hrs

theorem ackedOnce_of_wellFormed {a : AckFrame} (h : WellFormed a) (num : Nat) : AckedOnce a num := by
  rw [AckedOnce, tested_eq h]
  exact countP_within ((ackedSpans_disjoint h).sublist (List.take_sublist _ _)) num

/-- a number of the frame is in a tested range or in the last additional one, and not in both -/
theorem covers_iff {a : AckFrame} (h : WellFormed a) (num : Nat) :
    covers a num = (acks a num || inLastRange a num) ∧
      (acks a num = true → inLastRange a num = false) := by
  have hlen : (ackedSpans a).length = a.count + 1 := by
    rw [ackedSpans, List.length_cons, length_decode, h.count]
  rw [acks, tested_eq h, covers, inLastRange]
  by_cases hc : a.count = 0
  · have hone : max 1 a.count = (ackedSpans a).length := by omega
    rw [hone, List.take_length, hc]
    exact ⟨by simp, fun _ => rfl⟩
  · have hmax : max 1 a.count = (ackedSpans a).length - 1 := by omega
    have hne : ackedSpans a ≠ [] := by
      intro h0
      rw [h0] at hlen
      exact absurd hlen (by simp)
    have hsplit : ackedSpans a = (ackedSpans a).dropLast ++ [(ackedSpans a).getLast hne] :=
      (List.dropLast_concat_getLast hne).symm
    have hdis := ackedSpans_disjoint h
    rw [hmax, ← List.dropLast_eq_take, List.getLast?_eq_some_getLast hne]
    have hb : (a.count != 0) = true := by simpa using hc
    rw [hb, Bool.true_and, Option.any_some]
    rw [hsplit] at hdis
    have hcov : (ackedSpans a).any (within num) =
        ((ackedSpans a).dropLast.any (within num) || within num ((ackedSpans a).getLast hne)) := by
      conv_lhs => rw [hsplit]
      rw [List.any_append, List.any_cons, List.any_nil, Bool.or_false]
    refine ⟨hcov, fun hany => ?_⟩
    obtain ⟨r, hr, hw⟩ := List.any_eq_true.mp hany
    have hlt := (List.pairwise_append.mp hdis).2.2 r hr _ (List.mem_singleton_self _)
    simp only [within, decide_eq_true_eq] at hw
    rw [within, decide_eq_false_iff_not]
    omega

/-! ## what is removed -/

/-- the frame that `on_acked` is called for -/
def Call.ackedFrame : Call → Option Frame
  | .onAcked f => some f
  | _ => none

/-- exactly the packets of `S` are removed, with one call for each of their frames that has the
callback; the other packets are untouched -/
structure Removes (m m' : Recovery) (cs : List Call) (S : Nat → Bool) : Prop where
  sentMem : m'.rtx.sentMem.entries = m.rtx.sentMem.entries.filter fun e => !S e.1
  onAcked : cs.filterMap Call.ackedFrame =
    (m.rtx.sentMem.entries.filter fun e => S e.1).flatMap fun e =>
      e.2.frames.filter fun f => f.onAcked.isSome
  queue : m'.rtx.retransmissionQueue = m.rtx.retransmissionQueue

theorem ackCall_frame (f : Frame) :
    (ackCall f).ackedFrame = if f.onAcked.isSome then some f else none := by
  rw [ackCall]
  split <;> rfl

theorem ackedCalls_frames (num : Nat) (pkt : SentPacket) :
    (ackedCalls num pkt).filterMap Call.ackedFrame =
      pkt.frames.filter fun f => f.onAcked.isSome := by
  show (pkt.frames.map ackCall).filterMap Call.ackedFrame = _
  rw [List.filterMap_map, ← List.filterMap_eq_filter]
  refine List.filterMap_congr fun f _ => ?_
  rw [Function.comp_apply, ackCall_frame]
  cases hf : f.onAcked.isSome <;> simp [Option.guard, hf]

/-- **When the acknowledgement pass removes exactly the packets of the frame.**  No packet is in the
last additional range, and the packets that are found get their node of the drop list. -/
theorem removes_iff (cfg : Config) (cbrt : Nat → Nat) (mem : Nat → Nat → Bool) (m : Recovery)
    (a : AckFrame) (hd : m.rtx.dropped = false) (ha : WellFormed a) :
    (∃ m' cs, findNewlyAcked cfg cbrt mem m a = some (m', cs) ∧ Removes m m' cs (covers a)) ↔
      ∀ e ∈ m.rtx.sentMem.entries, inLastRange a e.1 = false ∧
        (acks a e.1 = true → mem e.1 (ackedAt a e.1) = true) := by
  obtain ⟨m', cs, hres, hp⟩ :=
    acked_passed cfg cbrt mem m a hd fun e _ => ackedOnce_of_wellFormed ha e.1
  constructor
  · rintro ⟨m1, cs1, hres1, hr⟩ e he
    cases hres.symm.trans hres1
    -- the packet is gone exactly when the frame names it
    have hkeys : e.1 ∈ m'.rtx.sentMem.entries.map Prod.fst ↔ covers a e.1 = false := by
      rw [hr.sentMem, List.mem_map]
      constructor
      · rintro ⟨g, hg, hge⟩
        have := (List.mem_filter.mp hg).2
        rw [hge] at this
        simpa using this
      · intro hc
        exact ⟨e, List.mem_filter.mpr ⟨he, by rw [hc]; rfl⟩, rfl⟩
    have hleft : e.1 ∈ m'.rtx.sentMem.entries.map Prod.fst ↔
        (acks a e.1 && mem e.1 (ackedAt a e.1)) = false := by
      rw [hp.sentMem, List.map_map, List.mem_map]
      constructor
      · rintro ⟨g, hg, hge⟩
        have hfst : g.1 = e.1 := hge
        have := (List.mem_filter.mp hg).2
        rw [hfst, Bool.not_eq_true'] at this
        exact this
      · intro hc
        exact ⟨e, List.mem_filter.mpr ⟨he, by rw [hc]; rfl⟩, rfl⟩
    have hiff := hkeys.symm.trans hleft
    obtain ⟨hcov, hnot⟩ := covers_iff ha e.1
    rw [hcov] at hiff
    cases hack : acks a e.1 with
    | false =>
      rw [hack, Bool.false_or, Bool.false_and] at hiff
      exact ⟨hiff.mpr rfl, fun h => absurd h (by decide)⟩
    | true =>
      rw [hack, Bool.true_or, Bool.true_and] at hiff
      refine ⟨hnot hack, fun _ => ?_⟩
      by_contra hmem
      exact absurd (hiff.mpr (by simpa using hmem)) (by decide)
  · intro hcond
    have hcov : ∀ e ∈ m.rtx.sentMem.entries, acks a e.1 = covers a e.1 := by
      intro e he
      rw [(covers_iff ha e.1).1, (hcond e he).1, Bool.or_false]
    refine ⟨m', cs, hres, ?_, ?_, ?_⟩
    · rw [hp.taken fun e he => (hcond e he).2]
      exact List.filter_congr fun e he => by rw [hcov e he]
    · rw [hp.calls, List.filterMap_flatMap]
      simp only [ackedCalls_frames]
      rw [List.filter_congr fun e he => hcov e he]
    · rw [hp.queue]
      simp

end Recovery

end OpenQuic
