import OpenQuic.Lib.Runs
import OpenQuic.Modules.AckReceived
import Mathlib.Data.List.Chain

/-!
# The count of the ranges

The count of an ACK generator along the runs of its operations, with any packet numbers and
thresholds and with allocations that fail.

* `Gap`, `Words`      neighbours in the list do not touch, and its bounds are words;
* `opens`             whether a number takes a range of its own;
* `Inserts`           what an insertion does to the list and to the count;
* `Counted`, `FrameOk`  the count is the length of the list, and a frame has as many ranges as it says;
* `Guarded`           a threshold frees no range, and the count does not wrap;
* `rangesCount_iff`       the guarded runs are those in which count and frames are right.
-/

namespace OpenQuic
open Word

namespace AckGenerator

/-! ## the list -/

/-- a range does not touch the next one -/
def Gap (a b : AckGenRange) : Prop := add64 a.stop 1 ≠ b.start

def Words (l : List AckGenRange) : Prop := ∀ r ∈ l, r.start < 2 ^ 64 ∧ r.stop < 2 ^ 64

theorem sub64_one_eq_iff {a b : Nat} (ha : a < 2 ^ 64) (hb : b < 2 ^ 64) :
    sub64 a 1 = b ↔ add64 b 1 = a := by
  show (a + (2 ^ 64 - 1 % 2 ^ 64)) % 2 ^ 64 = b ↔ (b + 1) % 2 ^ 64 = a
  omega

/-- whether the walk of an insertion comes to a place for a range of its own -/
def opens (num : Nat) : List AckGenRange → Bool
  | [] => true
  | r :: rs =>
    if (r.start ≤ num ∧ num ≤ r.stop) ∨ (extend num r).isSome then false
    else if num < r.start then true else opens num rs

theorem extend_eq_some {num : Nat} {r r' : AckGenRange} (h : extend num r = some r') :
    (add64 r.stop 1 = num ∧ r' = { r with stop := num }) ∨
      (add64 r.stop 1 ≠ num ∧ sub64 r.start 1 = num ∧ r' = { r with start := num }) := by
  unfold extend at h
  split at h
  · rename_i he
    rw [he] at h
    exact Or.inl ⟨he, (Option.some.inj h).symm⟩
  · rename_i he
    split at h
    · rename_i hs
      rw [hs] at h
      exact Or.inr ⟨he, hs, (Option.some.inj h).symm⟩
    · cases h

theorem extend_eq_none {num : Nat} {r : AckGenRange} (h : extend num r = none) :
    add64 r.stop 1 ≠ num ∧ sub64 r.start 1 ≠ num := by
  unfold extend at h
  split at h
  · cases h
  · rename_i hstop
    split at h
    · cases h
    · rename_i hstart
      exact ⟨hstop, hstart⟩

/-- a range that grows downwards does not come to touch the range before it: that one would have
grown itself -/
theorem extend_gap {num : Nat} {r r' : AckGenRange} {prev : Option AckGenRange}
    (hp : ∀ p ∈ prev, add64 p.stop 1 ≠ num) (hg : ∀ p ∈ prev, Gap p r)
    (h : extend num r = some r') : ∀ p ∈ prev, Gap p r' := by
  rcases extend_eq_some h with ⟨_, rfl⟩ | ⟨_, _, rfl⟩
  · exact hg
  · exact hp

theorem extend_words {num : Nat} {r r' : AckGenRange} {l : List AckGenRange} (hnum : num < 2 ^ 64)
    (hw : Words (r :: l)) (h : extend num r = some r') : Words (r' :: l) := by
  obtain ⟨hr, hl⟩ := List.forall_mem_cons.mp hw
  refine List.forall_mem_cons.mpr ⟨?_, hl⟩
  rcases extend_eq_some h with ⟨_, rfl⟩ | ⟨_, _, rfl⟩
  · exact ⟨hr.1, hnum⟩
  · exact ⟨hnum, hr.2⟩

/-- what a range that has grown leaves, behind a range that it does not touch -/
theorem mergeNext_chain {prev : Option AckGenRange} {r : AckGenRange} {l : List AckGenRange}
    (hp : ∀ p ∈ prev, Gap p r) (hw : Words (r :: l)) (hl : l.IsChain Gap) :
    (prev.toList ++ (mergeNext r l).1).IsChain Gap ∧ Words (mergeNext r l).1 ∧
      (mergeNext r l).1.length + (mergeNext r l).2 = l.length + 1 ∧ (mergeNext r l).1 ≠ [] := by
  have hfront : ∀ (q : AckGenRange) (ns : List AckGenRange), q.start = r.start →
      (q :: ns).IsChain Gap → (prev.toList ++ q :: ns).IsChain Gap := by
    intro q ns hq hc
    cases prev with
    | none => exact hc
    | some p =>
      refine List.isChain_cons_cons.mpr ⟨?_, hc⟩
      show add64 p.stop 1 ≠ q.start
      rw [hq]
      exact hp p rfl
  obtain ⟨hr, hwl⟩ := List.forall_mem_cons.mp hw
  cases l with
  | nil => exact ⟨hfront r [] rfl (.singleton _), hw, rfl, List.cons_ne_nil _ _⟩
  | cons n ns =>
    obtain ⟨hn, hwns⟩ := List.forall_mem_cons.mp hwl
    rw [mergeNext]
    by_cases htouch : sub64 n.start 1 = r.stop
    · rw [if_pos htouch]
      refine ⟨hfront _ _ rfl ?_, List.forall_mem_cons.mpr ⟨⟨hr.1, hn.2⟩, hwns⟩, rfl,
        List.cons_ne_nil _ _⟩
      cases ns with
      | nil => exact .singleton _
      | cons m ms =>
        obtain ⟨hgap, hms⟩ := List.isChain_cons_cons.mp hl
        exact List.isChain_cons_cons.mpr ⟨hgap, hms⟩
    · rw [if_neg htouch]
      refine ⟨hfront _ _ rfl (List.isChain_cons_cons.mpr ⟨fun hgap => ?_, hl⟩), hw, rfl,
        List.cons_ne_nil _ _⟩
      exact htouch ((sub64_one_eq_iff hn.1 hr.2).mpr hgap)

/-- What an insertion leaves: a list of the same kind, and a count that has followed its length. -/
structure Inserts (mem : Bool) (num count : Nat) (prev : Option AckGenRange) (l : List AckGenRange)
    (x : Bool × List AckGenRange × Nat) : Prop where
  chain : (prev.toList ++ x.2.1).IsChain Gap
  words : Words x.2.1
  more : (mem && opens num l) = true → x.2.1.length = l.length + 1 ∧ x.2.2 = add32 count 1
  fewer : (mem && opens num l) = false → (x.2.1.length = l.length ∧ x.2.2 = count) ∨
    ∃ k, x.2.1.length + k = l.length ∧ x.2.2 = sub32 count k
  nonempty : x.1 = true ∨ l ≠ [] → x.2.1 ≠ []

section
variable {mem : Bool} {num count : Nat} {prev : Option AckGenRange} {l : List AckGenRange}

/-- nothing is inserted -/
theorem Inserts.same (hc : (prev.toList ++ l).IsChain Gap) (hw : Words l)
    (h : (mem && opens num l) = false) : Inserts mem num count prev l (false, l, count) where
  chain := hc
  words := hw
  more := fun ho => absurd (h.symm.trans ho) Bool.false_ne_true
  fewer := fun _ => Or.inl ⟨rfl, rfl⟩
  nonempty := fun h => h.resolve_left Bool.false_ne_true

/-- a range of its own is put before the list -/
theorem Inserts.front (hnum : num < 2 ^ 64) (hp : ∀ p ∈ prev, add64 p.stop 1 ≠ num)
    (hl : (⟨num, num⟩ :: l : List AckGenRange).IsChain Gap) (hw : Words l)
    (h : opens num l = true) :
    Inserts true num count prev l (true, ⟨num, num⟩ :: l, add32 count 1) where
  chain := by
    cases prev with
    | none => exact hl
    | some p => exact List.isChain_cons_cons.mpr ⟨hp p rfl, hl⟩
  words := List.forall_mem_cons.mpr ⟨⟨hnum, hnum⟩, hw⟩
  more := fun _ => ⟨rfl, rfl⟩
  fewer := fun ho => absurd (ho.symm.trans h) Bool.false_ne_true
  nonempty := fun _ => List.cons_ne_nil _ _

/-- a range grows, and takes the next one in if it touches it -/
theorem Inserts.grown {r r' : AckGenRange} (hp : ∀ p ∈ prev, Gap p r') (hw : Words (r' :: l))
    (hl : l.IsChain Gap) (h : opens num (r :: l) = false) : Inserts mem num count prev (r :: l)
      (true, (mergeNext r' l).1, sub32 count (mergeNext r' l).2) := by
  obtain ⟨h1, h2, h3, h4⟩ := mergeNext_chain hp hw hl
  refine ⟨h1, h2, fun ho => ?_, fun _ => Or.inr ⟨_, h3, rfl⟩, fun _ => h4⟩
  rw [h, Bool.and_false] at ho
  exact absurd ho Bool.false_ne_true

/-- an insertion behind the first range -/
theorem Inserts.behind {r : AckGenRange} {x : Bool × List AckGenRange × Nat}
    (hi : Inserts mem num count (some r) l x) (hc : (prev.toList ++ r :: l).IsChain Gap)
    (hr : r.start < 2 ^ 64 ∧ r.stop < 2 ^ 64) (h : opens num (r :: l) = opens num l) :
    Inserts mem num count prev (r :: l) (x.1, r :: x.2.1, x.2.2) where
  chain := by
    cases prev with
    | none => exact hi.chain
    | some p => exact List.isChain_cons_cons.mpr ⟨(List.isChain_cons_cons.mp hc).1, hi.chain⟩
  words := List.forall_mem_cons.mpr ⟨hr, hi.words⟩
  more := fun ho => by
    obtain ⟨h1, h2⟩ := hi.more (h ▸ ho)
    exact ⟨congrArg (· + 1) h1, h2⟩
  fewer := fun ho => by
    rcases hi.fewer (h ▸ ho) with ⟨h1, h2⟩ | ⟨k, h1, h2⟩
    · exact Or.inl ⟨congrArg (· + 1) h1, h2⟩
    · refine Or.inr ⟨k, ?_, h2⟩
      show x.2.1.length + 1 + k = l.length + 1
      omega
  nonempty := fun _ => List.cons_ne_nil _ _

end

theorem insertRanges_inserts (mem : Bool) {num : Nat} (count : Nat) (hnum : num < 2 ^ 64)
    (prev : Option AckGenRange) (l : List AckGenRange) (hp : ∀ p ∈ prev, add64 p.stop 1 ≠ num)
    (hc : (prev.toList ++ l).IsChain Gap) (hw : Words l) :
    ∃ x, insertRanges mem num count prev l = some x ∧ Inserts mem num count prev l x := by
  induction l generalizing prev with
  | nil =>
    rw [insertRanges]
    cases mem with
    | true => exact ⟨_, rfl, .front hnum hp (.singleton _) hw rfl⟩
    | false => exact ⟨_, rfl, .same hc hw rfl⟩
  | cons r rs ih =>
    obtain ⟨hr, hws⟩ := List.forall_mem_cons.mp hw
    rw [insertRanges]
    by_cases hin : r.start ≤ num ∧ num ≤ r.stop
    · rw [if_pos hin]
      refine ⟨_, rfl, .same hc hw ?_⟩
      rw [opens, if_pos (Or.inl hin), Bool.and_false]
    · rw [if_neg hin]
      cases hext : extend num r with
      | some r' =>
        have hopen : opens num (r :: rs) = false := by
          rw [opens, if_pos (Or.inr (by rw [hext]; rfl))]
        have hpr : ∀ p ∈ prev, Gap p r' := by
          refine extend_gap hp (fun p hprev => ?_) hext
          obtain rfl := hprev
          exact (List.isChain_cons_cons.mp hc).1
        have hany : (prev.any fun p => add64 p.stop 1 = r'.start) = false := by
          cases prev with
          | none => rfl
          | some p => exact decide_eq_false (hpr p rfl)
        dsimp only
        rw [hany, if_neg Bool.false_ne_true]
        exact ⟨_, rfl, .grown hpr (extend_words hnum hw hext)
          (List.IsChain.right_of_append hc).tail hopen⟩
      | none =>
        obtain ⟨hstop, hstart⟩ := extend_eq_none hext
        have hclosed : ¬ ((r.start ≤ num ∧ num ≤ r.stop) ∨ (extend num r).isSome) := by
          rw [hext]
          exact not_or.mpr ⟨hin, Bool.false_ne_true⟩
        dsimp only
        by_cases hlow : num < r.start
        · have hopen : opens num (r :: rs) = true := by rw [opens, if_neg hclosed, if_pos hlow]
          rw [if_pos hlow]
          cases mem with
          | true =>
            refine ⟨_, rfl, .front hnum hp ?_ hw hopen⟩
            refine List.isChain_cons_cons.mpr ⟨fun hgap => ?_, hc.right_of_append⟩
            exact hstart ((sub64_one_eq_iff hr.1 hnum).mpr hgap)
          | false => exact ⟨_, rfl, .same hc hw rfl⟩
        · have hopen : opens num (r :: rs) = opens num rs := by
            rw [opens, if_neg hclosed, if_neg hlow]
          rw [if_neg hlow]
          obtain ⟨x, hx, hi⟩ := ih (some r) (fun p hpr => Option.some.inj hpr ▸ hstop)
            hc.right_of_append hws
          exact ⟨_, congrArg _ hx, hi.behind hc hr hopen⟩

/-! ## the threshold -/

theorem ignoreWalk_words {t : Nat} (ht : t < 2 ^ 64) {l : List AckGenRange} (hw : Words l) :
    Words (ignoreWalk t l) := by
  induction l with
  | nil => exact hw
  | cons r rs ih =>
    obtain ⟨hr, hws⟩ := List.forall_mem_cons.mp hw
    rw [ignoreWalk]
    split
    · exact hw
    · split
      · exact ih hws
      · exact List.forall_mem_cons.mpr ⟨⟨ht, hr.2⟩, hws⟩

theorem ignoreWalk_chain (t : Nat) {l : List AckGenRange} (hc : l.IsChain Gap) :
    (ignoreWalk t l).IsChain Gap := by
  induction l with
  | nil => exact hc
  | cons r rs ih =>
    rw [ignoreWalk]
    split
    · exact hc
    · split
      · exact ih hc.tail
      · cases rs with
        | nil => exact .singleton _
        | cons q qs =>
          obtain ⟨hgap, hq⟩ := List.isChain_cons_cons.mp hc
          exact List.isChain_cons_cons.mpr ⟨hgap, hq⟩

theorem length_ignoreWalk_le (t : Nat) (l : List AckGenRange) :
    (ignoreWalk t l).length ≤ l.length := by
  induction l with
  | nil => exact Nat.le_refl _
  | cons r rs ih =>
    rw [ignoreWalk]
    split
    · exact Nat.le_refl _
    · split
      · exact ih.trans (Nat.le_succ _)
      · exact Nat.le_refl _

/-- no range is freed if and only if the first one reaches the threshold -/
theorem length_ignoreWalk_eq_iff (t : Nat) (l : List AckGenRange) :
    (ignoreWalk t l).length = l.length ↔ ∀ r ∈ l.head?, t ≤ r.start ∨ t ≤ r.stop := by
  cases l with
  | nil => exact iff_of_true rfl nofun
  | cons r rs =>
    have hhead : (∀ q ∈ (r :: rs).head?, t ≤ q.start ∨ t ≤ q.stop) ↔ t ≤ r.start ∨ t ≤ r.stop := by
      simp
    rw [hhead, ignoreWalk]
    by_cases hstart : t ≤ r.start
    · rw [if_pos hstart]
      exact iff_of_true rfl (Or.inl hstart)
    · rw [if_neg hstart]
      by_cases hstop : r.stop < t
      · rw [if_pos hstop]
        refine iff_of_false (fun h => ?_) (by omega)
        have hle := length_ignoreWalk_le t rs
        rw [h, List.length_cons] at hle
        omega
      · rw [if_neg hstop]
        exact iff_of_true rfl (Or.inr (by omega))

/-! ## runs -/

inductive Call where
  | received (mem : Bool) (num : Nat) (recvTime : Time) (shouldAck : Bool)
  | setIgnoreThrehold (num : Nat)
  | generate (mem : Bool) (now : Time)
  | drop

def Call.step (g : AckGenerator) : Call → Option AckGenerator
  | .received mem num recvTime shouldAck => g.received mem num recvTime shouldAck
  | .setIgnoreThrehold num => some (g.setIgnoreThrehold num)
  | .generate mem now => (g.generate mem now).map Prod.snd
  | .drop => some g.drop

/-- packet numbers and thresholds are `uint64_t` -/
def Call.IsWord : Call → Prop
  | .received _ num _ _ => num < 2 ^ 64
  | .setIgnoreThrehold num => num < 2 ^ 64
  | _ => True

def Counted (g : AckGenerator) : Prop := g.rangesCount = g.ranges.length

/-- a frame that is made has as many ranges as it says, and its number from the list -/
def FrameOk (g : AckGenerator) : Call → Prop
  | .generate mem now => ∀ frame g', g.generate mem now = some (some frame, g') →
      frame.count = frame.ranges.length ∧ ∃ r ∈ g.ranges, frame.largestAck = r.stop
  | _ => True

structure CallOk (g : AckGenerator) (e : Call) : Prop where
  counted : ∃ g', e.step g = some g' ∧ Counted g'
  frame : FrameOk g e

/-- a number that opens a range finds the count below its maximum, and a threshold does not free the
first range -/
def Guarded (g : AckGenerator) : Call → Prop
  | .received mem num _ _ => g.ignoreThrehold ≤ num → g.dropped = false →
      (mem && opens num g.ranges) = true → g.ranges.length + 1 < 2 ^ 32
  | .setIgnoreThrehold num => g.ignoreThrehold < num →
      ∀ r ∈ g.ranges.head?, num ≤ r.start ∨ num ≤ r.stop
  | _ => True

structure CountInv (g : AckGenerator) : Prop where
  counted : Counted g
  lt : g.ranges.length < 2 ^ 32
  chain : g.ranges.IsChain Gap
  words : Words g.ranges
  alarm : g.alarm = 0
  ready : g.dropped = false → g.shouldSend = true → g.ranges ≠ []

theorem countInv_init : CountInv init :=
  ⟨rfl, Nat.two_pow_pos 32, .nil, List.forall_mem_nil _, rfl, nofun⟩

theorem checkIsLost_nonempty {g : AckGenerator} {num : Nat} (h : checkIsLost g num = true) :
    g.ranges ≠ [] := by
  intro hnil
  rw [checkIsLost, hnil] at h
  exact Bool.noConfusion h

/-- what a call leaves: the invariant, the count apart, and a right count exactly when it is guarded -/
structure Kept (g g' : AckGenerator) (e : Call) : Prop where
  counted : Counted g' ↔ Guarded g e
  lt : Guarded g e → g'.ranges.length < 2 ^ 32
  chain : g'.ranges.IsChain Gap
  words : Words g'.ranges
  alarm : g'.alarm = 0
  ready : Guarded g e → g'.dropped = false → g'.shouldSend = true → g'.ranges ≠ []

theorem Kept.inv {g g' : AckGenerator} {e : Call} (h : Kept g g' e) (hg : Guarded g e) :
    CountInv g' :=
  ⟨h.counted.mpr hg, h.lt hg, h.chain, h.words, h.alarm, h.ready hg⟩

/-- a guarded call that leaves the list, the count and the flags alone -/
theorem CountInv.kept {g g' : AckGenerator} (h : CountInv g') {e : Call} (hg : Guarded g e) :
    Kept g g' e :=
  ⟨iff_of_true h.counted hg, fun _ => h.lt, h.chain, h.words, h.alarm, fun _ => h.ready⟩

/-- the count after an insertion is right unless it has wrapped -/
theorem Inserts.count_right {mem : Bool} {num count : Nat} {prev : Option AckGenRange}
    {l : List AckGenRange} {x : Bool × List AckGenRange × Nat} (h : Inserts mem num count prev l x)
    (hcount : count = l.length) (hlt : l.length < 2 ^ 32) :
    (x.2.2 = x.2.1.length ↔ ((mem && opens num l) = true → l.length + 1 < 2 ^ 32)) ∧
      (((mem && opens num l) = true → l.length + 1 < 2 ^ 32) → x.2.1.length < 2 ^ 32) := by
  cases hopen : mem && opens num l with
  | true =>
    obtain ⟨h1, h2⟩ := h.more hopen
    have hadd : x.2.2 = (l.length + 1) % 2 ^ 32 := by rw [h2, hcount]; rfl
    constructor
    · constructor
      · intro he _
        omega
      · intro hg
        have := hg rfl
        omega
    · intro hg
      have := hg rfl
      omega
  | false =>
    refine ⟨iff_of_true ?_ nofun, fun _ => ?_⟩
    · rcases h.fewer hopen with ⟨h1, h2⟩ | ⟨k, h1, h2⟩
      · rw [h1, h2, hcount]
      · rw [h2, sub32_of_le (by omega) (by omega)]
        omega
    · rcases h.fewer hopen with ⟨h1, h2⟩ | ⟨k, h1, h2⟩ <;> omega

theorem received_kept {g : AckGenerator} (hi : CountInv g) (mem : Bool) {num : Nat}
    (hnum : num < 2 ^ 64) (recvTime : Time) (shouldAck : Bool) :
    ∃ g', g.received mem num recvTime shouldAck = some g' ∧
      Kept g g' (.received mem num recvTime shouldAck) := by
  rw [received]
  by_cases hskip : num < g.ignoreThrehold ∨ g.dropped = true
  · rw [if_pos hskip]
    refine ⟨g, rfl, hi.kept fun hge hlive => ?_⟩
    rcases hskip with hlt | hdrop
    · exact absurd hge (Nat.not_le.mpr hlt)
    · exact absurd hdrop (by rw [hlive]; exact Bool.false_ne_true)
  · rw [if_neg hskip]
    obtain ⟨hge, hlive⟩ := not_or.mp hskip
    have hge : g.ignoreThrehold ≤ num := Nat.not_lt.mp hge
    have hlive : g.dropped = false := by simpa using hlive
    obtain ⟨x, hx, hins⟩ := insertRanges_inserts mem g.rangesCount hnum none g.ranges
      (fun _ hp => absurd hp (Option.not_mem_none _)) hi.chain hi.words
    extract_lets lost g1
    have h1 : g1.ranges = g.ranges ∧ g1.rangesCount = g.rangesCount ∧ g1.alarm = g.alarm := by
      show (if g.lgObnum ≤ num then _ else _ : AckGenerator).ranges = _ ∧
        (if g.lgObnum ≤ num then _ else _ : AckGenerator).rangesCount = _ ∧
        (if g.lgObnum ≤ num then _ else _ : AckGenerator).alarm = _
      split <;> exact ⟨rfl, rfl, rfl⟩
    have h2 : g1.shouldSend = g.shouldSend ∧ g1.dropped = g.dropped := by
      show (if g.lgObnum ≤ num then _ else _ : AckGenerator).shouldSend = _ ∧
        (if g.lgObnum ≤ num then _ else _ : AckGenerator).dropped = _
      split <;> exact ⟨rfl, rfl⟩
    have hlost : lost = true → g.ranges ≠ [] := checkIsLost_nonempty
    clear_value lost g1
    rw [h1.1, h1.2.1, hx]
    obtain ⟨hcount, hlen⟩ := hins.count_right hi.counted hi.lt
    refine ⟨_, rfl, ⟨?_, fun hg => hlen (hg hge hlive), hins.chain, hins.words, h1.2.2.trans hi.alarm,
      fun _ _ hsend => ?_⟩⟩
    · exact hcount.trans ⟨fun h _ _ => h, fun h => h hge hlive⟩
    · have hor : (g1.shouldSend || (x.1 && shouldAck) || (lost && shouldAck)) = true := hsend
      rw [h2.1] at hor
      refine hins.nonempty ?_
      simp only [Bool.or_eq_true, Bool.and_eq_true] at hor
      rcases hor with (hs | hs) | hs
      · exact Or.inr (hi.ready hlive hs)
      · exact Or.inl hs.1
      · exact Or.inr (hlost hs.1)

theorem setIgnoreThrehold_kept {g : AckGenerator} (hi : CountInv g) {num : Nat}
    (hnum : num < 2 ^ 64) : Kept g (g.setIgnoreThrehold num) (.setIgnoreThrehold num) := by
  rw [setIgnoreThrehold]
  by_cases hle : num ≤ g.ignoreThrehold
  · rw [if_pos hle]
    exact hi.kept fun hlt => absurd hlt (Nat.not_lt.mpr hle)
  · rw [if_neg hle]
    have hlt : g.ignoreThrehold < num := Nat.not_le.mp hle
    have hlen := length_ignoreWalk_le num g.ranges
    refine ⟨?_, fun _ => Nat.lt_of_le_of_lt hlen hi.lt, ignoreWalk_chain num hi.chain,
      ignoreWalk_words hnum hi.words, hi.alarm, fun hg hlive hsend hnil => ?_⟩
    · show g.rangesCount = (ignoreWalk num g.ranges).length ↔ _
      rw [hi.counted, eq_comm, length_ignoreWalk_eq_iff]
      exact ⟨fun h _ => h, fun h => h hlt⟩
    · have heq := (length_ignoreWalk_eq_iff num g.ranges).mpr (hg hlt)
      have hnil : ignoreWalk num g.ranges = [] := hnil
      rw [hnil, List.length_nil] at heq
      exact hi.ready hlive hsend (List.eq_nil_of_length_eq_zero heq.symm)

/-- a frame of the whole list, which is not empty -/
theorem generate_frame {g : AckGenerator} (hc : Counted g) (hlive : g.dropped = false)
    (hsend : g.shouldSend = true) (hne : g.ranges ≠ []) (now : Time) :
    ∃ top below, g.ranges.reverse = top :: below ∧ g.generate true now =
      some (some (makeFrame g now top below), { g with alarm := 0, shouldSend := false }) := by
  cases hrev : g.ranges.reverse with
  | nil => exact absurd (List.reverse_eq_nil_iff.mp hrev) hne
  | cons top below =>
    refine ⟨top, below, rfl, ?_⟩
    rw [generate, hlive, hsend]
    simp only [Bool.false_eq_true, Bool.not_true, Bool.false_and, ↓reduceIte, hrev]
    exact if_pos hc

theorem makeFrame_ok {g : AckGenerator} (hc : Counted g) (hlt : g.ranges.length < 2 ^ 32)
    {top : AckGenRange} {below : List AckGenRange} (hrev : g.ranges.reverse = top :: below)
    (now : Time) : (makeFrame g now top below).count = (makeFrame g now top below).ranges.length ∧
      ∃ r ∈ g.ranges, (makeFrame g now top below).largestAck = r.stop := by
  have hlen : g.ranges.length = below.length + 1 := by
    rw [← List.length_reverse, hrev, List.length_cons]
  constructor
  · show sub32 g.rangesCount 1 = (addRanges top.start below).length
    rw [length_addRanges, hc, sub32_of_le (by omega) hlt]
    omega
  · exact ⟨top, List.mem_reverse.mp (hrev ▸ List.mem_cons_self), rfl⟩

theorem generate_kept {g : AckGenerator} (hi : CountInv g) (mem : Bool) (now : Time) :
    (∃ g', (g.generate mem now).map Prod.snd = some g' ∧ Kept g g' (.generate mem now)) ∧
      FrameOk g (.generate mem now) := by
  by_cases hnone : g.generate mem now = some (none, g)
  · refine ⟨⟨g, by rw [hnone]; rfl, hi.kept trivial⟩, fun frame g' h => ?_⟩
    rw [hnone] at h
    cases h
  · -- the code comes to the list only when there is something to send
    have hlive : g.dropped = false := by
      by_contra hdrop
      exact hnone (by rw [generate, if_pos (by simpa using hdrop)])
    have hsend : g.shouldSend = true := by
      by_contra hquiet
      refine hnone ?_
      rw [generate, hlive, hi.alarm, if_neg Bool.false_ne_true, if_pos]
      rw [Bool.not_eq_true] at hquiet
      rw [hquiet]
      rfl
    have hmem : mem = true := by
      by_contra hfull
      refine hnone ?_
      rw [generate, hlive, hsend]
      simp [hfull]
    obtain ⟨top, below, hrev, hgen⟩ :=
      generate_frame hi.counted hlive hsend (hi.ready hlive hsend) now
    rw [hmem]
    refine ⟨⟨_, by rw [hgen]; rfl, ?_⟩, fun frame g' h => ?_⟩
    · exact ⟨iff_of_true hi.counted trivial, fun _ => hi.lt, hi.chain, hi.words, rfl,
        fun _ _ hs => Bool.noConfusion hs⟩
    · rw [hgen] at h
      obtain ⟨hframe, _⟩ := Prod.mk.inj (Option.some.inj h)
      rw [← Option.some.inj hframe]
      exact makeFrame_ok hi.counted hi.lt hrev now

theorem call_kept {g : AckGenerator} (hi : CountInv g) {e : Call} (hw : e.IsWord) :
    (∃ g', e.step g = some g' ∧ Kept g g' e) ∧ FrameOk g e := by
  cases e with
  | received mem num recvTime shouldAck =>
    exact ⟨received_kept hi mem hw recvTime shouldAck, trivial⟩
  | setIgnoreThrehold num => exact ⟨⟨_, rfl, setIgnoreThrehold_kept hi hw⟩, trivial⟩
  | generate mem now => exact generate_kept hi mem now
  | drop =>
    refine ⟨⟨_, rfl, ?_⟩, trivial⟩
    exact ⟨iff_of_true rfl trivial, fun _ => Nat.two_pow_pos 32, .nil, List.forall_mem_nil _, hi.alarm,
      fun _ h => Bool.noConfusion h⟩

theorem callOk_iff {g : AckGenerator} (hi : CountInv g) {e : Call} (hw : e.IsWord) :
    CallOk g e ↔ Guarded g e := by
  obtain ⟨⟨g', hg', hk⟩, hframe⟩ := call_kept hi hw
  constructor
  · rintro ⟨⟨g2, hg2, hc⟩, _⟩
    rw [Option.some.inj (hg2.symm.trans hg')] at hc
    exact hk.counted.mp hc
  · exact fun hg => ⟨⟨g', hg', hk.counted.mpr hg⟩, hframe⟩

/-- **The count of the ranges.**  The guarded runs are exactly those in which the count is the length
of the list after every call, and every frame is made of the list. -/
theorem rangesCount_iff (es : List Call) (hw : ∀ e ∈ es, e.IsWord) :
    (∀ past e, past ++ [e] <+: es → ∀ g, Runs.run Call.step init past = some g → CallOk g e) ↔
      Runs.Along Call.step Guarded init es := by
  have hok : Runs.Along (fun g e => Call.step g e) (fun _ e => e.IsWord) init es :=
    Runs.Along.of_mem _ hw
  refine Runs.steps_iff_along (fun g e hi hwe => callOk_iff hi hwe) (fun g e g' hi hwe hg h => ?_) es
    countInv_init hok
  obtain ⟨⟨g2, hg2, hk⟩, _⟩ := call_kept hi hwe
  rw [Option.some.inj (h.symm.trans hg2)]
  exact hk.inv hg

instance decidableIsWord : (e : Call) → Decidable e.IsWord
  | .received _ num _ _ => inferInstanceAs (Decidable (num < 2 ^ 64))
  | .setIgnoreThrehold num => inferInstanceAs (Decidable (num < 2 ^ 64))
  | .generate _ _ => isTrue trivial
  | .drop => isTrue trivial

instance decidableGuarded (g : AckGenerator) : (e : Call) → Decidable (Guarded g e)
  | .received _ _ _ _ => inferInstanceAs (Decidable (_ → _ → _ → _))
  | .setIgnoreThrehold _ => inferInstanceAs (Decidable (_ → ∀ r ∈ g.ranges.head?, _ ∨ _))
  | .generate _ _ => isTrue trivial
  | .drop => isTrue trivial

/-- numbers out of order, and a threshold within the first range -/
def threholdInside : List Call :=
  [.received true 1 10 true, .received true 5 11 true, .received true 2 12 true,
    .setIgnoreThrehold 2, .generate true 20, .drop]

theorem rangesCount_iff_threholdInside :
    (∀ e ∈ threholdInside, e.IsWord) ∧
    ((∀ past e, past ++ [e] <+: threholdInside → ∀ g,
      Runs.run Call.step init past = some g → CallOk g e) ↔
        Runs.Along Call.step Guarded init threholdInside) :=
  have h : ∀ e ∈ threholdInside, e.IsWord := by decide
  ⟨h, rangesCount_iff threholdInside h⟩

/-- A threshold above the first range frees it, and the count keeps it. -/
theorem not_rangesCount :
    ¬ ∀ es : List Call, (∀ e ∈ es, e.IsWord) → ∀ past e, past ++ [e] <+: es → ∀ g,
      Runs.run Call.step init past = some g → CallOk g e := by
  intro h
  have hrun : (Runs.run Call.step init [.received true 1 10 true, .received true 5 11 true]).map
      (fun g => (g.setIgnoreThrehold 3).rangesCount == (g.setIgnoreThrehold 3).ranges.length) =
      some false := by decide +kernel
  obtain ⟨g, hg, hv⟩ := Option.map_eq_some_iff.mp hrun
  obtain ⟨g', hg', hc⟩ := (h [.received true 1 10 true, .received true 5 11 true,
    .setIgnoreThrehold 3] (by decide) _ _ List.prefix_rfl g hg).counted
  rw [← Option.some.inj hg'] at hc
  exact absurd hc (ne_of_beq_false hv)

end AckGenerator
end OpenQuic
