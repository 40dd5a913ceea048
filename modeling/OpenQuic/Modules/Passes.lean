import OpenQuic.Modules.Retransmission
import Mathlib.Data.List.Nodup

/-!
# What a pass over the sent packets does

Both passes take some packets out of `sent_mem` and leave the others.  `Hits` is what one packet
does to a pass, `Passed` what the whole pass does to the module:

* `Passed`, `pass_spec`       the effect of a pass, from the effect of each packet;
* `tested`                    the ranges that the loop over an ACK frame tests;
* `ackRanges_eq`, `acked_passed`   the acknowledgement pass, where no packet is in two of them;
* `ackRanges_calls`           it reports a packet once for each tested range that it is in;
* `lost_passed`               the loss pass;
* `handleAckFrame_passed`     an ACK frame is both, one after the other.
-/

set_option linter.unusedSimpArgs false

namespace OpenQuic
open Word

namespace Recovery

/-! ## one packet -/

/-- what a packet that is taken out leaves in the tree when its node of the drop list is missing -/
def SentPacket.cleared (pkt : SentPacket) : SentPacket := { pkt with frames := [] }

/-- the bytes that a packet has in `unacked_len` -/
def weight (pkt : SentPacket) : Nat := if pkt.includedUnacked then pkt.pktLen else 0

/-- The packet is taken out when `hit` says so; `ok` is its allocation, `calls` and `requeue` the
calls and the frames that go back to the queue. -/
structure Hits (hit ok : Bool) (calls : List Call) (requeue : List Frame) (num : Nat)
    (pkt : SentPacket) (p : Pass) (x : SentPacket × Pass) : Prop where
  left : x.1 = if hit then SentPacket.cleared pkt else pkt
  dropList : x.2.dropList = if hit && ok then num :: p.dropList else p.dropList
  count : x.2.m.rtx.sentPktCount =
    if hit then sub32 p.m.rtx.sentPktCount 1 else p.m.rtx.sentPktCount
  unacked : x.2.m.rtx.unackedLen =
    if hit && pkt.includedUnacked then sub32 p.m.rtx.unackedLen pkt.pktLen else p.m.rtx.unackedLen
  calls : x.2.calls = p.calls ++ if hit then calls else []
  queue : x.2.m.rtx.retransmissionQueue =
    p.m.rtx.retransmissionQueue ++ if hit then requeue else []
  dropped : x.2.m.rtx.dropped = p.m.rtx.dropped

/-- a packet that stays, with a module that differs in other fields only -/
theorem Hits.stay {calls : List Call} {requeue : List Frame} {ok : Bool} {num : Nat}
    {pkt : SentPacket} {p p' : Pass} (hd : p'.dropList = p.dropList)
    (hn : p'.m.rtx.sentPktCount = p.m.rtx.sentPktCount)
    (hu : p'.m.rtx.unackedLen = p.m.rtx.unackedLen) (hc : p'.calls = p.calls)
    (hq : p'.m.rtx.retransmissionQueue = p.m.rtx.retransmissionQueue)
    (hx : p'.m.rtx.dropped = p.m.rtx.dropped) :
    Hits false ok calls requeue num pkt p (pkt, p') :=
  ⟨rfl, hd, hn, hu, by simpa using hc, by simpa using hq, hx⟩

def ackCall (f : Frame) : Call := if f.onAcked.isSome then .onAcked f else .freeAcked f
def lostCall (f : Frame) : Call := if f.onLost then .onLost f else .freeLost f

/-- a pass that has made more calls and put frames back into the queue -/
def Pass.after (p : Pass) (queue : List Frame) (calls : List Call) : Pass :=
  { p with
    m := { p.m with rtx := { p.m.rtx with
      retransmissionQueue := p.m.rtx.retransmissionQueue ++ queue } }
    calls := p.calls ++ calls }

theorem Pass.after_nil (p : Pass) : p.after [] [] = p := by
  simp only [Pass.after, List.append_nil]

theorem Pass.after_after (p : Pass) (q q' : List Frame) (c c' : List Call) :
    (p.after q c).after q' c' = p.after (q ++ q') (c ++ c') := by
  simp only [Pass.after, List.append_assoc]

theorem foldl_ackFrame (fs : List Frame) (p : Pass) :
    fs.foldl Pass.ackFrame p = p.after [] (fs.map ackCall) := by
  induction fs generalizing p with
  | nil => exact p.after_nil.symm
  | cons f fs ih =>
    have hstep : p.ackFrame f = p.after [] [ackCall f] := by
      simp only [Pass.ackFrame, Pass.after, List.append_nil, ackCall]
    rw [List.foldl_cons, ih, hstep, Pass.after_after, List.nil_append, List.singleton_append,
      List.map_cons]

theorem foldl_loseFrame (fs : List Frame) (p : Pass) (hd : p.m.rtx.dropped = false) :
    fs.foldl Pass.loseFrame p = p.after (fs.filter Frame.onLost) (fs.map lostCall) := by
  induction fs generalizing p with
  | nil => exact p.after_nil.symm
  | cons f fs ih =>
    have hstep : p.loseFrame f = p.after ([f].filter Frame.onLost) [lostCall f] := by
      cases hf : f.onLost with
      | false => simp [Pass.loseFrame, lostCall, Pass.after, hf]
      | true =>
        have hq : p.m.rtx.frameInsert f = { p.m.rtx with
            retransmissionQueue := p.m.rtx.retransmissionQueue ++ [f] } := by
          rw [Retransmission.frameInsert, if_neg (by rw [hd]; decide)]
        simp [Pass.loseFrame, lostCall, Pass.after, hf, hq]
    have hd' : (p.after ([f].filter Frame.onLost) [lostCall f]).m.rtx.dropped = false := hd
    rw [List.foldl_cons, hstep, ih _ hd', Pass.after_after, ← List.filter_append,
      List.singleton_append, List.singleton_append, List.map_cons]

theorem uncount_spec (p : Pass) (pkt : SentPacket) (report : Congestion → Nat → Congestion) :
    (p.uncount pkt report).dropList = p.dropList ∧ (p.uncount pkt report).calls = p.calls ∧
      (p.uncount pkt report).m.rtx =
        { p.m.rtx with
          sentPktCount := sub32 p.m.rtx.sentPktCount 1
          unackedLen := if pkt.includedUnacked then sub32 p.m.rtx.unackedLen pkt.pktLen
            else p.m.rtx.unackedLen } := by
  rw [Pass.uncount]
  dsimp only
  cases pkt.includedUnacked with
  | false => simp only [Bool.false_eq_true, if_false, and_self]
  | true => simp only [if_true, and_self]

theorem uncount_dropped (p : Pass) (pkt : SentPacket) (report : Congestion → Nat → Congestion) :
    (p.uncount pkt report).m.rtx.dropped = p.m.rtx.dropped := by
  rw [(uncount_spec p pkt report).2.2]

theorem dropPacket_m (p : Pass) (mem : Bool) (num : Nat) :
    (p.dropPacket mem num).m = p.m ∧ (p.dropPacket mem num).calls = p.calls ∧
      (p.dropPacket mem num).dropList = if mem then num :: p.dropList else p.dropList := by
  rw [Pass.dropPacket]
  cases mem <;> exact ⟨rfl, rfl, rfl⟩

/-- the common part of the two passes: the drop list, the counters, and then the frames -/
theorem settled_hits (mem : Bool) (num : Nat) (pkt : SentPacket) (p : Pass)
    (report : Congestion → Nat → Congestion) (c : Call) (queue : List Frame) (calls : List Call) :
    Hits true mem (c :: calls) queue num pkt p
      (SentPacket.cleared pkt,
        Pass.after
          { (p.dropPacket mem num).uncount pkt report with
            calls := ((p.dropPacket mem num).uncount pkt report).calls ++ [c] } queue calls) := by
  obtain ⟨hm, hc, hd⟩ := dropPacket_m p mem num
  obtain ⟨hd', hc', hr⟩ := uncount_spec (p.dropPacket mem num) pkt report
  rw [hm] at hr
  generalize (p.dropPacket mem num).uncount pkt report = q at hd' hc' hr ⊢
  refine ⟨rfl, ?_, ?_, ?_, ?_, ?_, ?_⟩
  · show q.dropList = _
    rw [hd', hd, Bool.true_and]
  · show q.m.rtx.sentPktCount = _
    rw [hr, if_pos rfl]
  · show q.m.rtx.unackedLen = _
    rw [hr, Bool.true_and]
  · show (q.calls ++ [c]) ++ calls = _
    rw [hc', hc, List.append_assoc, List.singleton_append, if_pos rfl]
  · show q.m.rtx.retransmissionQueue ++ queue = _
    rw [hr, if_pos rfl]
  · show q.m.rtx.dropped = _
    rw [hr]

theorem ackPacket_hits (cfg : Config) (cbrt : Nat → Nat) (mem : Bool) (recvTime num : Nat)
    (pkt : SentPacket) (p : Pass) :
    Hits true mem (.ackedPacket num :: pkt.frames.map ackCall) [] num pkt p
      (p.ackPacket cfg cbrt mem recvTime num pkt) := by
  rw [Pass.ackPacket, foldl_ackFrame]
  exact settled_hits mem num pkt p _ _ _ _

theorem losePacket_hits (cfg : Config) (mem : Bool) (num : Nat) (pkt : SentPacket) (p : Pass)
    (hd : p.m.rtx.dropped = false) :
    Hits true mem (.lostPacket num :: pkt.frames.map lostCall) (pkt.frames.filter Frame.onLost) num
      pkt p (p.losePacket cfg mem num pkt) := by
  have h := settled_hits mem num pkt p (fun c unackedLen => c.onLost cfg num pkt.pktLen unackedLen)
    (.lostPacket num) (pkt.frames.filter Frame.onLost) (pkt.frames.map lostCall)
  rw [Pass.losePacket, foldl_loseFrame]
  · exact h
  · show ((p.dropPacket mem num).uncount pkt _).m.rtx.dropped = false
    rw [uncount_dropped, (dropPacket_m p mem num).1]
    exact hd

/-! ## the whole pass -/

structure Passed (hit : Nat → SentPacket → Bool) (ok : Nat → Bool)
    (calls : Nat → SentPacket → List Call) (requeue : SentPacket → List Frame)
    (m m' : Recovery) (cs : List Call) : Prop where
  sentMem : m'.rtx.sentMem.entries =
    (m.rtx.sentMem.entries.filter fun e => !(hit e.1 e.2 && ok e.1)).map fun e =>
      (e.1, if hit e.1 e.2 then SentPacket.cleared e.2 else e.2)
  count : (m.rtx.sentMem.entries.filter fun e => hit e.1 e.2).length ≤ m.rtx.sentPktCount →
    m.rtx.sentPktCount < 2 ^ 32 →
    m'.rtx.sentPktCount =
      m.rtx.sentPktCount - (m.rtx.sentMem.entries.filter fun e => hit e.1 e.2).length
  unacked : ((m.rtx.sentMem.entries.filter fun e => hit e.1 e.2).map fun e => weight e.2).sum ≤
      m.rtx.unackedLen →
    m.rtx.unackedLen < 2 ^ 32 →
    m'.rtx.unackedLen = m.rtx.unackedLen -
      ((m.rtx.sentMem.entries.filter fun e => hit e.1 e.2).map fun e => weight e.2).sum
  calls : cs = (m.rtx.sentMem.entries.filter fun e => hit e.1 e.2).flatMap fun e => calls e.1 e.2
  queue : m'.rtx.retransmissionQueue = m.rtx.retransmissionQueue ++
    (m.rtx.sentMem.entries.filter fun e => hit e.1 e.2).flatMap fun e => requeue e.2
  dropped : m'.rtx.dropped = m.rtx.dropped

/-- packets that are in the tree, each named once, are removed one after the other -/
theorem dropPacketExecute_eq (l : List Nat) (sentMem : Rbt SentPacket) (hnd : l.Nodup)
    (hin : ∀ n ∈ l, ∃ pkt, (n, pkt) ∈ sentMem.entries) :
    ∃ sentMem', dropPacketExecute l sentMem = some sentMem' ∧
      sentMem'.entries = sentMem.entries.filter fun e => e.1 ∉ l := by
  induction l generalizing sentMem with
  | nil =>
    refine ⟨sentMem, rfl, ?_⟩
    simp
  | cons n l ih =>
    obtain ⟨hn, hl⟩ := List.nodup_cons.mp hnd
    obtain ⟨pkt, hpkt⟩ := hin n List.mem_cons_self
    have hfind : sentMem.find n = some pkt := OrdMap.find_eq_some.mpr hpkt
    obtain ⟨sm, hsm, hes⟩ := ih (sentMem.erase n) hl fun k hk => by
      obtain ⟨q, hq⟩ := hin k (List.mem_cons_of_mem _ hk)
      exact ⟨q, OrdMap.mem_erase.mpr ⟨hq, fun h => hn (h ▸ hk)⟩⟩
    refine ⟨sm, ?_, ?_⟩
    · rw [dropPacketExecute, hfind, if_neg (by simp)]
      exact hsm
    · rw [hes]
      show (sentMem.entries.filter _).filter _ = _
      rw [List.filter_filter]
      refine List.filter_congr fun e _ => ?_
      simp only [List.mem_cons, not_or, Bool.decide_and, Bool.and_comm]

section
variable {hit : Nat → SentPacket → Bool} {ok : Nat → Bool}
  {calls : Nat → SentPacket → List Call} {requeue : SentPacket → List Frame}
  {f : Nat → SentPacket → Pass → SentPacket × Pass}

/-- the state of the loop after some packets -/
structure Folded (hit : Nat → SentPacket → Bool) (ok : Nat → Bool)
    (calls : Nat → SentPacket → List Call) (requeue : SentPacket → List Frame)
    (es : List (Nat × SentPacket)) (p p' : Pass) : Prop where
  dropList : p'.dropList =
    ((es.filter fun e => hit e.1 e.2 && ok e.1).map Prod.fst).reverse ++ p.dropList
  count : (es.filter fun e => hit e.1 e.2).length ≤ p.m.rtx.sentPktCount →
    p.m.rtx.sentPktCount < 2 ^ 32 →
    p'.m.rtx.sentPktCount = p.m.rtx.sentPktCount - (es.filter fun e => hit e.1 e.2).length
  unacked : ((es.filter fun e => hit e.1 e.2).map fun e => weight e.2).sum ≤ p.m.rtx.unackedLen →
    p.m.rtx.unackedLen < 2 ^ 32 →
    p'.m.rtx.unackedLen =
      p.m.rtx.unackedLen - ((es.filter fun e => hit e.1 e.2).map fun e => weight e.2).sum
  calls : p'.calls = p.calls ++ (es.filter fun e => hit e.1 e.2).flatMap fun e => calls e.1 e.2
  queue : p'.m.rtx.retransmissionQueue = p.m.rtx.retransmissionQueue ++
    (es.filter fun e => hit e.1 e.2).flatMap fun e => requeue e.2
  dropped : p'.m.rtx.dropped = p.m.rtx.dropped

/-- a packet that is not hit, in front of the others -/
theorem Folded.cons_miss {e : Nat × SentPacket} {es : List (Nat × SentPacket)} {p p' : Pass}
    {x : SentPacket × Pass} (hhit : hit e.1 e.2 = false)
    (h : Hits (hit e.1 e.2) (ok e.1) (calls e.1 e.2) (requeue e.2) e.1 e.2 p x)
    (hes : Folded hit ok calls requeue es x.2 p') : Folded hit ok calls requeue (e :: es) p p' := by
  obtain ⟨h1, h2, h3, h4, h5, h6⟩ := hes
  rw [hhit] at h
  have hdl := h.dropList
  have hc := h.calls
  have hqu := h.queue
  have hco := h.count
  have hun := h.unacked
  simp only [Bool.false_and, Bool.false_eq_true, if_false, List.append_nil] at hdl hc hqu hco hun
  rw [hdl] at h1
  rw [hco] at h2
  rw [hun] at h3
  rw [hc] at h4
  rw [hqu] at h5
  have hfl : (e :: es).filter (fun e => hit e.1 e.2) = es.filter fun e => hit e.1 e.2 :=
    List.filter_cons_of_neg (by rw [hhit]; decide)
  have hfl' : (e :: es).filter (fun e => hit e.1 e.2 && ok e.1) =
      es.filter fun e => hit e.1 e.2 && ok e.1 :=
    List.filter_cons_of_neg (by rw [hhit, Bool.false_and]; decide)
  refine ⟨?_, ?_, ?_, ?_, ?_, h6.trans h.dropped⟩
  · rw [hfl']; exact h1
  · rw [hfl]; exact h2
  · rw [hfl]; exact h3
  · rw [hfl]; exact h4
  · rw [hfl]; exact h5

/-- a packet that is hit, in front of the others -/
theorem Folded.cons_hit {e : Nat × SentPacket} {es : List (Nat × SentPacket)} {p p' : Pass}
    {x : SentPacket × Pass} (hhit : hit e.1 e.2 = true)
    (h : Hits (hit e.1 e.2) (ok e.1) (calls e.1 e.2) (requeue e.2) e.1 e.2 p x)
    (hes : Folded hit ok calls requeue es x.2 p') : Folded hit ok calls requeue (e :: es) p p' := by
  obtain ⟨h1, h2, h3, h4, h5, h6⟩ := hes
  rw [hhit] at h
  have hdl := h.dropList
  have hc := h.calls
  have hqu := h.queue
  have hco := h.count
  have hun := h.unacked
  simp only [Bool.true_and, if_true] at hdl hc hqu hco hun
  have hfl : (e :: es).filter (fun e => hit e.1 e.2) = e :: es.filter fun e => hit e.1 e.2 :=
    List.filter_cons_of_pos hhit
  refine ⟨?_, ?_, ?_, ?_, ?_, h6.trans h.dropped⟩
  · rw [h1, hdl]
    cases hok : ok e.1 with
    | false =>
      rw [List.filter_cons_of_neg (by rw [hhit, hok]; decide), if_neg (by decide)]
    | true =>
      rw [List.filter_cons_of_pos (by rw [hhit, hok]; rfl), if_pos rfl, List.map_cons,
        List.reverse_cons, List.append_assoc, List.singleton_append]
  · rw [hfl, List.length_cons]
    intro hle hlt
    have hsub : sub32 p.m.rtx.sentPktCount 1 = p.m.rtx.sentPktCount - 1 :=
      sub32_of_le (by omega) hlt
    rw [hco, hsub] at h2
    rw [h2 (by omega) (by omega)]
    omega
  · rw [hfl, List.map_cons, List.sum_cons]
    intro hle hlt
    have hw : x.2.m.rtx.unackedLen = p.m.rtx.unackedLen - weight e.2 := by
      rw [hun, weight]
      rw [weight] at hle
      split
      · rename_i hi
        rw [if_pos hi] at hle
        exact sub32_of_le (by omega) hlt
      · rfl
    rw [hw] at h3
    rw [h3 (by omega) (by omega)]
    omega
  · rw [h4, hc, hfl, List.flatMap_cons, List.append_assoc]
  · rw [h5, hqu, hfl, List.flatMap_cons, List.append_assoc]

theorem foldl_folded (es : List (Nat × SentPacket)) (p : Pass) (hd : p.m.rtx.dropped = false)
    (hf : ∀ e ∈ es, ∀ p : Pass, p.m.rtx.dropped = false →
      Hits (hit e.1 e.2) (ok e.1) (calls e.1 e.2) (requeue e.2) e.1 e.2 p (f e.1 e.2 p)) :
    Folded hit ok calls requeue es p (es.foldl (fun p e => (f e.1 e.2 p).2) p) := by
  induction es generalizing p with
  | nil =>
    refine ⟨rfl, fun _ _ => rfl, fun _ _ => rfl, ?_, ?_, rfl⟩
    · exact (List.append_nil _).symm
    · exact (List.append_nil _).symm
  | cons e es ih =>
    have h := hf e List.mem_cons_self p hd
    have hes := ih (f e.1 e.2 p).2 (h.dropped.trans hd) fun g hg => hf g (List.mem_cons_of_mem _ hg)
    rw [List.foldl_cons]
    cases hhit : hit e.1 e.2 with
    | false => exact hes.cons_miss hhit h
    | true => exact hes.cons_hit hhit h

variable (hit ok calls requeue f) in
/-- **A pass takes out the packets that are hit.** -/
theorem pass_spec (m : Recovery) (hd : m.rtx.dropped = false)
    (hleft : ∀ e ∈ m.rtx.sentMem.entries, ∀ p, (f e.1 e.2 p).1 =
      if hit e.1 e.2 then SentPacket.cleared e.2 else e.2)
    (hf : ∀ e ∈ m.rtx.sentMem.entries, ∀ p : Pass, p.m.rtx.dropped = false →
      Hits (hit e.1 e.2) (ok e.1) (calls e.1 e.2) (requeue e.2) e.1 e.2 p (f e.1 e.2 p)) :
    ∃ m' cs, finish (m.rtx.sentMem.foreach f ⟨m, [], []⟩) = some (m', cs) ∧
      Passed hit ok calls requeue m m' cs := by
  have hfold := foldl_folded m.rtx.sentMem.entries ⟨m, [], []⟩ hd hf
  rw [← OrdMap.foreach_snd] at hfold
  have hmap := m.rtx.sentMem.foreach_fst
    (g := fun num pkt => if hit num pkt then SentPacket.cleared pkt else pkt) hleft ⟨m, [], []⟩
  generalize m.rtx.sentMem.foreach f ⟨m, [], []⟩ = x at hfold hmap ⊢
  obtain ⟨h1, h2, h3, h4, h5, h6⟩ := hfold
  rw [List.append_nil] at h1
  -- the nodes of the drop list are the keys of the packets that are hit and have one
  have hmem : ∀ e ∈ m.rtx.sentMem.entries, e.1 ∈ x.2.dropList ↔ (hit e.1 e.2 && ok e.1) = true := by
    intro e he
    rw [h1, List.mem_reverse, List.mem_map]
    constructor
    · rintro ⟨g, hg, hge⟩
      obtain ⟨hg1, hg2⟩ := List.mem_filter.mp hg
      have hv : g.2 = e.2 := m.rtx.sentMem.val_unique (k := e.1) (hge ▸ hg1) he
      rwa [hge, hv] at hg2
    · exact fun h => ⟨e, List.mem_filter.mpr ⟨he, h⟩, rfl⟩
  have hnd : x.2.dropList.Nodup := by
    rw [h1]
    refine List.nodup_reverse.mpr ?_
    have hs := m.rtx.sentMem.sorted.filter fun e => hit e.1 e.2 && ok e.1
    exact List.pairwise_map.mpr (hs.imp fun h => Nat.ne_of_lt h)
  obtain ⟨sm, hsm, hes⟩ := dropPacketExecute_eq x.2.dropList x.1 hnd fun n hn => by
    rw [h1, List.mem_reverse, List.mem_map] at hn
    obtain ⟨g, hg, rfl⟩ := hn
    rw [hmap]
    exact ⟨_, List.mem_map.mpr ⟨g, (List.mem_filter.mp hg).1, rfl⟩⟩
  refine ⟨{ x.2.m with rtx := { x.2.m.rtx with sentMem := sm } }, x.2.calls,
    by rw [finish, hsm, Option.map_some], ?_, h2, h3, h4, h5, h6⟩
  show sm.entries = _
  rw [hes, hmap]
  show (List.map _ m.rtx.sentMem.entries).filter _ = _
  rw [List.filter_map]
  congr 1
  refine List.filter_congr fun e he => ?_
  have hiff := hmem e he
  by_cases hin : e.1 ∈ x.2.dropList
  · simp [hin, hiff.mp hin]
  · have hno := mt hiff.mpr hin
    simp only [Bool.not_eq_true] at hno
    simp [hin, hno]

end

/-- where every allocation succeeds, the packets that are hit are gone and the others untouched -/
theorem Passed.taken {hit : Nat → SentPacket → Bool} {ok : Nat → Bool}
    {calls : Nat → SentPacket → List Call} {requeue : SentPacket → List Frame} {m m' : Recovery}
    {cs : List Call} (h : Passed hit ok calls requeue m m' cs)
    (hok : ∀ e ∈ m.rtx.sentMem.entries, hit e.1 e.2 = true → ok e.1 = true) :
    m'.rtx.sentMem.entries = m.rtx.sentMem.entries.filter fun e => !hit e.1 e.2 := by
  have hfl : m.rtx.sentMem.entries.filter (fun e => !(hit e.1 e.2 && ok e.1)) =
      m.rtx.sentMem.entries.filter fun e => !hit e.1 e.2 := by
    refine List.filter_congr fun e he => ?_
    cases hh : hit e.1 e.2 with
    | false => rfl
    | true => rw [hok e he hh]; rfl
  rw [h.sentMem, hfl]
  have hid : ∀ e ∈ m.rtx.sentMem.entries.filter (fun e => !hit e.1 e.2),
      (e.1, if hit e.1 e.2 then SentPacket.cleared e.2 else e.2) = id e := by
    intro e he
    have hn : hit e.1 e.2 = false := by simpa using (List.mem_filter.mp he).2
    rw [hn]
    rfl
  rw [List.map_congr_left hid, List.map_id]

/-! ## the acknowledgement pass -/

/-- the ranges that `n` turns of the loop test -/
def testedFrom (a : AckFrame) : (n i start stop : Nat) → List (Nat × Nat)
  | 0, _, _, _ => []
  | n + 1, i, start, stop =>
    (start, stop) ::
      testedFrom a n (i + 1) (Pass.nextRange a i start stop).1 (Pass.nextRange a i start stop).2

def tested (a : AckFrame) : List (Nat × Nat) :=
  testedFrom a (max 1 a.count) 0 (sub64 a.largestAck a.firstRange) a.largestAck

def within (num : Nat) (r : Nat × Nat) : Bool := decide (r.1 ≤ num ∧ num ≤ r.2)

/-- the number of a tested range -/
def acks (a : AckFrame) (num : Nat) : Bool := (tested a).any (within num)

/-- which of the tested ranges it is in first -/
def ackedAt (a : AckFrame) (num : Nat) : Nat := (tested a).findIdx (within num)

/-- the number is in one tested range at most -/
def AckedOnce (a : AckFrame) (num : Nat) : Prop := (tested a).countP (within num) ≤ 1

instance (a : AckFrame) (num : Nat) : Decidable (AckedOnce a num) :=
  inferInstanceAs (Decidable (_ ≤ _))

section
variable (cfg : Config) (cbrt : Nat → Nat) (mem : Nat → Bool) (a : AckFrame) (num : Nat)

theorem ackRanges_none (n i start stop : Nat) (pkt : SentPacket) (p : Pass)
    (h : (testedFrom a n i start stop).countP (within num) = 0) :
    p.ackRanges cfg cbrt mem a num n i start stop pkt = (pkt, p) := by
  induction n generalizing i start stop with
  | zero => rfl
  | succ n ih =>
    rw [testedFrom, List.countP_cons] at h
    have hw : within num (start, stop) = false := by
      by_contra hw
      rw [if_pos (by simpa using hw)] at h
      omega
    rw [hw, if_neg (by decide), Nat.add_zero] at h
    rw [Pass.ackRanges, if_neg (by simpa [within] using hw)]
    exact ih _ _ _ h

theorem ackRanges_eq (n i start stop : Nat) (pkt : SentPacket) (p : Pass)
    (h : (testedFrom a n i start stop).countP (within num) ≤ 1) :
    p.ackRanges cfg cbrt mem a num n i start stop pkt =
      if (testedFrom a n i start stop).any (within num) then
        p.ackPacket cfg cbrt (mem (i + (testedFrom a n i start stop).findIdx (within num)))
          a.recvTime num pkt
      else (pkt, p) := by
  induction n generalizing i start stop with
  | zero => rfl
  | succ n ih =>
    rw [testedFrom, List.countP_cons] at h
    rw [Pass.ackRanges, testedFrom, List.any_cons, List.findIdx_cons]
    cases hw : within num (start, stop) with
    | true =>
      rw [hw, if_pos rfl] at h
      rw [if_pos (by simpa [within] using hw), ackRanges_none cfg cbrt mem a num _ _ _ _ _ _ (by omega)]
      rfl
    | false =>
      rw [hw, if_neg (by decide), Nat.add_zero] at h
      rw [if_neg (by simpa [within] using hw), ih _ _ _ h, Bool.false_or]
      simp only [cond_false, Nat.add_assoc, Nat.add_comm 1]

end

def ackedCalls (num : Nat) (pkt : SentPacket) : List Call :=
  .ackedPacket num :: pkt.frames.map ackCall

/-- **The acknowledgement pass**, where no packet is in two tested ranges. -/
theorem acked_passed (cfg : Config) (cbrt : Nat → Nat) (mem : Nat → Nat → Bool) (m : Recovery)
    (a : AckFrame) (hd : m.rtx.dropped = false)
    (hone : ∀ e ∈ m.rtx.sentMem.entries, AckedOnce a e.1) :
    ∃ m' cs, findNewlyAcked cfg cbrt mem m a = some (m', cs) ∧
      Passed (fun num _ => acks a num) (fun num => mem num (ackedAt a num)) ackedCalls
        (fun _ => []) m m' cs := by
  have hstep : ∀ e ∈ m.rtx.sentMem.entries, ∀ p : Pass,
      Hits (acks a e.1) (mem e.1 (ackedAt a e.1)) (ackedCalls e.1 e.2) [] e.1 e.2 p
        (p.ackRanges cfg cbrt (mem e.1) a e.1 (max 1 a.count) 0
          (sub64 a.largestAck a.firstRange) a.largestAck e.2) := by
    intro e he p
    rw [ackRanges_eq cfg cbrt (mem e.1) a e.1 _ _ _ _ _ _ (hone e he), Nat.zero_add]
    show Hits (acks a e.1) _ _ _ _ _ _ (if acks a e.1 then _ else _)
    cases acks a e.1 with
    | true => exact ackPacket_hits cfg cbrt _ _ _ _ _
    | false => exact Hits.stay rfl rfl rfl rfl rfl rfl
  obtain ⟨m', cs, hres, hp⟩ := pass_spec (fun num _ => acks a num)
    (fun num => mem num (ackedAt a num)) ackedCalls (fun _ => [])
    (fun num pkt p => p.ackRanges cfg cbrt (mem num) a num (max 1 a.count) 0
      (sub64 a.largestAck a.firstRange) a.largestAck pkt) m hd
    (fun e he p => (hstep e he p).left) (fun e he p _ => hstep e he p)
  refine ⟨m', cs, ?_, hp⟩
  rw [findNewlyAcked, if_neg (by rw [hd]; decide)]
  exact hres

/-! ## the loss pass -/

/-- setting the alarm leaves everything else as it is -/
theorem updateAlarm_frame (m : Recovery) :
    (updateAlarm m).rtx.sentMem = m.rtx.sentMem ∧
      (updateAlarm m).rtx.sentPktCount = m.rtx.sentPktCount ∧
      (updateAlarm m).rtx.unackedLen = m.rtx.unackedLen ∧
      (updateAlarm m).rtx.retransmissionQueue = m.rtx.retransmissionQueue ∧
      (updateAlarm m).rtx.dropped = m.rtx.dropped ∧ (updateAlarm m).cong = m.cong := by
  rw [updateAlarm]
  split
  · exact ⟨rfl, rfl, rfl, rfl, rfl, rfl⟩
  · split <;> exact ⟨rfl, rfl, rfl, rfl, rfl, rfl⟩

/-- the packet was sent before the times that count as lost -/
def isLost (c : Congestion) (now : Time) (pkt : SentPacket) : Bool :=
  decide (pkt.sentTime < sub64 now (lostDelay c))

def lostCalls (num : Nat) (pkt : SentPacket) : List Call :=
  .lostPacket num :: pkt.frames.map lostCall

theorem checkLost_hits (cfg : Config) (mem : Nat → Bool) (c : Congestion) (now num : Nat)
    (pkt : SentPacket) (p : Pass) (hd : p.m.rtx.dropped = false) :
    Hits (isLost c now pkt) (mem num) (lostCalls num pkt) (pkt.frames.filter Frame.onLost) num pkt p
      (p.checkLost cfg mem (lostDelay c) (sub64 now (lostDelay c)) num pkt) := by
  rw [Pass.checkLost]
  by_cases h : pkt.sentTime < sub64 now (lostDelay c)
  · have hl : isLost c now pkt = true := decide_eq_true h
    rw [if_pos h, hl]
    exact losePacket_hits cfg _ _ _ _ hd
  · have hl : isLost c now pkt = false := decide_eq_false h
    rw [if_neg h, hl]
    split
    · obtain ⟨_, hn, hu, hq, hx, _⟩ := updateAlarm_frame { p.m with rtx := { p.m.rtx with
        lossTime := add64 pkt.sentTime (lostDelay c) } }
      exact Hits.stay rfl hn hu rfl hq hx
    · exact Hits.stay rfl rfl rfl rfl rfl rfl

theorem checkLost_left (cfg : Config) (mem : Nat → Bool) (c : Congestion) (now num : Nat)
    (pkt : SentPacket) (p : Pass) :
    (p.checkLost cfg mem (lostDelay c) (sub64 now (lostDelay c)) num pkt).1 =
      if isLost c now pkt then SentPacket.cleared pkt else pkt := by
  rw [Pass.checkLost]
  by_cases h : pkt.sentTime < sub64 now (lostDelay c)
  · have hl : isLost c now pkt = true := decide_eq_true h
    rw [if_pos h, hl]
    rfl
  · have hl : isLost c now pkt = false := decide_eq_false h
    rw [if_neg h, hl]
    split <;> rfl

/-- **The loss pass.** -/
theorem lost_passed (cfg : Config) (mem : Nat → Bool) (m : Recovery) (now : Time)
    (hd : m.rtx.dropped = false) :
    ∃ m' cs, findNewlyLost cfg mem m now = some (m', cs) ∧
      Passed (fun _ pkt => isLost m.cong now pkt) mem lostCalls
        (fun pkt => pkt.frames.filter Frame.onLost) m m' cs := by
  obtain ⟨m', cs, hres, hp⟩ := pass_spec
    (fun _ pkt => isLost m.cong now pkt) mem lostCalls (fun pkt => pkt.frames.filter Frame.onLost)
    (fun num pkt p => p.checkLost cfg mem (lostDelay m.cong) (sub64 now (lostDelay m.cong)) num pkt)
    { m with rtx := { m.rtx with lossTime := 0 } } hd
    (fun e _ p => checkLost_left cfg mem m.cong now e.1 e.2 p)
    (fun e _ p hp => checkLost_hits cfg mem m.cong now e.1 e.2 p hp)
  refine ⟨m', cs, ?_, hp.sentMem, hp.count, hp.unacked, hp.calls, hp.queue, hp.dropped⟩
  rw [findNewlyLost, if_neg (by rw [hd]; decide)]
  exact hres

/-! ## an ACK frame -/

/-- the sample leaves the packets and the queue as they are -/
theorem sampleAck_frame (m : Recovery) (short : Bool) (a : AckFrame) :
    (sampleAck m short a).rtx.sentMem = m.rtx.sentMem ∧
      (sampleAck m short a).rtx.sentPktCount = m.rtx.sentPktCount ∧
      (sampleAck m short a).rtx.unackedLen = m.rtx.unackedLen ∧
      (sampleAck m short a).rtx.retransmissionQueue = m.rtx.retransmissionQueue ∧
      (sampleAck m short a).rtx.dropped = m.rtx.dropped := by
  unfold sampleAck
  dsimp only
  cases m.rtx.sentMem.find a.largestAck <;> exact ⟨rfl, rfl, rfl, rfl, rfl⟩

/-- `m'` is what an acknowledgement pass and a loss pass make of `m`, with their calls -/
structure BothPassed (cfg : Config) (cbrt : Nat → Nat) (ackMem : Nat → Nat → Bool)
    (lostMem : Nat → Bool) (a : AckFrame) (clock : Time) (m m1 m2 : Recovery)
    (cs1 cs2 : List Call) : Prop where
  ackedRun : findNewlyAcked cfg cbrt ackMem m a = some (m1, cs1)
  acked : Passed (fun num _ => acks a num) (fun num => ackMem num (ackedAt a num)) ackedCalls
    (fun _ => []) m m1 cs1
  lostRun : findNewlyLost cfg lostMem m1 clock = some (m2, cs2)
  lost : Passed (fun _ pkt => isLost m1.cong clock pkt) lostMem lostCalls
    (fun pkt => pkt.frames.filter Frame.onLost) m1 m2 cs2

/-- **An ACK frame** is an acknowledgement pass and a loss pass, where no packet is in two tested
ranges. -/
theorem handleAckFrame_passed (cfg : Config) (cbrt : Nat → Nat) (ackMem : Nat → Nat → Bool)
    (lostMem : Nat → Bool) (m : Recovery) (short : Bool) (a : AckFrame) (clock : Time)
    (hd : m.rtx.dropped = false) (hone : ∀ e ∈ m.rtx.sentMem.entries, AckedOnce a e.1) :
    ∃ m1 cs1 m2 cs2,
      BothPassed cfg cbrt ackMem lostMem a clock (sampleAck m short a) m1 m2 cs1 cs2 ∧
      handleAckFrame cfg cbrt ackMem lostMem m short a clock =
        some (updateAlarm { m2 with rtx := { m2.rtx with ptoCount := 0 } }, cs1 ++ cs2) := by
  obtain ⟨hsm, _, _, _, hdrop⟩ := sampleAck_frame m short a
  obtain ⟨m1, cs1, h1, hp1⟩ := acked_passed cfg cbrt ackMem (sampleAck m short a) a
    (hdrop.trans hd) (hsm ▸ hone)
  obtain ⟨m2, cs2, h2, hp2⟩ := lost_passed cfg lostMem m1 clock (hp1.dropped.trans (hdrop.trans hd))
  refine ⟨m1, cs1, m2, cs2, ⟨h1, hp1, h2, hp2⟩, ?_⟩
  rw [handleAckFrame, if_neg (by rw [hd]; decide), h1, Option.bind_some, h2, Option.map_some]

end Recovery

end OpenQuic
