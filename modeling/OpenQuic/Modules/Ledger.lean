import OpenQuic.Modules.Passes
import OpenQuic.Lib.Runs

/-!
# The counters of the retransmission module

The runs of one module: packets with distinct numbers are pushed, ACK frames with any field values
arrive, loss passes run at any time, and the other modules change what the passes read.

* `Counts`             `sent_pkt_count` and `unacked_len` are those of the packets in `sent_mem`;
* `Guarded`            the condition of a step: no packet in two tested ranges, no failed
                       allocation for a packet that is taken out, counters that stay below `2 ^ 32`;
* `counted_iff`        the runs in which the counters are right, and no packet is acknowledged or
                       lost twice, are the guarded ones;
* `handleAckFrame_run`, `moduleLoop_run`   the callers of the passes are such runs.
-/

namespace OpenQuic
open Word

namespace Recovery

/-! ## counters -/

def unackedSum (es : List (Nat × SentPacket)) : Nat := (es.map fun e => weight e.2).sum

structure Counts (r : Retransmission) : Prop where
  count : r.sentPktCount = r.sentMem.entries.length
  unacked : r.unackedLen = unackedSum r.sentMem.entries

theorem length_filter_split (es : List (Nat × SentPacket)) (p : Nat × SentPacket → Bool) :
    (es.filter p).length + (es.filter fun e => !p e).length = es.length := by
  have h := (List.filter_append_perm p es).length_eq
  rwa [List.length_append] at h

theorem unackedSum_split (es : List (Nat × SentPacket)) (p : Nat × SentPacket → Bool) :
    unackedSum (es.filter p) + unackedSum (es.filter fun e => !p e) = unackedSum es := by
  have h := ((List.filter_append_perm p es).map fun e => weight e.2).sum_nat
  rwa [List.map_append, List.sum_append] at h

section
variable {hit : Nat → SentPacket → Bool} {ok : Nat → Bool}
  {calls : Nat → SentPacket → List Call} {requeue : SentPacket → List Frame} {m m' : Recovery}
  {cs : List Call}

/-- a pass without a failed allocation keeps the counters -/
theorem Passed.counts (h : Passed hit ok calls requeue m m' cs) (hc : Counts m.rtx)
    (hn : m.rtx.sentPktCount < 2 ^ 32) (hu : m.rtx.unackedLen < 2 ^ 32)
    (hok : ∀ e ∈ m.rtx.sentMem.entries, hit e.1 e.2 = true → ok e.1 = true) :
    Counts m'.rtx ∧ m'.rtx.sentPktCount ≤ m.rtx.sentPktCount ∧
      m'.rtx.unackedLen ≤ m.rtx.unackedLen := by
  have htaken := h.taken hok
  have hlen := length_filter_split m.rtx.sentMem.entries fun e => hit e.1 e.2
  have hsum := unackedSum_split m.rtx.sentMem.entries fun e => hit e.1 e.2
  have hcount := h.count (by rw [hc.count]; omega) hn
  have hunacked := h.unacked (by rw [hc.unacked, ← hsum]; exact Nat.le_add_right _ _) hu
  have hcl := hc.count
  have hcu := hc.unacked
  refine ⟨⟨?_, ?_⟩, ?_, ?_⟩
  · rw [hcount, htaken]
    omega
  · rw [hunacked, htaken]
    show _ - unackedSum (m.rtx.sentMem.entries.filter fun e => hit e.1 e.2) = _
    omega
  · omega
  · omega

/-- a pass that keeps the counters has allocated a node for every packet that it took out -/
theorem Passed.allocated (h : Passed hit ok calls requeue m m' cs) (hc : Counts m.rtx)
    (hn : m.rtx.sentPktCount < 2 ^ 32) (hc' : Counts m'.rtx) :
    ∀ e ∈ m.rtx.sentMem.entries, hit e.1 e.2 = true → ok e.1 = true := by
  have hlen := length_filter_split m.rtx.sentMem.entries fun e => hit e.1 e.2
  have hlen' := length_filter_split m.rtx.sentMem.entries fun e => hit e.1 e.2 && ok e.1
  have hcount := h.count (by rw [hc.count]; omega) hn
  have hcl := hc.count
  have hcl' := hc'.count
  rw [h.sentMem, List.length_map] at hcl'
  have heq : ((m.rtx.sentMem.entries.filter fun e => hit e.1 e.2).filter fun e => ok e.1).length =
      (m.rtx.sentMem.entries.filter fun e => hit e.1 e.2).length := by
    rw [List.filter_filter]
    simp only [Bool.and_comm] at hlen' hcl' ⊢
    omega
  intro e he hh
  exact List.length_filter_eq_length_iff.mp heq e (List.mem_filter.mpr ⟨he, hh⟩)

end

/-! ## packets that are acknowledged or lost -/

/-- the number of a packet that is acknowledged or lost -/
def Call.settled : Call → Option Nat
  | .ackedPacket num => some num
  | .lostPacket num => some num
  | _ => none

theorem ackCall_settled (f : Frame) : (ackCall f).settled = none := by
  rw [ackCall]
  split <;> rfl

theorem lostCall_settled (f : Frame) : (lostCall f).settled = none := by
  rw [lostCall]
  split <;> rfl

theorem map_settled {g : Frame → Call} (hg : ∀ f, (g f).settled = none) (fs : List Frame) :
    (fs.map g).filterMap Call.settled = [] := by
  rw [List.filterMap_map, List.filterMap_eq_nil_iff]
  exact fun f _ => hg f

/-- a pass names the packets that are hit -/
theorem Passed.settled {hit : Nat → SentPacket → Bool} {ok : Nat → Bool}
    {calls : Nat → SentPacket → List Call} {requeue : SentPacket → List Frame} {m m' : Recovery}
    {cs : List Call} (h : Passed hit ok calls requeue m m' cs)
    (hcalls : ∀ num pkt, (calls num pkt).filterMap Call.settled = [num]) :
    cs.filterMap Call.settled =
      (m.rtx.sentMem.entries.filter fun e => hit e.1 e.2).map Prod.fst := by
  rw [h.calls, List.filterMap_flatMap]
  simp only [hcalls]
  induction m.rtx.sentMem.entries.filter fun e => hit e.1 e.2 with
  | nil => rfl
  | cons e es ih => rw [List.flatMap_cons, ih, List.map_cons, List.singleton_append]

theorem ackedCalls_settled (num : Nat) (pkt : SentPacket) :
    (ackedCalls num pkt).filterMap Call.settled = [num] := by
  show num :: (pkt.frames.map ackCall).filterMap Call.settled = [num]
  rw [map_settled ackCall_settled]

theorem lostCalls_settled (num : Nat) (pkt : SentPacket) :
    (lostCalls num pkt).filterMap Call.settled = [num] := by
  show num :: (pkt.frames.map lostCall).filterMap Call.settled = [num]
  rw [map_settled lostCall_settled]

/-- a packet is reported once for each tested range that it is in -/
theorem ackRanges_settled (cfg : Config) (cbrt : Nat → Nat) (mem : Nat → Bool) (a : AckFrame)
    (num n i start stop : Nat) (pkt : SentPacket) (p : Pass) :
    (p.ackRanges cfg cbrt mem a num n i start stop pkt).2.calls.filterMap Call.settled =
      p.calls.filterMap Call.settled ++
        List.replicate ((testedFrom a n i start stop).countP (within num)) num := by
  induction n generalizing i start stop pkt p with
  | zero => exact (List.append_nil _).symm
  | succ n ih =>
    rw [Pass.ackRanges, testedFrom, List.countP_cons]
    cases hw : within num (start, stop) with
    | true =>
      rw [if_pos (by simpa [within] using hw), ih,
        (ackPacket_hits cfg cbrt (mem i) a.recvTime num pkt p).calls, if_pos rfl, if_pos rfl,
        List.filterMap_append]
      have hone := ackedCalls_settled num pkt
      rw [ackedCalls] at hone
      rw [hone, List.append_assoc, List.singleton_append, List.replicate_succ]
    | false =>
      rw [if_neg (by simpa [within] using hw), ih, if_neg (by decide)]
      rfl

theorem acked_settled {cfg : Config} {cbrt : Nat → Nat} {mem : Nat → Nat → Bool} {m m' : Recovery}
    {a : AckFrame} {cs : List Call} (hd : m.rtx.dropped = false)
    (h : findNewlyAcked cfg cbrt mem m a = some (m', cs)) :
    cs.filterMap Call.settled = m.rtx.sentMem.entries.flatMap fun e =>
      List.replicate ((tested a).countP (within e.1)) e.1 := by
  rw [findNewlyAcked, if_neg (by rw [hd]; decide), finish, Option.map_eq_some_iff] at h
  obtain ⟨sm, _, he⟩ := h
  obtain ⟨_, rfl⟩ := Prod.mk.inj he
  rw [OrdMap.foreach_snd]
  have hfold : ∀ (es : List (Nat × SentPacket)) (p : Pass),
      (es.foldl (fun p e => (p.ackRanges cfg cbrt (mem e.1) a e.1 (max 1 a.count) 0
        (sub64 a.largestAck a.firstRange) a.largestAck e.2).2) p).calls.filterMap Call.settled =
      p.calls.filterMap Call.settled ++ es.flatMap fun e =>
        List.replicate ((tested a).countP (within e.1)) e.1 := by
    intro es
    induction es with
    | nil => intro p; exact (List.append_nil _).symm
    | cons e es ih =>
      intro p
      rw [List.foldl_cons, ih, ackRanges_settled, List.flatMap_cons, List.append_assoc]
      rfl
  exact hfold _ _

/-! ## runs -/

/-- the module with the numbers that were pushed and those that were acknowledged or lost -/
structure Ledger where
  m : Recovery
  sent : List Nat
  settled : List Nat

/-- what the other modules and the callers of the passes write, and the passes read -/
structure Other where
  cong : Congestion
  loopDeadline : Time
  maxDelay : Nat
  largestAck : Nat
  alarm : Time
  ptoCount : Nat

def Other.set (o : Other) (m : Recovery) : Recovery where
  rtx := { m.rtx with
    maxDelay := o.maxDelay
    largestAck := o.largestAck
    alarm := o.alarm
    ptoCount := o.ptoCount }
  cong := o.cong
  loopDeadline := o.loopDeadline

inductive Event where
  | push (num : Nat) (pkt : SentPacket)
  | acked (mem : Nat → Nat → Bool) (a : AckFrame)
  | lost (mem : Nat → Bool) (now : Time)
  | other (o : Other)

def Ledger.step (cfg : Config) (cbrt : Nat → Nat) (l : Ledger) : Event → Option Ledger
  | .push num pkt => some { l with m := sentMemPush l.m num pkt, sent := num :: l.sent }
  | .acked mem a => (findNewlyAcked cfg cbrt mem l.m a).map fun x =>
      { l with m := x.1, settled := l.settled ++ x.2.filterMap Call.settled }
  | .lost mem now => (findNewlyLost cfg mem l.m now).map fun x =>
      { l with m := x.1, settled := l.settled ++ x.2.filterMap Call.settled }
  | .other o => some { l with m := o.set l.m }

/-- an ACK frame that the parser can return -/
structure Parsed (a : AckFrame) : Prop where
  largestAck : a.largestAck ≤ varintMax
  firstRange : a.firstRange ≤ varintMax
  ranges : ∀ r ∈ a.ranges, r.gap ≤ varintMax ∧ r.len ≤ varintMax
  count : a.count = a.ranges.length

/-- the packets have distinct numbers, and the ACK frames come from the parser -/
def Admissible (l : Ledger) : Event → Prop
  | .push num pkt => num ∉ l.sent ∧ pkt.pktLen < 2 ^ 32
  | .acked _ a => Parsed a
  | _ => True

/-- the counters are right and nothing is settled twice -/
structure Counted (l : Ledger) : Prop where
  counts : Counts l.m.rtx
  once : l.settled.Nodup

def Guarded (l : Ledger) : Event → Prop
  | .push _ pkt => l.m.rtx.sentPktCount + 1 < 2 ^ 32 ∧ l.m.rtx.unackedLen + weight pkt < 2 ^ 32
  | .acked mem a => ∀ e ∈ l.m.rtx.sentMem.entries,
      AckedOnce a e.1 ∧ (acks a e.1 = true → mem e.1 (ackedAt a e.1) = true)
  | .lost mem now => ∀ e ∈ l.m.rtx.sentMem.entries,
      isLost l.m.cong now e.2 = true → mem e.1 = true
  | .other _ => True

/-- the invariant of the guarded runs -/
structure LedgerInv (l : Ledger) : Prop extends Counted l where
  live : l.m.rtx.dropped = false
  count_lt : l.m.rtx.sentPktCount < 2 ^ 32
  unacked_lt : l.m.rtx.unackedLen < 2 ^ 32
  sent : ∀ e ∈ l.m.rtx.sentMem.entries, e.1 ∈ l.sent
  settled : ∀ n ∈ l.settled, n ∈ l.sent ∧ ∀ e ∈ l.m.rtx.sentMem.entries, e.1 ≠ n

def Ledger.start (cong : Congestion) : Ledger := ⟨⟨Retransmission.init, cong, 0⟩, [], []⟩

theorem start_inv (cong : Congestion) : LedgerInv (Ledger.start cong) :=
  ⟨⟨⟨rfl, rfl⟩, List.nodup_nil⟩, rfl, Nat.two_pow_pos 32, Nat.two_pow_pos 32, List.forall_mem_nil _,
    List.forall_mem_nil _⟩

/-! ### a packet is pushed -/

/-- what a push leaves of the module -/
theorem sentMemPush_spec {m : Recovery} (hd : m.rtx.dropped = false) (num : Nat) (pkt : SentPacket) :
    (sentMemPush m num pkt).rtx.sentMem = m.rtx.sentMem.insert num pkt ∧
      (sentMemPush m num pkt).rtx.sentPktCount = add32 m.rtx.sentPktCount 1 ∧
      (sentMemPush m num pkt).rtx.unackedLen =
        (if pkt.includedUnacked then add32 m.rtx.unackedLen pkt.pktLen else m.rtx.unackedLen) ∧
      (sentMemPush m num pkt).rtx.retransmissionQueue = m.rtx.retransmissionQueue ∧
      (sentMemPush m num pkt).rtx.dropped = m.rtx.dropped := by
  rw [sentMemPush, if_neg (by rw [hd]; decide)]
  cases hi : pkt.includedUnacked with
  | false => exact ⟨rfl, rfl, rfl, rfl, rfl⟩
  | true =>
    simp only [if_true]
    obtain ⟨h1, h2, h3, h4, h5, _⟩ := updateAlarm_frame
      { m with rtx := { m.rtx with
        sentMem := m.rtx.sentMem.insert num pkt
        sentPktCount := add32 m.rtx.sentPktCount 1
        lastSentAckTime := pkt.sentTime
        unackedLen := add32 m.rtx.unackedLen pkt.pktLen } }
    exact ⟨h1, h2, h3, h4, h5⟩

/-- a fresh number adds one entry -/
theorem insert_fresh {l : Ledger} (hi : LedgerInv l) {num : Nat} (hf : num ∉ l.sent)
    (pkt : SentPacket) :
    (l.m.rtx.sentMem.insert num pkt).entries.Perm ((num, pkt) :: l.m.rtx.sentMem.entries) :=
  l.m.rtx.sentMem.insert_perm pkt
    (OrdMap.find_eq_none.mpr fun e he h => hf (h ▸ hi.sent e he))

theorem push_inv {l : Ledger} (hi : LedgerInv l) {num : Nat} {pkt : SentPacket}
    (hf : num ∉ l.sent) (hg : Guarded l (.push num pkt)) :
    LedgerInv { l with m := sentMemPush l.m num pkt, sent := num :: l.sent } := by
  obtain ⟨hg1, hg2⟩ := hg
  obtain ⟨h1, h2, h3, _, h5⟩ := sentMemPush_spec hi.live num pkt
  have hperm := insert_fresh hi hf pkt
  have hu : (sentMemPush l.m num pkt).rtx.unackedLen = l.m.rtx.unackedLen + weight pkt := by
    rw [h3, weight]
    rw [weight] at hg2
    split
    · rename_i hinc
      rw [if_pos hinc] at hg2
      exact add32_of_lt hg2
    · rfl
  rw [add32_of_lt hg1] at h2
  refine ⟨⟨⟨?_, ?_⟩, hi.once⟩, h5.trans hi.live, ?_, ?_, ?_, ?_⟩
  · rw [h2, h1, hperm.length_eq, List.length_cons, hi.counts.count]
  · rw [hu, h1, unackedSum, (hperm.map fun e => weight e.2).sum_nat, List.map_cons, List.sum_cons,
      hi.counts.unacked, unackedSum, Nat.add_comm]
  · rw [h2]; exact hg1
  · rw [hu]; exact hg2
  · intro e he
    rw [h1] at he
    rcases List.mem_cons.mp (hperm.mem_iff.mp he) with rfl | he
    · exact List.mem_cons_self
    · exact List.mem_cons_of_mem _ (hi.sent e he)
  · intro n hn
    obtain ⟨hs, hne⟩ := hi.settled n hn
    refine ⟨List.mem_cons_of_mem _ hs, fun e he => ?_⟩
    rw [h1] at he
    rcases List.mem_cons.mp (hperm.mem_iff.mp he) with rfl | he
    · rintro rfl
      exact hf hs
    · exact hne e he

/-- a push that leaves the counters right has not wrapped them -/
theorem push_guarded {l : Ledger} (hi : LedgerInv l) {num : Nat} {pkt : SentPacket}
    (hf : num ∉ l.sent) (hc : Counts (sentMemPush l.m num pkt).rtx) : Guarded l (.push num pkt) := by
  obtain ⟨h1, h2, h3, _, _⟩ := sentMemPush_spec hi.live num pkt
  have hperm := insert_fresh hi hf pkt
  have hcount := hc.count
  have hunacked := hc.unacked
  rw [h2, h1, hperm.length_eq, List.length_cons, ← hi.counts.count] at hcount
  rw [h3, h1, unackedSum, (hperm.map fun e => weight e.2).sum_nat, List.map_cons, List.sum_cons,
    ← unackedSum, ← hi.counts.unacked] at hunacked
  have hadd := add32_lt l.m.rtx.sentPktCount 1
  refine ⟨by rw [← hcount]; exact hadd, ?_⟩
  rw [weight] at hunacked ⊢
  split
  · rename_i hinc
    rw [if_pos hinc, if_pos hinc] at hunacked
    have hlt := add32_lt l.m.rtx.unackedLen pkt.pktLen
    rw [Nat.add_comm, ← hunacked]
    exact hlt
  · exact hi.unacked_lt

/-! ### a pass -/

/-- a pass that takes packets out once, with their nodes allocated -/
theorem passed_inv {l : Ledger} (hi : LedgerInv l) {hit : Nat → SentPacket → Bool}
    {ok : Nat → Bool} {calls : Nat → SentPacket → List Call} {requeue : SentPacket → List Frame}
    {m' : Recovery} {cs : List Call} (h : Passed hit ok calls requeue l.m m' cs)
    (hcalls : ∀ num pkt, (calls num pkt).filterMap Call.settled = [num])
    (hok : ∀ e ∈ l.m.rtx.sentMem.entries, hit e.1 e.2 = true → ok e.1 = true) :
    LedgerInv { l with m := m', settled := l.settled ++ cs.filterMap Call.settled } := by
  obtain ⟨hc, hle1, hle2⟩ := h.counts hi.counts hi.count_lt hi.unacked_lt hok
  have htaken := h.taken hok
  have hset := h.settled hcalls
  have hsorted := l.m.rtx.sentMem.sorted
  refine ⟨⟨hc, ?_⟩, h.dropped.trans hi.live, Nat.lt_of_le_of_lt hle1 hi.count_lt,
    Nat.lt_of_le_of_lt hle2 hi.unacked_lt, ?_, ?_⟩
  · rw [hset]
    refine List.nodup_append.mpr ⟨hi.once, ?_, ?_⟩
    · exact List.pairwise_map.mpr ((hsorted.filter _).imp fun h => Nat.ne_of_lt h)
    · intro n hn k hk hnk
      obtain ⟨e, he, rfl⟩ := List.mem_map.mp hk
      exact (hi.settled n hn).2 e (List.mem_filter.mp he).1 hnk.symm
  · intro e he
    rw [htaken] at he
    exact hi.sent e (List.mem_filter.mp he).1
  · intro n hn
    rcases List.mem_append.mp hn with hn | hn
    · obtain ⟨hs, hne⟩ := hi.settled n hn
      refine ⟨hs, fun e he => ?_⟩
      rw [htaken] at he
      exact hne e (List.mem_filter.mp he).1
    · rw [hset] at hn
      obtain ⟨g, hg, rfl⟩ := List.mem_map.mp hn
      obtain ⟨hg1, hg2⟩ := List.mem_filter.mp hg
      refine ⟨hi.sent g hg1, fun e he heq => ?_⟩
      rw [htaken] at he
      obtain ⟨he1, he2⟩ := List.mem_filter.mp he
      have hv : e.2 = g.2 := l.m.rtx.sentMem.val_unique (k := g.1) (heq ▸ he1) hg1
      rw [heq, hv, hg2] at he2
      exact absurd he2 (by decide)

/-! ### steps and runs -/

theorem ledger_step_inv (cfg : Config) (cbrt : Nat → Nat) {l : Ledger} {e : Event}
    (hi : LedgerInv l) (ha : Admissible l e) (hg : Guarded l e) :
    ∃ l', l.step cfg cbrt e = some l' ∧ LedgerInv l' := by
  cases e with
  | push num pkt => exact ⟨_, rfl, push_inv hi ha.1 hg⟩
  | acked mem a =>
    obtain ⟨m', cs, hres, hp⟩ := acked_passed cfg cbrt mem l.m a hi.live fun e he => (hg e he).1
    refine ⟨_, by rw [Ledger.step, hres, Option.map_some], ?_⟩
    exact passed_inv hi hp ackedCalls_settled fun e he => (hg e he).2
  | lost mem now =>
    obtain ⟨m', cs, hres, hp⟩ := lost_passed cfg mem l.m now hi.live
    refine ⟨_, by rw [Ledger.step, hres, Option.map_some], ?_⟩
    exact passed_inv hi hp lostCalls_settled hg
  | other o =>
    exact ⟨_, rfl, ⟨⟨hi.counts.count, hi.counts.unacked⟩, hi.once⟩, hi.live, hi.count_lt,
      hi.unacked_lt, hi.sent, hi.settled⟩

theorem ledger_step_guarded (cfg : Config) (cbrt : Nat → Nat) {l l' : Ledger} {e : Event}
    (hi : LedgerInv l) (ha : Admissible l e) (h : l.step cfg cbrt e = some l') (hc : Counted l') :
    Guarded l e := by
  cases e with
  | push num pkt =>
    cases h
    exact push_guarded hi ha.1 hc.counts
  | acked mem a =>
    rw [Ledger.step, Option.map_eq_some_iff] at h
    obtain ⟨⟨m', cs⟩, hres, rfl⟩ := h
    -- a packet in two tested ranges would be settled twice
    have hone : ∀ e ∈ l.m.rtx.sentMem.entries, AckedOnce a e.1 := by
      have hnd := (List.nodup_append.mp hc.once).2.1
      dsimp only at hnd
      rw [acked_settled hi.live hres, List.nodup_flatMap] at hnd
      exact fun e he => List.nodup_replicate.mp (hnd.1 e he)
    obtain ⟨m1, cs1, hres1, hp⟩ := acked_passed cfg cbrt mem l.m a hi.live hone
    cases hres.symm.trans hres1
    exact fun e he =>
      ⟨hone e he, hp.allocated hi.counts hi.count_lt hc.counts e he⟩
  | lost mem now =>
    rw [Ledger.step, Option.map_eq_some_iff] at h
    obtain ⟨⟨m', cs⟩, hres, rfl⟩ := h
    obtain ⟨m1, cs1, hres1, hp⟩ := lost_passed cfg mem l.m now hi.live
    cases hres.symm.trans hres1
    exact fun e he => hp.allocated hi.counts hi.count_lt hc.counts e he
  | other o => trivial

/-- **The counters are right, and no packet is acknowledged or lost twice, exactly along the
guarded runs.** -/
theorem counted_iff (cfg : Config) (cbrt : Nat → Nat) (cong : Congestion) (es : List Event)
    (ha : Runs.Along (Ledger.step cfg cbrt) Admissible (Ledger.start cong) es) :
    (∀ past, past <+: es →
      ∃ l, Runs.run (Ledger.step cfg cbrt) (Ledger.start cong) past = some l ∧ Counted l) ↔
      Runs.Along (Ledger.step cfg cbrt) Guarded (Ledger.start cong) es :=
  Runs.always_iff_along (I := LedgerInv) (P := Counted) (fun _ hi => hi.toCounted)
    (fun _ e hi ha hg => ledger_step_inv (e := e) cfg cbrt hi ha hg)
    (fun _ e _ hi ha h hc => ledger_step_guarded (e := e) cfg cbrt hi ha h hc) es
    (start_inv cong) ha

instance decidableGuarded (l : Ledger) : (e : Event) → Decidable (Guarded l e)
  | .push _ _ => inferInstanceAs (Decidable (_ ∧ _))
  | .acked _ _ => inferInstanceAs (Decidable (∀ e ∈ l.m.rtx.sentMem.entries, _ ∧ (_ → _)))
  | .lost _ _ => inferInstanceAs (Decidable (∀ e ∈ l.m.rtx.sentMem.entries, _ → _))
  | .other _ => isTrue trivial

instance (a : AckFrame) : Decidable (Parsed a) :=
  decidable_of_iff (a.largestAck ≤ varintMax ∧ a.firstRange ≤ varintMax ∧
      (∀ r ∈ a.ranges, r.gap ≤ varintMax ∧ r.len ≤ varintMax) ∧ a.count = a.ranges.length)
    ⟨fun h => ⟨h.1, h.2.1, h.2.2.1, h.2.2.2⟩, fun h => ⟨h.1, h.2, h.3, h.4⟩⟩

instance decidableAdmissible (l : Ledger) : (e : Event) → Decidable (Admissible l e)
  | .push _ _ => inferInstanceAs (Decidable (_ ∧ _))
  | .acked _ a => inferInstanceAs (Decidable (Parsed a))
  | .lost _ _ => isTrue trivial
  | .other _ => isTrue trivial

/-- two packets, the second is acknowledged and the first lost -/
theorem counted_two :
    Runs.Along (Ledger.step serverCfg id) Guarded (Ledger.start (Congestion.init serverCfg))
        [.push 0 ⟨0, 10, 1200, true, []⟩, .push 1 ⟨0, 20, 1000, true, []⟩,
          .acked (fun _ _ => true) ⟨0x40, 30, 1, 0, 0, 0, 0, 0, 0, []⟩,
          .lost (fun _ => true) 9000000] ∧
      ∀ past, past <+: [.push 0 ⟨0, 10, 1200, true, []⟩, .push 1 ⟨0, 20, 1000, true, []⟩,
          .acked (fun _ _ => true) ⟨0x40, 30, 1, 0, 0, 0, 0, 0, 0, []⟩,
          .lost (fun _ => true) 9000000] →
        ∃ l, Runs.run (Ledger.step serverCfg id) (Ledger.start (Congestion.init serverCfg)) past =
          some l ∧ Counted l :=
  ⟨by decide, (counted_iff serverCfg id _ _ (by decide)).mpr (by decide)⟩

/-- A packet with number 5, and an ACK frame whose ranges go once around `2 ^ 64`: the first and the
third range hold 5 both. -/
theorem not_counted :
    ¬ ∀ (cfg : Config) (cbrt : Nat → Nat) (cong : Congestion) (es : List Event),
      Runs.Along (Ledger.step cfg cbrt) Admissible (Ledger.start cong) es →
      ∀ past, past <+: es →
        ∃ l, Runs.run (Ledger.step cfg cbrt) (Ledger.start cong) past = some l ∧ Counted l := by
  intro h
  have hrun := h serverCfg id (Congestion.init serverCfg)
    [.push 5 ⟨0, 10, 1200, true, []⟩,
      .acked (fun _ _ => true) ⟨0x40, 30, 5, 0, 0, 0, 0, 0, 3,
        [⟨varintMax, varintMax⟩, ⟨varintMax, varintMax⟩, ⟨0, 0⟩]⟩]
    (by decide) _ List.prefix_rfl
  obtain ⟨l, hl, _⟩ := hrun
  have hnone : (Runs.run (Ledger.step serverCfg id) (Ledger.start (Congestion.init serverCfg))
      [.push 5 ⟨0, 10, 1200, true, []⟩,
        .acked (fun _ _ => true) ⟨0x40, 30, 5, 0, 0, 0, 0, 0, 3,
          [⟨varintMax, varintMax⟩, ⟨varintMax, varintMax⟩, ⟨0, 0⟩]⟩]).isNone = true := by
    decide
  rw [hl] at hnone
  exact Bool.false_ne_true hnone

/-! ## the callers of the passes -/

/-- `quic_session_handle_ack_frame` is an acknowledgement and a loss pass -/
theorem handleAckFrame_run {cfg : Config} {cbrt : Nat → Nat} {ackMem : Nat → Nat → Bool}
    {lostMem : Nat → Bool} {m m' : Recovery} {short : Bool} {a : AckFrame} {clock : Time}
    {cs : List Call} (hd : m.rtx.dropped = false)
    (h : handleAckFrame cfg cbrt ackMem lostMem m short a clock = some (m', cs))
    (sent settled : List Nat) :
    ∃ o o', Runs.run (Ledger.step cfg cbrt) ⟨m, sent, settled⟩
        [.other o, .acked ackMem a, .lost lostMem clock, .other o'] =
      some ⟨m', sent, settled ++ cs.filterMap Call.settled⟩ := by
  rw [handleAckFrame, if_neg (by rw [hd]; decide), Option.bind_eq_some_iff] at h
  obtain ⟨x, hx, hy⟩ := h
  rw [Option.map_eq_some_iff] at hy
  obtain ⟨y, hy, he⟩ := hy
  obtain ⟨rfl, rfl⟩ := Prod.mk.inj he
  have hsample : ∃ o : Other, o.set m = sampleAck m short a := by
    refine ⟨⟨(sampleAck m short a).cong, (sampleAck m short a).loopDeadline,
      (sampleAck m short a).rtx.maxDelay, (sampleAck m short a).rtx.largestAck,
      (sampleAck m short a).rtx.alarm, (sampleAck m short a).rtx.ptoCount⟩, ?_⟩
    rw [sampleAck]
    dsimp only
    cases m.rtx.sentMem.find a.largestAck <;> rfl
  have halarm : ∃ o : Other, o.set y.1 =
      updateAlarm { y.1 with rtx := { y.1.rtx with ptoCount := 0 } } := by
    rw [updateAlarm]
    dsimp only
    split
    · exact ⟨⟨y.1.cong, y.1.loopDeadline, y.1.rtx.maxDelay, y.1.rtx.largestAck, y.1.rtx.alarm, 0⟩,
        rfl⟩
    · split
      · exact ⟨⟨y.1.cong, y.1.loopDeadline, y.1.rtx.maxDelay, y.1.rtx.largestAck, 0, 0⟩, rfl⟩
      · exact ⟨⟨y.1.cong, _, y.1.rtx.maxDelay, y.1.rtx.largestAck, _, 0⟩, rfl⟩
  obtain ⟨o, ho⟩ := hsample
  obtain ⟨o', ho'⟩ := halarm
  refine ⟨o, o', ?_⟩
  rw [Runs.run_cons, Ledger.step, Option.bind_some, Runs.run_cons, Ledger.step, ho, hx,
    Option.map_some, Option.bind_some, Runs.run_cons, Ledger.step, hy, Option.map_some,
    Option.bind_some, Runs.run_cons, Ledger.step, Option.bind_some, ho', Runs.run_nil,
    List.filterMap_append, List.append_assoc]

/-- the module's loop is a loss pass or none -/
theorem moduleLoop_run {cfg : Config} (cbrt : Nat → Nat) {mem : Nat → Bool} {m m' : Recovery}
    {now clock : Time} {cs : List Call} (h : moduleLoop cfg mem m now clock = some (m', cs))
    (sent settled : List Nat) :
    ∃ o es, (es = [] ∨ es = [.lost mem clock]) ∧
      Runs.run (Ledger.step cfg cbrt) ⟨m, sent, settled⟩ (.other o :: es) =
        some ⟨m', sent, settled ++ cs.filterMap Call.settled⟩ := by
  have hstay : ∀ (deadline : Time), ∃ o : Other, o.set m = { m with loopDeadline := deadline } :=
    fun deadline => ⟨⟨m.cong, deadline, m.rtx.maxDelay, m.rtx.largestAck, m.rtx.alarm,
      m.rtx.ptoCount⟩, rfl⟩
  rw [moduleLoop] at h
  split at h
  · cases h
    obtain ⟨o, ho⟩ := hstay m.loopDeadline
    exact ⟨o, [], Or.inl rfl, by
      rw [Runs.run_cons, Ledger.step, ho]
      simp⟩
  · split at h
    · cases h
      obtain ⟨o, ho⟩ := hstay (updateLoopDeadline m.loopDeadline m.rtx.alarm)
      exact ⟨o, [], Or.inl rfl, by
        rw [Runs.run_cons, Ledger.step, ho]
        simp⟩
    · split at h
      · refine ⟨⟨m.cong, m.loopDeadline, m.rtx.maxDelay, m.rtx.largestAck, m.rtx.alarm,
          add32 m.rtx.ptoCount 1⟩, [.lost mem clock], Or.inr rfl, ?_⟩
        rw [Runs.run_cons, Ledger.step, Option.bind_some, Runs.run_cons, Ledger.step]
        show ((findNewlyLost cfg mem { m with rtx := { m.rtx with
          ptoCount := add32 m.rtx.ptoCount 1 } } clock).map _).bind _ = _
        rw [h]
        rfl
      · cases h
        obtain ⟨o, ho⟩ := hstay m.loopDeadline
        exact ⟨o, [], Or.inl rfl, by
          rw [Runs.run_cons, Ledger.step, ho]
          simp⟩

end Recovery

end OpenQuic
