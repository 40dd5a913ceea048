import OpenQuic.Lib.Deadlines
import OpenQuic.Lib.Runs
import OpenQuic.Modules.AckSpans
import OpenQuic.Modules.FrameLedger
import OpenQuic.Modules.PassFrame

/-!
# The loss timer

When `quic_retransmission_module_loop` declares packets lost.  It needs the alarm, and `loss_time`,
which only a loss pass sets: the earliest time at which one of the packets that the pass left counts
as lost.

* `findNewlyLost_spec`   what a loss pass makes of `loss_time`;
* `Event`, `step`        packets are built and sent, ACK frames arrive and the loop turns;
* `Watched`              the timer, and what the next turn of the loop declares lost;
* `watched_run`          **the timer is the earliest deadline of the packets that the last pass left;**
* `tail_run`             **when a pass leaves nothing in flight, what is sent afterwards is neither
                         lost nor sent again before the next ACK frame.**
-/

namespace OpenQuic
open Word Runs Deadlines

namespace LossTimer
open Recovery FrameLedger

/-! ## a loss pass -/

/-- the number of a packet that is declared lost -/
def lostNum : Call → Option Nat
  | .lostPacket num => some num
  | _ => none

/-- when the packet counts as lost -/
def deadline (c : Congestion) (e : Nat × SentPacket) : Time := add64 e.2.sentTime (lostDelay c)

theorem updateAlarm_time (m : Recovery) : (updateAlarm m).rtx.lossTime = m.rtx.lossTime := by
  unfold updateAlarm
  split
  · rfl
  · split <;> rfl

theorem foldl_loseFrame_time (fs : List Frame) (p : Pass) :
    (fs.foldl Pass.loseFrame p).m.rtx.lossTime = p.m.rtx.lossTime := by
  induction fs generalizing p with
  | nil => rfl
  | cons f fs ih =>
    rw [List.foldl_cons, ih]
    unfold Pass.loseFrame Retransmission.frameInsert
    split
    · dsimp only
      split <;> rfl
    · rfl

theorem losePacket_time (cfg : Config) (mem : Bool) (num : Nat) (pkt : SentPacket) (p : Pass) :
    (p.losePacket cfg mem num pkt).2.m.rtx.lossTime = p.m.rtx.lossTime := by
  unfold Pass.losePacket
  dsimp only
  rw [foldl_loseFrame_time]
  show ((p.dropPacket mem num).uncount pkt _).m.rtx.lossTime = _
  rw [(uncount_spec (p.dropPacket mem num) pkt _).2.2, (dropPacket_m p mem num).1]

/-- a packet that is not lost is noted -/
theorem checkLost_time (cfg : Config) (mem : Nat → Bool) (c : Congestion) (now : Time)
    (e : Nat × SentPacket) (p : Pass) :
    (p.checkLost cfg mem (lostDelay c) (sub64 now (lostDelay c)) e.1 e.2).2.m.rtx.lossTime =
      if isLost c now e.2 then p.m.rtx.lossTime else note p.m.rtx.lossTime (deadline c e) := by
  unfold Pass.checkLost
  by_cases h : e.2.sentTime < sub64 now (lostDelay c)
  · have hl : isLost c now e.2 = true := decide_eq_true h
    rw [if_pos h, hl, if_pos rfl]
    exact losePacket_time cfg (mem e.1) e.1 e.2 p
  · have hl : isLost c now e.2 = false := decide_eq_false h
    rw [if_neg h, hl, if_neg Bool.false_ne_true]
    by_cases hnote : p.m.rtx.lossTime = 0 ∨ deadline c e < p.m.rtx.lossTime
    · rw [note, if_pos hnote]
      rw [deadline] at hnote
      rw [if_pos hnote]
      exact updateAlarm_time _
    · rw [note, if_neg hnote]
      rw [deadline] at hnote
      rw [if_neg hnote]

theorem foldl_checkLost_time (cfg : Config) (mem : Nat → Bool) (c : Congestion) (now : Time)
    (es : List (Nat × SentPacket)) (p : Pass) :
    (es.foldl (fun p e => (p.checkLost cfg mem (lostDelay c) (sub64 now (lostDelay c)) e.1 e.2).2)
        p).m.rtx.lossTime =
      notes p.m.rtx.lossTime ((es.filter fun e => !isLost c now e.2).map (deadline c)) := by
  induction es generalizing p with
  | nil => rfl
  | cons e es ih =>
    rw [List.foldl_cons, ih, checkLost_time cfg mem c now e p]
    cases hl : isLost c now e.2 with
    | true => rw [List.filter_cons_of_neg (by simp [hl]), if_pos rfl]
    | false =>
      rw [List.filter_cons_of_pos (by simp [hl]), List.map_cons, notes_cons,
        if_neg Bool.false_ne_true]

theorem lostCalls_num (num : Nat) (pkt : SentPacket) :
    (lostCalls num pkt).filterMap lostNum = [num] := by
  show num :: (pkt.frames.map lostCall).filterMap lostNum = [num]
  rw [List.filterMap_map, List.filterMap_eq_nil_iff.mpr]
  intro f _
  rw [Function.comp_apply, lostCall]
  split <;> rfl

/-- **A loss pass** without a failed allocation: it takes out the packets that are overdue, and notes
when the others will be. -/
theorem findNewlyLost_spec (cfg : Config) {m : Recovery} (now : Time)
    (hd : m.rtx.dropped = false) (mem : Nat → Bool) (hmem : ∀ n, mem n = true) :
    ∃ m' cs, findNewlyLost cfg mem m now = some (m', cs) ∧ m'.rtx.dropped = false ∧
      m'.rtx.sentMem.entries = (m.rtx.sentMem.entries.filter fun e => !isLost m.cong now e.2) ∧
      m'.rtx.lossTime = notes 0 (m'.rtx.sentMem.entries.map (deadline m.cong)) ∧
      m'.cong.rtt = m.cong.rtt ∧
      cs.filterMap lostNum =
        (m.rtx.sentMem.entries.filter fun e => isLost m.cong now e.2).map Prod.fst := by
  obtain ⟨m', cs, hres, hp⟩ := lost_passed cfg mem m now hd
  have htaken := hp.taken fun e _ _ => hmem e.1
  refine ⟨m', cs, hres, hp.dropped.trans hd, htaken, ?_, (findNewlyLost_basis hres).rtt, ?_⟩
  · rw [findNewlyLost, if_neg (by rw [hd]; decide)] at hres
    obtain ⟨sm, _, he⟩ := Option.map_eq_some_iff.mp hres
    obtain ⟨rfl, _⟩ := Prod.mk.inj he
    have htime := foldl_checkLost_time cfg mem m.cong now m.rtx.sentMem.entries
      ⟨{ m with rtx := { m.rtx with lossTime := 0 } }, [], []⟩
    rw [← OrdMap.foreach_snd] at htime
    rw [htaken]
    exact htime
  · rw [hp.calls, List.filterMap_flatMap, List.map_eq_flatMap]
    simp only [lostCalls_num]

/-! ## runs -/

/-- one packet number space, the packets that its last loss pass left, each with its deadline, and
the packets that were declared lost -/
structure State where
  m : Recovery
  left : List (Nat × Time)
  lost : List Nat

/-- `other` is what the other packet number spaces do to what they share -/
inductive Event where
  | send (num : Nat) (pkt : SentPacket) (ops : List BuildOp)
  | ack (short : Bool) (a : AckFrame) (clock : Time)
  | turn (now clock : Time)
  | other (cong : Congestion) (loopDeadline : Time)

def leftBy (m : Recovery) : List (Nat × Time) :=
  m.rtx.sentMem.entries.map fun e => (e.1, deadline m.cong e)

/-- `quic_retransmission_module_loop` makes a loss pass -/
def due (m : Recovery) (now : Time) : Bool :=
  decide (m.rtx.alarm ≠ 0 ∧ m.rtx.alarm ≤ now ∧ m.rtx.unackedLen ≠ 0 ∧ m.rtx.lossTime ≠ 0)

/-- a packet is sent with the frames that are built for it -/
def step (cfg : Config) (cbrt : Nat → Nat) (s : State) : Event → Option State
  | .send num pkt ops =>
    let x := build ops [] s.m.rtx
    some { s with m := sentMemPush { s.m with rtx := x.2 } num { pkt with frames := x.1 } }
  | .ack short a clock =>
    (handleAckFrame cfg cbrt (fun _ => allocated) allocated s.m short a clock).map fun x =>
      ⟨x.1, leftBy x.1, s.lost ++ x.2.filterMap lostNum⟩
  | .turn now clock =>
    (moduleLoop cfg allocated s.m now clock).map fun x =>
      ⟨x.1, if due s.m now then leftBy x.1 else s.left, s.lost ++ x.2.filterMap lostNum⟩
  | .other cong loopDeadline =>
    some { s with m := { s.m with cong := cong, loopDeadline := loopDeadline } }

def start (cong : Congestion) : State := ⟨⟨Retransmission.init, cong, 0⟩, [], []⟩

/-- an ACK frame names no packet in two of the ranges that are tested -/
def Guarded (s : State) : Event → Prop
  | .ack _ a _ => ∀ e ∈ s.m.rtx.sentMem.entries, AckedOnce a e.1
  | _ => True

structure Inv (s : State) : Prop where
  live : s.m.rtx.dropped = false
  time : s.m.rtx.lossTime = notes 0 (s.left.map Prod.snd)

theorem start_inv (cong : Congestion) : Inv (start cong) := ⟨rfl, rfl⟩

section
variable {cfg : Config} {cbrt : Nat → Nat} {s s' : State}

theorem build_time (ops : List BuildOp) (r : Retransmission) :
    (build ops [] r).2.lossTime = r.lossTime ∧ (build ops [] r).2.dropped = r.dropped ∧
      (build ops [] r).2.sentMem = r.sentMem := by
  have hsame := (build_spec ops [] r).1
  unfold SameButQueue at hsame
  generalize (build ops [] r).2 = r' at hsame ⊢
  rw [hsame]
  exact ⟨rfl, rfl, rfl⟩

theorem sentMemPush_time (m : Recovery) (num : Nat) (pkt : SentPacket) :
    (sentMemPush m num pkt).rtx.lossTime = m.rtx.lossTime := by
  unfold sentMemPush
  split
  · rfl
  · dsimp only
    split
    · exact updateAlarm_time _
    · rfl

/-- where the deadlines are those of the packets, so is the timer -/
theorem leftBy_time {m : Recovery}
    (h : m.rtx.lossTime = notes 0 (m.rtx.sentMem.entries.map (deadline m.cong))) :
    m.rtx.lossTime = notes 0 ((leftBy m).map Prod.snd) := by
  rw [leftBy, List.map_map]
  exact h

/-- the deadline of a packet needs the round-trip time only -/
theorem deadline_congr {c c' : Congestion} (h : c'.rtt = c.rtt) : deadline c' = deadline c := by
  have hd : lostDelay c' = lostDelay c := by
    unfold lostDelay Congestion.smoothedRtt
    rw [h]
  funext e
  rw [deadline, hd, deadline]

/-- setting the alarm leaves the timer as it is -/
theorem updateAlarm_left {m : Recovery} {c : Congestion} (hrtt : m.cong.rtt = c.rtt)
    (h : m.rtx.lossTime = notes 0 (m.rtx.sentMem.entries.map (deadline c))) :
    (updateAlarm m).rtx.lossTime = notes 0 ((leftBy (updateAlarm m)).map Prod.snd) := by
  obtain ⟨h1, _⟩ := updateAlarm_frame m
  apply leftBy_time
  rw [updateAlarm_time, h1, deadline_congr ((updateAlarm_basis m).rtt.trans hrtt)]
  exact h

/-- a loss pass of the loop -/
theorem turn_due (hd : s.m.rtx.dropped = false) {now : Time} (h : due s.m now = true) (clock : Time) :
    moduleLoop cfg allocated s.m now clock =
      findNewlyLost cfg allocated { s.m with rtx := { s.m.rtx with
        ptoCount := add32 s.m.rtx.ptoCount 1 } } clock := by
  obtain ⟨halarm, hle, hlen, htime⟩ := of_decide_eq_true h
  rw [moduleLoop, if_neg, if_neg (Nat.not_lt_of_le hle), if_pos ⟨hlen, htime⟩]
  intro h0
  rcases h0 with h0 | h0
  · exact halarm h0
  · rw [hd] at h0
    cases h0

/-- any other turn of the loop -/
theorem turn_rest (cfg : Config) {now : Time} (h : due s.m now = false) (clock : Time) :
    ∃ loopDeadline,
    moduleLoop cfg allocated s.m now clock =
      some ({ s.m with loopDeadline := loopDeadline }, []) := by
  have hn := of_decide_eq_false h
  rw [moduleLoop]
  split
  · exact ⟨s.m.loopDeadline, rfl⟩
  · rename_i halarm
    split
    · exact ⟨_, rfl⟩
    · rename_i hle
      rw [if_neg]
      · exact ⟨s.m.loopDeadline, rfl⟩
      · intro h0
        exact hn ⟨(not_or.mp halarm).1, Nat.le_of_not_lt hle, h0.1, h0.2⟩

theorem step_inv (hi : Inv s) (e : Event) (hg : Guarded s e) (h : step cfg cbrt s e = some s') :
    Inv s' := by
  cases e with
  | send num pkt ops =>
    obtain ⟨h1, h2, _⟩ := build_time ops s.m.rtx
    cases h
    have hlive := h2.trans hi.live
    have hpush := sentMemPush_spec (m := { s.m with rtx := (build ops [] s.m.rtx).2 }) hlive num
      { pkt with frames := (build ops [] s.m.rtx).1 }
    exact ⟨hpush.2.2.2.2.trans hlive, (sentMemPush_time _ _ _).trans (h1.trans hi.time)⟩
  | ack short a clock =>
    obtain ⟨y, hy, rfl⟩ := Option.map_eq_some_iff.mp h
    obtain ⟨m1, cs1, m2, cs2, hp, hres⟩ := handleAckFrame_passed cfg cbrt (fun _ => allocated)
      allocated s.m short a clock hi.live hg
    cases hy.symm.trans hres
    have hd1 : m1.rtx.dropped = false :=
      hp.acked.dropped.trans ((sampleAck_frame s.m short a).2.2.2.2.trans hi.live)
    obtain ⟨m', cs, hrun, hd', _, htime, hrtt, _⟩ :=
      findNewlyLost_spec cfg clock hd1 allocated fun _ => rfl
    cases hp.lostRun.symm.trans hrun
    exact ⟨(updateAlarm_frame _).2.2.2.2.1.trans hd', updateAlarm_left hrtt htime⟩
  | turn now clock =>
    obtain ⟨y, hy, rfl⟩ := Option.map_eq_some_iff.mp h
    cases hdue : due s.m now with
    | true =>
      rw [turn_due hi.live hdue] at hy
      obtain ⟨m', cs, hrun, hd', _, htime, hrtt, _⟩ :=
        findNewlyLost_spec cfg (m := { s.m with rtx := { s.m.rtx with
          ptoCount := add32 s.m.rtx.ptoCount 1 } }) clock hi.live allocated fun _ => rfl
      cases hy.symm.trans hrun
      refine ⟨hd', leftBy_time ?_⟩
      rw [deadline_congr hrtt]
      exact htime
    | false =>
      obtain ⟨loopDeadline, hrest⟩ := turn_rest cfg hdue clock
      cases hy.symm.trans hrest
      exact ⟨hi.live, hi.time⟩
  | other cong loopDeadline =>
    cases h
    exact ⟨hi.live, hi.time⟩

end

/-- the loop declares the packets lost that are overdue, if it makes a loss pass, and no others -/
structure Watched (cfg : Config) (cbrt : Nat → Nat) (s : State) : Prop where
  time : s.m.rtx.lossTime = notes 0 (s.left.map Prod.snd)
  pass : ∀ now clock, due s.m now = true → ∃ s', step cfg cbrt s (.turn now clock) = some s' ∧
    s'.m.rtx.sentMem.entries = (s.m.rtx.sentMem.entries.filter fun e => !isLost s.m.cong clock e.2) ∧
    s'.lost = s.lost ++ (s.m.rtx.sentMem.entries.filter fun e => isLost s.m.cong clock e.2).map
      Prod.fst
  rest : ∀ now clock, due s.m now = false → ∃ loopDeadline,
    step cfg cbrt s (.turn now clock) = some { s with m := { s.m with loopDeadline := loopDeadline } }

section
variable {cfg : Config} {cbrt : Nat → Nat} {s s' : State}

theorem watched_of_inv (cfg : Config) (cbrt : Nat → Nat) {s : State} (hi : Inv s) : Watched cfg cbrt s := by
  refine ⟨hi.time, fun now clock h => ?_, fun now clock h => ?_⟩
  · obtain ⟨m', cs, hrun, _, hmem, _, _, hlost⟩ :=
      findNewlyLost_spec cfg (m := { s.m with rtx := { s.m.rtx with
        ptoCount := add32 s.m.rtx.ptoCount 1 } }) clock hi.live allocated fun _ => rfl
    refine ⟨⟨m', leftBy m', s.lost ++ cs.filterMap lostNum⟩, ?_, hmem, ?_⟩
    · rw [step, turn_due hi.live h, hrun, Option.map_some, if_pos h]
    · rw [hlost]
  · obtain ⟨loopDeadline, hrest⟩ := turn_rest cfg h clock
    refine ⟨loopDeadline, ?_⟩
    rw [step, hrest, Option.map_some, h, if_neg Bool.false_ne_true]
    simp

end

/-- **The timer.**  In every state that is reached, the next turn of the loop makes a loss pass only
where the timer is set, and the timer is the earliest deadline of the packets that the last pass
left. -/
theorem watched_run (cfg : Config) (cbrt : Nat → Nat) (cong : Congestion) (es : List Event)
    (hg : Along (step cfg cbrt) Guarded (start cong) es) :
    ∀ past, past <+: es → ∀ s, run (step cfg cbrt) (start cong) past = some s →
      Watched cfg cbrt s := by
  intro past hp s hs
  exact watched_of_inv cfg cbrt (run_reached (J := Inv) (fun _ _ _ hi hg h => step_inv hi _ hg h)
    (start_inv cong) hg hp hs)

/-- two packets are sent, the first is acknowledged, and the loop turns much later -/
def watching : List Event :=
  [.send 0 ⟨0, 9000010, 1200, true, []⟩ [.produce ⟨0x0a, some 4, true, .stream 4 0 [1, 2]⟩],
    .send 1 ⟨0, 9000020, 1200, true, []⟩ [.produce ⟨0x0a, some 4, true, .stream 4 2 [3]⟩],
    .ack false ⟨0x40, 9000030, 0, 0, 0, 0, 0, 0, 0, []⟩ 9000030, .turn 9000000000 9000000000]

theorem watching_guarded :
    Along (step serverCfg id) Guarded (start (Congestion.init serverCfg)) watching := by
  have hwf : WellFormed ⟨0x40, 9000030, 0, 0, 0, 0, 0, 0, 0, []⟩ := ⟨by decide, by decide, trivial, rfl⟩
  exact ⟨trivial, fun _ _ => ⟨trivial, fun _ _ => ⟨fun e _ => ackedOnce_of_wellFormed hwf e.1,
    fun _ _ => ⟨trivial, fun _ _ => trivial⟩⟩⟩⟩

/-- the second packet is lost -/
example : (run (step serverCfg id) (start (Congestion.init serverCfg)) watching).map
    (fun s => (s.lost, s.m.rtx.retransmissionQueue.length)) = some ([1], 1) := by decide +kernel

theorem watched_run_lost : ∃ s,
    run (step serverCfg id) (start (Congestion.init serverCfg)) (watching.take 3) = some s ∧
      s.left = [(1, 9500020)] ∧ Watched serverCfg id s := by
  obtain ⟨s, hs⟩ : ∃ s, (run (step serverCfg id) (start (Congestion.init serverCfg))
      (watching.take 3)) = some s := Option.isSome_iff_exists.mp (by decide +kernel)
  have hleft : (run (step serverCfg id) (start (Congestion.init serverCfg))
      (watching.take 3)).map (fun s => s.left) = some [(1, 9500020)] := by decide +kernel
  rw [hs] at hleft
  exact ⟨s, hs, Option.some.inj hleft, watched_run serverCfg id _ watching watching_guarded _
    (List.take_prefix 3 watching) s hs⟩

/-! ## the packets after the last ACK frame -/

/-- the run goes on, and nothing is lost -/
structure Tail (s s' : State) : Prop where
  lost : s'.lost = s.lost
  queue : s'.m.rtx.retransmissionQueue.Sublist s.m.rtx.retransmissionQueue
  kept : ∀ e ∈ s.m.rtx.sentMem.entries, ∃ pkt, (e.1, pkt) ∈ s'.m.rtx.sentMem.entries

theorem Tail.refl (s : State) : Tail s s :=
  ⟨rfl, List.Sublist.refl _, fun e he => ⟨e.2, he⟩⟩

theorem Tail.trans {s s' s'' : State} (h : Tail s s') (h' : Tail s' s'') : Tail s s'' := by
  refine ⟨h'.lost.trans h.lost, h'.queue.trans h.queue, fun e he => ?_⟩
  obtain ⟨pkt, hpkt⟩ := h.kept e he
  exact h'.kept (e.1, pkt) hpkt

theorem takeFrame_sublist {capa : Nat} {queue rest : List Frame} {f : Frame}
    (h : Retransmission.takeFrame capa queue = some (f, rest)) : rest.Sublist queue := by
  induction queue generalizing rest with
  | nil => cases h
  | cons g queue ih =>
    rw [Retransmission.takeFrame] at h
    split at h
    · cases h
      exact List.sublist_cons_self _ _
    · obtain ⟨x, hx, he⟩ := Option.map_eq_some_iff.mp h
      cases he
      exact (ih hx).cons_cons g

/-- building a packet only takes frames out of the queue -/
theorem build_sublist (ops : List BuildOp) (frames : List Frame) (r : Retransmission) :
    (build ops frames r).2.retransmissionQueue.Sublist r.retransmissionQueue := by
  induction ops generalizing frames r with
  | nil => exact List.Sublist.refl _
  | cons op ops ih =>
    cases op with
    | produce f => exact ih (frames ++ [f]) r
    | retransmit capa =>
      refine (ih _ _).trans ?_
      rw [Retransmission.appendFrame]
      split
      · exact List.Sublist.refl _
      · cases ht : Retransmission.takeFrame capa r.retransmissionQueue with
        | none => exact List.Sublist.refl _
        | some x => exact takeFrame_sublist ht

/-- an event that is not an ACK frame -/
def Silent : Event → Prop
  | .ack _ _ _ => False
  | _ => True

/-- where the last pass left nothing, an event that is not an ACK frame loses nothing -/
theorem silent_step (cfg : Config) (cbrt : Nat → Nat) {s : State} {e : Event} (hi : Inv s)
    (hleft : s.left = []) (he : Silent e) :
    ∃ s', step cfg cbrt s e = some s' ∧ Inv s' ∧ s'.left = [] ∧ Tail s s' := by
  cases e with
  | send num pkt ops =>
    refine ⟨_, rfl, step_inv hi (.send num pkt ops) trivial (show step cfg cbrt s _ = _ from rfl),
      hleft, rfl, ?_, ?_⟩
    · obtain ⟨_, h2, _⟩ := build_time ops s.m.rtx
      have hpush := sentMemPush_spec (m := { s.m with rtx := (build ops [] s.m.rtx).2 })
        (h2.trans hi.live) num { pkt with frames := (build ops [] s.m.rtx).1 }
      rw [hpush.2.2.2.1]
      exact build_sublist ops [] s.m.rtx
    · intro e he
      obtain ⟨_, h2, h3⟩ := build_time ops s.m.rtx
      have hpush := sentMemPush_spec (m := { s.m with rtx := (build ops [] s.m.rtx).2 })
        (h2.trans hi.live) num { pkt with frames := (build ops [] s.m.rtx).1 }
      rw [hpush.1]
      by_cases hnum : e.1 = num
      · exact ⟨_, OrdMap.mem_insert.mpr (Or.inl (by rw [hnum]))⟩
      · refine ⟨e.2, OrdMap.mem_insert.mpr (Or.inr ⟨?_, hnum⟩)⟩
        show e ∈ (build ops [] s.m.rtx).2.sentMem.entries
        rw [h3]
        exact he
  | ack short a clock => exact absurd he id
  | turn now clock =>
    have hdue : due s.m now = false := by
      apply decide_eq_false
      intro h
      rw [hi.time, hleft] at h
      exact h.2.2.2 rfl
    obtain ⟨loopDeadline, hstep⟩ := (watched_of_inv cfg cbrt hi).rest now clock hdue
    exact ⟨_, hstep, ⟨hi.live, hi.time⟩, hleft, rfl, List.Sublist.refl _, fun e he => ⟨e.2, he⟩⟩
  | other cong loopDeadline =>
    exact ⟨_, rfl, ⟨hi.live, hi.time⟩, hleft, rfl, List.Sublist.refl _, fun e he => ⟨e.2, he⟩⟩

/-- **The tail.**  From the start, and after every pass that leaves nothing in flight, no packet is
declared lost and no frame is queued again before the next ACK frame, however often the loop turns
and whatever the clock says. -/
theorem tail_run (cfg : Config) (cbrt : Nat → Nat) (cong : Congestion) (es fs : List Event)
    (hg : Along (step cfg cbrt) Guarded (start cong) es) (hfs : ∀ e ∈ fs, Silent e) :
    ∀ s, run (step cfg cbrt) (start cong) es = some s → s.left = [] →
      ∃ s', run (step cfg cbrt) s fs = some s' ∧ Tail s s' := by
  intro s hs hleft
  have hi : Inv s := run_keeps (J := Inv) (fun _ _ _ hi hg h => step_inv hi _ hg h)
    (start_inv cong) hg hs
  have hsilent : Along (step cfg cbrt) (fun _ e => Silent e) s fs := Along.of_mem _ hfs
  obtain ⟨s', hs', _, _, htail⟩ := run_inv (I := fun _ x => Inv x ∧ x.left = [] ∧ Tail s x)
    ⟨hi, hleft, Tail.refl s⟩
    (fun _ x e h he => by
      obtain ⟨hx, hxl, hxt⟩ := h
      obtain ⟨x', hstep, hx', hxl', hxt'⟩ := silent_step cfg cbrt hx hxl he
      exact ⟨x', hstep, hx', hxl', hxt.trans hxt'⟩)
    fs hsilent
  exact ⟨s', hs', htail⟩

/-- a third packet is sent, and the loop turns much later -/
def silence : List Event :=
  [.send 2 ⟨0, 9000000100, 1200, true, []⟩ [.retransmit 1000], .turn 90000000000 90000000000]

/-- the frame that was lost before is sent again, and stays in flight -/
theorem tail_run_silence : ∃ s s',
    run (step serverCfg id) (start (Congestion.init serverCfg)) watching = some s ∧
      run (step serverCfg id) s silence = some s' ∧ Tail s s' := by
  obtain ⟨s, hs⟩ : ∃ s, run (step serverCfg id) (start (Congestion.init serverCfg)) watching =
      some s := Option.isSome_iff_exists.mp (by decide +kernel)
  have hleft : (run (step serverCfg id) (start (Congestion.init serverCfg)) watching).map
      (fun s => s.left) = some [] := by decide +kernel
  rw [hs] at hleft
  obtain ⟨s', hs', htail⟩ := tail_run serverCfg id _ watching silence watching_guarded
    (by simp [silence, Silent]) s hs (Option.some.inj hleft)
  exact ⟨s, s', hs, hs', htail⟩

end LossTimer
end OpenQuic
