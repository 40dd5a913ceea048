import OpenQuic.Lib.Average
import OpenQuic.Lib.Deadlines
import OpenQuic.Modules.PassFrame
import OpenQuic.Modules.Sender

/-!
# Round trips

The round-trip estimate of a session over the runs of its three packet number spaces.  An ACK frame
gives a sample when the packet with its largest number is in `sent_mem`; `max_delay` starts at 0 and
is only raised to a delay that it caps, so no delay ever counts.

* `sampled`         the sample of an event;
* `Sampled`         the estimate is made of the samples, one after the other;
* `foldl_sample`    what some samples make of an estimate;
* `Between`         the bounds of the estimate;
* `estimated_run`   **the estimate depends on the samples only, lies between the least and the
                    greatest of them, and its variation fades.**
-/

namespace OpenQuic
open Word Runs Averages Deadlines

namespace RoundTrips
open Sending
open Congestion (rttInit rttUpdate pto update_rtt onSent_rtt)
open Recovery hiding Event
open FrameLedger (build build_spec SameButQueue)

/-! ## one sample -/

/-- the sample that an ACK frame gives -/
def sampled (s : State) : Event → List Nat
  | .ack sp _ _ a _ =>
    if (s.rtx sp).dropped then []
    else ((s.rtx sp).sentMem.find a.largestAck).toList.map fun pkt => sub64 a.recvTime pkt.sentTime
  | _ => []

/-- the estimate after a sample without a delay -/
def sample (r : Rtt) (x : Nat) : Rtt := rttUpdate r x 0 0

theorem sub64_zero {a : Nat} (h : a < 2 ^ 64) : sub64 a 0 = a := sub64_of_le (Nat.zero_le a) h

theorem rttUpdate_sample (r : Rtt) (recvTime sentTime : Nat) :
    rttUpdate r recvTime sentTime 0 = sample r (sub64 recvTime sentTime) := by
  have h : sub64 (sub64 recvTime sentTime) 0 = sub64 recvTime sentTime := sub64_zero (sub_lt ..)
  unfold sample rttUpdate
  rw [h]

/-- the first sample -/
theorem sample_init {x : Nat} (hx : x < 2 ^ 64) : sample rttInit x = ⟨x, x, x / 2, 0⟩ := by
  unfold sample rttUpdate
  rw [sub64_zero hx]
  rfl

/-- a sample of an estimate that there is -/
theorem sample_eq {r : Rtt} {x : Nat} (hr : r.minRtt ≠ 0) (hx : x < 2 ^ 60)
    (hs : r.smoothedRtt < 2 ^ 60) (hv : r.rttvar < 2 ^ 60) :
    sample r x = ⟨note r.minRtt x, average 7 r.smoothedRtt x, average 3 r.rttvar 0, x⟩ := by
  have hx64 : sub64 x 0 = x := sub64_zero (by omega)
  have hself : sub64 x x = 0 := (sub64_of_le (le_refl x) (by omega)).trans (Nat.sub_self x)
  have h7 : mul64 7 r.smoothedRtt = 7 * r.smoothedRtt := mul_of_lt (by omega)
  have h3 : mul64 3 r.rttvar = 3 * r.rttvar := mul_of_lt (by omega)
  unfold sample rttUpdate
  dsimp only
  simp only [hr, if_false, hx64, ite_self, Nat.lt_irrefl, hself, h7, h3, note, false_or]
  rw [add64_of_lt (by omega), add64_of_lt (by omega)]
  rfl

/-! ## some samples -/

/-- an estimate whose arithmetic does not overflow -/
structure Small (r : Rtt) : Prop where
  least : r.minRtt ≠ 0
  smoothed : r.smoothedRtt < 2 ^ 60
  variation : r.rttvar < 2 ^ 60

theorem sample_small {r : Rtt} {x : Nat} (h : Small r) (h0 : x ≠ 0) (hx : x < 2 ^ 60) :
    Small (sample r x) := by
  rw [sample_eq h.least hx h.smoothed h.variation]
  refine ⟨note_ne_zero h0, ?_, ?_⟩
  · exact Nat.lt_of_le_pred (Nat.two_pow_pos 60)
      (average_le 7 (Nat.le_pred_of_lt h.smoothed) (Nat.le_pred_of_lt hx))
  · exact Nat.lt_of_le_pred (Nat.two_pow_pos 60)
      (average_le 3 (Nat.le_pred_of_lt h.variation) (Nat.zero_le _))

theorem foldl_sample {r : Rtt} (h : Small r) {xs : List Nat} (hxs : ∀ x ∈ xs, x ≠ 0 ∧ x < 2 ^ 60) :
    Small (xs.foldl sample r) ∧ (xs.foldl sample r).minRtt = notes r.minRtt xs ∧
      (xs.foldl sample r).smoothedRtt = xs.foldl (average 7) r.smoothedRtt ∧
      (xs.foldl sample r).rttvar = xs.foldl (fun v _ => average 3 v 0) r.rttvar := by
  induction xs generalizing r with
  | nil => exact ⟨h, rfl, rfl, rfl⟩
  | cons x xs ih =>
    obtain ⟨⟨h0, hx⟩, hxs⟩ := List.forall_mem_cons.mp hxs
    have hrest := ih (sample_small h h0 hx) hxs
    rw [List.foldl_cons]
    generalize xs.foldl sample (sample r x) = r' at hrest ⊢
    rw [sample_eq h.least hx h.smoothed h.variation] at hrest
    exact hrest

/-- The estimate `r` after the sample `x` and the samples `xs`. -/
structure Between (x : Nat) (xs : List Nat) (r : Rtt) : Prop where
  least : r.minRtt ∈ x :: xs ∧ ∀ y ∈ x :: xs, r.minRtt ≤ y
  smoothed : ∀ lo hi, (∀ y ∈ x :: xs, lo ≤ y ∧ y ≤ hi) → lo ≤ r.smoothedRtt ∧ r.smoothedRtt ≤ hi
  variation : 4 ^ xs.length * r.rttvar ≤ 3 ^ xs.length * (x / 2)

theorem foldl_sample_between {x : Nat} {xs : List Nat}
    (hxs : ∀ y ∈ x :: xs, y ≠ 0 ∧ y < 2 ^ 60) :
    Small ((x :: xs).foldl sample rttInit) ∧ Between x xs ((x :: xs).foldl sample rttInit) := by
  obtain ⟨⟨h0, hx⟩, hrest⟩ := List.forall_mem_cons.mp hxs
  have hfirst : Small ⟨x, x, x / 2, 0⟩ :=
    ⟨h0, hx, Nat.lt_of_le_of_lt (Nat.div_le_self x 2) hx⟩
  rw [List.foldl_cons, sample_init (Nat.lt_trans hx (by decide))]
  obtain ⟨hsmall, hmin, hsmooth, hvar⟩ := foldl_sample hfirst hrest
  refine ⟨hsmall, ⟨?_, ?_⟩, ?_, ?_⟩
  · rw [hmin]
    exact notes_mem x xs
  · rw [hmin]
    have hne : ∀ d ∈ xs, d ≠ 0 := fun d hd => (hrest d hd).1
    exact List.forall_mem_cons.mpr ⟨notes_le_self h0 hne, notes_le hne⟩
  · intro lo hi hb
    obtain ⟨hxb, hb⟩ := List.forall_mem_cons.mp hb
    rw [hsmooth]
    exact foldl_average_within 7 hb hxb.1 hxb.2
  · rw [hvar]
    exact foldl_average_zero 3 xs (x / 2)

/-! ## a step -/

/-- the estimate is made of the samples `xs`, and no delay was noted -/
structure Sampled (xs : List Nat) (s : State) : Prop where
  rtt : s.cong.rtt = xs.foldl sample rttInit
  delay : ∀ sp, (s.rtx sp).maxDelay = 0

/-- what happens in between leaves the estimate alone -/
def Guarded (s : State) : Event → Prop
  | .other cong _ => cong.rtt = s.cong.rtt
  | _ => True

theorem sampleAck_sampled (m : Recovery) (short : Bool) (a : AckFrame) (hdelay : m.rtx.maxDelay = 0) :
    (sampleAck m short a).cong.rtt =
        ((m.rtx.sentMem.find a.largestAck).toList.map fun pkt =>
          sub64 a.recvTime pkt.sentTime).foldl sample m.cong.rtt ∧
      (sampleAck m short a).rtx.maxDelay = 0 := by
  unfold sampleAck
  dsimp only
  cases hfind : m.rtx.sentMem.find a.largestAck with
  | none => exact ⟨rfl, hdelay⟩
  | some pkt =>
    have hzero : (if short then if a.delay < m.rtx.maxDelay then a.delay else m.rtx.maxDelay
        else 0) = 0 := by
      rw [hdelay, if_neg (Nat.not_lt_zero a.delay), ite_self]
    dsimp only
    rw [hzero, hdelay]
    exact ⟨(update_rtt ..).trans (rttUpdate_sample ..), rfl⟩

theorem delay_update {rtx : Space → Retransmission} (h : ∀ sp, (rtx sp).maxDelay = 0)
    {r : Retransmission} (hr : r.maxDelay = 0) (sp sp' : Space) :
    (Function.update rtx sp r sp').maxDelay = 0 := by
  by_cases heq : sp' = sp
  · rw [heq, Function.update_self]
    exact hr
  · rw [Function.update_of_ne heq]
    exact h sp'

section
variable {cfg : Config} {cbrt : Nat → Nat} {s s' : State} {xs : List Nat}

theorem Sampled.of_basis (h : Sampled xs s) {sp : Space} {m : Recovery}
    (hb : SameBasis (s.recovery sp) m) : Sampled xs (s.setRecovery sp m) :=
  ⟨hb.rtt.trans h.rtt, delay_update h.delay (hb.maxDelay.trans (h.delay sp)) sp⟩

/-- an ACK frame -/
theorem Sampled.ack (h : Sampled xs s) {sp : Space} {ackMem : Nat → Nat → Bool}
    {lostMem : Nat → Bool} {a : AckFrame} {clock : Time}
    (hs : step cfg cbrt s (.ack sp ackMem lostMem a clock) = some s') :
    Sampled (xs ++ sampled s (.ack sp ackMem lostMem a clock)) s' := by
  obtain ⟨x, hx, rfl⟩ := Option.map_eq_some_iff.mp hs
  unfold handleAckFrame at hx
  rw [sampled]
  by_cases hdrop : (s.recovery sp).rtx.dropped = true
  · rw [if_pos hdrop] at hx
    cases hx
    rw [if_pos (show (s.rtx sp).dropped = true from hdrop), List.append_nil]
    exact h.of_basis (.refl _)
  · rw [if_neg hdrop] at hx
    rw [if_neg (show ¬ (s.rtx sp).dropped = true from hdrop)]
    obtain ⟨y, hy, hx⟩ := Option.bind_eq_some_iff.mp hx
    obtain ⟨z, hz, rfl⟩ := Option.map_eq_some_iff.mp hx
    obtain ⟨hrtt, hdelay⟩ := sampleAck_sampled (s.recovery sp) (sp = .app) a (h.delay sp)
    have hlast : SameBasis z.1 { z.1 with rtx := { z.1.rtx with ptoCount := 0 } } := ⟨rfl, rfl, rfl⟩
    have hb := ((findNewlyAcked_basis hy).trans (findNewlyLost_basis hz)).trans
      (hlast.trans (updateAlarm_basis _))
    refine ⟨?_, delay_update h.delay (hb.maxDelay.trans hdelay) sp⟩
    rw [List.foldl_append, ← h.rtt]
    exact hb.rtt.trans hrtt

theorem Sampled.built (h : Sampled xs s) (b : Build) :
    Sampled xs { s with rtx := Function.update s.rtx b.space (b.frames s).2 } := by
  refine ⟨h.rtt, delay_update h.delay ?_ b.space⟩
  have hsame := (build_spec b.ops [] (s.rtx b.space)).1
  unfold SameButQueue at hsame
  rw [Build.frames, hsame]
  exact h.delay b.space

theorem Sampled.sendPacket (h : Sampled xs s) (mem : Bool) (now : Time) (pkt : SendPacket) :
    Sampled xs (s.sendPacket mem now pkt) := by
  have hpush := sentMemPush_basis (s.recovery pkt.space) pkt.num
    ⟨pkt.largestAck, now, u32 pkt.pos, pkt.includedUnacked, pkt.frames⟩
  have hb : SameBasis (s.recovery pkt.space)
      (OpenQuic.sendPacket mem now (s.recovery pkt.space) pkt).1 := by
    cases mem with
    | false => exact .refl _
    | true => exact ⟨(onSent_rtt ..).trans hpush.rtt, hpush.maxDelay, hpush.dropped⟩
  have hset := h.of_basis hb
  exact ⟨hset.rtt, hset.delay⟩

/-- **A step adds its sample.** -/
theorem step_sampled {e : Event} (h : Sampled xs s) (hg : Guarded s e)
    (hs : step cfg cbrt s e = some s') : Sampled (xs ++ sampled s e) s' := by
  cases e with
  | ack sp ackMem lostMem a clock => exact h.ack hs
  | send b =>
    show Sampled (xs ++ []) s'
    rw [List.append_nil]
    rcases send_cases hs with ⟨_, rtx, rfl, rfl | rfl⟩ | ⟨_, _, _, pkt, _, rfl⟩
    · exact h
    · exact h.built b
    · have hb := h.built b
      have hnext : Sampled xs { s with
          rtx := Function.update s.rtx b.space (b.frames s).2
          next := Function.update s.next b.space (add64 (s.next b.space) 1) } := ⟨hb.rtt, hb.delay⟩
      exact hnext.sendPacket b.nodeMem b.now pkt
  | loop sp mem now clock =>
    obtain ⟨x, hx, rfl⟩ := Option.map_eq_some_iff.mp hs
    show Sampled (xs ++ []) _
    rw [List.append_nil]
    exact h.of_basis (moduleLoop_basis hx)
  | drop sp =>
    cases hs
    show Sampled (xs ++ []) _
    rw [List.append_nil]
    exact ⟨h.rtt, delay_update h.delay rfl sp⟩
  | other cong loopDeadline =>
    cases hs
    show Sampled (xs ++ []) _
    rw [List.append_nil]
    exact ⟨hg.trans h.rtt, h.delay⟩

end

/-! ## runs -/

/-- Where every sample is a time above 0 and below 2^60, the timeout of a packet is computed from
the estimate without a delay. -/
structure Estimated (xs : List Nat) (s : State) : Prop where
  sampled : Sampled xs s
  between : (∀ x ∈ xs, x ≠ 0 ∧ x < 2 ^ 60) → ∀ x ys, xs = x :: ys → Between x ys s.cong.rtt
  timeout : (∀ x ∈ xs, x ≠ 0 ∧ x < 2 ^ 60) → xs ≠ [] → ∀ sp,
    s.cong.pto (s.rtx sp).maxDelay = s.cong.rtt.smoothedRtt + max (4 * s.cong.rtt.rttvar) 1000

theorem pto_eq {c : Congestion} (h : Small c.rtt) :
    c.pto 0 = c.rtt.smoothedRtt + max (4 * c.rtt.rttvar) 1000 := by
  have hsmooth := h.smoothed
  have hvar := h.variation
  have hshl : shl64 c.rtt.rttvar 2 = 4 * c.rtt.rttvar := by
    unfold shl64
    rw [Nat.shiftLeft_eq, trunc_of_lt (by omega), Nat.mul_comm]
  have hmax : max (4 * c.rtt.rttvar) 1000 < 2 ^ 62 := max_lt (by omega) (by decide)
  unfold pto
  rw [hshl, add64_of_lt (by omega : c.rtt.smoothedRtt + max (4 * c.rtt.rttvar) 1000 < 2 ^ 64),
    add64_of_lt (by omega), Nat.add_zero]

theorem Sampled.estimated {xs : List Nat} {s : State} (h : Sampled xs s) : Estimated xs s := by
  refine ⟨h, fun hxs x ys heq => ?_, fun hxs hne sp => ?_⟩
  · subst heq
    rw [h.rtt]
    exact (foldl_sample_between hxs).2
  · obtain ⟨x, ys, rfl⟩ := List.exists_cons_of_ne_nil hne
    rw [h.delay sp]
    apply pto_eq
    rw [h.rtt]
    exact (foldl_sample_between hxs).1

/-- **The estimate.**  Whatever is sent, acknowledged, lost or dropped in the three spaces, the
estimate is made of the samples of the ACK frames and nothing else. -/
theorem estimated_run (cfg : Config) (cbrt : Nat → Nat) (es : List Event)
    (hg : Along (step cfg cbrt) Guarded (start (Congestion.init cfg)) es) :
    ∀ past, past <+: es → ∀ s, run (step cfg cbrt) (start (Congestion.init cfg)) past = some s →
      Estimated (shown (step cfg cbrt) sampled (start (Congestion.init cfg)) past) s := by
  intro past hp s hs
  have hstart : Sampled [] (start (Congestion.init cfg)) := ⟨rfl, fun _ => rfl⟩
  have h := run_shown (J := Sampled) (fun _ _ _ _ hi hg hs => step_sampled hi hg hs) hstart
    (hg.of_isPrefix _ hp) hs
  exact h.estimated

/-- two packets are sent and acknowledged -/
def pings : List Event :=
  [.send { pingBuild true with now := 1000000 }, .send { pingBuild true with now := 1010000 },
    .ack .app (fun _ _ => true) (fun _ => true) ⟨0x40, 1050000, 0, 25, 0, 0, 0, 0, 0, []⟩ 1050000,
    .ack .app (fun _ _ => true) (fun _ => true) ⟨0x40, 1050000, 1, 25, 0, 0, 0, 0, 0, []⟩ 1050000]

example : shown (step serverCfg id) sampled (start (Congestion.init serverCfg)) pings =
    [50000, 40000] := by decide +kernel

theorem estimated_run_pings : ∃ s, run (step serverCfg id) (start (Congestion.init serverCfg)) pings =
    some s ∧ Estimated (shown (step serverCfg id) sampled (start (Congestion.init serverCfg)) pings) s := by
  have hrun : (run (step serverCfg id) (start (Congestion.init serverCfg)) pings).isSome = true := by
    decide +kernel
  obtain ⟨s, hs⟩ := Option.isSome_iff_exists.mp hrun
  have hg : Along (step serverCfg id) Guarded (start (Congestion.init serverCfg)) pings := by
    refine ⟨trivial, fun _ _ => ⟨trivial, fun _ _ => ⟨trivial, fun _ _ => ⟨trivial, fun _ _ => trivial⟩⟩⟩⟩
  exact ⟨s, hs, estimated_run serverCfg id pings hg pings List.prefix_rfl s hs⟩

end RoundTrips
end OpenQuic
