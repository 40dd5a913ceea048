import OpenQuic.Modules.Passes

/-!
# What the passes leave alone

The passes over the sent packets, the congestion module that they tell of each packet, and the loop
of the module change neither the round-trip estimate, nor `max_delay`, nor `dropped`: only an ACK
frame with a sample does.

* `Congestion.onSent_rtt`, `onAcked_rtt`, `onLost_rtt`   the congestion module;
* `SameBasis`                what a pass leaves alone;
* `findNewlyAcked_basis`, `findNewlyLost_basis`, `moduleLoop_basis`   the passes and the loop.
-/

namespace OpenQuic
open Word

namespace Congestion

theorem increaseCwnd_rtt (cfg : Config) (cbrt : Nat → Nat) (c : Congestion)
    (ackedBytes unackedBytes eventTime : Nat) :
    (c.increaseCwnd cfg cbrt ackedBytes unackedBytes eventTime).rtt = c.rtt := by
  unfold increaseCwnd
  dsimp only
  split
  · rfl
  · split
    · rfl
    · split <;> rfl

theorem onSent_rtt (c : Congestion) (sentTime num sentBytes : Nat) (includedUnacked : Bool) :
    (c.onSent sentTime num sentBytes includedUnacked).rtt = c.rtt := by
  unfold onSent
  dsimp only
  split <;> rfl

theorem onAcked_rtt (cfg : Config) (cbrt : Nat → Nat) (c : Congestion)
    (num ackedBytes unackedBytes eventTime : Nat) :
    (c.onAcked cfg cbrt num ackedBytes unackedBytes eventTime).rtt = c.rtt := by
  have hinc := increaseCwnd_rtt cfg cbrt { c with base := ackedNum c.base num } ackedBytes
    unackedBytes eventTime
  unfold onAcked
  dsimp only
  split
  · split <;> rfl
  · split <;> exact hinc

theorem reduceCwnd_rtt (cfg : Config) (c : Congestion) : (c.reduceCwnd cfg).rtt = c.rtt := by
  unfold reduceCwnd
  split <;> rfl

theorem onLost_rtt (cfg : Config) (c : Congestion) (num lostBytes unackedBytes : Nat) :
    (c.onLost cfg num lostBytes unackedBytes).rtt = c.rtt := by
  unfold onLost
  split
  · unfold onLostAgain
    split
    · dsimp only
      split <;> rfl
    · rfl
  · unfold onLostFirst
    dsimp only
    rw [reduceCwnd_rtt]
    split <;> rfl

theorem update_rtt (c : Congestion) (recvTime sentTime delay : Nat) :
    (c.update recvTime sentTime delay).rtt = rttUpdate c.rtt recvTime sentTime delay := by
  unfold update
  extract_lets c1 s1 s2
  split
  · rfl
  · split
    · rfl
    · split <;> rfl

end Congestion

namespace Recovery

/-- what the alarm is computed from, and whether the module was dropped -/
structure SameBasis (m m' : Recovery) : Prop where
  rtt : m'.cong.rtt = m.cong.rtt
  maxDelay : m'.rtx.maxDelay = m.rtx.maxDelay
  dropped : m'.rtx.dropped = m.rtx.dropped

section
variable {cfg : Config} {cbrt : Nat → Nat} {m m' m'' : Recovery}

theorem SameBasis.refl (m : Recovery) : SameBasis m m := ⟨rfl, rfl, rfl⟩

theorem SameBasis.trans (h : SameBasis m m') (h' : SameBasis m' m'') : SameBasis m m'' :=
  ⟨h'.rtt.trans h.rtt, h'.maxDelay.trans h.maxDelay, h'.dropped.trans h.dropped⟩

theorem updateAlarm_basis (m : Recovery) : SameBasis m (updateAlarm m) := by
  unfold updateAlarm
  split
  · exact .refl m
  · split <;> exact ⟨rfl, rfl, rfl⟩

theorem sentMemPush_basis (m : Recovery) (num : Nat) (pkt : SentPacket) :
    SameBasis m (sentMemPush m num pkt) := by
  unfold sentMemPush
  split
  · exact .refl m
  · dsimp only
    split
    · refine SameBasis.trans ?_ (updateAlarm_basis _)
      exact ⟨rfl, rfl, rfl⟩
    · exact ⟨rfl, rfl, rfl⟩

/-! ## a packet in a pass -/

theorem uncount_basis (p : Pass) (pkt : SentPacket) {report : Congestion → Nat → Congestion}
    (hr : ∀ c n, (report c n).rtt = c.rtt) : SameBasis p.m (p.uncount pkt report).m := by
  obtain ⟨_, _, hrtx⟩ := uncount_spec p pkt report
  refine ⟨?_, by rw [hrtx], by rw [hrtx]⟩
  rw [Pass.uncount]
  dsimp only
  cases pkt.includedUnacked with
  | false => simp only [Bool.false_eq_true, if_false]
  | true => simp only [if_true, hr]

theorem foldl_ackFrame_m (fs : List Frame) (p : Pass) : (fs.foldl Pass.ackFrame p).m = p.m := by
  induction fs generalizing p with
  | nil => rfl
  | cons f fs ih => exact ih (p.ackFrame f)

theorem loseFrame_basis (p : Pass) (f : Frame) : SameBasis p.m (p.loseFrame f).m := by
  unfold Pass.loseFrame Retransmission.frameInsert
  split
  · dsimp only
    split <;> exact ⟨rfl, rfl, rfl⟩
  · exact .refl _

theorem foldl_loseFrame_basis (fs : List Frame) (p : Pass) :
    SameBasis p.m (fs.foldl Pass.loseFrame p).m := by
  induction fs generalizing p with
  | nil => exact .refl _
  | cons f fs ih => exact (loseFrame_basis p f).trans (ih (p.loseFrame f))

theorem ackPacket_basis (mem : Bool) (recvTime num : Nat) (pkt : SentPacket) (p : Pass) :
    SameBasis p.m (p.ackPacket cfg cbrt mem recvTime num pkt).2.m := by
  have h := uncount_basis (p.dropPacket mem num) pkt fun c unackedLen =>
    Congestion.onAcked_rtt cfg cbrt c num pkt.pktLen unackedLen recvTime
  rw [(dropPacket_m p mem num).1] at h
  unfold Pass.ackPacket
  dsimp only
  rw [foldl_ackFrame_m]
  exact h

theorem losePacket_basis (mem : Bool) (num : Nat) (pkt : SentPacket) (p : Pass) :
    SameBasis p.m (p.losePacket cfg mem num pkt).2.m := by
  have h := uncount_basis (p.dropPacket mem num) pkt fun c unackedLen =>
    Congestion.onLost_rtt cfg c num pkt.pktLen unackedLen
  rw [(dropPacket_m p mem num).1] at h
  unfold Pass.losePacket
  generalize (p.dropPacket mem num).uncount pkt _ = q at h ⊢
  exact h.trans (foldl_loseFrame_basis pkt.frames { q with calls := q.calls ++ [.lostPacket num] })

theorem ackRanges_basis (mem : Nat → Bool) (a : AckFrame) (num n i start stop : Nat)
    (pkt : SentPacket) (p : Pass) :
    SameBasis p.m (p.ackRanges cfg cbrt mem a num n i start stop pkt).2.m := by
  induction n generalizing i start stop pkt p with
  | zero => exact .refl _
  | succ n ih =>
    unfold Pass.ackRanges
    dsimp only
    refine SameBasis.trans ?_ (ih ..)
    split
    · exact ackPacket_basis (mem i) a.recvTime num pkt p
    · exact .refl _

theorem checkLost_basis (mem : Nat → Bool) (delay lostSendTime num : Nat) (pkt : SentPacket)
    (p : Pass) : SameBasis p.m (p.checkLost cfg mem delay lostSendTime num pkt).2.m := by
  unfold Pass.checkLost
  split
  · exact losePacket_basis (mem num) num pkt p
  · split
    · dsimp only
      refine SameBasis.trans ?_ (updateAlarm_basis _)
      exact ⟨rfl, rfl, rfl⟩
    · exact .refl _

/-! ## a pass -/

theorem finish_basis {f : Nat → SentPacket → Pass → SentPacket × Pass} {cs : List Call}
    (hf : ∀ num pkt p, SameBasis p.m (f num pkt p).2.m)
    (h : finish (m.rtx.sentMem.foreach f ⟨m, [], []⟩) = some (m', cs)) : SameBasis m m' := by
  have hp := (m.rtx.sentMem.foreach_keeps (P := fun _ _ => True)
    (I := fun p : Pass => SameBasis m p.m) (f := f)
    (fun num pkt p _ hp => ⟨trivial, hp.trans (hf num pkt p)⟩) (fun _ _ => trivial)
    (s := ⟨m, [], []⟩) (.refl m)).2
  obtain ⟨sentMem, _, he⟩ := Option.map_eq_some_iff.mp h
  obtain ⟨rfl, _⟩ := Prod.mk.inj he
  exact ⟨hp.rtt, hp.maxDelay, hp.dropped⟩

theorem findNewlyAcked_basis {mem : Nat → Nat → Bool} {a : AckFrame} {cs : List Call}
    (h : findNewlyAcked cfg cbrt mem m a = some (m', cs)) : SameBasis m m' := by
  unfold findNewlyAcked at h
  split at h
  · cases h
    exact .refl m
  · exact finish_basis (fun num pkt p => ackRanges_basis (mem num) a num _ _ _ _ pkt p) h

theorem findNewlyLost_basis {mem : Nat → Bool} {now : Time} {cs : List Call}
    (h : findNewlyLost cfg mem m now = some (m', cs)) : SameBasis m m' := by
  unfold findNewlyLost at h
  split at h
  · cases h
    exact .refl m
  · have hp : SameBasis { m with rtx := { m.rtx with lossTime := 0 } } m' :=
      finish_basis (fun num pkt p => checkLost_basis mem _ _ num pkt p) h
    exact ⟨hp.rtt, hp.maxDelay, hp.dropped⟩

theorem moduleLoop_basis {mem : Nat → Bool} {now clock : Time} {cs : List Call}
    (h : moduleLoop cfg mem m now clock = some (m', cs)) : SameBasis m m' := by
  unfold moduleLoop at h
  split at h
  · cases h
    exact .refl m
  · split at h
    · cases h
      exact ⟨rfl, rfl, rfl⟩
    · split at h
      · have hp := findNewlyLost_basis h
        exact ⟨hp.rtt, hp.maxDelay, hp.dropped⟩
      · cases h
        exact .refl m

end

end Recovery
end OpenQuic
