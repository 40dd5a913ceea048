import OpenQuic.Modules.Ledger

/-!
# Where the frames are

The runs of one packet number space that is not dropped, seen from the frames: packets are built
from the retransmission queue and from new frames and sent, ACK frames arrive, loss passes run.

Building and sending a packet is one step, as it is one turn of the sender's loop: the frames of a
packet under construction are in no place of their own.

* `build`              the append calls of one packet, in any order;
* `Kept`               each frame is as often in `sent_mem`, in the queue and among the acknowledged
                       frames together as it was put into a packet: it is in one place, and in one
                       packet, at a time;
* `Guarded`            a lost packet holds only ACK frames and frames with `on_lost`, and no packet is
                       in two tested ranges;
* `kept_iff`           the runs in which no frame gets lost are the guarded ones.
-/

namespace OpenQuic
open Word

/-- an ACK frame, the one kind that is not retransmitted -/
def Frame.isAck (f : Frame) : Bool :=
  match f.body with
  | .ack _ => true
  | _ => false

namespace FrameLedger
open Recovery

/-! ## building a packet -/

/-- one append call of the sender: from the retransmission queue, or a new frame -/
inductive BuildOp where
  | retransmit (capa : Nat)
  | produce (f : Frame)

def build : List BuildOp → List Frame → Retransmission → List Frame × Retransmission
  | [], frames, r => (frames, r)
  | .retransmit capa :: ops, frames, r =>
    let x := Retransmission.appendFrame frames capa r
    build ops x.2.1 x.2.2
  | .produce f :: ops, frames, r => build ops (frames ++ [f]) r

/-- the new frames -/
def produced : List BuildOp → List Frame
  | [] => []
  | .retransmit _ :: ops => produced ops
  | .produce f :: ops => f :: produced ops

theorem takeFrame_count {capa : Nat} {queue rest : List Frame} {g : Frame}
    (h : Retransmission.takeFrame capa queue = some (g, rest)) (f : Frame) :
    queue.count f = rest.count f + [g].count f := by
  induction queue generalizing rest with
  | nil => cases h
  | cons q queue ih =>
    rw [Retransmission.takeFrame] at h
    split at h
    · obtain ⟨rfl, rfl⟩ := Prod.mk.inj (Option.some.inj h)
      rw [← List.singleton_append, List.count_append, Nat.add_comm]
    · rw [Option.map_eq_some_iff] at h
      obtain ⟨⟨g', rest'⟩, ht, he⟩ := h
      simp only [Prod.mk.injEq] at he
      obtain ⟨rfl, rfl⟩ := he
      have := ih ht
      rw [List.count_cons, List.count_cons]
      omega

/-- a module that differs in its queue only -/
def SameButQueue (r r' : Retransmission) : Prop :=
  r' = { r with retransmissionQueue := r'.retransmissionQueue }

theorem appendFrame_spec (frames : List Frame) (capa : Nat) (r : Retransmission) :
    SameButQueue r (Retransmission.appendFrame frames capa r).2.2 ∧
      ∀ f, (Retransmission.appendFrame frames capa r).2.1.count f +
          (Retransmission.appendFrame frames capa r).2.2.retransmissionQueue.count f =
        frames.count f + r.retransmissionQueue.count f := by
  rw [Retransmission.appendFrame]
  split
  · exact ⟨rfl, fun _ => rfl⟩
  · cases ht : Retransmission.takeFrame capa r.retransmissionQueue with
    | none => exact ⟨rfl, fun _ => rfl⟩
    | some x =>
      refine ⟨rfl, fun f => ?_⟩
      dsimp only
      rw [List.count_append, takeFrame_count ht f]
      omega

theorem build_spec (ops : List BuildOp) (frames : List Frame) (r : Retransmission) :
    SameButQueue r (build ops frames r).2 ∧
      ∀ f, (build ops frames r).1.count f + (build ops frames r).2.retransmissionQueue.count f =
        frames.count f + r.retransmissionQueue.count f + (produced ops).count f := by
  induction ops generalizing frames r with
  | nil => exact ⟨rfl, fun _ => rfl⟩
  | cons op ops ih =>
    cases op with
    | retransmit capa =>
      obtain ⟨h1, h2⟩ := appendFrame_spec frames capa r
      rw [build]
      generalize Retransmission.appendFrame frames capa r = x at h1 h2 ⊢
      obtain ⟨ih1, ih2⟩ := ih x.2.1 x.2.2
      refine ⟨?_, fun f => ?_⟩
      · rw [SameButQueue] at h1 ih1 ⊢
        rw [ih1, h1]
      · rw [ih2, h2]
        rfl
    | produce g =>
      obtain ⟨ih1, ih2⟩ := ih (frames ++ [g]) r
      refine ⟨ih1, fun f => ?_⟩
      rw [build, ih2, List.count_append, produced, List.count_cons, List.count_cons, List.count_nil]
      omega

/-- the new frames are all in the packet -/
theorem length_build (ops : List BuildOp) (frames : List Frame) (r : Retransmission) :
    frames.length + (produced ops).length ≤ (build ops frames r).1.length := by
  induction ops generalizing frames r with
  | nil => exact Nat.le_refl _
  | cons op ops ih =>
    cases op with
    | retransmit capa =>
      have hgrow : frames.length ≤ (Retransmission.appendFrame frames capa r).2.1.length := by
        rw [Retransmission.appendFrame]
        split
        · exact Nat.le_refl _
        · split
          · rw [List.length_append]
            exact Nat.le_add_right _ _
          · exact Nat.le_refl _
      have := ih (Retransmission.appendFrame frames capa r).2.1
        (Retransmission.appendFrame frames capa r).2.2
      rw [build, produced]
      omega
    | produce g =>
      have := ih (frames ++ [g]) r
      rw [List.length_append, List.length_singleton] at this
      rw [build, produced, List.length_cons]
      omega

/-! ## runs -/

/-- the module with the numbers of its packets, every frame that was put into a packet for the first
time, and every frame that was acknowledged -/
structure State where
  m : Recovery
  sent : List Nat
  handed : List Frame
  acked : List Frame

inductive Event where
  | send (num largestAck : Nat) (sentTime : Time) (pktLen : Nat) (includedUnacked : Bool)
      (ops : List BuildOp)
  | acked (a : AckFrame)
  | lost (now : Time)
  | other (o : Other)

/-- the frame that an acknowledgement pass is done with -/
def doneFrame : Call → Option Frame
  | .onAcked f => some f
  | .freeAcked f => some f
  | _ => none

def allocated : Nat → Bool := fun _ => true

/-- a packet without frames is not sent -/
def step (cfg : Config) (cbrt : Nat → Nat) (l : State) : Event → Option State
  | .send num largestAck sentTime pktLen includedUnacked ops =>
    let x := build ops [] l.m.rtx
    if x.1.isEmpty then some { l with m := { l.m with rtx := x.2 } }
    else
      some { l with
        m := sentMemPush { l.m with rtx := x.2 } num ⟨largestAck, sentTime, pktLen, includedUnacked, x.1⟩
        sent := num :: l.sent
        handed := l.handed ++ produced ops }
  | .acked a => (findNewlyAcked cfg cbrt (fun _ => allocated) l.m a).map fun x =>
      { l with m := x.1, acked := l.acked ++ x.2.filterMap doneFrame }
  | .lost now => (findNewlyLost cfg allocated l.m now).map fun x => { l with m := x.1 }
  | .other o => some { l with m := o.set l.m }

def sentFrames (es : List (Nat × SentPacket)) : List Frame := es.flatMap fun e => e.2.frames

/-- each frame that was put into a packet is in one of the three places -/
def Kept (l : State) : Prop :=
  ∀ f : Frame, f.isAck = false → l.handed.count f =
    (sentFrames l.m.rtx.sentMem.entries).count f + l.m.rtx.retransmissionQueue.count f +
      l.acked.count f

/-- the packets have distinct numbers -/
def Fresh (l : State) : Event → Prop
  | .send num _ _ _ _ _ => num ∉ l.sent
  | _ => True

def Guarded (l : State) : Event → Prop
  | .acked a => ∀ e ∈ l.m.rtx.sentMem.entries, AckedOnce a e.1
  | .lost now => ∀ e ∈ l.m.rtx.sentMem.entries, isLost l.m.cong now e.2 = true →
      ∀ f ∈ e.2.frames, f.isAck = true ∨ f.onLost = true
  | _ => True

structure Inv (l : State) : Prop where
  kept : Kept l
  live : l.m.rtx.dropped = false
  sent : ∀ e ∈ l.m.rtx.sentMem.entries, e.1 ∈ l.sent

def start (cong : Congestion) : State := ⟨⟨Retransmission.init, cong, 0⟩, [], [], []⟩

theorem start_inv (cong : Congestion) : Inv (start cong) :=
  ⟨fun _ _ => rfl, rfl, List.forall_mem_nil _⟩

theorem sentFrames_perm (es : List (Nat × SentPacket)) (p : Nat × SentPacket → Bool) :
    (sentFrames (es.filter p) ++ sentFrames (es.filter fun e => !p e)).Perm (sentFrames es) := by
  have h := (List.filter_append_perm p es).flatMap_right fun e => e.2.frames
  rwa [List.flatMap_append] at h

theorem sentFrames_split (es : List (Nat × SentPacket)) (p : Nat × SentPacket → Bool) (f : Frame) :
    (sentFrames (es.filter p)).count f + (sentFrames (es.filter fun e => !p e)).count f =
      (sentFrames es).count f := by
  have h := (sentFrames_perm es p).count_eq f
  rwa [List.count_append] at h

/-! ### sending -/

theorem send_inv (cfg : Config) (cbrt : Nat → Nat) {l : State} (hi : Inv l)
    {num largestAck : Nat} {sentTime : Time} {pktLen : Nat} {includedUnacked : Bool}
    {ops : List BuildOp} (hf : num ∉ l.sent) :
    ∃ l', step cfg cbrt l (.send num largestAck sentTime pktLen includedUnacked ops) = some l' ∧
      Inv l' := by
  obtain ⟨hsame, hcount⟩ := build_spec ops [] l.m.rtx
  have hlen := length_build ops [] l.m.rtx
  rw [step]
  generalize build ops [] l.m.rtx = x at hsame hcount hlen ⊢
  have hmem : x.2.sentMem = l.m.rtx.sentMem := by rw [hsame]
  have hdrop : x.2.dropped = false := by rw [hsame]; exact hi.live
  dsimp only
  split
  · rename_i hempty
    have hx : x.1 = [] := List.isEmpty_iff.mp hempty
    have hnone : produced ops = [] := by
      rw [hx] at hlen
      exact List.length_eq_zero_iff.mp (by simpa using hlen)
    refine ⟨_, rfl, fun f hfa => ?_, hdrop, by dsimp only; rw [hmem]; exact hi.sent⟩
    have hk := hi.kept f hfa
    have hc := hcount f
    rw [hx, hnone] at hc
    dsimp only
    rw [hmem]
    simp only [List.count_nil] at hc
    omega
  · obtain ⟨h1, _, _, h4, h5⟩ := sentMemPush_spec (m := { l.m with rtx := x.2 }) hdrop num
      ⟨largestAck, sentTime, pktLen, includedUnacked, x.1⟩
    dsimp only at h1 h4 h5
    have hperm := x.2.sentMem.insert_perm (k := num)
      ⟨largestAck, sentTime, pktLen, includedUnacked, x.1⟩ (OrdMap.find_eq_none.mpr fun e he h =>
        hf (h ▸ hi.sent e (hmem ▸ he)))
    refine ⟨_, rfl, fun f hfa => ?_, h5.trans hdrop, fun e he => ?_⟩
    · have hk := hi.kept f hfa
      have hc := hcount f
      have hs := (hperm.flatMap_right fun e => e.2.frames).count_eq f
      rw [List.flatMap_cons, List.count_append] at hs
      dsimp only at hs
      rw [sentFrames, ← hmem] at hk
      dsimp only
      rw [h1, h4, List.count_append, sentFrames, hs]
      simp only [List.count_nil] at hc
      omega
    · dsimp only at he
      rw [h1] at he
      rcases List.mem_cons.mp (hperm.mem_iff.mp he) with rfl | he
      · exact List.mem_cons_self
      · exact List.mem_cons_of_mem _ (hi.sent e (hmem ▸ he))

/-! ### an acknowledgement -/

theorem ackCall_done (f : Frame) : doneFrame (ackCall f) = some f := by
  rw [ackCall]
  split <;> rfl

theorem ackedCalls_done (num : Nat) (pkt : SentPacket) :
    (ackedCalls num pkt).filterMap doneFrame = pkt.frames := by
  show (pkt.frames.map ackCall).filterMap doneFrame = _
  rw [List.filterMap_map]
  have hid : doneFrame ∘ ackCall = some := funext ackCall_done
  rw [hid, List.filterMap_some]

theorem acked_inv (cfg : Config) (cbrt : Nat → Nat) {l : State} (hi : Inv l) {a : AckFrame}
    (hg : Guarded l (.acked a)) : ∃ l', step cfg cbrt l (.acked a) = some l' ∧ Inv l' := by
  obtain ⟨m', cs, hres, hp⟩ := acked_passed cfg cbrt (fun _ => allocated) l.m a hi.live hg
  have htaken := hp.taken fun _ _ _ => rfl
  refine ⟨_, by rw [step, hres, Option.map_some], fun f hfa => ?_, hp.dropped.trans hi.live,
    fun e he => ?_⟩
  · have hk := hi.kept f hfa
    have hsplit := sentFrames_split l.m.rtx.sentMem.entries (fun e => acks a e.1) f
    have hdone : cs.filterMap doneFrame =
        sentFrames (l.m.rtx.sentMem.entries.filter fun e => acks a e.1) := by
      rw [hp.calls, List.filterMap_flatMap]
      simp only [ackedCalls_done]
      rfl
    have hqueue : m'.rtx.retransmissionQueue = l.m.rtx.retransmissionQueue := by
      rw [hp.queue]
      simp
    dsimp only
    rw [hdone, hqueue, htaken, List.count_append]
    omega
  · dsimp only at he
    rw [htaken] at he
    exact hi.sent e (List.mem_filter.mp he).1

/-- a drop list that can be worked off names no packet twice -/
theorem dropPacketExecute_nodup {l : List Nat} {sentMem sentMem' : Rbt SentPacket}
    (h : dropPacketExecute l sentMem = some sentMem') :
    l.Nodup ∧ ∀ n ∈ l, sentMem.find n ≠ none := by
  induction l generalizing sentMem with
  | nil => exact ⟨List.nodup_nil, List.forall_mem_nil _⟩
  | cons n l ih =>
    rw [dropPacketExecute] at h
    split at h
    · cases h
    · rename_i hfind
      obtain ⟨hnd, hin⟩ := ih h
      have hfn : sentMem.find n ≠ none := fun h0 => hfind (by rw [h0]; rfl)
      refine ⟨List.nodup_cons.mpr ⟨fun hn => hin n hn (OrdMap.find_erase_self _ _), hnd⟩, ?_⟩
      intro k hk
      rcases List.mem_cons.mp hk with rfl | hk
      · exact hfn
      · have hne : k ≠ n := fun h0 => hin k hk (h0 ▸ OrdMap.find_erase_self _ _)
        rw [← OrdMap.find_erase_of_ne sentMem hne]
        exact hin k hk

/-- a packet is on the drop list once for each tested range that it is in -/
theorem ackRanges_dropList (cfg : Config) (cbrt : Nat → Nat) (a : AckFrame)
    (num n i start stop : Nat) (pkt : SentPacket) (p : Pass) (k : Nat) :
    (p.ackRanges cfg cbrt allocated a num n i start stop pkt).2.dropList.count k =
      p.dropList.count k +
        if num = k then (testedFrom a n i start stop).countP (within num) else 0 := by
  induction n generalizing i start stop pkt p with
  | zero =>
    rw [Pass.ackRanges, testedFrom, List.countP_nil, ite_self, Nat.add_zero]
  | succ n ih =>
    rw [Pass.ackRanges, testedFrom, List.countP_cons]
    cases hw : within num (start, stop) with
    | true =>
      rw [if_pos (by simpa [within] using hw), ih,
        (ackPacket_hits cfg cbrt (allocated i) a.recvTime num pkt p).dropList]
      show (if true = true then num :: p.dropList else p.dropList).count k + _ = _
      rw [if_pos rfl, List.count_cons]
      by_cases hk : num = k
      · rw [if_pos hk, if_pos hk, if_pos rfl, if_pos (by simpa using hk)]
        omega
      · rw [if_neg hk, if_neg hk, if_neg (by simpa using hk)]
    | false =>
      rw [if_neg (by simpa [within] using hw), ih, if_neg Bool.false_ne_true]
      rfl

/-- an acknowledgement pass has a result only where no packet is in two tested ranges -/
theorem acked_guarded {cfg : Config} {cbrt : Nat → Nat} {l l' : State} {a : AckFrame} (hi : Inv l)
    (h : step cfg cbrt l (.acked a) = some l') : Guarded l (.acked a) := by
  rw [step, Option.map_eq_some_iff] at h
  obtain ⟨x, hx, _⟩ := h
  have hd := hi.live
  rw [findNewlyAcked, if_neg (by rw [hd]; decide), finish, Option.map_eq_some_iff] at hx
  obtain ⟨sm, hsm, _⟩ := hx
  have hnd := (dropPacketExecute_nodup hsm).1
  rw [OrdMap.foreach_snd] at hnd
  have hfold : ∀ (es : List (Nat × SentPacket)) (p : Pass) (k : Nat),
      p.dropList.count k ≤ (es.foldl (fun p e => (p.ackRanges cfg cbrt allocated a e.1
          (max 1 a.count) 0 (sub64 a.largestAck a.firstRange) a.largestAck e.2).2) p).dropList.count k ∧
        ∀ e ∈ es, e.1 = k → (tested a).countP (within k) ≤
          (es.foldl (fun p e => (p.ackRanges cfg cbrt allocated a e.1 (max 1 a.count) 0
            (sub64 a.largestAck a.firstRange) a.largestAck e.2).2) p).dropList.count k := by
    intro es
    induction es with
    | nil => exact fun p k => ⟨Nat.le_refl _, List.forall_mem_nil _⟩
    | cons e es ih =>
      intro p k
      obtain ⟨h1, h2⟩ := ih (p.ackRanges cfg cbrt allocated a e.1 (max 1 a.count) 0
        (sub64 a.largestAck a.firstRange) a.largestAck e.2).2 k
      rw [ackRanges_dropList] at h1
      rw [List.foldl_cons]
      refine ⟨by omega, fun g hg hgk => ?_⟩
      rcases List.mem_cons.mp hg with rfl | hg
      · subst hgk
        rw [if_pos rfl] at h1
        exact Nat.le_trans (Nat.le_add_left _ _) h1
      · exact h2 g hg hgk
  intro e he
  exact Nat.le_trans ((hfold _ _ e.1).2 e he rfl) (List.nodup_iff_count_le_one.mp hnd e.1)

/-! ### a loss -/

/-- the frames of the lost packets -/
def lostFrames (l : State) (now : Time) : List Frame :=
  sentFrames (l.m.rtx.sentMem.entries.filter fun e => isLost l.m.cong now e.2)

/-- a loss pass moves the frames with `on_lost` to the queue and releases the others -/
theorem lost_spec (cfg : Config) (cbrt : Nat → Nat) {l : State} (hi : Inv l) (now : Time) :
    ∃ l', step cfg cbrt l (.lost now) = some l' ∧ l'.m.rtx.dropped = false ∧
      (∀ e ∈ l'.m.rtx.sentMem.entries, e.1 ∈ l'.sent) ∧ l'.handed = l.handed ∧
      l'.acked = l.acked ∧
      ∀ f, (sentFrames l'.m.rtx.sentMem.entries).count f + (lostFrames l now).count f =
          (sentFrames l.m.rtx.sentMem.entries).count f ∧
        l'.m.rtx.retransmissionQueue.count f =
          l.m.rtx.retransmissionQueue.count f + ((lostFrames l now).filter Frame.onLost).count f := by
  obtain ⟨m', cs, hres, hp⟩ := lost_passed cfg allocated l.m now hi.live
  have htaken := hp.taken fun _ _ _ => rfl
  refine ⟨{ l with m := m' }, by rw [step, hres, Option.map_some], hp.dropped.trans hi.live,
    fun e he => ?_, rfl, rfl, fun f => ⟨?_, ?_⟩⟩
  · dsimp only at he
    rw [htaken] at he
    exact hi.sent e (List.mem_filter.mp he).1
  · have hsplit := sentFrames_split l.m.rtx.sentMem.entries
      (fun e => isLost l.m.cong now e.2) f
    dsimp only
    rw [htaken, lostFrames]
    omega
  · dsimp only
    rw [hp.queue, List.count_append, lostFrames, sentFrames, List.filter_flatMap]

theorem lost_inv (cfg : Config) (cbrt : Nat → Nat) {l : State} (hi : Inv l) {now : Time}
    (hg : Guarded l (.lost now)) : ∃ l', step cfg cbrt l (.lost now) = some l' ∧ Inv l' := by
  obtain ⟨l', hstep, hlive, hsent, hh, ha, hcount⟩ := lost_spec cfg cbrt hi now
  refine ⟨l', hstep, fun f hfa => ?_, hlive, hsent⟩
  have hk := hi.kept f hfa
  obtain ⟨h1, h2⟩ := hcount f
  -- what is lost goes back to the queue
  have hback : ((lostFrames l now).filter Frame.onLost).count f = (lostFrames l now).count f := by
    by_cases hmem : f ∈ lostFrames l now
    · obtain ⟨e, he, hfe⟩ := List.mem_flatMap.mp hmem
      obtain ⟨he1, he2⟩ := List.mem_filter.mp he
      rcases hg e he1 he2 f hfe with h | h
      · rw [hfa] at h
        exact absurd h (by decide)
      · exact List.count_filter h
    · rw [List.count_eq_zero.mpr hmem,
        List.count_eq_zero.mpr fun h => hmem (List.mem_filter.mp h).1]
  rw [hh, ha]
  omega

/-- a frame that was released is missing afterwards -/
theorem lost_guarded (cfg : Config) (cbrt : Nat → Nat) {l l' : State} (hi : Inv l)
    {now : Time} (h : step cfg cbrt l (.lost now) = some l') (hk' : Kept l') :
    Guarded l (.lost now) := by
  obtain ⟨l1, hstep, _, _, hh, ha, hcount⟩ := lost_spec cfg cbrt hi now
  cases h.symm.trans hstep
  intro e he hl f hf
  cases hfa : f.isAck with
  | true => exact Or.inl rfl
  | false =>
    refine Or.inr ?_
    by_contra hno
    have hmem : f ∈ lostFrames l now :=
      List.mem_flatMap.mpr ⟨e, List.mem_filter.mpr ⟨he, hl⟩, hf⟩
    have hpos := List.count_pos_iff.mpr hmem
    have hz : ((lostFrames l now).filter Frame.onLost).count f = 0 :=
      List.count_eq_zero.mpr fun h => hno (List.mem_filter.mp h).2
    have hk := hi.kept f hfa
    have hk1 := hk' f hfa
    obtain ⟨h1, h2⟩ := hcount f
    rw [hh, ha] at hk1
    omega

/-! ### steps and runs -/

theorem step_inv (cfg : Config) (cbrt : Nat → Nat) {l : State} {e : Event} (hi : Inv l)
    (hf : Fresh l e) (hg : Guarded l e) : ∃ l', step cfg cbrt l e = some l' ∧ Inv l' := by
  cases e with
  | send num largestAck sentTime pktLen includedUnacked ops => exact send_inv cfg cbrt hi hf
  | acked a => exact acked_inv cfg cbrt hi hg
  | lost now => exact lost_inv cfg cbrt hi hg
  | other o => exact ⟨_, rfl, hi.kept, hi.live, hi.sent⟩

theorem step_guarded (cfg : Config) (cbrt : Nat → Nat) {l l' : State} {e : Event} (hi : Inv l)
    (h : step cfg cbrt l e = some l') (hk : Kept l') : Guarded l e := by
  cases e with
  | send num largestAck sentTime pktLen includedUnacked ops => trivial
  | acked a => exact acked_guarded hi h
  | lost now => exact lost_guarded cfg cbrt hi h hk
  | other o => trivial

/-- **No frame gets lost, and none is in two places, exactly along the guarded runs.** -/
theorem kept_iff (cfg : Config) (cbrt : Nat → Nat) (cong : Congestion) (es : List Event)
    (hf : Runs.Along (step cfg cbrt) Fresh (start cong) es) :
    (∀ past, past <+: es → ∃ l, Runs.run (step cfg cbrt) (start cong) past = some l ∧ Kept l) ↔
      Runs.Along (step cfg cbrt) Guarded (start cong) es :=
  Runs.always_iff_along (I := Inv) (P := Kept) (fun _ hi => hi.kept)
    (fun _ e hi hf hg => step_inv (e := e) cfg cbrt hi hf hg)
    (fun _ e _ hi _ h hk => step_guarded (e := e) cfg cbrt hi h hk) es (start_inv cong) hf

instance decidableFresh (l : State) : (e : Event) → Decidable (Fresh l e)
  | .send _ _ _ _ _ _ => inferInstanceAs (Decidable (_ ∉ _))
  | .acked _ => isTrue trivial
  | .lost _ => isTrue trivial
  | .other _ => isTrue trivial

instance decidableGuarded (l : State) : (e : Event) → Decidable (Guarded l e)
  | .send _ _ _ _ _ _ => isTrue trivial
  | .acked _ => inferInstanceAs (Decidable (∀ e ∈ l.m.rtx.sentMem.entries, AckedOnce _ e.1))
  | .lost _ => inferInstanceAs (Decidable (∀ e ∈ l.m.rtx.sentMem.entries, _ → ∀ f ∈ e.2.frames, _))
  | .other _ => isTrue trivial

/-- a STREAM frame is sent, lost, sent again with a new one, and both are acknowledged -/
theorem kept_four :
    Runs.Along (step serverCfg id) Guarded (start (Congestion.init serverCfg))
        [.send 0 0 10 1200 true [.produce ⟨0x0a, some 4, true, .stream 4 0 [1, 2]⟩], .lost 9000000,
          .send 1 0 20 1200 true
            [.retransmit 1000, .produce ⟨0x0a, some 8, true, .stream 8 0 [3]⟩],
          .acked ⟨0x40, 30, 1, 0, 0, 0, 0, 0, 0, []⟩] ∧
      ∀ past, past <+:
        [.send 0 0 10 1200 true [.produce ⟨0x0a, some 4, true, .stream 4 0 [1, 2]⟩], .lost 9000000,
          .send 1 0 20 1200 true
            [.retransmit 1000, .produce ⟨0x0a, some 8, true, .stream 8 0 [3]⟩],
          .acked ⟨0x40, 30, 1, 0, 0, 0, 0, 0, 0, []⟩] →
        ∃ l, Runs.run (step serverCfg id) (start (Congestion.init serverCfg)) past = some l ∧
          Kept l :=
  ⟨by decide, (kept_iff serverCfg id _ _ (by decide)).mpr (by decide)⟩

/-- A packet with a CRYPTO frame is lost: the frame has no `on_lost` and is released. -/
theorem not_kept :
    ¬ ∀ (cfg : Config) (cbrt : Nat → Nat) (cong : Congestion) (es : List Event),
      Runs.Along (step cfg cbrt) Fresh (start cong) es →
      ∀ past, past <+: es →
        ∃ l, Runs.run (step cfg cbrt) (start cong) past = some l ∧ Kept l := by
  intro h
  obtain ⟨l, hl, hk⟩ := h serverCfg id (Congestion.init serverCfg)
    [.send 0 0 10 1200 true [.produce (Frame.init 0x06 (.crypto 0 0 [1, 2, 3]))], .lost 9000000]
    (by decide) _ List.prefix_rfl
  have hplaces : (Runs.run (step serverCfg id) (start (Congestion.init serverCfg))
      [.send 0 0 10 1200 true [.produce (Frame.init 0x06 (.crypto 0 0 [1, 2, 3]))],
        .lost 9000000]).map (fun l => (l.handed, sentFrames l.m.rtx.sentMem.entries,
          l.m.rtx.retransmissionQueue, l.acked)) =
      some ([Frame.init 0x06 (.crypto 0 0 [1, 2, 3])], [], [], []) := by decide
  rw [hl, Option.map_some, Option.some_inj] at hplaces
  obtain ⟨h1, h2, h3, h4⟩ := by simpa only [Prod.mk.injEq] using hplaces
  have hcount := hk (Frame.init 0x06 (.crypto 0 0 [1, 2, 3])) rfl
  rw [h1, h2, h3, h4] at hcount
  exact absurd hcount (by decide)

end FrameLedger

end OpenQuic
