import OpenQuic.Modules.FrameLedger
import OpenQuic.Modules.SealOpen

/-!
# Sending a packet

`quic_sender_send_packet` of `modules/sender.c`, and the runs of the three packet number spaces that
share a congestion module: packets are built, sealed and sent, ACK frames of any content arrive, the
modules' loops run and the modules are dropped.

* `sendPacket`       the packet number, the bytes given to `on_sent` and the bytes handed to the
                     session are recorded in a `Sent`, which is not part of the code;
* `Measured`         the lengths that are recorded are those that were handed to the session;
* `sealed_cursors`   sealing rewinds the buffer: the length that is recorded is 0;
* `run_unarmed`      so no run ever arms an alarm;
* `measured_iff`     and the lengths are right exactly in the runs that record no packet.
-/

namespace OpenQuic
open Word Window

/-- a packet that was sent -/
structure Sent where
  space : Space
  num : Nat
  /-- the bytes that `on_sent` is given, if it is called -/
  reported : Option Nat
  /-- the bytes that `quic_session_send` is given -/
  handed : Nat

/-- `quic_sender_send_packet`; `mem` is the allocation of the node -/
def sendPacket (mem : Bool) (now : Time) (m : Recovery) (pkt : SendPacket) : Recovery × Sent :=
  let handed := u32 pkt.size
  if !mem then (m, ⟨pkt.space, pkt.num, none, handed⟩)
  else
    let pktLen := u32 pkt.pos
    let m := Recovery.sentMemPush m pkt.num
      ⟨pkt.largestAck, now, pktLen, pkt.includedUnacked, pkt.frames⟩
    ({ m with cong := m.cong.onSent now pkt.num pktLen pkt.includedUnacked },
      ⟨pkt.space, pkt.num, some pktLen, handed⟩)

/-! ## the cursors -/

/-- **Sealing rewinds the buffer.**  Whatever comes of it, the datagram is not empty and starts where
the buffer does. -/
theorem sealed_cursors {mem : Bool} {s : Sealer} {pkt pkt' : SendPacket} {hdr : List UInt8}
    {srcLen : Nat} {e : Err} (hpos : pkt.pos = 0) (hlast : pkt.last = pkt.data.length)
    (hdata : pkt.data ≠ []) (h : sealerSeal mem s pkt hdr srcLen = some (pkt', e)) :
    pkt'.pos = 0 ∧ 0 < pkt'.size ∧ pkt'.size ≤ pkt.data.length := by
  obtain ⟨pnumOff, _, h⟩ := Option.bind_eq_some_iff.mp h
  obtain ⟨first, hfirst, h⟩ := Option.bind_eq_some_iff.mp h
  have hpositive : 0 < pkt.data.length := List.length_pos_iff.mpr hdata
  cases mem with
  | false =>
    obtain ⟨rfl, _⟩ := Prod.mk.inj (Option.some.inj h)
    unfold SendPacket.size
    rw [hpos, hlast]
    exact ⟨rfl, hpositive, Nat.sub_le _ _⟩
  | true =>
    obtain ⟨payload, _, h⟩ := Option.bind_eq_some_iff.mp h
    obtain ⟨data, hstore, h⟩ := Option.bind_eq_some_iff.mp h
    obtain ⟨sample, _, h⟩ := Option.bind_eq_some_iff.mp h
    obtain ⟨masked, hmasked, h⟩ := Option.bind_eq_some_iff.mp h
    obtain ⟨data', _, h⟩ := Option.bind_eq_some_iff.mp h
    obtain ⟨rfl, _⟩ := Prod.mk.inj (Option.some.inj h)
    -- what is written lies in the buffer
    have hroom := store_room hstore
    have hhdr : masked.length = hdr.length := by
      have hlen := xorAt_length hmasked
      cases hdr with
      | nil => cases hfirst
      | cons b hdr => exact hlen
    have hne : 0 < hdr.length := by
      cases hdr with
      | nil => cases hfirst
      | cons b hdr => exact Nat.succ_pos _
    have hsealed : ((s.wSeal s.wIv payload hdr).getD []).length ≤
        ((s.wSeal s.wIv payload hdr).getD
          (List.replicate (payload.length + s.wTag) 0)).length := by
      cases s.wSeal s.wIv payload hdr with
      | none => exact Nat.zero_le _
      | some c => exact Nat.le_refl _
    refine ⟨rfl, ?_, ?_⟩
    · show 0 < pkt.pos + masked.length + _ - 0
      omega
    · show pkt.pos + masked.length + _ - 0 ≤ _
      omega

namespace Sending
open FrameLedger Recovery

/-! ## runs -/

/-- the three retransmission modules and packet number generators, and what they share; `log` has
the packets that were sent, the newest first -/
structure State where
  rtx : Space → Retransmission
  next : Space → Nat
  cong : Congestion
  loopDeadline : Time
  log : List Sent

def start (cong : Congestion) : State := ⟨fun _ => Retransmission.init, fun _ => 0, cong, 0, []⟩

def State.recovery (s : State) (sp : Space) : Recovery := ⟨s.rtx sp, s.cong, s.loopDeadline⟩

def State.setRecovery (s : State) (sp : Space) (m : Recovery) : State :=
  { s with rtx := Function.update s.rtx sp m.rtx, cong := m.cong, loopDeadline := m.loopDeadline }

/-- the call, for a packet of any space -/
def State.sendPacket (s : State) (mem : Bool) (now : Time) (pkt : SendPacket) : State :=
  let x := OpenQuic.sendPacket mem now (s.recovery pkt.space) pkt
  { s.setRecovery pkt.space x.1 with log := x.2 :: s.log }

/-- What a pack function is given and puts into a packet: `data` is what is in the allocation of
`mtu` bytes, `ops` are the append calls.  The three Booleans are the allocations of the packet, of
its plaintext and of its node. -/
structure Build where
  space : Space
  mem : Bool
  sealMem : Bool
  nodeMem : Bool
  data : { data : List UInt8 // data.length < 2 ^ 32 }
  ops : List BuildOp
  largestAck : Nat
  includedUnacked : Bool
  dst : List UInt8
  src : List UInt8
  sealer : Sealer
  now : Time

def Build.frames (b : Build) (s : State) : List Frame × Retransmission := build b.ops [] (s.rtx b.space)

/-- the packet before it is sealed -/
def Build.packet (b : Build) (s : State) : SendPacket :=
  { SendPacket.init b.space (s.next b.space) b.data.1 with
    largestAck := b.largestAck
    includedUnacked := b.includedUnacked
    frames := (b.frames s).1 }

def headerKind (payloadLen : Nat) : Space → HeaderKind
  | .initial => .initial payloadLen
  | .handshake => .handshake payloadLen
  | .app => .short

/-- the header is generated and the packet sealed, whatever comes of it -/
def Build.sealed (b : Build) (s : State) : Option SendPacket :=
  (framesSize (b.frames s).1).bind fun payloadLen =>
    (sealerSeal b.sealMem b.sealer (b.packet s)
      ((headerKind (u32 payloadLen) b.space).generate b.dst b.src (s.next b.space))
      b.dst.length).map Prod.fst

inductive Event where
  | send (b : Build)
  | ack (sp : Space) (ackMem : Nat → Nat → Bool) (lostMem : Nat → Bool) (a : AckFrame) (clock : Time)
  | loop (sp : Space) (mem : Nat → Bool) (now clock : Time)
  | drop (sp : Space)
  /-- the modules and the session in between -/
  | other (cong : Congestion) (loopDeadline : Time)

/-- a packet without an `mtu`, an allocation or frames is not sent -/
def step (cfg : Config) (cbrt : Nat → Nat) (s : State) : Event → Option State
  | .send b =>
    if b.data.1.isEmpty || !b.mem then some s
    else
      let rtx := Function.update s.rtx b.space (b.frames s).2
      if (b.frames s).1.isEmpty then some { s with rtx := rtx }
      else
        (b.sealed s).map fun pkt =>
          let s := { s with
            rtx := rtx
            next := Function.update s.next b.space (add64 (s.next b.space) 1) }
          s.sendPacket b.nodeMem b.now pkt
  | .ack sp ackMem lostMem a clock =>
    (handleAckFrame cfg cbrt ackMem lostMem (s.recovery sp) (sp = .app) a clock).map fun x =>
      s.setRecovery sp x.1
  | .loop sp mem now clock =>
    (moduleLoop cfg mem (s.recovery sp) now clock).map fun x => s.setRecovery sp x.1
  | .drop sp => some { s with rtx := Function.update s.rtx sp (s.rtx sp).drop }
  | .other cong loopDeadline => some { s with cong := cong, loopDeadline := loopDeadline }

/-! ## lengths -/

/-- the bytes that were handed to the session for a packet -/
def handed (log : List Sent) (sp : Space) (num : Nat) : Nat :=
  ((log.find? fun x => x.space = sp ∧ x.num = num).map Sent.handed).getD 0

/-- the ack-eliciting packets in flight -/
def inFlight (s : State) (sp : Space) : List (Nat × SentPacket) :=
  (s.rtx sp).sentMem.entries.filter fun e => e.2.includedUnacked

/-- the recorded and the reported lengths are the ones handed over, and `unacked_len` is their sum
over the packets in flight, with the alarm armed if there is one -/
structure Measured (s : State) : Prop where
  recorded : ∀ sp, ∀ e ∈ (s.rtx sp).sentMem.entries, e.2.pktLen = handed s.log sp e.1
  reported : ∀ x ∈ s.log, ∀ n ∈ x.reported, n = x.handed
  unacked : ∀ sp, (s.rtx sp).unackedLen =
    ((inFlight s sp).map fun e => handed s.log sp e.1).sum
  armed : ∀ sp, inFlight s sp ≠ [] → (s.rtx sp).unackedLen ≠ 0 ∧ (s.rtx sp).alarm ≠ 0

/-- the event records no packet: none is sent, or the allocation of its node fails -/
def Unrecorded (s : State) : Event → Prop
  | .send b => b.data.1 = [] ∨ b.mem = false ∨ (b.frames s).1 = [] ∨ b.nodeMem = false
  | _ => True

/-! ## nothing is weighed -/

/-- Every packet in `sent_mem` has length 0 and is one of `Q`; there are no unacknowledged bytes, and
no alarm. -/
structure Weightless (Q : Nat → Prop) (r : Retransmission) : Prop where
  packets : ∀ e ∈ r.sentMem.entries, e.2.pktLen = 0 ∧ Q e.1
  unacked : r.unackedLen = 0
  alarm : r.alarm = 0

theorem init_weightless (Q : Nat → Prop) : Weightless Q Retransmission.init :=
  ⟨List.forall_mem_nil _, rfl, rfl⟩

theorem Weightless.mono {Q Q' : Nat → Prop} {r : Retransmission} (h : Weightless Q r)
    (hQ : ∀ num, Q num → Q' num) : Weightless Q' r :=
  ⟨fun e he => ⟨(h.packets e he).1, hQ _ (h.packets e he).2⟩, h.unacked, h.alarm⟩

/-- the part of it that a pass keeps -/
def Unarmed (r : Retransmission) : Prop := r.unackedLen = 0 ∧ r.alarm = 0

theorem updateAlarm_unarmed {m : Recovery} (h : Unarmed m.rtx) : Unarmed (updateAlarm m).rtx := by
  obtain ⟨hu, ha⟩ := h
  unfold updateAlarm
  split
  · exact ⟨hu, ha⟩
  · exact ⟨hu, rfl⟩

theorem updateAlarm_weightless {Q : Nat → Prop} {m : Recovery} (h : Weightless Q m.rtx) :
    Weightless Q (updateAlarm m).rtx := by
  obtain ⟨hu, ha⟩ := updateAlarm_unarmed ⟨h.unacked, h.alarm⟩
  refine ⟨?_, hu, ha⟩
  rw [(updateAlarm_frame m).1]
  exact h.packets

theorem uncount_unarmed {p : Pass} {pkt : SentPacket} (hpkt : pkt.pktLen = 0)
    (report : Congestion → Nat → Congestion) (h : Unarmed p.m.rtx) :
    Unarmed (p.uncount pkt report).m.rtx := by
  obtain ⟨hu, ha⟩ := h
  rw [(uncount_spec p pkt report).2.2]
  refine ⟨?_, ha⟩
  show (if pkt.includedUnacked then sub32 p.m.rtx.unackedLen pkt.pktLen else p.m.rtx.unackedLen) = 0
  rw [hu, hpkt]
  split <;> rfl

theorem ackPacket_unarmed (cfg : Config) (cbrt : Nat → Nat) (mem : Bool) (recvTime num : Nat)
    {pkt : SentPacket} {p : Pass} (hpkt : pkt.pktLen = 0) (h : Unarmed p.m.rtx) :
    Unarmed (p.ackPacket cfg cbrt mem recvTime num pkt).2.m.rtx := by
  unfold Pass.ackPacket
  show Unarmed (pkt.frames.foldl Pass.ackFrame _).m.rtx
  rw [foldl_ackFrame]
  show Unarmed ((p.dropPacket mem num).uncount pkt _).m.rtx
  refine uncount_unarmed hpkt _ ?_
  rw [(dropPacket_m p mem num).1]
  exact h

theorem foldl_loseFrame_unarmed (fs : List Frame) {p : Pass} (h : Unarmed p.m.rtx) :
    Unarmed (fs.foldl Pass.loseFrame p).m.rtx := by
  induction fs generalizing p with
  | nil => exact h
  | cons f fs ih =>
    rw [List.foldl_cons]
    refine ih ?_
    unfold Pass.loseFrame Retransmission.frameInsert
    split
    · dsimp only
      split <;> exact h
    · exact h

theorem losePacket_unarmed (cfg : Config) (mem : Bool) (num : Nat) {pkt : SentPacket} {p : Pass}
    (hpkt : pkt.pktLen = 0) (h : Unarmed p.m.rtx) :
    Unarmed (p.losePacket cfg mem num pkt).2.m.rtx := by
  unfold Pass.losePacket
  refine foldl_loseFrame_unarmed _ ?_
  show Unarmed ((p.dropPacket mem num).uncount pkt _).m.rtx
  refine uncount_unarmed hpkt _ ?_
  rw [(dropPacket_m p mem num).1]
  exact h

/-- the end of a pass removes packets -/
theorem dropPacketExecute_subset {l : List Nat} {sentMem sentMem' : Rbt SentPacket}
    (h : dropPacketExecute l sentMem = some sentMem') :
    ∀ e ∈ sentMem'.entries, e ∈ sentMem.entries := by
  induction l generalizing sentMem with
  | nil =>
    cases h
    exact fun _ he => he
  | cons n l ih =>
    unfold dropPacketExecute at h
    split at h
    · cases h
    · exact fun e he => (OrdMap.mem_erase.mp (ih h e he)).1

/-- **A pass over weightless packets**, each of which leaves the alarm unarmed. -/
theorem pass_weightless {Q : Nat → Prop} {m m' : Recovery} {cs : List Call}
    {f : Nat → SentPacket → Pass → SentPacket × Pass} (hm : Weightless Q m.rtx)
    (hf : ∀ num pkt p, pkt.pktLen = 0 → Unarmed p.m.rtx →
      (f num pkt p).1.pktLen = 0 ∧ Unarmed (f num pkt p).2.m.rtx)
    (h : finish (m.rtx.sentMem.foreach f ⟨m, [], []⟩) = some (m', cs)) : Weightless Q m'.rtx := by
  obtain ⟨hpkts, hu, ha⟩ := m.rtx.sentMem.foreach_keeps
    (P := fun num pkt => pkt.pktLen = 0 ∧ Q num) (I := fun p : Pass => Unarmed p.m.rtx) (f := f)
    (fun num pkt p hpkt hp => ⟨⟨(hf num pkt p hpkt.1 hp).1, hpkt.2⟩, (hf num pkt p hpkt.1 hp).2⟩)
    hm.packets (s := ⟨m, [], []⟩) ⟨hm.unacked, hm.alarm⟩
  obtain ⟨sentMem, hdrop, he⟩ := Option.map_eq_some_iff.mp h
  obtain ⟨rfl, _⟩ := Prod.mk.inj he
  exact ⟨fun e he => hpkts e (dropPacketExecute_subset hdrop e he), hu, ha⟩

theorem ackRanges_unarmed (cfg : Config) (cbrt : Nat → Nat) (mem : Nat → Bool) (a : AckFrame)
    (num n i start stop : Nat) {pkt : SentPacket} {p : Pass} (hpkt : pkt.pktLen = 0)
    (h : Unarmed p.m.rtx) :
    (p.ackRanges cfg cbrt mem a num n i start stop pkt).1.pktLen = 0 ∧
      Unarmed (p.ackRanges cfg cbrt mem a num n i start stop pkt).2.m.rtx := by
  induction n generalizing i start stop pkt p with
  | zero => exact ⟨hpkt, h⟩
  | succ n ih =>
    unfold Pass.ackRanges
    split
    · exact ih _ _ _ hpkt (ackPacket_unarmed cfg cbrt _ _ _ hpkt h)
    · exact ih _ _ _ hpkt h

theorem checkLost_unarmed (cfg : Config) (mem : Nat → Bool) (delay lostSendTime num : Nat)
    {pkt : SentPacket} {p : Pass} (hpkt : pkt.pktLen = 0) (h : Unarmed p.m.rtx) :
    (p.checkLost cfg mem delay lostSendTime num pkt).1.pktLen = 0 ∧
      Unarmed (p.checkLost cfg mem delay lostSendTime num pkt).2.m.rtx := by
  unfold Pass.checkLost
  split
  · exact ⟨hpkt, losePacket_unarmed cfg _ _ hpkt h⟩
  · split
    · exact ⟨hpkt, updateAlarm_unarmed h⟩
    · exact ⟨hpkt, h⟩

theorem findNewlyLost_weightless {Q : Nat → Prop} {cfg : Config} {mem : Nat → Bool}
    {m m' : Recovery} {now : Time} {cs : List Call} (hm : Weightless Q m.rtx)
    (h : findNewlyLost cfg mem m now = some (m', cs)) : Weightless Q m'.rtx := by
  unfold findNewlyLost at h
  split at h
  · obtain ⟨rfl, _⟩ := Prod.mk.inj (Option.some.inj h)
    exact hm
  · refine pass_weightless (m := { m with rtx := { m.rtx with lossTime := 0 } })
      ⟨hm.packets, hm.unacked, hm.alarm⟩ ?_ h
    intro num pkt p hpkt hp
    exact checkLost_unarmed cfg mem _ _ num hpkt hp

theorem findNewlyAcked_weightless {Q : Nat → Prop} {cfg : Config} {cbrt : Nat → Nat}
    {mem : Nat → Nat → Bool} {m m' : Recovery} {a : AckFrame} {cs : List Call}
    (hm : Weightless Q m.rtx) (h : findNewlyAcked cfg cbrt mem m a = some (m', cs)) :
    Weightless Q m'.rtx := by
  unfold findNewlyAcked at h
  split at h
  · obtain ⟨rfl, _⟩ := Prod.mk.inj (Option.some.inj h)
    exact hm
  · refine pass_weightless hm ?_ h
    intro num pkt p hpkt hp
    exact ackRanges_unarmed cfg cbrt (mem num) a num _ _ _ _ hpkt hp

theorem sampleAck_weightless {Q : Nat → Prop} {m : Recovery} (short : Bool) (a : AckFrame)
    (hm : Weightless Q m.rtx) : Weightless Q (sampleAck m short a).rtx := by
  unfold sampleAck
  dsimp only
  split <;> exact ⟨hm.packets, hm.unacked, hm.alarm⟩

theorem handleAckFrame_weightless {Q : Nat → Prop} {cfg : Config} {cbrt : Nat → Nat}
    {ackMem : Nat → Nat → Bool} {lostMem : Nat → Bool} {m m' : Recovery} {short : Bool}
    {a : AckFrame} {clock : Time} {cs : List Call} (hm : Weightless Q m.rtx)
    (h : handleAckFrame cfg cbrt ackMem lostMem m short a clock = some (m', cs)) :
    Weightless Q m'.rtx := by
  unfold handleAckFrame at h
  split at h
  · obtain ⟨rfl, _⟩ := Prod.mk.inj (Option.some.inj h)
    exact hm
  · obtain ⟨x, hx, h⟩ := Option.bind_eq_some_iff.mp h
    obtain ⟨y, hy, h⟩ := Option.map_eq_some_iff.mp h
    obtain ⟨rfl, _⟩ := Prod.mk.inj h
    have hacked := findNewlyAcked_weightless (sampleAck_weightless short a hm) hx
    have hlost := findNewlyLost_weightless hacked hy
    exact updateAlarm_weightless (m := { y.1 with rtx := { y.1.rtx with ptoCount := 0 } })
      ⟨hlost.packets, hlost.unacked, hlost.alarm⟩

/-- without an alarm the loop of the module does nothing -/
theorem moduleLoop_weightless {Q : Nat → Prop} {m : Recovery} (hm : Weightless Q m.rtx)
    (cfg : Config) (mem : Nat → Bool) (now clock : Time) :
    moduleLoop cfg mem m now clock = some (m, []) := by
  unfold moduleLoop
  rw [if_pos (Or.inl hm.alarm)]

theorem build_weightless {Q : Nat → Prop} {r : Retransmission} (hr : Weightless Q r)
    (ops : List BuildOp) (frames : List Frame) : Weightless Q (build ops frames r).2 := by
  have h := (build_spec ops frames r).1
  unfold SameButQueue at h
  rw [h]
  exact ⟨hr.packets, hr.unacked, hr.alarm⟩

theorem sentMemPush_weightless {Q : Nat → Prop} {m : Recovery} {num : Nat} {pkt : SentPacket}
    (hm : Weightless Q m.rtx) (hpkt : pkt.pktLen = 0) (hnum : Q num) :
    Weightless Q (sentMemPush m num pkt).rtx := by
  have hpkts : ∀ e ∈ (m.rtx.sentMem.insert num pkt).entries, e.2.pktLen = 0 ∧ Q e.1 := by
    intro e he
    rcases OrdMap.mem_insert.mp he with rfl | ⟨he, _⟩
    · exact ⟨hpkt, hnum⟩
    · exact hm.packets e he
  unfold sentMemPush
  split
  · exact hm
  · dsimp only
    split
    · refine updateAlarm_weightless ⟨hpkts, ?_, hm.alarm⟩
      show add32 m.rtx.unackedLen pkt.pktLen = 0
      rw [hm.unacked, hpkt]
      rfl
    · exact ⟨hpkts, hm.unacked, hm.alarm⟩

/-! ## the invariant -/

/-- the packet was sent with a node of its own -/
def Recorded (log : List Sent) (sp : Space) (num : Nat) : Prop :=
  ∃ x ∈ log, x.space = sp ∧ x.num = num ∧ x.reported ≠ none

structure Inv (s : State) : Prop where
  weightless : ∀ sp, Weightless (Recorded s.log sp) (s.rtx sp)
  log : ∀ x ∈ s.log, 0 < x.handed ∧ ∀ n ∈ x.reported, n = 0

theorem start_inv (cong : Congestion) : Inv (start cong) :=
  ⟨fun _ => init_weightless _, List.forall_mem_nil _⟩

/-- one module is replaced, and the log may have grown -/
theorem Inv.update {s : State} (hi : Inv s) {log : List Sent} (hlog : ∀ x ∈ s.log, x ∈ log)
    {sp : Space} {r : Retransmission} (hr : Weightless (Recorded log sp) r) (sp' : Space) :
    Weightless (Recorded log sp') (Function.update s.rtx sp r sp') := by
  by_cases h : sp' = sp
  · subst h
    rw [Function.update_self]
    exact hr
  · rw [Function.update_of_ne h]
    refine (hi.weightless sp').mono fun num hnum => ?_
    obtain ⟨x, hx, hrest⟩ := hnum
    exact ⟨x, hlog x hx, hrest⟩

theorem Inv.setRecovery {s : State} (hi : Inv s) {sp : Space} {m : Recovery}
    (hm : Weightless (Recorded s.log sp) m.rtx) : Inv (s.setRecovery sp m) :=
  ⟨hi.update (fun _ hx => hx) hm, hi.log⟩

/-- what a call with a rewound packet records -/
theorem sendPacket_inv {s : State} (hi : Inv s) (mem : Bool) (now : Time) {pkt : SendPacket}
    (hpos : pkt.pos = 0) (hsize : 0 < pkt.size) (hlt : pkt.size < 2 ^ 32) :
    Inv (s.sendPacket mem now pkt) := by
  have hhanded : 0 < u32 pkt.size := by
    rw [u32_of_lt hlt]
    exact hsize
  have hold : ∀ x : Sent,
      Weightless (Recorded (x :: s.log) pkt.space) (s.rtx pkt.space) := by
    intro x
    refine (hi.weightless pkt.space).mono fun num hnum => ?_
    obtain ⟨y, hy, hrest⟩ := hnum
    exact ⟨y, List.mem_cons_of_mem _ hy, hrest⟩
  cases mem with
  | false =>
    refine ⟨hi.update (fun x hx => List.mem_cons_of_mem _ hx) (hold _), fun x hx => ?_⟩
    rcases List.mem_cons.mp hx with rfl | hx
    · exact ⟨hhanded, fun n hn => by cases hn⟩
    · exact hi.log x hx
  | true =>
    have hlen : u32 pkt.pos = 0 := by
      rw [hpos]
      rfl
    refine ⟨hi.update (fun x hx => List.mem_cons_of_mem _ hx) ?_, fun x hx => ?_⟩
    · refine sentMemPush_weightless (m := s.recovery pkt.space) (hold _) hlen ?_
      exact ⟨_, List.mem_cons_self, rfl, rfl, fun h => by cases h⟩
    · rcases List.mem_cons.mp hx with rfl | hx
      · refine ⟨hhanded, fun n hn => ?_⟩
        rw [← Option.some.inj hn]
        exact hlen
      · exact hi.log x hx

/-- the packet that a sealed draft is -/
theorem Build.sealed_spec {b : Build} {s : State} {pkt : SendPacket} (hdata : b.data.1 ≠ [])
    (h : b.sealed s = some pkt) :
    pkt.pos = 0 ∧ 0 < pkt.size ∧ pkt.size < 2 ^ 32 := by
  obtain ⟨payloadLen, _, h⟩ := Option.bind_eq_some_iff.mp h
  obtain ⟨⟨pkt', e⟩, hseal, rfl⟩ := Option.map_eq_some_iff.mp h
  obtain ⟨hpos, hsize, hle⟩ := sealed_cursors rfl rfl hdata hseal
  exact ⟨hpos, hsize, Nat.lt_of_le_of_lt hle b.data.2⟩

/-- what a send does: no packet leaves, or one does -/
theorem send_cases {cfg : Config} {cbrt : Nat → Nat} {s s' : State} {b : Build}
    (h : step cfg cbrt s (.send b) = some s') :
    ((b.data.1 = [] ∨ b.mem = false ∨ (b.frames s).1 = []) ∧ ∃ rtx, s' = { s with rtx := rtx } ∧
        (rtx = s.rtx ∨ rtx = Function.update s.rtx b.space (b.frames s).2)) ∨
      (b.data.1 ≠ [] ∧ b.mem ≠ false ∧ (b.frames s).1 ≠ [] ∧ ∃ pkt, b.sealed s = some pkt ∧
        s' = State.sendPacket { s with
            rtx := Function.update s.rtx b.space (b.frames s).2
            next := Function.update s.next b.space (add64 (s.next b.space) 1) }
          b.nodeMem b.now pkt) := by
  unfold step at h
  dsimp only at h
  split at h
  · rename_i hno
    rw [Bool.or_eq_true, List.isEmpty_iff, Bool.not_eq_true'] at hno
    exact .inl ⟨hno.imp_right .inl, s.rtx, (Option.some.inj h).symm, .inl rfl⟩
  · rename_i hyes
    rw [Bool.or_eq_true, List.isEmpty_iff, Bool.not_eq_true', not_or] at hyes
    split at h
    · rename_i hempty
      exact .inl ⟨.inr (.inr (List.isEmpty_iff.mp hempty)), _, (Option.some.inj h).symm, .inr rfl⟩
    · rename_i hframes
      obtain ⟨pkt, hpkt, rfl⟩ := Option.map_eq_some_iff.mp h
      exact .inr ⟨hyes.1, hyes.2, fun he => hframes (by rw [he]; rfl), pkt, hpkt, rfl⟩

/-- one step -/
theorem step_inv {cfg : Config} {cbrt : Nat → Nat} {s s' : State} {e : Event} (hi : Inv s)
    (h : step cfg cbrt s e = some s') : Inv s' := by
  cases e with
  | send b =>
    have hbuilt : Weightless (Recorded s.log b.space) (b.frames s).2 :=
      build_weightless (hi.weightless b.space) b.ops []
    have htaken := hi.update (fun _ hx => hx) hbuilt
    rcases send_cases h with ⟨_, rtx, rfl, rfl | rfl⟩ | ⟨hdata, _, _, pkt, hpkt, rfl⟩
    · exact hi
    · exact ⟨htaken, hi.log⟩
    · obtain ⟨hpos, hsize, hlt⟩ := Build.sealed_spec hdata hpkt
      refine sendPacket_inv (Inv.mk ?_ ?_) b.nodeMem b.now hpos hsize hlt
      · exact htaken
      · exact hi.log
  | ack sp ackMem lostMem a clock =>
    obtain ⟨x, hx, rfl⟩ := Option.map_eq_some_iff.mp h
    exact hi.setRecovery (handleAckFrame_weightless (m := s.recovery sp) (hi.weightless sp) hx)
  | loop sp mem now clock =>
    obtain ⟨x, hx, rfl⟩ := Option.map_eq_some_iff.mp h
    rw [moduleLoop_weightless (m := s.recovery sp) (hi.weightless sp)] at hx
    rw [← Option.some.inj hx]
    exact hi.setRecovery (hi.weightless sp)
  | drop sp =>
    rw [← Option.some.inj h]
    exact ⟨hi.update (fun _ hx => hx) ⟨List.forall_mem_nil _, rfl, rfl⟩, hi.log⟩
  | other cong loopDeadline =>
    rw [← Option.some.inj h]
    exact ⟨hi.weightless, hi.log⟩

theorem run_inv {cfg : Config} {cbrt : Nat → Nat} {cong : Congestion} {es : List Event} {s : State}
    (h : Runs.run (step cfg cbrt) (start cong) es = some s) : Inv s := by
  have hall : Runs.Along (step cfg cbrt) (fun _ _ => True) (start cong) es :=
    Runs.Along.of_mem _ fun _ _ => trivial
  exact Runs.run_keeps (fun _ _ _ hi _ hs => step_inv hi hs) (start_inv cong) hall h

/-- **No alarm.**  In no state of any run are there unacknowledged bytes or an armed alarm, whatever
the space. -/
theorem run_unarmed {cfg : Config} {cbrt : Nat → Nat} {cong : Congestion} {es : List Event}
    {s : State} (h : Runs.run (step cfg cbrt) (start cong) es = some s) (sp : Space) :
    Unarmed (s.rtx sp) :=
  ⟨((run_inv h).weightless sp).unacked, ((run_inv h).weightless sp).alarm⟩

/-! ## when the lengths are right -/

/-- nothing was recorded -/
def Blank (s : State) : Prop := ∀ x ∈ s.log, x.reported = none

theorem Inv.measured_blank {s : State} (hi : Inv s) : Measured s ↔ Blank s := by
  constructor
  · intro hm x hx
    cases hr : x.reported with
    | none => rfl
    | some n =>
      obtain ⟨hpos, hzero⟩ := hi.log x hx
      have h0 := hzero n hr
      have h1 := hm.reported x hx n hr
      omega
  · intro hblank
    have hempty : ∀ sp, (s.rtx sp).sentMem.entries = [] := by
      intro sp
      refine List.eq_nil_iff_forall_not_mem.mpr fun e he => ?_
      obtain ⟨x, hx, _, _, hr⟩ := ((hi.weightless sp).packets e he).2
      exact hr (hblank x hx)
    have hflight : ∀ sp, inFlight s sp = [] := by
      intro sp
      unfold inFlight
      rw [hempty]
      rfl
    refine ⟨fun sp e he => ?_, fun x hx n hn => ?_, fun sp => ?_, fun sp h => ?_⟩
    · rw [hempty] at he
      cases he
    · rw [hblank x hx] at hn
      cases hn
    · rw [hflight, (hi.weightless sp).unacked]
      rfl
    · exact absurd (hflight sp) h

/-- one step, seen from the log -/
theorem step_blank {cfg : Config} {cbrt : Nat → Nat} {s s' : State} {e : Event}
    (h : step cfg cbrt s e = some s') : Blank s' ↔ Blank s ∧ Unrecorded s e := by
  have hsame : ∀ s' : State, s'.log = s.log → Unrecorded s e →
      (Blank s' ↔ Blank s ∧ Unrecorded s e) := by
    intro s' hlog hu
    unfold Blank
    rw [hlog, and_iff_left hu]
  cases e with
  | send b =>
    rcases send_cases h with ⟨hno, rtx, rfl, _⟩ | ⟨hdata, hmem, hframes, pkt, _, rfl⟩
    · exact hsame _ rfl (hno.imp_right fun hno => hno.imp_right .inl)
    · have hu : Unrecorded s (.send b) ↔ b.nodeMem = false := by
        show _ ∨ _ ∨ _ ∨ _ ↔ _
        rw [or_iff_right hdata, or_iff_right hmem, or_iff_right hframes]
      rw [hu]
      unfold Blank State.sendPacket
      rw [List.forall_mem_cons, and_comm]
      refine and_congr_right fun _ => ?_
      unfold sendPacket
      cases b.nodeMem with
      | false => exact iff_of_true rfl rfl
      | true => exact iff_of_false (fun h => by cases h) (fun h => by cases h)
  | ack sp ackMem lostMem a clock =>
    obtain ⟨x, _, rfl⟩ := Option.map_eq_some_iff.mp h
    exact hsame _ rfl trivial
  | loop sp mem now clock =>
    obtain ⟨x, _, rfl⟩ := Option.map_eq_some_iff.mp h
    exact hsame _ rfl trivial
  | drop sp =>
    rw [← Option.some.inj h]
    exact hsame _ rfl trivial
  | other cong loopDeadline =>
    rw [← Option.some.inj h]
    exact hsame _ rfl trivial

theorem run_blank {cfg : Config} {cbrt : Nat → Nat} (es : List Event) {s s' : State}
    (h : Runs.run (step cfg cbrt) s es = some s') :
    Blank s' ↔ Blank s ∧ Runs.Along (step cfg cbrt) Unrecorded s es := by
  induction es generalizing s with
  | nil =>
    rw [← Option.some.inj h]
    exact (and_iff_left trivial).symm
  | cons e es ih =>
    rw [Runs.run_cons, Option.bind_eq_some_iff] at h
    obtain ⟨s1, h1, h2⟩ := h
    rw [ih h2, step_blank h1, and_assoc]
    refine and_congr_right fun _ => and_congr_right fun _ => ?_
    exact ⟨fun ha s2 hs2 => Option.some.inj (h1.symm.trans hs2) ▸ ha, fun ha => ha s1 h1⟩

/-- **The lengths are right if and only if no packet is recorded.** -/
theorem measured_iff {cfg : Config} {cbrt : Nat → Nat} {cong : Congestion} {es : List Event}
    {s : State} (h : Runs.run (step cfg cbrt) (start cong) es = some s) :
    Measured s ↔ Runs.Along (step cfg cbrt) Unrecorded (start cong) es := by
  rw [(run_inv h).measured_blank, run_blank es h]
  exact and_iff_right (List.forall_mem_nil _)

/-- a PING in a packet of the app space, sealed for an ID of one byte -/
def pingBuild (nodeMem : Bool) : Build where
  space := .app
  mem := true
  sealMem := true
  nodeMem := nodeMem
  data := ⟨List.replicate 40 0, by decide⟩
  ops := [.produce (Frame.init 0x01 .ping)]
  largestAck := 0
  includedUnacked := true
  dst := [7]
  src := []
  sealer := clearSealer 16
  now := 1000

/-- a run that sends a packet, and one whose node is not allocated -/
theorem measured_iff_ping : ∃ s, Runs.run (step serverCfg id) (start (Congestion.init serverCfg))
      [.send (pingBuild true), .send (pingBuild false)] = some s ∧
    (Measured s ↔ Runs.Along (step serverCfg id) Unrecorded (start (Congestion.init serverCfg))
      [.send (pingBuild true), .send (pingBuild false)]) := by
  have hrun : (Runs.run (step serverCfg id) (start (Congestion.init serverCfg))
      [.send (pingBuild true), .send (pingBuild false)]).isSome = true := by decide +kernel
  obtain ⟨s, hs⟩ := Option.isSome_iff_exists.mp hrun
  exact ⟨s, hs, measured_iff hs⟩

/-- a datagram of 20 bytes is recorded with length 0 -/
theorem not_measured : ¬ ∀ (es : List Event) (s : State),
    Runs.run (step serverCfg id) (start (Congestion.init serverCfg)) es = some s → Measured s := by
  intro h
  have hrun : (Runs.run (step serverCfg id) (start (Congestion.init serverCfg))
      [.send (pingBuild true)]).map (fun s => s.log.map fun x => (x.reported, x.handed)) =
        some [(some 0, 20)] := by decide +kernel
  obtain ⟨s, hs, hlog⟩ := Option.map_eq_some_iff.mp hrun
  obtain ⟨x, hx, he⟩ := List.mem_map.mp (hlog ▸ List.mem_singleton_self (some 0, 20))
  obtain ⟨hreported, hhanded⟩ := Prod.mk.inj he
  have heq := (h _ s hs).reported x hx 0 hreported
  rw [hhanded] at heq
  exact absurd heq (by decide)

end Sending

end OpenQuic
