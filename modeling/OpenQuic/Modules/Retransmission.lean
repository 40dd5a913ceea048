import OpenQuic.Modules.Congestion
import OpenQuic.Format.Tables

/-!
# Retransmission

The retransmission module of `modules/retransmission.c` for one packet number space.

The module works on the congestion module and on the session's loop deadline as well; the three
are a `Recovery`.  The two passes over `sent_mem` are loops with a state, `Pass`: the drop list,
and a record of the callbacks and releases, which is not part of the code.

* `mem` says whether `malloc` succeeds for a node of a drop list;
* a drop list that names a packet twice makes the code remove a freed node: no result;
* `on_lost` is always `quic_framer_stream_frame_on_lost`, which puts the frame into the
  retransmission queue of the module whose packet the frame is in.
-/

namespace OpenQuic
open Word

/-- `quic_sent_packet_rbt_t` without its key -/
structure SentPacket where
  largestAck : Nat
  sentTime : Time
  /-- `uint32_t` -/
  pktLen : Nat
  includedUnacked : Bool
  frames : List Frame

structure Retransmission where
  sentMem : Rbt SentPacket
  /-- `uint32_t` -/
  sentPktCount : Nat
  /-- `uint32_t` -/
  unackedLen : Nat
  maxDelay : Nat
  lossTime : Time
  lastSentAckTime : Time
  largestAck : Nat
  alarm : Time
  /-- `uint32_t` -/
  ptoCount : Nat
  dropped : Bool
  retransmissionQueue : List Frame

/-- the module, the congestion module and `session->loop_deadline` -/
structure Recovery where
  rtx : Retransmission
  cong : Congestion
  loopDeadline : Time

namespace Retransmission

def init : Retransmission where
  sentMem := OrdMap.empty
  sentPktCount := 0
  unackedLen := 0
  maxDelay := 0
  lossTime := 0
  lastSentAckTime := 0
  largestAck := 0
  alarm := 0
  ptoCount := 0
  dropped := false
  retransmissionQueue := []

/-! ## the queue -/

def empty (r : Retransmission) : Bool := r.retransmissionQueue.isEmpty

def frameInsert (r : Retransmission) (f : Frame) : Retransmission :=
  if r.dropped then r else { r with retransmissionQueue := r.retransmissionQueue ++ [f] }

/-- the first frame of a queue that fits, and the queue without it -/
def takeFrame (capa : Nat) : List Frame → Option (Frame × List Frame)
  | [] => none
  | f :: fs =>
    if frameSize f ≤ capa then some (f, fs)
    else (takeFrame capa fs).map fun x => (x.1, f :: x.2)

/-- the length that is taken, the frames of the packet and the module -/
def appendFrame (frames : List Frame) (capa : Nat) (r : Retransmission) :
    Nat × List Frame × Retransmission :=
  if r.dropped then (0, frames, r)
  else
    match takeFrame capa r.retransmissionQueue with
    | some (f, queue) => (frameSize f, frames ++ [f], { r with retransmissionQueue := queue })
    | none => (0, frames, r)

def drop (r : Retransmission) : Retransmission :=
  { init with ptoCount := r.ptoCount, dropped := true }

end Retransmission

namespace Recovery

/-! ## the alarm -/

def updateLoopDeadline (loopDeadline deadline : Time) : Time :=
  if (loopDeadline = 0 ∨ deadline < loopDeadline) ∧ deadline ≠ 0 then deadline else loopDeadline

def updateAlarm (m : Recovery) : Recovery :=
  if m.rtx.dropped then m
  else if m.rtx.unackedLen = 0 then { m with rtx := { m.rtx with alarm := 0 } }
  else
    let alarm := add64 m.rtx.lastSentAckTime (shl64 (m.cong.pto m.rtx.maxDelay) m.rtx.ptoCount)
    { m with
      rtx := { m.rtx with alarm := alarm }
      loopDeadline := updateLoopDeadline m.loopDeadline alarm }

def sentMemPush (m : Recovery) (num : Nat) (pkt : SentPacket) : Recovery :=
  if m.rtx.dropped then m
  else
    let m := { m with rtx := { m.rtx with
      sentMem := m.rtx.sentMem.insert num pkt
      sentPktCount := add32 m.rtx.sentPktCount 1 } }
    if pkt.includedUnacked then
      updateAlarm { m with rtx := { m.rtx with
        lastSentAckTime := pkt.sentTime
        unackedLen := add32 m.rtx.unackedLen pkt.pktLen } }
    else m

/-! ## the passes over `sent_mem` -/

/-- what a pass does to packets and frames -/
inductive Call where
  | ackedPacket (num : Nat)
  | lostPacket (num : Nat)
  | onAcked (f : Frame)
  | onLost (f : Frame)
  | freeAcked (f : Frame)
  | freeLost (f : Frame)

structure Pass where
  m : Recovery
  dropList : List Nat
  calls : List Call

namespace Pass

def dropPacket (p : Pass) (mem : Bool) (num : Nat) : Pass :=
  if mem then { p with dropList := num :: p.dropList } else p

/-- the counters without the packet; `report` tells the congestion module -/
def uncount (p : Pass) (pkt : SentPacket) (report : Congestion → Nat → Congestion) : Pass :=
  let r := { p.m.rtx with sentPktCount := sub32 p.m.rtx.sentPktCount 1 }
  if pkt.includedUnacked then
    let unackedLen := sub32 r.unackedLen pkt.pktLen
    { p with m := { p.m with
      rtx := { r with unackedLen := unackedLen }
      cong := report p.m.cong unackedLen } }
  else { p with m := { p.m with rtx := r } }

def ackFrame (p : Pass) (f : Frame) : Pass :=
  { p with calls := p.calls ++ [if f.onAcked.isSome then .onAcked f else .freeAcked f] }

def loseFrame (p : Pass) (f : Frame) : Pass :=
  if f.onLost then
    { p with m := { p.m with rtx := p.m.rtx.frameInsert f }, calls := p.calls ++ [.onLost f] }
  else { p with calls := p.calls ++ [.freeLost f] }

/-- the packet lies in the tested range -/
def ackPacket (cfg : Config) (cbrt : Nat → Nat) (mem : Bool) (recvTime num : Nat) (pkt : SentPacket)
    (p : Pass) : SentPacket × Pass :=
  let p := (p.dropPacket mem num).uncount pkt fun c unackedLen =>
    c.onAcked cfg cbrt num pkt.pktLen unackedLen recvTime
  let p := { p with calls := p.calls ++ [.ackedPacket num] }
  ({ pkt with frames := [] }, pkt.frames.foldl ackFrame p)

def losePacket (cfg : Config) (mem : Bool) (num : Nat) (pkt : SentPacket) (p : Pass) :
    SentPacket × Pass :=
  let p := (p.dropPacket mem num).uncount pkt fun c unackedLen =>
    c.onLost cfg num pkt.pktLen unackedLen
  let p := { p with calls := p.calls ++ [.lostPacket num] }
  ({ pkt with frames := [] }, pkt.frames.foldl loseFrame p)

/-- the range that the loop decodes after `start` and `stop` -/
def nextRange (a : AckFrame) (i start stop : Nat) : Nat × Nat :=
  if a.count ≠ 0 then
    let stop := sub64 (sub64 start (a.range i).gap) 2
    (sub64 stop (a.range i).len, stop)
  else (start, stop)

/-- `n` turns of the loop over the ranges of an ACK frame: test the range, then decode the next -/
def ackRanges (cfg : Config) (cbrt : Nat → Nat) (mem : Nat → Bool) (a : AckFrame) (num : Nat) :
    (n i start stop : Nat) → SentPacket → Pass → SentPacket × Pass
  | 0, _, _, _, pkt, p => (pkt, p)
  | n + 1, i, start, stop, pkt, p =>
    let x := if start ≤ num ∧ num ≤ stop then ackPacket cfg cbrt (mem i) a.recvTime num pkt p
      else (pkt, p)
    let next := nextRange a i start stop
    ackRanges cfg cbrt mem a num n (i + 1) next.1 next.2 x.1 x.2

end Pass

def dropPacketExecute : List Nat → Rbt SentPacket → Option (Rbt SentPacket)
  | [], sentMem => some sentMem
  | num :: l, sentMem =>
    if (sentMem.find num).isNone then none else dropPacketExecute l (sentMem.erase num)

/-- the end of a pass -/
def finish (x : Rbt SentPacket × Pass) : Option (Recovery × List Call) :=
  (dropPacketExecute x.2.dropList x.1).map fun sentMem =>
    ({ x.2.m with rtx := { x.2.m.rtx with sentMem := sentMem } }, x.2.calls)

def findNewlyAcked (cfg : Config) (cbrt : Nat → Nat) (mem : Nat → Nat → Bool) (m : Recovery)
    (a : AckFrame) : Option (Recovery × List Call) :=
  if m.rtx.dropped then some (m, [])
  else
    finish (m.rtx.sentMem.foreach
      (fun num pkt p => p.ackRanges cfg cbrt (mem num) a num (max 1 a.count) 0
        (sub64 a.largestAck a.firstRange) a.largestAck pkt)
      ⟨m, [], []⟩)

def lostDelay (c : Congestion) : Nat := max 500000 (max (mul64 9 c.smoothedRtt) 1000)

/-- one packet of the loss pass -/
def Pass.checkLost (cfg : Config) (mem : Nat → Bool) (delay lostSendTime num : Nat)
    (pkt : SentPacket) (p : Pass) : SentPacket × Pass :=
  if pkt.sentTime < lostSendTime then p.losePacket cfg (mem num) num pkt
  else if p.m.rtx.lossTime = 0 ∨ add64 pkt.sentTime delay < p.m.rtx.lossTime then
    (pkt, { p with m := updateAlarm { p.m with rtx := { p.m.rtx with
      lossTime := add64 pkt.sentTime delay } } })
  else (pkt, p)

def findNewlyLost (cfg : Config) (mem : Nat → Bool) (m : Recovery) (now : Time) :
    Option (Recovery × List Call) :=
  if m.rtx.dropped then some (m, [])
  else
    let m := { m with rtx := { m.rtx with lossTime := 0 } }
    finish (m.rtx.sentMem.foreach
      (fun num pkt p => p.checkLost cfg mem (lostDelay m.cong)
        (sub64 now (lostDelay m.cong)) num pkt)
      ⟨m, [], []⟩)

/-! ## the callers -/

/-- `clock` is the time that the pass itself reads -/
def moduleLoop (cfg : Config) (mem : Nat → Bool) (m : Recovery) (now clock : Time) :
    Option (Recovery × List Call) :=
  if m.rtx.alarm = 0 ∨ m.rtx.dropped then some (m, [])
  else if now < m.rtx.alarm then
    some ({ m with loopDeadline := updateLoopDeadline m.loopDeadline m.rtx.alarm }, [])
  else if m.rtx.unackedLen ≠ 0 ∧ m.rtx.lossTime ≠ 0 then
    findNewlyLost cfg mem { m with rtx := { m.rtx with ptoCount := add32 m.rtx.ptoCount 1 } } clock
  else some (m, [])

/-- the round-trip sample of an ACK frame; the delay counts in packets with a short header only -/
def sampleAck (m : Recovery) (short : Bool) (a : AckFrame) : Recovery :=
  let r := { m.rtx with largestAck := max m.rtx.largestAck a.largestAck }
  match r.sentMem.find a.largestAck with
  | some pkt =>
    let delay := if short then (if a.delay < r.maxDelay then a.delay else r.maxDelay) else 0
    { m with
      rtx := { r with maxDelay := if r.maxDelay < delay then delay else r.maxDelay }
      cong := m.cong.update a.recvTime pkt.sentTime delay }
  | none => { m with rtx := r }

/-- `quic_session_handle_ack_frame` behind its choice of the module -/
def handleAckFrame (cfg : Config) (cbrt : Nat → Nat) (ackMem : Nat → Nat → Bool)
    (lostMem : Nat → Bool) (m : Recovery) (short : Bool) (a : AckFrame) (clock : Time) :
    Option (Recovery × List Call) :=
  if m.rtx.dropped then some (m, [])
  else
    (findNewlyAcked cfg cbrt ackMem (sampleAck m short a) a).bind fun x =>
      (findNewlyLost cfg lostMem x.1 clock).map fun y =>
        (updateAlarm { y.1 with rtx := { y.1.rtx with ptoCount := 0 } }, x.2 ++ y.2)

end Recovery

end OpenQuic
