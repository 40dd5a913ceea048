import OpenQuic.Modules.PackFits
import OpenQuic.Modules.SenderLoop

/-!
# An endpoint

A session with its sender: frames are handled, packet numbers are recorded, the timers of the
retransmission modules fire, and the sender packs, seals and sends what there is.

* `Endpoint`         the session, the packet number generators and the sender module;
* `Outside`          what a turn of the sender finds: the allocations, the keys, the clock;
* `choose`, `send`   the switch over the encryption level, and what is done with its packet;
* `loop`             `quic_sender_module_loop` on the pack functions;
* `Event`, `step`    what happens to an endpoint, in any order.
-/

namespace OpenQuic
open Word

/-- a session, `numgen->next` of the three generators, and `next_send_time`; `sent` has the packets
that were handed to the socket, the newest first, a record that is not part of the code -/
structure Endpoint (τ ρ : Type) where
  session : Session τ ρ
  next : Space → Nat
  nextSendTime : Time
  sent : List Sent

namespace Endpoint

/-- the write sorters are in the state of the TLS library, whose callbacks fill them; there is none
for the app space, and nothing reads what is there -/
structure Env (τ ρ : Type) extends OpenQuic.Env τ ρ where
  wSorter : τ → Space → Sorter
  setWSorter : τ → Space → Sorter → τ

/-- `room` is what is in the allocation of `mtu` bytes; the three Booleans are the allocations of the
packet, of its plaintext and of its node -/
structure Outside where
  room : List UInt8
  mem : Bool
  sealMem : Bool
  nodeMem : Bool
  pack : Source → Nat → Pack.Env
  rwnd : Pack.Env
  fuel : Nat
  sealer : Space → Sealer
  budgetTime : Time
  sentTime : Time
  nextSendTime : Congestion → Nat → Time

variable {τ ρ : Type}

def start (s : Session τ ρ) : Endpoint τ ρ := ⟨s, fun _ => 0, 0, []⟩

section
variable (env : Env τ ρ) (o : Outside)

/-! ## packing -/

/-- what a pack function reads -/
def packLevel (e : Endpoint τ ρ) (sp : Space) : Pack.Level where
  mtu := o.room.length
  num := e.next sp
  dst := e.session.dst.bytes
  src := e.session.src.bytes
  tag := (o.sealer sp).wTag
  ack := e.session.ackGens sp
  rtx := e.session.rtx sp
  crypto := env.wSorter e.session.tls sp
  streams := e.session.streams

def pack (probe : Bool) (e : Endpoint τ ρ) (sp : Space) : Option Pack.Packed :=
  Pack.packPacket o.mem o.pack o.fuel probe (e.packLevel env o sp) o.rwnd sp

/-- what the appends leave of the modules -/
def put (sp : Space) (p : Pack.Packing) (s : Session τ ρ) : Session τ ρ :=
  { s with
    ackGens := Function.update s.ackGens sp p.ack
    rtx := Function.update s.rtx sp p.rtx
    tls := env.setWSorter s.tls sp p.crypto
    streams := p.streams }

/-- What `quic_sender_pack_app_packet` leaves when it makes no packet: the windows have been
announced, and streams without data have left the queue.  The two others leave everything. -/
def unpacked (probe : Bool) (e : Endpoint τ ρ) : Endpoint τ ρ :=
  let l := e.packLevel env o .app
  if e.session.level ≠ .application ∨ l.mtu = 0 then e
  else
    let streams := l.streams.processRwnd o.rwnd.cfg o.rwnd.streamMem
    let e := { e with session := { e.session with streams := streams } }
    if (streams.framer.isEmpty && l.rtx.empty && !l.ack.ackShouldSend) || !o.mem then e
    else
      let maxBytes := u32 (sub64 (sub64 l.mtu (generateShortHeader l.dst l.num).length) l.tag)
      let x := Pack.collect o.pack o.fuel probe [.retransmission, .ctrl, .stream]
        ⟨[], 0, false, maxBytes, 0, l.ack, l.rtx, l.crypto, streams⟩
      { e with session := put env .app x.1 e.session }

/-- the switch over the level, with its fall-through -/
def choose (probe : Bool) (e : Endpoint τ ρ) : Option (Space × Pack.Packed) :=
  match e.session.level with
  | .initial =>
    match e.pack env o probe .initial with
    | some x => some (.initial, x)
    | none => (e.pack env o probe .handshake).map fun x => (.handshake, x)
  | .handshake => (e.pack env o probe .handshake).map fun x => (.handshake, x)
  | .application => (e.pack env o probe .app).map fun x => (.app, x)
  | .earlyData => none

/-! ## sending -/

/-- the packet of a pack function, before it is sealed -/
def packet (sp : Space) (x : Pack.Packed) : SendPacket :=
  { SendPacket.init sp x.num o.room with
    largestAck := x.packing.largestAck
    includedUnacked := x.packing.includedUnacked
    frames := x.packing.frames }

/-- `quic_sender_send_packet`, on the modules of a session -/
def sendSealed (sp : Space) (pkt : SendPacket) (s : Session τ ρ) : Session τ ρ × Sent :=
  let z := sendPacket o.nodeMem o.sentTime ⟨s.rtx sp, s.cong, s.loopDeadline⟩ pkt
  ({ s with
    rtx := Function.update s.rtx sp z.1.rtx
    cong := z.1.cong
    loopDeadline := z.1.loopDeadline }, z.2)

/-- the packet is sealed, a Handshake packet sets the level, and the packet is sent -/
def send (sp : Space) (x : Pack.Packed) (e : Endpoint τ ρ) : Option (Endpoint τ ρ) :=
  (sealerSeal o.sealMem (o.sealer sp) (packet o sp x) x.hdr e.session.dst.bytes.length).map fun y =>
    let s := put env sp x.packing e.session
    let s := if sp = .handshake then s.setLevel .handshake else s
    let z := sendSealed o sp y.1 s
    { e with session := z.1, next := Function.update e.next sp x.next, sent := z.2 :: e.sent }

def deadline (t : Time) (e : Endpoint τ ρ) : Endpoint τ ρ :=
  { e with session := { e.session with
      loopDeadline := Recovery.updateLoopDeadline e.session.loopDeadline t } }

def sending (e : Endpoint τ ρ) : Sending.State :=
  ⟨e.session.rtx, e.next, e.session.cong, e.session.loopDeadline, e.sent⟩

/-- `quic_sender_module_loop`; no result where a pack function has none -/
def loop (now : Time) (e : Endpoint τ ρ) : Option (Endpoint τ ρ) :=
  if now < e.nextSendTime ∧ e.nextSendTime ≠ 0 then some (e.deadline e.nextSendTime)
  else
    let e := { e with nextSendTime := 0 }
    if 25000 / 4 ≤ SenderLoop.unackedPktCount e.sending then some e
    else
      let bytes := SenderLoop.unackedBytes e.sending
      let probe := !e.session.cong.allowSend env.cfg bytes ||
        decide (20000 ≤ SenderLoop.unackedPktCount e.sending)
      if !e.session.cong.hasBudget o.budgetTime then some e
      else
        match e.choose env o probe with
        | none => some (e.unpacked env o probe)
        | some (sp, x) =>
          if x.ended ≠ .done then none
          else
            (e.send env o sp x).map fun e =>
              if probe then e
              else
                let next := o.nextSendTime e.session.cong bytes
                { e.deadline next with nextSendTime := next }

end

/-! ## runs -/

inductive Event where
  /-- a frame of an opened packet -/
  | frame (f : Frame)
  | received (sp : Space) (num : Nat) (recvTime : Time) (shouldAck : Bool)
  | timer (sp : Space) (mem : Nat → Bool) (now clock : Time)
  | sender (o : Outside) (now : Time)
  /-- the application, and the loop of the stream module -/
  | other (streams : Streams) (cong : Congestion) (loopDeadline : Time)

def step (env : Env τ ρ) (e : Endpoint τ ρ) : Event → Option (Endpoint τ ρ)
  | .frame f => (Session.handleFrame env.toEnv f e.session).map fun x =>
      { e with session := { x.1 with handled := x.1.handled + 1 } }
  | .received sp num recvTime shouldAck =>
    ((e.session.ackGens sp).received (env.outcomes e.session.handled).range num recvTime
      shouldAck).map fun g =>
        { e with session := { e.session with ackGens := Function.update e.session.ackGens sp g } }
  | .timer sp mem now clock =>
    (Recovery.moduleLoop env.cfg mem ⟨e.session.rtx sp, e.session.cong, e.session.loopDeadline⟩
      now clock).map fun x =>
        { e with session := { e.session with
            rtx := Function.update e.session.rtx sp x.1.rtx
            cong := x.1.cong
            loopDeadline := x.1.loopDeadline } }
  | .sender o now => e.loop env o now
  | .other streams cong loopDeadline =>
    some { e with session := { e.session with
        streams := streams, cong := cong, loopDeadline := loopDeadline } }

end Endpoint

end OpenQuic
