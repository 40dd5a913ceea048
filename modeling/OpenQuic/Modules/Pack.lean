import OpenQuic.Modules.AckGenerator
import OpenQuic.Modules.Retransmission
import OpenQuic.Modules.SendHeader
import OpenQuic.Modules.Stream

/-!
# Packing a packet

`quic_sender_pack_initial_packet`, `quic_sender_pack_handshake_packet` and
`quic_sender_pack_app_packet` of `modules/sender.c`, up to the call of `quic_sealer_seal`, whose
result they do not look at.

* `Level`            what a function reads: the modules of its level and the session's fields;
* `Packing`          a packet under construction, with its budget `maxBytes` and its sources;
* `Source`, `append` the five sources of frames;
* `drain`            the loop over one source.  A source that does not dry up keeps it running, so
                     it has fuel, and `End` says how it has ended;
* `Call`             one append: the packet before it and the size that it returns, a record that is
                     not part of the code;
* `packInitialPacket`, `packHandshakePacket`, `packAppPacket`   the three functions.
-/

namespace OpenQuic
open Word

/-! ## sources -/

def frameCryptoType : UInt8 := 0x06

/-- `quic_sealer_append_crypto_frame` behind its choice of the sorter; `junk` is what is in the
allocation -/
def appendCryptoFrame (mem : Bool) (junk : Nat → UInt8) (frames : List Frame) (len : Nat)
    (sorter : Sorter) : Nat × List Frame × Sorter :=
  if sorter.empty then (0, frames, sorter)
  else
    let len := if sorter.readable < len then sorter.readable else len
    if !mem then (0, frames, sorter)
    else
      let x := sorter.read len
      let data := (List.range len).map fun i => ((x.2[i]?).join).getD (junk i)
      let frame := Frame.init frameCryptoType (.crypto 0 sorter.readedSize data)
      (frameSize frame, frames ++ [frame], x.1)

/-- `quic_framer_append_ctrl_frame`; the search is that of the retransmission queue -/
def appendCtrlFrame (frames : List Frame) (capa : Nat) (f : Framer) : Nat × List Frame × Framer :=
  match Retransmission.takeFrame capa f.ctrls with
  | some (frame, ctrls) => (frameSize frame, frames ++ [frame], { f with ctrls := ctrls })
  | none => (0, frames, f)

inductive Source where
  | ack
  | retransmission
  | ctrl
  | crypto
  | stream
  deriving DecidableEq, Repr

namespace Pack

/-- a packet under construction; the two counters are `uint32_t` -/
structure Packing where
  frames : List Frame
  largestAck : Nat
  includedUnacked : Bool
  maxBytes : Nat
  payloadLen : Nat
  ack : AckGenerator
  rtx : Retransmission
  crypto : Sorter
  streams : Streams

/-- the allocations of one append, and the time that it reads -/
structure Env where
  cfg : Config
  now : Time
  ackMem : Bool
  cryptoMem : Bool
  junk : Nat → UInt8
  streamMem : StreamAlloc

/-- the size that an append returns, a `uint64_t`, and what it leaves -/
def append (env : Env) : Source → Packing → Option (Nat × Packing)
  | .ack, p => (p.ack.appendAckFrame env.ackMem env.now p.frames p.largestAck).map fun x =>
      (x.1, { p with frames := x.2.1, largestAck := x.2.2.1, ack := x.2.2.2 })
  | .retransmission, p =>
    let x := Retransmission.appendFrame p.frames p.maxBytes p.rtx
    some (x.1, { p with frames := x.2.1, rtx := x.2.2 })
  | .ctrl, p =>
    let x := appendCtrlFrame p.frames p.maxBytes p.streams.framer
    some (x.1, { p with frames := x.2.1, streams := { p.streams with framer := x.2.2 } })
  | .crypto, p =>
    let x := appendCryptoFrame env.cryptoMem env.junk p.frames p.maxBytes p.crypto
    some (x.1, { p with frames := x.2.1, crypto := x.2.2 })
  | .stream, p =>
    (p.streams.appendStreamFrame env.cfg env.streamMem p.maxBytes false).map fun x =>
      (x.1, { p with frames := p.frames ++ x.2.1.toList, streams := x.2.2 })

/-! ## the loops -/

structure Call where
  src : Source
  env : Env
  before : Packing
  size : Nat

/-- an append and the two lines behind it; `frame_len` is a `uint32_t` -/
def turn (env : Env) (src : Source) (p : Packing) : Option (Packing × Call) :=
  (append env src p).map fun x =>
    ({ x.2 with
      maxBytes := sub32 p.maxBytes (u32 x.1)
      payloadLen := add32 p.payloadLen (u32 x.1) }, ⟨src, env, p, x.1⟩)

/-- how a part of the packing has ended: it is done, it goes on, or it has no defined behaviour -/
inductive End where
  | done
  | more
  | fault
  deriving DecidableEq, Repr

/-- the loop over one source; `env n` is the environment of the append with `n` turns left -/
def drain (env : Nat → Env) (src : Source) : (fuel : Nat) → Packing → Packing × List Call × End
  | 0, p => (p, [], .more)
  | fuel + 1, p =>
    match turn (env fuel) src p with
    | none => (p, [], .fault)
    | some (q, c) =>
      if u32 c.size = 0 then (q, [c], .done)
      else
        let x := drain env src fuel { q with includedUnacked := true }
        (x.1, c :: x.2.1, x.2.2)

/-- one loop after the other -/
def drainAll (env : Source → Nat → Env) (fuel : Nat) :
    List Source → Packing → Packing × List Call × End
  | [], p => (p, [], .done)
  | src :: srcs, p =>
    let x := drain (env src) src fuel p
    if x.2.2 = .done then
      let y := drainAll env fuel srcs x.1
      (y.1, x.2.1 ++ y.2.1, y.2.2)
    else x

/-- the ACK frame, and the loops unless the packet is a probe -/
def collect (env : Source → Nat → Env) (fuel : Nat) (probe : Bool) (srcs : List Source)
    (p : Packing) : Packing × List Call × End :=
  match turn (env .ack fuel) .ack p with
  | none => (p, [], .fault)
  | some (q, c) =>
    if probe then (q, [c], .done)
    else
      let x := drainAll env fuel srcs q
      (x.1, c :: x.2.1, x.2.2)

/-! ## the three functions -/

structure Level where
  /-- `quic_session_path_mtu`, a `uint32_t` -/
  mtu : Nat
  /-- `numgen->next` -/
  num : Nat
  dst : List UInt8
  src : List UInt8
  /-- `w_aead_tag_size` -/
  tag : Nat
  ack : AckGenerator
  rtx : Retransmission
  crypto : Sorter
  streams : Streams

/-- a packet with its header, which is sealed next if `ended` is `done`, and `numgen->next` then -/
structure Packed where
  num : Nat
  next : Nat
  hdr : List UInt8
  packing : Packing
  calls : List Call
  ended : End

/-- What the three functions share: the packet is allocated, filled and given a header.  `room` is
what is kept free for the header.  A packet without frames is freed. -/
def pack (mem : Bool) (env : Source → Nat → Env) (fuel : Nat) (probe : Bool) (srcs : List Source)
    (room : Nat) (hdr : Nat → List UInt8) (l : Level) : Option Packed :=
  if !mem then none
  else
    let maxBytes := u32 (sub64 (sub64 l.mtu room) l.tag)
    let x := collect env fuel probe srcs
      ⟨[], 0, false, maxBytes, 0, l.ack, l.rtx, l.crypto, l.streams⟩
    if x.2.2 = .done ∧ x.1.frames.isEmpty then none
    else some ⟨l.num, add64 l.num 1, hdr x.1.payloadLen, x.1, x.2.1, x.2.2⟩

section
variable (mem : Bool) (env : Source → Nat → Env) (fuel : Nat) (probe : Bool) (l : Level)

def packInitialPacket : Option Packed :=
  if l.mtu = 0 then none
  else if l.crypto.empty && l.rtx.empty then none
  else pack mem env fuel probe [.retransmission, .crypto]
    (initialHeaderMaxSize l.dst l.src l.num l.mtu) (generateInitialHeader l.dst l.src l.num) l

def packHandshakePacket : Option Packed :=
  if l.mtu = 0 then none
  else if l.crypto.empty && l.streams.framer.ctrls.isEmpty && l.rtx.empty then none
  else pack mem env fuel probe [.retransmission, .ctrl, .crypto]
    (handshakeHeaderMaxSize l.dst l.src l.num l.mtu) (generateHandshakeHeader l.dst l.src l.num) l

/-- the header is generated first, and is what is kept free for it; `e` is the environment of the
windows -/
def packAppPacket (e : Env) : Option Packed :=
  if l.mtu = 0 then none
  else
    let l := { l with streams := l.streams.processRwnd e.cfg e.streamMem }
    if l.streams.framer.isEmpty && l.rtx.empty && !l.ack.ackShouldSend then none
    else pack mem env fuel probe [.retransmission, .ctrl, .stream]
      (generateShortHeader l.dst l.num).length (fun _ => generateShortHeader l.dst l.num) l

end

end Pack

end OpenQuic
