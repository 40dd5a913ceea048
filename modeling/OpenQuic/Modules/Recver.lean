import OpenQuic.Format.Tables
import OpenQuic.Modules.Sealer

/-!
# The receiver

`quic_recver_handle_packet` of `modules/recver.c`, and the table of the frame handlers that
`conf/frame.conf` generates.

The receiver is the same whatever the session behind it is: the handlers and the ACK generators are
a parameter, and so is what they write (`rest`).

* `sessionHandler`   the frame types that have a handler;
* `Call`             the frames that are handed to a handler and the numbers that are given to an ACK
                     generator, a record that is not part of the code;
* `Unread`           what is left of a payload: the memory from `pos` on, and where `last` is;
* `parse_before`     in memory, that is to parse the bytes between the two;
* `processPayload`   the loop over the frames of a payload;
* `packetPayload`    the switch over the packet type; a long header of a type without a case leaves
                     the payload as it is in memory;
* `handlePacket`     what is done with a datagram.
-/

namespace OpenQuic
open Word Window

/-- the rows of `quic_session_handler` -/
def sessionHandler : Nat → Bool
  | 0x02 | 0x03 => true
  | 0x06 => true
  | 0x08 | 0x09 | 0x0a | 0x0b | 0x0c | 0x0d | 0x0e | 0x0f => true
  | 0x11 => true
  | 0x18 | 0x19 => true
  | 0x1c | 0x1d => true
  | 0x1e => true
  | _ => false

namespace Recver

variable {σ : Type}

/-- `session->dst`, the fields of the receiver, and what is in the other modules -/
structure State (σ : Type) where
  dst : List UInt8
  recvFirst : Bool
  lastRecvTime : Time
  currAckEliciting : Bool
  rest : σ

/-- the handlers, and `quic_ack_generator_module_received` of the three generators -/
structure Handlers (σ : Type) where
  handle : Frame → State σ → State σ × Err
  received : Space → (num : Nat) → (recvTime : Time) → (shouldAck : Bool) → State σ → State σ

inductive Call where
  | handed (f : Frame)
  | recorded (sp : Space) (num : Nat)

/-- the fields that the receiver writes into a frame -/
def stamp (type : UInt8) (recvTime : Time) (f : Frame) : Frame :=
  match f.body with
  | .ack a => { f with body := .ack { a with packetType := type, recvTime := recvTime } }
  | .crypto _ off data => { f with body := .crypto type off data }
  | _ => f

def isAckType (firstByte : UInt8) : Bool := firstByte == 0x02 || firstByte == 0x03

/-- what has become of a packet; `err` is the result, or none where the code has left its memory -/
structure Done (σ : Type) where
  st : State σ
  calls : List Call
  err : Option Err

/-- the end of the payload -/
def finishPayload (h : Handlers σ) (p : Payload) (ag : Option Space) (recvTime : Time)
    (shouldAck : Bool) (st : State σ) (calls : List Call) : Done σ :=
  match ag with
  | none => ⟨st, calls, some .success⟩
  | some sp => ⟨h.received sp p.pNum recvTime shouldAck st, calls ++ [.recorded sp p.pNum], some .success⟩

/-- The memory from `pos` on, and how far `last` is ahead of `pos`.  The length that a header gives
may reach behind the memory, and one that has wrapped puts `last` behind `pos`. -/
structure Unread where
  bytes : List UInt8
  left : Int

/-- a buffer that is in memory, and what is behind it -/
def Unread.before (bs behind : List UInt8) : Unread := ⟨bs ++ behind, bs.length⟩

/-- a STREAM frame without a length -/
def runsToEnd (firstByte : UInt8) : Bool :=
  0x08 ≤ firstByte && firstByte ≤ 0x0f && !hasLen firstByte

/-- `quic_frame_parse` at `pos`.  Behind `last` only the type byte is read without a check, and every
check fails.  Where `last` is behind the end of the memory, a frame is parsed if it is complete in
memory; one that is not leaves the memory or fails at a check before that, and is a fault here in
either case. -/
def Unread.parse (mem : Nat → Bool) (u : Unread) : Except Stop (Frame × Unread) :=
  match u.bytes with
  | [] => .error .fault
  | first :: rest =>
    if u.left < 0 then
      (frameParse mem [first]).map fun x => (x.1, ⟨rest, u.left - 1⟩)
    else if u.left ≤ u.bytes.length then
      (frameParse mem (u.bytes.take u.left.toNat)).map fun x =>
        (x.1, .before x.2 (u.bytes.drop u.left.toNat))
    else if runsToEnd first then .error .fault
    else
      match frameParse mem u.bytes with
      | .error (.err .badFormat) => .error .fault
      | .error e => .error e
      | .ok (f, rest) => .ok (f, ⟨rest, u.left - (u.bytes.length - rest.length)⟩)

theorem Unread.before_left (bs behind : List UInt8) : (Unread.before bs behind).left = 0 ↔ bs = [] := by
  show (bs.length : Int) = 0 ↔ bs = []
  rw [Int.natCast_eq_zero, List.length_eq_zero_iff]

/-- in memory a frame is parsed from the bytes of its buffer -/
theorem Unread.parse_before (mem : Nat → Bool) {bs : List UInt8} (hbs : bs ≠ [])
    (behind : List UInt8) : (Unread.before bs behind).parse mem =
      (frameParse mem bs).map fun x => (x.1, .before x.2 behind) := by
  cases bs with
  | nil => exact absurd rfl hbs
  | cons b bs =>
    have hnonneg : ¬ (((b :: bs).length : Nat) : Int) < 0 := by omega
    have hle : (((b :: bs).length : Nat) : Int) ≤ (b :: bs ++ behind).length := by
      rw [List.length_append]
      omega
    show Unread.parse mem ⟨b :: (bs ++ behind), (b :: bs).length⟩ = _
    unfold Unread.parse
    dsimp only
    rw [if_neg hnonneg, ← List.cons_append, if_pos hle, Int.toNat_natCast, List.take_left,
      List.drop_left]

/-- The loop of `quic_recver_process_packet_payload`.  A frame takes a byte at least, and behind the
end of the memory there is none, so the length of the memory is fuel enough. -/
def processPayload (h : Handlers σ) (mem : Nat → Bool) (p : Payload) (ag : Option Space)
    (recvTime : Time) : (fuel : Nat) → (shouldAck : Bool) → Unread → State σ → List Call → Done σ
  | 0, shouldAck, u, st, calls =>
    if u.left = 0 then finishPayload h p ag recvTime shouldAck st calls else ⟨st, calls, none⟩
  | fuel + 1, shouldAck, u, st, calls =>
    if u.left = 0 then finishPayload h p ag recvTime shouldAck st calls else
    match u.parse mem with
    | .error .fault => ⟨st, calls, none⟩
    | .error (.err e) => ⟨st, calls, some e⟩
    | .ok (f, rest) =>
      let f := stamp p.type recvTime f
      let shouldAck := shouldAck || !isAckType f.firstByte
      if !sessionHandler f.firstByte.toNat then
        processPayload h mem p ag recvTime fuel shouldAck rest st calls
      else
        let x := h.handle f st
        let calls := calls ++ [.handed f]
        if x.2 ≠ .success then ⟨x.1, calls, some x.2⟩
        else
          let eliciting := f.firstByte ≠ 0x02 ∧ f.firstByte = 0x03
          let st := { x.1 with currAckEliciting := x.1.currAckEliciting || eliciting }
          processPayload h mem p ag recvTime fuel shouldAck rest st calls

/-- the loop has come to the end of a payload that is in memory -/
theorem processPayload_nil (h : Handlers σ) (mem : Nat → Bool) (p : Payload) (ag : Option Space)
    (recvTime : Time) (fuel : Nat) (shouldAck : Bool) (behind : List UInt8) (st : State σ)
    (calls : List Call) :
    processPayload h mem p ag recvTime fuel shouldAck (.before [] behind) st calls =
      finishPayload h p ag recvTime shouldAck st calls := by
  cases fuel with
  | zero => exact if_pos rfl
  | succ fuel => exact if_pos rfl

/-- a packet with a payload: its header, the ACK generator, and the memory from the first byte of the
payload on -/
structure Located where
  payload : Payload
  ag : Option Space
  bytes : List UInt8

/-- `quic_buf_setpl` of the payload -/
def Located.unread (l : Located) : Unread := ⟨l.bytes, signed64 l.payload.payloadLen⟩

/-- the payload that the header describes, where all of it is in memory -/
def Located.parsed (l : Located) : Option (List UInt8) := slice l.bytes 0 l.payload.payloadLen

/-- a payload that is in memory -/
theorem Located.unread_before {l : Located} {bs behind : List UInt8}
    (hbytes : l.bytes = bs ++ behind) (hlen : l.payload.payloadLen = bs.length)
    (hlt : bs.length < 2 ^ 63) : l.unread = .before bs behind ∧ l.parsed = some bs := by
  unfold Located.unread Located.parsed
  rw [hbytes, hlen, signed64_of_lt hlt]
  exact ⟨rfl, slice_middle (a := []) rfl rfl⟩

/-- the payload that a header describes, wherever it ends -/
def locate (buf : List UInt8) (ag : Option Space) (p : Payload) : Located :=
  ⟨p, ag, buf.drop p.payload⟩

/-- The switch over the packet type; a Retry packet is refused, and `junk` is the uninitialised
payload and the memory that it points to. -/
def packetPayload (junk : Payload × List UInt8) (buf : List UInt8) (ret srcLen : Nat) :
    Option (Option Located) := do
  let first ← buf[0]?
  if isLong first then
    if packetType first = packetInitialType then
      (initialHeader buf).map fun p => some (locate buf (some .initial) p)
    else if packetType first = packetHandshakeType then
      (handshakeHeader buf).map fun p => some (locate buf (some .handshake) p)
    else if packetType first = packet0rttType then
      (zeroRttHeader buf).map fun p => some (locate buf none p)
    else if packetType first = packetRetryType then return none
    else return some ⟨junk.1, none, junk.2⟩
  else
    (shortHeader buf srcLen).map fun p =>
      some (locate buf (some .app) { p with payloadLen := sub64 ret p.payload })

/-- the source ID of the first long header that a client receives becomes its destination ID -/
def adoptDst (isCli : Bool) (buf : List UInt8) (st : State σ) : Option (State σ) := do
  let first ← buf[0]?
  if isCli && !st.recvFirst && isLong first then
    let src ← longHeaderSrcConn buf
    return if src ≠ st.dst then { st with dst := src } else st
  else return st

/-- a received packet: `buf` is the memory from its first byte on, `ret` its length -/
structure Packet where
  buf : List UInt8
  ret : Nat
  recvTime : Time

/-- `parsed` is the payload that the loop is given; none if it is not all in memory, or if there is no
loop -/
structure Handled (σ : Type) extends Done σ where
  parsed : Option (List UInt8)

/-- `mem` is the allocation of the opened payload, `frameMem` that of a frame -/
def handlePacket (h : Handlers σ) (mem frameMem : Nat → Bool) (isCli : Bool) (m : Sealers)
    (srcLen : Nat) (junk : Payload × List UInt8) (pkt : Packet) (st : State σ) :
    Option (Handled σ) := do
  let (buf, ret, e) ← sealerOpen mem m pkt.buf pkt.ret srcLen
  if e ≠ .success then return ⟨⟨st, [], some e⟩, none⟩
  let st ← adoptDst isCli buf st
  let st := { st with recvFirst := true, lastRecvTime := pkt.recvTime }
  match ← packetPayload junk buf ret srcLen with
  | none => return ⟨⟨st, [], some .notImplemented⟩, none⟩
  | some l =>
    let st := { st with currAckEliciting := false }
    let x := processPayload h frameMem l.payload l.ag pkt.recvTime l.bytes.length false l.unread st []
    return ⟨{ x with err := x.err.map fun _ => .success }, l.parsed⟩

end Recver

end OpenQuic
