import OpenQuic.Base
import OpenQuic.Format.Header
import OpenQuic.Format.Tables

/-!
# Packet protection

`quic_sealer_seal` and `quic_sealer_open` of `modules/sealer.c`, and the packet that is built
(`modules/sender.h`).

The ciphers are not part of the repository.  A context with its key is a function: the AEAD takes
a nonce, the input and the associated data, and may fail; it then clears its output and sets the
output length to 0.  The header-protection mask is a function of the 16 sampled bytes.

* `SendPacket`      the packet and its buffer; `pos` and `last` are its cursors;
* `Sealer`          the keys of one encryption level;
* `sealerSeal`, `sealerOpen`   the two functions; a receive buffer may be longer than the datagram.
-/

namespace OpenQuic
open Word Window

structure SendPacket where
  num : Nat
  largestAck : Nat
  includedUnacked : Bool
  /-- the space of `retransmission_module` -/
  space : Space
  frames : List Frame
  data : List UInt8
  pos : Nat
  last : Nat

/-- `quic_send_packet_init`; `data` is what is in the allocation -/
def SendPacket.init (space : Space) (num : Nat) (data : List UInt8) : SendPacket where
  num := num
  largestAck := 0
  includedUnacked := false
  space := space
  frames := []
  data := data
  pos := 0
  last := data.length

/-- `quic_buf_write_complete` -/
def SendPacket.writeComplete (pkt : SendPacket) : SendPacket := { pkt with last := pkt.pos, pos := 0 }

/-- `quic_buf_size` -/
def SendPacket.size (pkt : SendPacket) : Nat := pkt.last - pkt.pos

/-- `w` is the side that writes, `r` the one that reads -/
structure Sealer where
  wSeal : (nonce plain ad : List UInt8) → Option (List UInt8)
  wTag : Nat
  wIv : List UInt8
  wMask : List UInt8 → Nat → UInt8
  rOpen : (nonce sealed ad : List UInt8) → Option (List UInt8)
  rTag : Nat
  rIv : List UInt8
  rMask : List UInt8 → Nat → UInt8

structure Sealers where
  initial : Sealer
  handshake : Sealer
  app : Sealer

/-! ## header protection -/

/-- `quic_sealer_apply_first_byte` -/
def applyFirstByte (mask : Nat → UInt8) (firstByte : UInt8) : UInt8 :=
  if isLong firstByte then firstByte ^^^ (mask 0 &&& 0x0f) else firstByte ^^^ (mask 0 &&& 0x1f)

/-- `quic_sealer_apply_packet_number` -/
def applyPacketNumber (mask : Nat → UInt8) (p : List UInt8) (pnumOff pnumSize : Nat) :
    Option (List UInt8) :=
  xorAt (fun i => mask (i + 1)) p pnumOff pnumSize

/-! ## sealing -/

/-- the bytes that the frames of a packet are formatted to -/
def plaintext (frames : List Frame) : Option (List UInt8) := do
  let payloadLen ← framesSize frames
  let x ← formatFrames ⟨[], payloadLen⟩ frames
  return x.1.written

/-- `quic_sealer_seal`; `mem` is the allocation of the payload -/
def sealerSeal (mem : Bool) (s : Sealer) (pkt : SendPacket) (hdr : List UInt8) (srcLen : Nat) :
    Option (SendPacket × Err) := do
  let pnumOff ← headerPacketNumberOff hdr srcLen
  let first ← hdr[0]?
  let pnumSize := packetNumberLen first
  if !mem then return (pkt, .internalError)
  let payload ← plaintext pkt.frames
  let sealed := s.wSeal s.wIv payload hdr
  let data ← store pkt.data hdr.length
    (sealed.getD (List.replicate (payload.length + s.wTag) 0))
  let sample ← slice data (pkt.pos + hdr.length - pnumSize + 4) 16
  let mask := s.wMask sample
  let hdr ← applyPacketNumber mask (applyFirstByte mask first :: hdr.tail) pnumOff pnumSize
  let data ← store data pkt.pos hdr
  return ({ pkt with
    data := data
    pos := pkt.pos + hdr.length + (sealed.getD []).length }.writeComplete, .success)

/-! ## opening -/

/-- the sealer that a packet is opened with, if it is one that is opened -/
def openSealer (m : Sealers) (firstByte : UInt8) : Option Sealer :=
  if isLong firstByte then
    if packetType firstByte = packetInitialType then some m.initial
    else if packetType firstByte = packetHandshakeType then some m.handshake
    else none
  else some m.app

/-- `quic_sealer_open`: the buffer and `ret` after it.  What the AEAD returns is not read, and the
length 0 that it leaves when it fails is a length like any other. -/
def sealerOpen (mem : Nat → Bool) (m : Sealers) (buf : List UInt8) (ret srcLen : Nat) :
    Option (List UInt8 × Nat × Err) := do
  let first ← buf[0]?
  match openSealer m first with
  | none => return (buf, ret, .success)
  | some s =>
    let pnumOff ← headerPacketNumberOff buf srcLen
    let sample ← slice buf (pnumOff + 4) 16
    let mask := s.rMask sample
    let pnumSize := packetNumberLen (applyFirstByte mask first)
    let buf ← applyPacketNumber mask (applyFirstByte mask first :: buf.tail) pnumOff pnumSize
    let hdrSize := pnumOff + pnumSize
    let payloadSize := sub64 ret hdrSize
    if !mem payloadSize then return (buf, ret, .internalError)
    let ad ← slice buf 0 hdrSize
    let sealed ← slice buf hdrSize payloadSize
    let buf ← store buf hdrSize ((s.rOpen s.rIv sealed ad).getD [])
    return (buf, sub64 ret s.rTag, .success)

end OpenQuic
