import OpenQuic.Base
import OpenQuic.Lib.Window
import OpenQuic.Utils.Varint

/-!
# Packet headers

The macros and functions of `format/header.h`.  A position is an index into the packet buffer, and
a read outside of it has no result.

* `isLong`, `packetType`, `packetNumberLen`   the first byte;
* `longHeaderDstConn`, `longHeaderSrcConn`, `shortHeaderDstConn`   the connection IDs;
* `headerPacketNumberOff`   where the packet number is;
* `packetNumberR`, `packetNumberFormat`   a packet number in a buffer;
* `Payload`, `initialHeader`, `zeroRttHeader`, `handshakeHeader`, `shortHeader`   a header that is
                           decoded.
-/

namespace OpenQuic
open Bytes Window

/-! ## the first byte -/

def isLong (firstByte : UInt8) : Bool := firstByte &&& 0x80 ≠ 0

def packetType (firstByte : UInt8) : UInt8 := firstByte &&& 0xf0

/-- `quic_packet_number_len` -/
def packetNumberLen (firstByte : UInt8) : Nat := (firstByte &&& 0x03).toNat + 1

/-! ## connection IDs -/

/-- a connection ID behind its length byte -/
def connAt (p : List UInt8) (off : Nat) : Option (List UInt8) := do
  let len ← p[off]?
  slice p (off + 1) len.toNat

def longHeaderDstConnLenOff : Nat := 5

def longHeaderDstConn (p : List UInt8) : Option (List UInt8) := connAt p longHeaderDstConnLenOff

def longHeaderSrcConnLenOff (p : List UInt8) : Option Nat := do
  let len ← p[longHeaderDstConnLenOff]?
  return longHeaderDstConnLenOff + 1 + len.toNat

def longHeaderSrcConn (p : List UInt8) : Option (List UInt8) := do
  let off ← longHeaderSrcConnLenOff p
  connAt p off

def longHeaderPayload (p : List UInt8) : Option Nat := do
  let off ← longHeaderSrcConnLenOff p
  let len ← p[off]?
  return off + 1 + len.toNat

def shortHeaderDstConn (p : List UInt8) (len : Nat) : Option (List UInt8) := slice p 1 len

def shortHeaderPayload (len : Nat) : Nat := 1 + len

/-! ## variable-length integers in a header -/

/-- `quic_varint_len` at a position -/
def varintLenAt (p : List UInt8) (off : Nat) : Option Nat := do
  let b ← p[off]?
  return varintLen b

/-- `quic_varint_r` at a position -/
def varintAt (p : List UInt8) (off : Nat) : Option Nat := do
  let len ← varintLenAt p off
  let bytes ← slice p off len
  return varintR bytes

/-! ## packet numbers -/

/-- `quic_header_packet_number_off`; of the long headers, the Initial and the Handshake header only -/
def headerPacketNumberOff (p : List UInt8) (srcLen : Nat) : Option Nat := do
  let first ← p[0]?
  if isLong first then
    if packetType first = packetInitialType then
      let off ← longHeaderPayload p
      let token ← varintAt p off
      let tokenLen ← varintLenAt p off
      let len ← varintLenAt p (off + tokenLen + token)
      return off + tokenLen + token + len
    else if packetType first = packetHandshakeType then
      let off ← longHeaderPayload p
      let len ← varintLenAt p off
      return off + len
    else none
  else return shortHeaderPayload srcLen

/-- `quic_packet_number_r`: three bytes are read as the upper ones of a word of four -/
def packetNumberR (firstByte : UInt8) (p : List UInt8) (off : Nat) : Option Nat :=
  match (firstByte &&& 0x03).toNat with
  | 0 => (slice p off 1).map leNat
  | 1 => (slice p off 2).map fun b => bswap 2 (leNat b)
  | 2 => (slice p off 4).map fun b => bswap 4 (leNat b) >>> 8
  | _ => (slice p off 4).map fun b => bswap 4 (leNat b)

/-- `quic_packet_number_format_len`; the third bound is decimal -/
def packetNumberFormatLen (num : Nat) : Nat :=
  if num < 0x100 then 1 else if num < 0x10000 then 2 else if num < 1000000 then 3 else 4

/-- what `quic_packet_number_format` stores -/
def packetNumberFormat (num len : Nat) : List UInt8 :=
  if len = 1 then [UInt8.ofNat num]
  else if len = 2 then leBytes 2 (bswap 2 num)
  else if len = 3 then leBytes 2 (bswap 2 (num >>> 8)) ++ [UInt8.ofNat num]
  else if len = 4 then leBytes 4 (bswap 4 num)
  else []

/-! ## headers -/

/-- `quic_payload_t`; `payload` is a position -/
structure Payload where
  type : UInt8
  pNum : Nat
  payloadLen : Nat
  payload : Nat
  deriving DecidableEq

/-- what follows the length field of a long header -/
def longPayload (type : UInt8) (p : List UInt8) (off : Nat) : Option Payload := do
  let first ← p[0]?
  let payloadLen ← varintAt p off
  let len ← varintLenAt p off
  let pNum ← packetNumberR first p (off + len)
  return ⟨type, pNum, payloadLen, off + len + packetNumberLen first⟩

def initialHeader (p : List UInt8) : Option Payload := do
  let off ← longHeaderPayload p
  let token ← varintAt p off
  let tokenLen ← varintLenAt p off
  longPayload packetInitialType p (off + tokenLen + token)

def zeroRttHeader (p : List UInt8) : Option Payload := do
  let off ← longHeaderPayload p
  longPayload packet0rttType p off

def handshakeHeader (p : List UInt8) : Option Payload := do
  let off ← longHeaderPayload p
  longPayload packetHandshakeType p off

/-- the length of the payload is not known to the header -/
def shortHeader (p : List UInt8) (len : Nat) : Option Payload := do
  let first ← p[0]?
  let pNum ← packetNumberR first p (shortHeaderPayload len)
  return ⟨packetShortType, pNum, 0, shortHeaderPayload len + packetNumberLen first⟩

end OpenQuic
