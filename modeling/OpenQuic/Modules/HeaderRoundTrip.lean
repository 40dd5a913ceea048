import OpenQuic.Modules.SendHeader

/-!
# Headers read back

What the generators of `OpenQuic.Modules.SendHeader` write is what the functions of `format/header.h`
read: the connection IDs, the packet number and where it is, the length, and the position behind the
header.

* `longPayload_format`   the fields behind the connection IDs of a long header;
* `LongReads`, `ShortReads`   what is read of a header in front of some bytes;
* `headers_round_trip`   all three headers, and the sizes that are kept free for the long ones.
-/

namespace OpenQuic
open Bytes Window

/-- a header of `num` ends with the packet number, and `off` points at it -/
def NumberAt (hdr : List UInt8) (num : Nat) (off : Option Nat) : Prop :=
  ∃ front, hdr = front ++ packetNumberFormat num (packetNumberFormatLen num) ∧
    off = some front.length

/-- what is read of the long header `hdr` in front of `rest` -/
structure LongReads (decode : List UInt8 → Option Payload) (type : UInt8) (dst src : List UInt8)
    (num payloadLen : Nat) (hdr rest : List UInt8) : Prop where
  payload : decode (hdr ++ rest) = some ⟨type, num, payloadLen, hdr.length⟩
  dstConn : longHeaderDstConn (hdr ++ rest) = some dst
  srcConn : longHeaderSrcConn (hdr ++ rest) = some src
  number : ∀ srcLen, NumberAt hdr num (headerPacketNumberOff (hdr ++ rest) srcLen)

structure ShortReads (dst : List UInt8) (num : Nat) (hdr rest : List UInt8) : Prop where
  payload : shortHeader (hdr ++ rest) dst.length = some ⟨packetShortType, num, 0, hdr.length⟩
  dstConn : shortHeaderDstConn (hdr ++ rest) dst.length = some dst
  number : NumberAt hdr num (headerPacketNumberOff (hdr ++ rest) dst.length)

section
variable {num : Nat} (hnum : num < 2 ^ 32) {rest : List UInt8}
  (hrest : packetNumberFormatLen num = 3 → rest ≠ [])
include hnum hrest

/-- the fields behind the front of a long header -/
theorem longPayload_format (type : UInt8) {first : UInt8} {body p : List UInt8} {payloadLen off : Nat}
    (hlen : payloadLen ≤ varintMax) (hfirst : packetNumberLen first = packetNumberFormatLen num)
    (hoff : (first :: body).length = off)
    (hp : p = first :: body ++ varintFormatR payloadLen ++
      packetNumberFormat num (packetNumberFormatLen num) ++ rest) :
    longPayload type p off = some ⟨type, num, payloadLen, off + (varintFormatR payloadLen).length +
      packetNumberFormatLen num⟩ := by
  have hassoc : p = first :: body ++ varintFormatR payloadLen ++
      (packetNumberFormat num (packetNumberFormatLen num) ++ rest) := hp.trans (List.append_assoc _ _ _)
  have hlenAt : varintLenAt p off = some (varintFormatR payloadLen).length := by
    rw [hassoc]
    exact varintLenAt_formatR hlen hoff
  have hnumber : packetNumberR first p (off + (varintFormatR payloadLen).length) = some num := by
    rw [hp]
    exact packetNumberR_format hnum hfirst hrest (by rw [List.length_append, hoff])
  have hvalue : varintAt p off = some payloadLen := by
    rw [hassoc]
    exact varintAt_formatR hlen hoff
  have hhead : p[0]? = some first := by
    rw [hp]
    rfl
  unfold longPayload
  rw [hhead, hvalue, hlenAt]
  show (packetNumberR first p (off + (varintFormatR payloadLen).length)).bind _ = _
  rw [hnumber, ← hfirst]
  rfl

section
variable {dst src : List UInt8} (hdst : dst.length < 256) (hsrc : src.length < 256)
  {payloadLen : Nat} (hlen : payloadLen ≤ varintMax)
include hdst hsrc hlen

theorem generateInitialHeader_reads : LongReads initialHeader packetInitialType dst src num payloadLen
    (generateInitialHeader dst src num payloadLen) rest := by
  obtain ⟨hform, hkind, hsize⟩ := initial_firstByte num
  have hpn : (packetNumberFormat num (packetNumberFormatLen num)).length =
      packetNumberFormatLen num := length_packetNumber num
  unfold generateInitialHeader
  generalize packetInitialType ||| numLenBits num = first at hform hkind hsize
  generalize hpnum : packetNumberFormat num (packetNumberFormatLen num) = pnum at hpn
  generalize hp : first :: initialHeaderBody dst src payloadLen ++ pnum ++ rest = p
  have hconns : p = first :: longHeaderConns dst src ++
      (varintFormatR 0 ++ varintFormatR payloadLen ++ pnum ++ rest) := by
    simp [← hp, initialHeaderBody]
  have htail : p = first :: longHeaderConns dst src ++ varintFormatR 0 ++
      (varintFormatR payloadLen ++ pnum ++ rest) := by
    simp [← hp, initialHeaderBody]
  have hfront : p = first :: (longHeaderConns dst src ++ varintFormatR 0) ++
      varintFormatR payloadLen ++ pnum ++ rest := by
    simp [← hp, initialHeaderBody]
  obtain ⟨hpay, htoken, htokenLen⟩ := initialHeader_token hdst hsrc htail rfl
  have hoff : (first :: (longHeaderConns dst src ++ varintFormatR 0)).length =
      1 + (longHeaderConns dst src).length + (varintFormatR 0).length + 0 := by
    rw [List.length_cons, List.length_append]
    omega
  have hfields := longPayload_format hnum hrest packetInitialType hlen hsize hoff (hpnum ▸ hfront)
  refine ⟨?_, ?_, ?_, fun srcLen => ⟨first :: initialHeaderBody dst src payloadLen, ?_, ?_⟩⟩
  · rw [hp]
    unfold initialHeader
    rw [hpay]
    show (varintAt p (1 + (longHeaderConns dst src).length)).bind _ = _
    rw [htoken]
    show (varintLenAt p (1 + (longHeaderConns dst src).length)).bind _ = _
    rw [htokenLen]
    refine hfields.trans ?_
    congr 2
    simp only [initialHeaderBody, List.length_append, List.length_cons]
    omega
  · rw [hp, hconns]
    exact longHeaderDstConn_conns hdst first _
  · rw [hp, hconns]
    exact longHeaderSrcConn_conns hdst hsrc first _
  · rw [hpnum]
  · rw [List.append_assoc, initialHeader_framed hdst hsrc hlen srcLen first (pnum ++ rest) hform hkind,
      List.length_cons, Nat.add_comm]

theorem generateHandshakeHeader_reads : LongReads handshakeHeader packetHandshakeType dst src num
    payloadLen (generateHandshakeHeader dst src num payloadLen) rest := by
  obtain ⟨hform, hkind, hsize⟩ := handshake_firstByte num
  have hpn : (packetNumberFormat num (packetNumberFormatLen num)).length =
      packetNumberFormatLen num := length_packetNumber num
  unfold generateHandshakeHeader
  generalize packetHandshakeType ||| numLenBits num = first at hform hkind hsize
  generalize hpnum : packetNumberFormat num (packetNumberFormatLen num) = pnum at hpn
  generalize hp : first :: handshakeHeaderBody dst src payloadLen ++ pnum ++ rest = p
  have hconns : p = first :: longHeaderConns dst src ++
      (varintFormatR payloadLen ++ pnum ++ rest) := by
    simp [← hp, handshakeHeaderBody]
  have hfront : p = first :: longHeaderConns dst src ++ varintFormatR payloadLen ++ pnum ++ rest := by
    simp [← hp, handshakeHeaderBody]
  have hoff : (first :: longHeaderConns dst src).length = 1 + (longHeaderConns dst src).length :=
    Nat.add_comm _ _
  have hfields := longPayload_format hnum hrest packetHandshakeType hlen hsize hoff (hpnum ▸ hfront)
  have hpay := longHeaderPayload_conns hdst hsrc first (varintFormatR payloadLen ++ pnum ++ rest)
  refine ⟨?_, ?_, ?_, fun srcLen => ⟨first :: handshakeHeaderBody dst src payloadLen, ?_, ?_⟩⟩
  · rw [hp]
    unfold handshakeHeader
    rw [hconns, hpay, ← hconns]
    refine hfields.trans ?_
    congr 2
    simp only [handshakeHeaderBody, List.length_append, List.length_cons]
    omega
  · rw [hp, hconns]
    exact longHeaderDstConn_conns hdst first _
  · rw [hp, hconns]
    exact longHeaderSrcConn_conns hdst hsrc first _
  · rw [hpnum]
  · rw [List.append_assoc, handshakeHeader_framed hdst hsrc hlen srcLen first (pnum ++ rest) hform
      hkind, List.length_cons, Nat.add_comm]

end

theorem generateShortHeader_reads (dst : List UInt8) :
    ShortReads dst num (generateShortHeader dst num) rest := by
  obtain ⟨hform, hkind, hsize⟩ := short_firstByte num
  have hpn : (packetNumberFormat num (packetNumberFormatLen num)).length =
      packetNumberFormatLen num := length_packetNumber num
  unfold generateShortHeader
  generalize packetShortType ||| numLenBits num = first at hform hkind hsize
  have hnumber : packetNumberR first (first :: dst ++ packetNumberFormat num
      (packetNumberFormatLen num) ++ rest) (1 + dst.length) = some num :=
    packetNumberR_format hnum hsize hrest (Nat.add_comm _ _)
  refine ⟨?_, ?_, first :: dst, rfl, ?_⟩
  · unfold shortHeader
    show (packetNumberR first _ (1 + dst.length)).bind _ = _
    rw [hnumber]
    show some (Payload.mk packetShortType num 0 (1 + dst.length + packetNumberLen first)) = _
    rw [hsize]
    congr 2
    simp only [List.length_append, List.length_cons]
    omega
  · have hp : first :: dst ++ packetNumberFormat num (packetNumberFormatLen num) ++ rest =
        [first] ++ dst ++ (packetNumberFormat num (packetNumberFormatLen num) ++ rest) := by simp
    rw [hp]
    exact slice_middle rfl rfl
  · rw [List.append_assoc, shortHeader_framed dst first _ hform hkind, List.length_cons, Nat.add_comm]

end

end OpenQuic
