import OpenQuic.Format.Header

/-!
# The headers that are sent

The three header generators of `modules/sender.c`, and the sizes that a packet keeps free for them.
A connection ID has at most 255 bytes: none comes from anywhere but a length byte.

* `generateInitialHeader`, `generateHandshakeHeader`, `generateShortHeader`;
* `Framed`           the packet number is found behind the given bytes, whatever follows and however
                     the first byte is masked;
* `initialHeader_framed`, `handshakeHeader_framed`, `shortHeader_framed`.
-/

namespace OpenQuic
open Bytes Window

/-- the lowest bits of the first byte -/
def numLenBits (num : Nat) : UInt8 := UInt8.ofNat (packetNumberFormatLen num - 1)

section
variable (dst src : List UInt8) (num payloadLen : Nat)

/-- `quic_sender_generate_long_header`, without the first byte -/
def longHeaderConns : List UInt8 :=
  0 :: 0 :: 0 :: 0 :: UInt8.ofNat dst.length :: (dst ++ UInt8.ofNat src.length :: src)

/-- an Initial header between its first byte and its packet number -/
def initialHeaderBody : List UInt8 :=
  longHeaderConns dst src ++ varintFormatR 0 ++ varintFormatR payloadLen

def handshakeHeaderBody : List UInt8 := longHeaderConns dst src ++ varintFormatR payloadLen

/-- `quic_sender_generate_initial_header` -/
def generateInitialHeader : List UInt8 :=
  (packetInitialType ||| numLenBits num) :: initialHeaderBody dst src payloadLen ++
    packetNumberFormat num (packetNumberFormatLen num)

/-- `quic_sender_generate_handshake_header` -/
def generateHandshakeHeader : List UInt8 :=
  (packetHandshakeType ||| numLenBits num) :: handshakeHeaderBody dst src payloadLen ++
    packetNumberFormat num (packetNumberFormatLen num)

/-- `quic_sender_generate_short_header` -/
def generateShortHeader : List UInt8 :=
  (packetShortType ||| numLenBits num) :: dst ++ packetNumberFormat num (packetNumberFormatLen num)

/-- `quic_sender_initial_header_max_size` -/
def initialHeaderMaxSize : Nat :=
  1 + 4 + 1 + dst.length + 1 + src.length + varintFormatLen 0 + varintFormatLen payloadLen +
    packetNumberFormatLen num

/-- `quic_sender_handshake_header_max_size` -/
def handshakeHeaderMaxSize : Nat :=
  1 + 4 + 1 + dst.length + 1 + src.length + varintFormatLen payloadLen + packetNumberFormatLen num

end

/-! ## packet numbers -/

theorem packetNumberFormatLen_mem (num : Nat) : packetNumberFormatLen num ∈ [1, 2, 3, 4] := by
  unfold packetNumberFormatLen
  split
  · decide
  · split
    · decide
    · split <;> decide

theorem packetNumberFormat_length {num len : Nat} (h : len ∈ [1, 2, 3, 4]) :
    (packetNumberFormat num len).length = len := by
  unfold packetNumberFormat
  simp only [List.mem_cons, List.not_mem_nil, or_false] at h
  rcases h with rfl | rfl | rfl | rfl <;> simp

theorem length_packetNumber (num : Nat) :
    (packetNumberFormat num (packetNumberFormatLen num)).length = packetNumberFormatLen num :=
  packetNumberFormat_length (packetNumberFormatLen_mem num)

/-- a number fits the bytes that it is written in -/
theorem lt_of_packetNumberFormatLen {num : Nat} (h : num < 2 ^ 32) :
    num < 256 ^ packetNumberFormatLen num := by
  unfold packetNumberFormatLen
  split_ifs <;> norm_num <;> omega

/-- A number is read back.  The one of three bytes needs a byte behind it, which is dropped. -/
theorem packetNumberR_format {first : UInt8} {num off : Nat} {a rest : List UInt8}
    (hnum : num < 2 ^ 32) (hfirst : packetNumberLen first = packetNumberFormatLen num)
    (hrest : packetNumberFormatLen num = 3 → rest ≠ []) (ha : a.length = off) :
    packetNumberR first (a ++ packetNumberFormat num (packetNumberFormatLen num) ++ rest) off =
      some num := by
  have hlt := lt_of_packetNumberFormatLen hnum
  have hlen := packetNumberFormatLen_mem num
  generalize packetNumberFormatLen num = len at hlen hlt hfirst hrest
  unfold packetNumberLen at hfirst
  unfold packetNumberR packetNumberFormat
  simp only [List.mem_cons, List.not_mem_nil, or_false] at hlen
  rcases hlen with rfl | rfl | rfl | rfl
  · rw [show (first &&& 0x03).toNat = 0 by omega]
    show (slice (a ++ [UInt8.ofNat num] ++ rest) off 1).map leNat = some num
    rw [slice_middle ha (List.length_singleton (a := UInt8.ofNat num))]
    show some (leNat (leBytes 1 num)) = some num
    rw [leNat_leBytes, Nat.mod_eq_of_lt hlt]
  · rw [show (first &&& 0x03).toNat = 1 by omega]
    show (slice (a ++ leBytes 2 (bswap 2 num) ++ rest) off 2).map _ = some num
    rw [slice_middle ha (length_leBytes 2 _), Option.map_some, leNat_leBytes_bswap, bswap_bswap hlt]
  · rw [show (first &&& 0x03).toNat = 2 by omega]
    obtain ⟨r, rest, rfl⟩ := List.exists_cons_of_ne_nil (hrest rfl)
    have hword : a ++ (leBytes 2 (bswap 2 (num >>> 8)) ++ [UInt8.ofNat num]) ++ r :: rest =
        a ++ (leBytes 2 (bswap 2 (num >>> 8)) ++ [UInt8.ofNat num, r]) ++ rest := by simp
    show (slice (a ++ (leBytes 2 (bswap 2 (num >>> 8)) ++ [UInt8.ofNat num]) ++ r :: rest) off 4).map
      _ = some num
    have hswap : bswap 4 (leNat (leBytes 2 (bswap 2 (num >>> 8)) ++ [UInt8.ofNat num, r])) =
        leNat (r :: UInt8.ofNat num :: leBytes 2 (num >>> 8)) := by
      have h := bswap_leNat (leBytes 2 (bswap 2 (num >>> 8)) ++ [UInt8.ofNat num, r])
      rw [leBytes_bswap, List.reverse_append, List.reverse_reverse] at h
      rw [leBytes_bswap]
      exact h
    have hr : r.toNat < 256 := r.toNat_lt
    rw [hword, slice_middle ha (by simp), Option.map_some, hswap, leNat, leNat, leNat_leBytes,
      UInt8.toNat_ofNat', Nat.shiftRight_eq_div_pow, Nat.shiftRight_eq_div_pow]
    congr 1
    omega
  · rw [show (first &&& 0x03).toNat = 3 by omega]
    show (slice (a ++ leBytes 4 (bswap 4 num) ++ rest) off 4).map _ = some num
    rw [slice_middle ha (length_leBytes 4 _), Option.map_some, leNat_leBytes_bswap, bswap_bswap hlt]

/-- what the first byte of a generated header says -/
structure FirstByte (long : Bool) (type : UInt8) (len : Nat) (first : UInt8) : Prop where
  form : isLong first = long
  kind : long = true → packetType first = type
  size : packetNumberLen first = len

/-- a type whose lowest bits are free, with the length of a packet number in them -/
theorem firstByte_numLen {long : Bool} {type : UInt8} (h : ∀ len ∈ [1, 2, 3, 4],
      isLong (type ||| UInt8.ofNat (len - 1)) = long ∧
        (long = true → packetType (type ||| UInt8.ofNat (len - 1)) = type) ∧
        packetNumberLen (type ||| UInt8.ofNat (len - 1)) = len) (num : Nat) :
    FirstByte long type (packetNumberFormatLen num) (type ||| numLenBits num) := by
  obtain ⟨hform, hkind, hsize⟩ := h _ (packetNumberFormatLen_mem num)
  exact ⟨hform, hkind, hsize⟩

theorem initial_firstByte (num : Nat) : FirstByte true packetInitialType
    (packetNumberFormatLen num) (packetInitialType ||| numLenBits num) :=
  firstByte_numLen (by decide) num

theorem handshake_firstByte (num : Nat) : FirstByte true packetHandshakeType
    (packetNumberFormatLen num) (packetHandshakeType ||| numLenBits num) :=
  firstByte_numLen (by decide) num

theorem short_firstByte (num : Nat) : FirstByte false packetShortType
    (packetNumberFormatLen num) (packetShortType ||| numLenBits num) :=
  firstByte_numLen (by decide) num

/-! ## sizes -/

theorem longHeaderConns_length (dst src : List UInt8) :
    (longHeaderConns dst src).length = 6 + dst.length + src.length := by
  unfold longHeaderConns
  simp only [List.length_cons, List.length_append]
  omega

section
variable {dst src : List UInt8} {num n bound : Nat} (h : n ≤ bound) (hbound : bound ≤ varintMax)
include h hbound

theorem generateInitialHeader_length_le :
    (generateInitialHeader dst src num n).length ≤ initialHeaderMaxSize dst src num bound := by
  have hmono : varintFormatLen n ≤ varintFormatLen bound := varintFormatLen_mono h hbound
  unfold generateInitialHeader initialHeaderBody initialHeaderMaxSize
  rw [List.length_append, List.length_cons, List.length_append, List.length_append,
    longHeaderConns_length, varintFormatR_length, varintFormatR_length, length_packetNumber]
  omega

theorem generateHandshakeHeader_length_le :
    (generateHandshakeHeader dst src num n).length ≤ handshakeHeaderMaxSize dst src num bound := by
  have hmono : varintFormatLen n ≤ varintFormatLen bound := varintFormatLen_mono h hbound
  unfold generateHandshakeHeader handshakeHeaderBody handshakeHeaderMaxSize
  rw [List.length_append, List.length_cons, List.length_append, longHeaderConns_length,
    varintFormatR_length, length_packetNumber]
  omega

end

/-! ## where the packet number is found -/

/-- the packet number comes right behind the first byte and `body` -/
def Framed (srcLen : Nat) (long : Bool) (type : UInt8) (body : List UInt8) : Prop :=
  ∀ first rest, isLong first = long → (long = true → packetType first = type) →
    headerPacketNumberOff (first :: body ++ rest) srcLen = some (1 + body.length)

theorem getElem?_middle {a c : List UInt8} {x : UInt8} {off : Nat} (h : a.length = off) :
    (a ++ x :: c)[off]? = some x := by
  subst h
  simp

theorem toNat_ofNat_length {l : List UInt8} (h : l.length < 256) :
    (UInt8.ofNat l.length).toNat = l.length := by
  rw [UInt8.toNat_ofNat', Nat.mod_eq_of_lt h]

section
variable {dst src : List UInt8} (hdst : dst.length < 256) (hsrc : src.length < 256) (first : UInt8)
  (rest : List UInt8)

theorem dstConnLen_conns : (first :: longHeaderConns dst src ++ rest)[longHeaderDstConnLenOff]? =
    some (UInt8.ofNat dst.length) := rfl

theorem srcConnLen_conns : (first :: longHeaderConns dst src ++ rest)[6 + dst.length]? =
    some (UInt8.ofNat src.length) := by
  have hsplit : first :: longHeaderConns dst src ++ rest =
      (first :: 0 :: 0 :: 0 :: 0 :: UInt8.ofNat dst.length :: dst) ++
        UInt8.ofNat src.length :: (src ++ rest) := by
    simp [longHeaderConns]
  rw [hsplit]
  refine getElem?_middle ?_
  simp only [List.length_cons]
  omega

include hdst

theorem longHeaderSrcConnLenOff_conns :
    longHeaderSrcConnLenOff (first :: longHeaderConns dst src ++ rest) = some (6 + dst.length) := by
  unfold longHeaderSrcConnLenOff
  rw [dstConnLen_conns]
  show some (longHeaderDstConnLenOff + 1 + (UInt8.ofNat dst.length).toNat) = _
  rw [toNat_ofNat_length hdst]
  rfl

theorem longHeaderDstConn_conns :
    longHeaderDstConn (first :: longHeaderConns dst src ++ rest) = some dst := by
  have hsplit : first :: longHeaderConns dst src ++ rest =
      [first, 0, 0, 0, 0, UInt8.ofNat dst.length] ++ dst ++
        (UInt8.ofNat src.length :: (src ++ rest)) := by
    simp [longHeaderConns]
  unfold longHeaderDstConn connAt
  rw [dstConnLen_conns]
  show slice (first :: longHeaderConns dst src ++ rest) 6 (UInt8.ofNat dst.length).toNat = some dst
  rw [toNat_ofNat_length hdst, hsplit]
  exact slice_middle rfl rfl

include hsrc

theorem longHeaderSrcConn_conns :
    longHeaderSrcConn (first :: longHeaderConns dst src ++ rest) = some src := by
  have hsplit : first :: longHeaderConns dst src ++ rest =
      (first :: 0 :: 0 :: 0 :: 0 :: UInt8.ofNat dst.length :: (dst ++ [UInt8.ofNat src.length])) ++
        src ++ rest := by
    simp [longHeaderConns]
  unfold longHeaderSrcConn connAt
  rw [longHeaderSrcConnLenOff_conns hdst]
  show ((first :: longHeaderConns dst src ++ rest)[6 + dst.length]?).bind _ = _
  rw [srcConnLen_conns]
  show slice (first :: longHeaderConns dst src ++ rest) (6 + dst.length + 1)
    (UInt8.ofNat src.length).toNat = some src
  rw [toNat_ofNat_length hsrc, hsplit]
  refine slice_middle ?_ rfl
  simp only [List.length_cons, List.length_append, List.length_nil]
  omega

theorem longHeaderPayload_conns : longHeaderPayload (first :: longHeaderConns dst src ++ rest) =
    some (1 + (longHeaderConns dst src).length) := by
  unfold longHeaderPayload
  rw [longHeaderSrcConnLenOff_conns hdst]
  show ((first :: longHeaderConns dst src ++ rest)[6 + dst.length]?).bind _ = _
  rw [srcConnLen_conns]
  show some (6 + dst.length + 1 + (UInt8.ofNat src.length).toNat) = _
  rw [toNat_ofNat_length hsrc, longHeaderConns_length]
  congr 1
  omega

end

/-- the length byte of an integer that is written behind `a` -/
theorem varintLenAt_formatR {a c : List UInt8} {v off : Nat} (hv : v ≤ varintMax)
    (h : a.length = off) : varintLenAt (a ++ varintFormatR v ++ c) off =
      some (varintFormatR v).length := by
  obtain ⟨⟨b, bs, hb, hlen⟩, _⟩ := varintR_formatR hv []
  unfold varintLenAt
  rw [varintFormatR_length, ← hlen, hb, List.append_assoc, List.cons_append, getElem?_middle h]
  rfl

theorem varintAt_formatR {a c : List UInt8} {v off : Nat} (hv : v ≤ varintMax)
    (h : a.length = off) : varintAt (a ++ varintFormatR v ++ c) off = some v := by
  have hr := (varintR_formatR hv []).2
  rw [List.append_nil] at hr
  unfold varintAt
  rw [varintLenAt_formatR hv h]
  show (slice (a ++ varintFormatR v ++ c) off (varintFormatR v).length).bind _ = _
  rw [slice_middle h rfl]
  exact congrArg some hr

/-- the empty token of an Initial header -/
theorem initialHeader_token {dst src : List UInt8} (hdst : dst.length < 256)
    (hsrc : src.length < 256) {first : UInt8} {tail p : List UInt8} {off : Nat}
    (hp : p = first :: longHeaderConns dst src ++ varintFormatR 0 ++ tail)
    (hoff : off = 1 + (longHeaderConns dst src).length) :
    longHeaderPayload p = some off ∧ varintAt p off = some 0 ∧
      varintLenAt p off = some (varintFormatR 0).length := by
  have hconns : (first :: longHeaderConns dst src).length = off := by
    rw [hoff, List.length_cons, Nat.add_comm]
  refine ⟨?_, ?_, ?_⟩
  · rw [hp, List.append_assoc, hoff]
    exact longHeaderPayload_conns hdst hsrc first _
  · rw [hp]
    exact varintAt_formatR (by decide) hconns
  · rw [hp]
    exact varintLenAt_formatR (by decide) hconns

section
variable {dst src : List UInt8} {payloadLen : Nat} (hdst : dst.length < 256)
  (hsrc : src.length < 256) (hlen : payloadLen ≤ varintMax) (srcLen : Nat)
include hdst hsrc hlen

theorem initialHeader_framed :
    Framed srcLen true packetInitialType (initialHeaderBody dst src payloadLen) := by
  intro first rest hlong htype
  have hp : first :: initialHeaderBody dst src payloadLen ++ rest =
      first :: longHeaderConns dst src ++ varintFormatR 0 ++ (varintFormatR payloadLen ++ rest) := by
    simp [initialHeaderBody]
  obtain ⟨hpay, htoken, htokenLen⟩ := initialHeader_token hdst hsrc hp rfl
  have hsplit : first :: initialHeaderBody dst src payloadLen ++ rest =
      (first :: longHeaderConns dst src ++ varintFormatR 0) ++ varintFormatR payloadLen ++ rest := by
    simp [initialHeaderBody]
  unfold headerPacketNumberOff
  show (if isLong first = true then _ else _) = _
  rw [if_pos hlong, if_pos (htype rfl), hpay]
  show (varintAt _ (1 + (longHeaderConns dst src).length)).bind _ = _
  rw [htoken]
  show (varintLenAt _ (1 + (longHeaderConns dst src).length)).bind _ = _
  rw [htokenLen]
  show (varintLenAt _ (1 + (longHeaderConns dst src).length + (varintFormatR 0).length + 0)).bind _ = _
  rw [hsplit, varintLenAt_formatR hlen (by
    rw [List.length_append, List.length_cons]
    omega)]
  show some _ = some _
  congr 1
  simp only [initialHeaderBody, List.length_append]
  omega

theorem handshakeHeader_framed :
    Framed srcLen true packetHandshakeType (handshakeHeaderBody dst src payloadLen) := by
  intro first rest hlong htype
  have hpay := longHeaderPayload_conns hdst hsrc first (varintFormatR payloadLen ++ rest)
  have hp : first :: handshakeHeaderBody dst src payloadLen ++ rest =
      first :: longHeaderConns dst src ++ (varintFormatR payloadLen ++ rest) := by
    simp [handshakeHeaderBody]
  have hsplit : first :: handshakeHeaderBody dst src payloadLen ++ rest =
      first :: longHeaderConns dst src ++ varintFormatR payloadLen ++ rest := by
    simp [handshakeHeaderBody]
  have hconns : (first :: longHeaderConns dst src).length = 1 + (longHeaderConns dst src).length :=
    Nat.add_comm _ _
  unfold headerPacketNumberOff
  show (if isLong first = true then _ else _) = _
  rw [if_pos hlong, if_neg (by rw [htype rfl]; decide), if_pos (htype rfl), hp, hpay]
  show (varintLenAt _ (1 + (longHeaderConns dst src).length)).bind _ = _
  rw [← hp, hsplit, varintLenAt_formatR hlen hconns]
  show some _ = some _
  congr 1
  simp only [handshakeHeaderBody, List.length_append]
  omega

end

theorem shortHeader_framed (dst : List UInt8) :
    Framed dst.length false packetShortType dst := by
  intro first rest hlong _
  unfold headerPacketNumberOff
  show (if isLong first = true then _ else _) = _
  rw [hlong]
  rfl

end OpenQuic
