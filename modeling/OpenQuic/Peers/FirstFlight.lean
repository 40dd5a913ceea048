import OpenQuic.Modules.HeaderRoundTrip
import OpenQuic.Modules.Nonces
import OpenQuic.Modules.SealOpen
import OpenQuic.Server.Impl

/-!
# The first flight

An Initial packet of a client creates a session on the server, and the two sides take their Initial
keys from its destination ID.

* `Ciphers`          the AEAD and the header-protection mask of the Initial packets, which are not
                     part of the repository;
* `initialSealer`    the keys that `quic_sealer_module_start` sets;
* `Understood`       what one side seals, the other one opens;
* `initialSealer_agrees`   the client and its session have the same keys, the other way round;
* `first_flight`     **the packet creates a session that opens it and every other Initial packet of
                     the client, and the client opens those of the session.**
-/

namespace OpenQuic
open Word Window

namespace FirstFlight

/-! ## Initial keys -/

/-- AES-256-GCM under a key, and the mask that a key for headers makes of 16 sampled bytes -/
structure Ciphers where
  tag : Nat
  wSeal : (key nonce plain ad : List UInt8) → Option (List UInt8)
  rOpen : (key nonce sealed ad : List UInt8) → Option (List UInt8)
  mask : (key sample : List UInt8) → Nat → UInt8

/-- what the AEAD seals is longer by the tag, and opens under the same key -/
def Ciphers.Correct (a : Ciphers) : Prop :=
  ∀ key nonce plain ad c, a.wSeal key nonce plain ad = some c →
    c.length = plain.length + a.tag ∧ a.rOpen key nonce c ad = some plain

/-- `"\x00\x20\x0dtls13 quic hp\x00"` -/
def hpInfo : List UInt8 :=
  [0x00, 0x20, 0x0d] ++ tls13 ++ [0x71, 0x75, 0x69, 0x63, 0x20, 0x68, 0x70, 0x00]

/-- `quic_sealer_set_header_protector`, for `TLS1_CK_AES_256_GCM_SHA384` -/
def setHeaderProtector (h : Hkdf) (secret : List UInt8) : List UInt8 :=
  h.expand .sha384 secret hpInfo 32

/-- the Initial sealer of `quic_sealer_module_start`, where every allocation succeeds -/
def initialSealer (a : Ciphers) (h : Hkdf) (isCli : Bool) (dst src : List UInt8) : Sealer :=
  let sec := initialComputeSecurity h true (if isCli then dst else src)
  let wSec := if isCli then sec.1 else sec.2
  let rSec := if isCli then sec.2 else sec.1
  let w := setKeyIv h .sha256 wSec 32 12
  let r := setKeyIv h .sha256 rSec 32 12
  { wSeal := a.wSeal w.key
    wTag := a.tag
    wIv := w.iv
    wMask := a.mask (setHeaderProtector h wSec)
    rOpen := a.rOpen r.key
    rTag := a.tag
    rIv := r.iv
    rMask := a.mask (setHeaderProtector h rSec) }

/-- what the sealer `w` writes is what the sealer `r` reads -/
structure Agrees (w r : Sealer) : Prop where
  iv : r.rIv = w.wIv
  tag : r.rTag = w.wTag
  mask : r.rMask = w.wMask
  opened : ∀ plain ad c, w.wSeal w.wIv plain ad = some c →
    c.length = plain.length + w.wTag ∧ r.rOpen w.wIv c ad = some plain

/-- the client with destination `d`, and the session with source `d`, whatever their other IDs are -/
theorem initialSealer_agrees {a : Ciphers} (ha : a.Correct) (h : Hkdf) (d src dst : List UInt8) :
    Agrees (initialSealer a h true d src) (initialSealer a h false dst d) ∧
      Agrees (initialSealer a h false dst d) (initialSealer a h true d src) :=
  ⟨⟨rfl, rfl, rfl, fun plain ad c hc => ha _ _ plain ad c hc⟩,
    ⟨rfl, rfl, rfl, fun plain ad c hc => ha _ _ plain ad c hc⟩⟩

/-! ## one Initial packet -/

/-- `pkt` is sealed as an Initial packet with `payload`, in a header with the IDs `dst` and `src`, and
the AEAD does not fail.  The packet number, the payload and the tag have 20 bytes together. -/
structure Sent (w : Sealer) (dst src : List UInt8) (num payloadLen : Nat) (payload : List UInt8)
    (pkt : SendPacket) : Prop where
  fits : payloadLen ≤ varintMax
  long : 20 ≤ packetNumberFormatLen num + payload.length + w.wTag
  call : ∃ old c, plaintext old.frames = some payload ∧
    w.wSeal w.wIv payload (generateInitialHeader dst src num payloadLen) = some c ∧
    old.pos = 0 ∧ old.data.length < 2 ^ 32 ∧
    sealerSeal true w old (generateInitialHeader dst src num payloadLen) dst.length =
      some (pkt, .success)

/-- the bytes that are sent -/
def datagram (pkt : SendPacket) : List UInt8 := pkt.data.take pkt.size

/-- what is sealed as an Initial packet for `dst` is opened, whatever is behind the datagram -/
def Understood (w r : Sealer) (dst src : List UInt8) : Prop :=
  ∀ num payloadLen payload pkt, Sent w dst src num payloadLen payload pkt →
    ∀ (m : Sealers) (tail : List UInt8) (srcLen : Nat), m.initial = r →
      ∃ x, sealerOpen (fun _ => true) m (datagram pkt ++ tail) pkt.size srcLen = some x ∧
        Restored (generateInitialHeader dst src num payloadLen) payload x

/-- a datagram is the masked header `h` and the sealed payload `c` -/
structure Parts {srcLen : Nat} (w : Sealer) (h : SentHeader srcLen) (c sample payload : List UInt8)
    (hdr : List UInt8) (pkt : SendPacket) : Prop where
  bytes : h.bytes = hdr
  opens : ∀ m, openSealer m h.first = some m.initial
  call : w.wSeal w.wIv payload h.bytes = some c
  fits : h.bytes.length + c.length < 2 ^ 32
  sampled : ∀ tail, sampleOf h.pnum.length (c ++ tail) = some sample
  sent : datagram pkt = h.masked (w.wMask sample) ++ c
  size : pkt.size = h.bytes.length + c.length

section
variable {w r : Sealer} {dst src payload : List UInt8} {num payloadLen : Nat} {pkt : SendPacket}
  (hdst : dst.length < 256) (hsrc : src.length < 256)
include hdst hsrc

theorem Sent.parts (hs : Sent w dst src num payloadLen payload pkt) (hw : Agrees w r)
    (srcLen : Nat) : ∃ (h : SentHeader srcLen) (c sample : List UInt8),
      h.pnum.length = packetNumberFormatLen num ∧
      Parts w h c sample payload (generateInitialHeader dst src num payloadLen) pkt := by
  obtain ⟨old, c, hpl, hc, hpos, hroom, hseal⟩ := hs.call
  -- the header, for the side that seals and for the one that opens
  obtain ⟨h, hb, hpn, _⟩ : ∃ h : SentHeader dst.length, _ :=
    (HeaderKind.initial payloadLen).exists_sentHeader num hdst hsrc hs.fits fun hk => by cases hk
  obtain ⟨h', hb', hpn', hopen⟩ : ∃ h : SentHeader srcLen, _ :=
    (HeaderKind.initial payloadLen).exists_sentHeader num hdst hsrc hs.fits fun hk => by cases hk
  have hgen : (HeaderKind.initial payloadLen).generate dst src num =
      generateInitialHeader dst src num payloadLen := rfl
  rw [hgen] at hb hb'
  rw [← hb] at hc hseal
  have hclen := (hw.opened payload h.bytes c hc).1
  have hbb : h.bytes = h'.bytes := hb.trans hb'.symm
  have hpp : h.pnum.length = h'.pnum.length := hpn.trans hpn'.symm
  -- the buffer of the sender, split behind the datagram
  have hfits : h.bytes.length + c.length ≤ old.data.length := by
    by_contra hlt
    rw [sealerSeal_none h hpl hc (Nat.lt_of_not_le hlt)] at hseal
    cases hseal
  obtain ⟨front, rest, hsplit, hfront⟩ : ∃ front rest, old.data = front ++ rest ∧
      front.length = h.bytes.length + c.length :=
    ⟨_, _, (List.take_append_drop (h.bytes.length + c.length) _).symm, by
      rw [List.length_take, Nat.min_eq_left hfits]⟩
  rw [sealerSeal_spec h hpos hpl hc hsplit hfront] at hseal
  have hlong := hs.long
  obtain ⟨sample, hsample⟩ := sampleOf_append h.pnum_length.2 (c := c) (by omega)
  rw [hsample rest, Option.map_some] at hseal
  obtain ⟨rfl, _⟩ := Prod.mk.inj (Option.some.inj hseal)
  refine ⟨h', c, sample, hpn', hb', hopen, hbb ▸ hc, ?_, hpp ▸ hsample, ?_, ?_⟩
  · rw [← hbb]
    exact Nat.lt_of_le_of_lt hfits hroom
  · show (h.masked (w.wMask sample) ++ c ++ rest).take (h.bytes.length + c.length - 0) = _
    rw [Nat.sub_zero, ← h.length_masked (w.wMask sample), ← List.length_append, List.take_left,
      h.masked_congr hbb hpp]
  · rw [← hbb]
    exact Nat.sub_zero _

theorem Agrees.understood (hw : Agrees w r) : Understood w r dst src := by
  intro num payloadLen payload pkt hs m tail srcLen hm
  obtain ⟨h, c, sample, _, hp⟩ := hs.parts hdst hsrc hw srcLen
  obtain ⟨hclen, hopened⟩ := hw.opened payload h.bytes c hp.call
  have hfits := hp.fits
  have hinit := hp.opens m
  rw [hm] at hinit
  obtain ⟨rest, hopen⟩ := sealerOpen_masked h hinit tail (hp.sampled tail)
    (by rw [hw.iv]; exact hopened) (by rw [hw.tag]; exact hclen) (by omega)
  rw [hw.mask] at hopen
  refine ⟨_, by rw [hp.sent, hp.size]; exact hopen, rfl, by rw [hp.bytes], ?_⟩
  show (h.bytes ++ payload ++ rest).take (h.bytes.length + payload.length) = _
  rw [← List.length_append, List.take_left, hp.bytes]

/-- the mask leaves the type and the IDs of a packet as they are -/
theorem Sent.reads (hs : Sent w dst src num payloadLen payload pkt) (hw : Agrees w r) :
    (∃ first, (datagram pkt)[0]? = some first ∧ packetType first = packetInitialType) ∧
      longHeaderDstConn (datagram pkt) = some dst ∧ longHeaderSrcConn (datagram pkt) = some src := by
  obtain ⟨h, c, sample, hpn, hp⟩ := hs.parts hdst hsrc hw 0
  obtain ⟨hform, hkind, _⟩ := initial_firstByte num
  have hbytes : h.first :: h.body ++ h.pnum =
      (packetInitialType ||| numLenBits num) :: initialHeaderBody dst src payloadLen ++
        packetNumberFormat num (packetNumberFormatLen num) := hp.bytes
  obtain ⟨hfront, _⟩ := List.append_inj' hbytes (hpn.trans (length_packetNumber num).symm)
  obtain ⟨hfirst, hbody⟩ := List.cons.inj hfront
  have hdatagram : datagram pkt = applyFirstByte (w.wMask sample) h.first :: longHeaderConns dst src ++
      (varintFormatR 0 ++ varintFormatR payloadLen ++
        xorBytes (fun i => w.wMask sample (i + 1)) h.pnum ++ c) := by
    rw [hp.sent, SentHeader.masked, hbody]
    simp [initialHeaderBody]
  rw [← hfirst] at hform hkind
  rw [hdatagram]
  refine ⟨⟨_, rfl, ?_⟩, longHeaderDstConn_conns hdst _ _, longHeaderSrcConn_conns hdst hsrc _ _⟩
  rw [applyFirstByte_kind _ hform, hkind rfl]

end

/-- **The first flight.**  Whatever state the server is in, an Initial packet of a client creates a
session with it.  The session opens every Initial packet of the client, and the client every Initial
packet of the session. -/
theorem first_flight {a : Ciphers} (ha : a.Correct) (h : Hkdf) {dst src : List UInt8}
    (hdst : dst.length < 256) (hsrc : src.length < 256) {num payloadLen : Nat}
    {payload : List UInt8} {pkt : SendPacket}
    (hs : Sent (initialSealer a h true dst src) dst src num payloadLen payload pkt) (s : Server) :
    ∃ s' c, s.recvCb .ok (datagram pkt) = some s' ∧ s'.live.find s.next = some c ∧
      c.queued = [datagram pkt] ∧
      Understood (initialSealer a h true dst src)
        (initialSealer a h false c.ids.dst.bytes c.ids.src.bytes) dst src ∧
      Understood (initialSealer a h false c.ids.dst.bytes c.ids.src.bytes)
        (initialSealer a h true dst src) c.ids.dst.bytes c.ids.src.bytes := by
  obtain ⟨hcli, hses⟩ := initialSealer_agrees ha h dst src src
  obtain ⟨⟨first, hfirst, htype⟩, hd, hsr⟩ := hs.reads hdst hsrc hcli
  have hrecv : s.recvCb .ok (datagram pkt) = some { s with
      live := s.live.insert s.next ⟨Connids.create s.connidLen ⟨dst⟩ src, false, [datagram pkt]⟩
      next := s.next + 1 } := by
    unfold Server.recvCb
    rw [hfirst, Option.bind_eq_bind, Option.bind_some, if_pos htype, hd, hsr]
    rfl
  refine ⟨_, _, hrecv, OrdMap.find_insert_self _ _ _, rfl, hcli.understood hdst hsrc, ?_⟩
  exact hses.understood hsrc hdst

/-! ### a first flight -/

/-- an AEAD that hides nothing, and no mask -/
def clearCiphers : Ciphers where
  tag := 16
  wSeal := fun _ _ plain _ => some (plain ++ List.replicate 16 0)
  rOpen := fun _ _ c _ => some (c.take (c.length - 16))
  mask := fun _ _ _ => 0

theorem clearCiphers_correct : clearCiphers.Correct := by
  intro key nonce plain ad c hc
  cases hc
  refine ⟨by simp [clearCiphers], ?_⟩
  show some ((plain ++ List.replicate 16 0).take ((plain ++ List.replicate 16 0).length - 16)) = _
  simp

/-- HKDF that returns zeros -/
def zeroHkdf : Hkdf := ⟨fun _ _ _ => [], fun _ _ _ n => List.replicate n 0⟩

/-- three PINGs in a buffer of 100 bytes -/
def pings : SendPacket :=
  ⟨0, 0, false, .initial, List.replicate 3 (Frame.init 0x01 .ping), List.replicate 100 0, 0, 100⟩

def sealedPings : Option (SendPacket × Err) :=
  sealerSeal true (initialSealer clearCiphers zeroHkdf true [1, 2] [3]) pings
    (generateInitialHeader [1, 2] [3] 0 20) 2

theorem first_flight_pings : ∃ pkt, sealedPings = some (pkt, .success) ∧
    ∃ s' c, Server.init.recvCb .ok (datagram pkt) = some s' ∧ s'.live.find 0 = some c ∧
      c.queued = [datagram pkt] ∧
      Understood (initialSealer clearCiphers zeroHkdf true [1, 2] [3])
        (initialSealer clearCiphers zeroHkdf false c.ids.dst.bytes c.ids.src.bytes) [1, 2] [3] ∧
      Understood (initialSealer clearCiphers zeroHkdf false c.ids.dst.bytes c.ids.src.bytes)
        (initialSealer clearCiphers zeroHkdf true [1, 2] [3]) c.ids.dst.bytes c.ids.src.bytes := by
  have hsome : sealedPings.map Prod.snd = some .success := by decide +kernel
  obtain ⟨⟨pkt, e⟩, hpkt, he⟩ := Option.map_eq_some_iff.mp hsome
  cases he
  have hs : Sent (initialSealer clearCiphers zeroHkdf true [1, 2] [3]) [1, 2] [3] 0 20
      [0x01, 0x01, 0x01] pkt :=
    ⟨by decide, by decide, pings, [0x01, 0x01, 0x01] ++ List.replicate 16 0, by decide +kernel, rfl,
      rfl, by decide, hpkt⟩
  exact ⟨pkt, hpkt, first_flight clearCiphers_correct zeroHkdf (by decide) (by decide) hs
    Server.init⟩

end FirstFlight
end OpenQuic
