import OpenQuic.Modules.Sealer
import OpenQuic.Modules.SendHeader

/-!
# Sealing and opening

* `Keyed`             the two sides hold the same keys;
* `sealerSeal_spec`, `sealerOpen_masked`   the datagram that is sealed, and what is made of it;
* `SealOpen`         opening a sealed datagram restores the header and the plaintext;
* `sealOpen_iff`     it does if and only if the sampled bytes lie inside the datagram: packet number,
                      plaintext and tag together have at least 20 bytes.
-/

namespace OpenQuic
open Word Window

/-! ## the mask on the first byte -/

theorem packetType_xor (b m : UInt8) : packetType (b ^^^ (m &&& 0x0f)) = packetType b :=
  xor_and_disjoint (by decide) b m

theorem isLong_xor {j : UInt8} (h : j &&& 0x80 = 0) (b m : UInt8) :
    isLong (b ^^^ (m &&& j)) = isLong b := by
  unfold isLong
  rw [xor_and_disjoint h]

theorem applyFirstByte_form (mask : Nat → UInt8) (b : UInt8) :
    isLong (applyFirstByte mask b) = isLong b := by
  unfold applyFirstByte
  split
  · exact isLong_xor (by decide) b _
  · exact isLong_xor (by decide) b _

theorem applyFirstByte_kind (mask : Nat → UInt8) {b : UInt8} (h : isLong b = true) :
    packetType (applyFirstByte mask b) = packetType b := by
  unfold applyFirstByte
  rw [if_pos h]
  exact packetType_xor b _

theorem applyFirstByte_applyFirstByte (mask : Nat → UInt8) (b : UInt8) :
    applyFirstByte mask (applyFirstByte mask b) = b := by
  have hform := applyFirstByte_form mask b
  rw [applyFirstByte.eq_1 mask (applyFirstByte mask b), hform]
  unfold applyFirstByte
  split <;> rw [UInt8.xor_assoc, UInt8.xor_self, UInt8.xor_zero]

theorem openSealer_applyFirstByte (m : Sealers) (mask : Nat → UInt8) (b : UInt8) :
    openSealer m (applyFirstByte mask b) = openSealer m b := by
  unfold openSealer
  rw [applyFirstByte_form]
  split
  · rename_i h
    rw [applyFirstByte_kind mask h]
  · rfl

/-! ## a header and its mask -/

/-- a header that ends with its packet number, and in which the number is found -/
structure SentHeader (srcLen : Nat) where
  first : UInt8
  body : List UInt8
  pnum : List UInt8
  type : UInt8
  size : packetNumberLen first = pnum.length
  kind : isLong first = true → packetType first = type
  framed : Framed srcLen (isLong first) type body

namespace SentHeader
variable {srcLen : Nat} (h : SentHeader srcLen)

def bytes : List UInt8 := h.first :: h.body ++ h.pnum

def masked (mask : Nat → UInt8) : List UInt8 :=
  applyFirstByte mask h.first :: h.body ++ xorBytes (fun i => mask (i + 1)) h.pnum

theorem length_bytes : h.bytes.length = 1 + h.body.length + h.pnum.length := by
  rw [bytes, List.length_append, List.length_cons]
  omega

@[simp] theorem length_masked (mask : Nat → UInt8) : (h.masked mask).length = h.bytes.length := by
  simp [masked, bytes]

theorem pnum_length : 1 ≤ h.pnum.length ∧ h.pnum.length ≤ 4 := by
  rw [← h.size, packetNumberLen]
  have hle : (h.first &&& 0x03).toNat ≤ 3 := by
    rw [UInt8.toNat_and]
    exact Nat.and_le_right
  omega

/-- the packet number of a masked header is found where it is -/
theorem masked_pnumOff (mask : Nat → UInt8) (rest : List UInt8) :
    headerPacketNumberOff (h.masked mask ++ rest) srcLen = some (1 + h.body.length) := by
  rw [masked, List.append_assoc]
  exact h.framed _ _ (applyFirstByte_form mask h.first) fun hl => by
    rw [applyFirstByte_kind mask hl, h.kind hl]

theorem bytes_pnumOff : headerPacketNumberOff h.bytes srcLen = some (1 + h.body.length) :=
  h.framed _ _ rfl h.kind

/-- masking the header of a buffer -/
theorem mask_bytes (mask : Nat → UInt8) (rest : List UInt8) :
    applyPacketNumber mask (applyFirstByte mask h.first :: (h.bytes ++ rest).tail)
      (1 + h.body.length) (packetNumberLen h.first) = some (h.masked mask ++ rest) := by
  have hsplit : applyFirstByte mask h.first :: (h.bytes ++ rest).tail =
      (applyFirstByte mask h.first :: h.body) ++ h.pnum ++ rest := by
    simp [bytes]
  rw [applyPacketNumber, hsplit, h.size]
  exact xorAt_middle _ (by rw [List.length_cons, Nat.add_comm]) rfl

/-- and taking the mask off -/
theorem unmask_bytes (mask : Nat → UInt8) (rest : List UInt8) :
    applyPacketNumber mask (applyFirstByte mask (applyFirstByte mask h.first) ::
      (h.masked mask ++ rest).tail) (1 + h.body.length) (packetNumberLen h.first) =
      some (h.bytes ++ rest) := by
  have hsplit : applyFirstByte mask (applyFirstByte mask h.first) :: (h.masked mask ++ rest).tail =
      (h.first :: h.body) ++ xorBytes (fun i => mask (i + 1)) h.pnum ++ rest := by
    rw [applyFirstByte_applyFirstByte]
    simp [masked]
  rw [applyPacketNumber, hsplit, h.size, xorAt_middle _ (by rw [List.length_cons, Nat.add_comm])
    (length_xorBytes _ _), xorBytes_xorBytes]
  rfl

/-- the mask of a header depends on its bytes only -/
theorem masked_congr {srcLen' : Nat} {h' : SentHeader srcLen'} (hb : h.bytes = h'.bytes)
    (hp : h.pnum.length = h'.pnum.length) (mask : Nat → UInt8) : h.masked mask = h'.masked mask := by
  obtain ⟨h1, h2⟩ := List.append_inj' hb hp
  obtain ⟨h3, h4⟩ := List.cons.inj h1
  rw [masked, masked, h2, h3, h4]

end SentHeader

/-! ## sealing -/

/-- the two sides hold the same keys: the AEAD opens what it has sealed -/
structure Keyed (w r : Sealer) : Prop where
  iv : r.rIv = w.wIv
  tag : r.rTag = w.wTag
  mask : r.rMask = w.wMask
  sealed : ∀ plain ad, ∃ c, w.wSeal w.wIv plain ad = some c ∧ c.length = plain.length + w.wTag ∧
    r.rOpen r.rIv c ad = some plain

/-- the 16 bytes that are sampled behind a header, in what follows it -/
def sampleOf (pnumSize : Nat) (rest : List UInt8) : Option (List UInt8) :=
  slice rest (4 - pnumSize) 16

theorem slice_sample {srcLen : Nat} (h : SentHeader srcLen) {front rest : List UInt8} {off : Nat}
    (hfront : front.length = h.bytes.length) (hoff : off = 1 + h.body.length + 4) :
    slice (front ++ rest) off 16 = sampleOf h.pnum.length rest := by
  have hlen := h.length_bytes
  have hpn := h.pnum_length
  unfold sampleOf
  by_cases hle : 4 - h.pnum.length + 16 ≤ rest.length
  · obtain ⟨a, b, c, rfl, ha, hb⟩ := exists_split hle
    rw [slice_middle ha hb, List.append_assoc, ← List.append_assoc, ← List.append_assoc]
    refine slice_middle ?_ hb
    rw [List.length_append]
    omega
  · rw [slice, slice, if_neg hle, if_neg]
    rw [List.length_append]
    omega

section
variable {srcLen : Nat} (h : SentHeader srcLen) {s : Sealer} {pkt : SendPacket}
  {payload c : List UInt8} (hpos : pkt.pos = 0) (hpl : plaintext pkt.frames = some payload)
  (hc : s.wSeal s.wIv payload h.bytes = some c)
include hpos hpl hc

/-- **What is sealed**, in a buffer with room for it: the masked header and the sealed payload.  The
sample is taken from whatever is behind the header. -/
theorem sealerSeal_spec {old tail : List UInt8} (hdata : pkt.data = old ++ tail)
    (hold : old.length = h.bytes.length + c.length) :
    sealerSeal true s pkt h.bytes srcLen = (sampleOf h.pnum.length (c ++ tail)).map fun sample =>
      ({ pkt with
        data := h.masked (s.wMask sample) ++ c ++ tail
        pos := 0
        last := h.bytes.length + c.length }, .success) := by
  have hlen := h.length_bytes
  obtain ⟨old1, old2, rfl, h1, h2⟩ : ∃ old1 old2, old = old1 ++ old2 ∧
      old1.length = h.bytes.length ∧ old2.length = c.length := by
    refine ⟨old.take h.bytes.length, old.drop h.bytes.length, (List.take_append_drop _ _).symm, ?_, ?_⟩
    · rw [List.length_take]
      omega
    · rw [List.length_drop]
      omega
  have hstore : store pkt.data h.bytes.length c = some (old1 ++ c ++ tail) := by
    rw [hdata]
    exact store_middle h1 h2
  have hoff : 0 + h.bytes.length - packetNumberLen h.first + 4 = 1 + h.body.length + 4 := by
    rw [h.size]
    omega
  have hfirst : h.bytes[0]? = some h.first := rfl
  have hslice : slice (old1 ++ c ++ tail) (1 + h.body.length + 4) 16 =
      sampleOf h.pnum.length (c ++ tail) := by
    rw [List.append_assoc, slice_sample h h1 rfl]
  simp only [sealerSeal, h.bytes_pnumOff, hfirst, hpl, hc, hstore, hoff, hslice, hpos,
    Option.bind_eq_bind, Option.bind_some, Option.getD_some, Bool.not_true, Bool.false_eq_true,
    if_false]
  cases sampleOf h.pnum.length (c ++ tail) with
  | none => rfl
  | some sample =>
    have hmask := h.mask_bytes (s.wMask sample) []
    rw [List.append_nil, List.append_nil] at hmask
    have hstore' : store (old1 ++ c ++ tail) 0 (h.masked (s.wMask sample)) =
        some (h.masked (s.wMask sample) ++ c ++ tail) := by
      rw [List.append_assoc, List.append_assoc]
      exact store_middle (a := []) rfl (by rw [h1, h.length_masked])
    simp only [hmask, hstore', Option.bind_some, Option.map_some, Nat.zero_add, h.length_masked]
    rfl

omit hpos in
/-- a buffer without room for the packet -/
theorem sealerSeal_none (hlt : pkt.data.length < h.bytes.length + c.length) :
    sealerSeal true s pkt h.bytes srcLen = none := by
  have hfirst : h.bytes[0]? = some h.first := rfl
  have hstore : store pkt.data h.bytes.length c = none := if_neg (by omega)
  simp only [sealerSeal, h.bytes_pnumOff, hfirst, hpl, hc, hstore, Option.bind_eq_bind,
    Option.bind_some, Option.bind_none, Option.getD_some, Bool.not_true, Bool.false_eq_true,
    if_false]

end

/-! ## opening -/

section
variable {srcLen : Nat} (h : SentHeader srcLen) {r : Sealer} {m : Sealers}
  (hm : openSealer m h.first = some r)
include hm

/-- **What is opened**, where the sample is the one that the sender took. -/
theorem sealerOpen_masked {sample c payload : List UInt8} (tail : List UInt8)
    (hsample : sampleOf h.pnum.length (c ++ tail) = some sample)
    (hopen : r.rOpen r.rIv c h.bytes = some payload) (hc : c.length = payload.length + r.rTag)
    (hlt : h.bytes.length + c.length < 2 ^ 64) :
    ∃ rest, sealerOpen (fun _ => true) m (h.masked (r.rMask sample) ++ c ++ tail)
      (h.bytes.length + c.length) srcLen =
        some (h.bytes ++ payload ++ rest, h.bytes.length + payload.length, .success) := by
  have hlen := h.length_bytes
  have hfirst : (h.masked (r.rMask sample) ++ c ++ tail)[0]? =
      some (applyFirstByte (r.rMask sample) h.first) := rfl
  obtain ⟨c1, c2, rfl, hc1⟩ : ∃ c1 c2, c = c1 ++ c2 ∧ c1.length = payload.length :=
    ⟨c.take payload.length, c.drop payload.length, (List.take_append_drop _ _).symm, by
      rw [List.length_take]
      omega⟩
  refine ⟨c2 ++ tail, ?_⟩
  have hmask := h.unmask_bytes (r.rMask sample) ((c1 ++ c2) ++ tail)
  rw [← List.append_assoc] at hmask
  have hoff := h.masked_pnumOff (r.rMask sample) ((c1 ++ c2) ++ tail)
  rw [← List.append_assoc] at hoff
  have hslice : slice (h.masked (r.rMask sample) ++ (c1 ++ c2) ++ tail) (1 + h.body.length + 4) 16 =
      some sample := by
    rw [List.append_assoc, slice_sample h (h.length_masked _) rfl, hsample]
  have hhdr : 1 + h.body.length + packetNumberLen h.first = h.bytes.length := by
    rw [h.size, hlen]
  have hsize : sub64 (h.bytes.length + (c1 ++ c2).length) h.bytes.length = (c1 ++ c2).length := by
    rw [sub64_of_le (Nat.le_add_right _ _) hlt, Nat.add_sub_cancel_left]
  have hopened : openSealer m (applyFirstByte (r.rMask sample) h.first) = some r := by
    rw [openSealer_applyFirstByte, hm]
  have had : slice (h.bytes ++ (c1 ++ c2 ++ tail)) 0 h.bytes.length = some h.bytes :=
    slice_middle (a := []) rfl rfl
  have hsealed : slice (h.bytes ++ (c1 ++ c2 ++ tail)) h.bytes.length (c1 ++ c2).length =
      some (c1 ++ c2) := by
    rw [← List.append_assoc]
    exact slice_middle rfl rfl
  have hstore : store (h.bytes ++ (c1 ++ c2 ++ tail)) h.bytes.length payload =
      some (h.bytes ++ payload ++ (c2 ++ tail)) := by
    rw [List.append_assoc, ← List.append_assoc]
    exact store_middle rfl hc1
  have hret : sub64 (h.bytes.length + (c1 ++ c2).length) r.rTag =
      h.bytes.length + payload.length := by
    rw [sub64_of_le (by omega) hlt]
    omega
  simp only [sealerOpen, hfirst, hopened, hoff, hslice, applyFirstByte_applyFirstByte, hhdr, hsize,
    Option.bind_eq_bind, Option.bind_some, Bool.not_true, Bool.false_eq_true, if_false]
  rw [applyFirstByte_applyFirstByte] at hmask
  simp only [hmask, had, hsealed, hopen, hstore, hret, Option.bind_some, Option.getD_some]
  rfl

end

/-- opening leaves the first byte behind that its own sample gives -/
theorem sealerOpen_first {m : Sealers} {r : Sealer} {first : UInt8} {rest sample : List UInt8}
    {ret srcLen pnumOff : Nat} {x : List UInt8 × Nat × Err} (hm : openSealer m first = some r)
    (hoff : headerPacketNumberOff (first :: rest) srcLen = some (1 + pnumOff))
    (hsample : slice (first :: rest) (1 + pnumOff + 4) 16 = some sample)
    (h : sealerOpen (fun _ => true) m (first :: rest) ret srcLen = some x) :
    x.1[0]? = some (applyFirstByte (r.rMask sample) first) := by
  have hstore : ∀ {p q bytes : List UInt8} {off : Nat}, store p (1 + off) bytes = some q →
      q[0]? = p[0]? := by
    intro p q bytes off hq
    unfold store at hq
    split at hq
    · rename_i hle
      rw [← Option.some.inj hq]
      cases p with
      | nil => simp at hle
      | cons b p => simp [Nat.add_comm 1 off]
    · cases hq
  have hxor : ∀ {p q : List UInt8} {mask : Nat → UInt8} {off len : Nat},
      applyPacketNumber mask p (1 + off) len = some q → q[0]? = p[0]? := by
    intro p q mask off len hq
    obtain ⟨b, _, hq⟩ := Option.bind_eq_some_iff.mp hq
    exact hstore hq
  have hfirst : (first :: rest)[0]? = some first := rfl
  simp only [sealerOpen, hfirst, hm, hoff, hsample, Option.bind_eq_bind, Option.bind_some,
    Bool.not_true, Bool.false_eq_true, if_false] at h
  obtain ⟨buf, hbuf, h⟩ := Option.bind_eq_some_iff.mp h
  obtain ⟨ad, _, h⟩ := Option.bind_eq_some_iff.mp h
  obtain ⟨sealed, _, h⟩ := Option.bind_eq_some_iff.mp h
  obtain ⟨buf', hbuf', h⟩ := Option.bind_eq_some_iff.mp h
  rw [← Option.some.inj h]
  rw [Nat.add_assoc] at hbuf'
  exact (hstore hbuf').trans (hxor hbuf)

/-! ## the round trip -/

/-- the headers that the sender generates; a long one has the length of the payload -/
inductive HeaderKind where
  | initial (payloadLen : Nat)
  | handshake (payloadLen : Nat)
  | short
  deriving DecidableEq

namespace HeaderKind

def sealer (m : Sealers) : HeaderKind → Sealer
  | .initial _ => m.initial
  | .handshake _ => m.handshake
  | .short => m.app

def generate (dst src : List UInt8) (num : Nat) : HeaderKind → List UInt8
  | .initial payloadLen => generateInitialHeader dst src num payloadLen
  | .handshake payloadLen => generateHandshakeHeader dst src num payloadLen
  | .short => generateShortHeader dst num

def Fits : HeaderKind → Prop
  | .initial payloadLen => payloadLen ≤ varintMax
  | .handshake payloadLen => payloadLen ≤ varintMax
  | .short => True

variable {dst src : List UInt8} (num : Nat) (hdst : dst.length < 256) (hsrc : src.length < 256)
include hdst hsrc

/-- a generated header, for a side that knows the length of the ID in a short one -/
theorem exists_sentHeader (kind : HeaderKind) (hfits : kind.Fits) {srcLen : Nat}
    (hlen : kind = .short → srcLen = dst.length) : ∃ h : SentHeader srcLen,
      h.bytes = kind.generate dst src num ∧ h.pnum.length = packetNumberFormatLen num ∧
        ∀ m, openSealer m h.first = some (kind.sealer m) := by
  have hpn : (packetNumberFormat num (packetNumberFormatLen num)).length =
      packetNumberFormatLen num := length_packetNumber num
  cases kind with
  | initial payloadLen =>
    obtain ⟨hform, hkind, hsize⟩ := initial_firstByte num
    refine ⟨⟨_, initialHeaderBody dst src payloadLen, _, packetInitialType, hsize.trans hpn.symm,
      fun _ => hkind rfl, ?_⟩, rfl, hpn, fun m => ?_⟩
    · rw [hform]
      exact initialHeader_framed hdst hsrc hfits srcLen
    · unfold openSealer
      rw [if_pos hform, if_pos (hkind rfl)]
      rfl
  | handshake payloadLen =>
    obtain ⟨hform, hkind, hsize⟩ := handshake_firstByte num
    refine ⟨⟨_, handshakeHeaderBody dst src payloadLen, _, packetHandshakeType,
      hsize.trans hpn.symm, fun _ => hkind rfl, ?_⟩, rfl, hpn, fun m => ?_⟩
    · rw [hform]
      exact handshakeHeader_framed hdst hsrc hfits srcLen
    · unfold openSealer
      rw [if_pos hform, if_neg (by rw [hkind rfl]; decide), if_pos (hkind rfl)]
      rfl
  | short =>
    obtain ⟨hform, _, hsize⟩ := short_firstByte num
    refine ⟨⟨_, dst, _, packetShortType, hsize.trans hpn.symm, fun hl => ?_, ?_⟩, rfl, hpn,
      fun m => ?_⟩
    · rw [hform] at hl
      cases hl
    · rw [hform, hlen rfl]
      exact shortHeader_framed dst
    · unfold openSealer
      rw [if_neg (by rw [hform]; exact Bool.false_ne_true)]
      rfl

/-- a header is not longer than 600 bytes -/
theorem generate_length_le (kind : HeaderKind) : (kind.generate dst src num).length ≤ 600 := by
  have hpn : (packetNumberFormat num (packetNumberFormatLen num)).length =
      packetNumberFormatLen num := length_packetNumber num
  have hle : packetNumberFormatLen num ≤ 4 := by
    unfold packetNumberFormatLen
    split_ifs <;> omega
  have hvar : ∀ v, (varintFormatR v).length ≤ 8 := by
    intro v
    rw [varintFormatR_length]
    exact varintFormatLen_le v
  cases kind with
  | initial payloadLen =>
    have h0 := hvar 0
    have h1 := hvar payloadLen
    simp only [generate, generateInitialHeader, initialHeaderBody, longHeaderConns,
      List.length_append, List.length_cons]
    omega
  | handshake payloadLen =>
    have h1 := hvar payloadLen
    simp only [generate, generateHandshakeHeader, handshakeHeaderBody, longHeaderConns,
      List.length_append, List.length_cons]
    omega
  | short =>
    simp only [generate, generateShortHeader, List.length_append, List.length_cons]
    omega

end HeaderKind

/-- the header and the plaintext are back, and the packet ends with them -/
def Restored (hdr payload : List UInt8) (x : List UInt8 × Nat × Err) : Prop :=
  x.2.2 = .success ∧ x.2.1 = hdr.length + payload.length ∧ x.1.take x.2.1 = hdr ++ payload

/-- Whatever keys the two sides share, and whatever is in their buffers beside the datagram, opening
what was sealed restores it. -/
def SealOpen (tag : Nat) (kind : HeaderKind) (dst src : List UInt8) (num : Nat)
    (frames : List Frame) (payload : List UInt8) : Prop :=
  ∀ (w : Sealer) (m : Sealers), w.wTag = tag → Keyed w (kind.sealer m) →
    ∀ pkt pkt' : SendPacket, pkt.frames = frames → pkt.pos = 0 → pkt.data.length < 2 ^ 32 →
      sealerSeal true w pkt (kind.generate dst src num) dst.length = some (pkt', .success) →
    ∀ (tail : List UInt8) (srcLen : Nat), (kind = .short → srcLen = dst.length) →
      ∃ x, sealerOpen (fun _ => true) m (pkt'.data.take pkt'.size ++ tail) pkt'.size srcLen = some x ∧
        Restored (kind.generate dst src num) payload x

/-- a sample inside the sealed bytes -/
theorem sampleOf_append {pnumSize : Nat} {c : List UInt8} (hp : pnumSize ≤ 4)
    (h : 20 ≤ pnumSize + c.length) :
    ∃ sample, ∀ tail, sampleOf pnumSize (c ++ tail) = some sample := by
  have hroom : 4 - pnumSize + 16 ≤ c.length := by omega
  obtain ⟨a, b, e, rfl, ha, hb⟩ := exists_split hroom
  refine ⟨b, fun tail => ?_⟩
  rw [sampleOf, List.append_assoc]
  exact slice_middle ha hb

section
variable {tag num : Nat} {kind : HeaderKind} {dst src payload : List UInt8} {frames : List Frame}
  (hdst : dst.length < 256) (hsrc : src.length < 256) (hfits : kind.Fits)
  (hpl : plaintext frames = some payload)
include hdst hsrc hfits hpl

theorem sealOpen_of_long (hlong : 20 ≤ packetNumberFormatLen num + payload.length + tag) :
    SealOpen tag kind dst src num frames payload := by
  intro w m htag hkeyed pkt pkt' hframes hpos hdata hseal tail srcLen hlen
  obtain ⟨h, hb, hpn, _⟩ := kind.exists_sentHeader num hdst hsrc hfits (fun _ => rfl)
  obtain ⟨h', hb', hpn', hopen⟩ := kind.exists_sentHeader num hdst hsrc hfits hlen
  rw [← hb] at hseal
  subst hframes
  obtain ⟨c, hc, hclen, hcopen⟩ := hkeyed.sealed payload h.bytes
  -- the buffer of the sender, split behind the datagram
  have hroom : h.bytes.length + c.length ≤ pkt.data.length := by
    by_contra hlt
    rw [sealerSeal_none h hpl hc (Nat.lt_of_not_le hlt)] at hseal
    cases hseal
  obtain ⟨old, rest, hsplit, hold⟩ : ∃ old rest, pkt.data = old ++ rest ∧
      old.length = h.bytes.length + c.length :=
    ⟨_, _, (List.take_append_drop (h.bytes.length + c.length) _).symm, by
      rw [List.length_take, Nat.min_eq_left hroom]⟩
  rw [sealerSeal_spec h hpos hpl hc hsplit hold] at hseal
  obtain ⟨sample, hsample⟩ := sampleOf_append h.pnum_length.2
    (c := c) (by rw [hpn, hclen, htag]; omega)
  rw [hsample rest, Option.map_some] at hseal
  obtain ⟨hpkt, _⟩ := Prod.mk.inj (Option.some.inj hseal)
  have hdatagram : pkt'.data.take pkt'.size = h.masked (w.wMask sample) ++ c := by
    rw [← hpkt]
    show (h.masked (w.wMask sample) ++ c ++ rest).take (h.bytes.length + c.length - 0) = _
    rw [Nat.sub_zero, ← h.length_masked (w.wMask sample), ← List.length_append, List.take_left]
  have hsize : pkt'.size = h'.bytes.length + c.length := by
    rw [← hpkt, hb', ← hb]
    exact Nat.sub_zero _
  rw [hdatagram, hsize, h.masked_congr (hb.trans hb'.symm) (hpn.trans hpn'.symm), ← hkeyed.mask]
  obtain ⟨back, hback⟩ := sealerOpen_masked h' (hopen m) tail
    (by rw [hpn', ← hpn]; exact hsample tail) (by rw [hb', ← hb]; exact hcopen)
    (hclen.trans (by rw [hkeyed.tag])) (by rw [hb', ← hb]; omega)
  refine ⟨_, hback, rfl, by rw [hb'], ?_⟩
  show (h'.bytes ++ payload ++ back).take (h'.bytes.length + payload.length) = _
  rw [← List.length_append, List.take_left, hb']

end

/-! ### a sample that ends behind the datagram -/

/-- keys for an AEAD that hides nothing, and a mask that is the last sampled byte -/
def clearSealer (tag : Nat) : Sealer where
  wSeal := fun _ plain _ => some (plain ++ List.replicate tag 0)
  wTag := tag
  wIv := []
  wMask := fun sample _ => sample.getD 15 0
  rOpen := fun _ sealed _ => some (sealed.take (sealed.length - tag))
  rTag := tag
  rIv := []
  rMask := fun sample _ => sample.getD 15 0

theorem clearSealer_keyed (tag : Nat) : Keyed (clearSealer tag) (clearSealer tag) := by
  refine ⟨rfl, rfl, rfl, fun plain ad => ⟨_, rfl, ?_, ?_⟩⟩
  · rw [List.length_append, List.length_replicate]
    rfl
  · show some ((plain ++ List.replicate tag 0).take _) = some plain
    rw [List.length_append, List.length_replicate, Nat.add_sub_cancel, List.take_left]

theorem sampleOf_last {pnumSize : Nat} {c : List UInt8} (hp : pnumSize ≤ 4)
    (h : pnumSize + c.length < 20) (b : UInt8) : ∃ sample,
      sampleOf pnumSize (c ++ List.replicate 20 b) = some sample ∧ sample.getD 15 0 = b := by
  refine ⟨_, if_pos ?_, ?_⟩
  · rw [List.length_append, List.length_replicate]
    omega
  · rw [List.getD_eq_getElem?_getD, List.getElem?_take_of_lt (by omega), List.getElem?_drop,
      List.getElem?_append_right (by omega), List.getElem?_replicate_of_lt (by omega)]
    rfl

theorem applyFirstByte_zero {mask : Nat → UInt8} (h : mask 0 = 0) (b : UInt8) :
    applyFirstByte mask b = b := by
  unfold applyFirstByte
  rw [h]
  split <;> simp

theorem applyFirstByte_one {mask : Nat → UInt8} (h : mask 0 = 1) (b : UInt8) :
    applyFirstByte mask b ≠ b := by
  have hne : b ^^^ 1 ≠ b := by
    intro he
    have := congrArg (fun x => b ^^^ x) he
    rw [← UInt8.xor_assoc, UInt8.xor_self, UInt8.zero_xor] at this
    exact absurd this (by decide)
  unfold applyFirstByte
  rw [h]
  split <;> exact hne

section
variable {tag num : Nat} {kind : HeaderKind} {dst src payload : List UInt8} {frames : List Frame}
  (hdst : dst.length < 256) (hsrc : src.length < 256) (hfits : kind.Fits)
  (hpl : plaintext frames = some payload)
include hdst hsrc hfits hpl

theorem not_sealOpen_of_short (hshort : packetNumberFormatLen num + payload.length + tag < 20) :
    ¬ SealOpen tag kind dst src num frames payload := by
  intro hround
  obtain ⟨h, hb, hpn, hopen⟩ := kind.exists_sentHeader num hdst hsrc hfits (fun _ => rfl)
  obtain ⟨c, hc, hclen, _⟩ := (clearSealer_keyed tag).sealed payload h.bytes
  have hclen' : c.length = payload.length + tag := hclen
  obtain ⟨zeros, hzeros, hlast⟩ := sampleOf_last (c := c) h.pnum_length.2 (by omega) 0
  obtain ⟨ones, hones, hlast'⟩ := sampleOf_last (c := c) h.pnum_length.2 (by omega) 1
  have hlong := HeaderKind.generate_length_le num hdst hsrc kind
  -- the sender's buffer has zeros behind the datagram
  obtain ⟨pkt, rfl, hpos, hdata⟩ : ∃ pkt : SendPacket, pkt.frames = frames ∧ pkt.pos = 0 ∧
      pkt.data = List.replicate (h.bytes.length + c.length) 0 ++ List.replicate 20 0 :=
    ⟨⟨num, 0, false, .app, frames, _, 0, 0⟩, rfl, rfl, rfl⟩
  have hseal := sealerSeal_spec h (s := clearSealer tag) hpos hpl hc hdata (List.length_replicate ..)
  rw [hzeros, Option.map_some] at hseal
  have hroom : pkt.data.length < 2 ^ 32 := by
    rw [hdata, List.length_append, List.length_replicate, List.length_replicate, hb]
    omega
  obtain ⟨x, hx, _, _, hres⟩ := hround (clearSealer tag) ⟨clearSealer tag, clearSealer tag,
    clearSealer tag⟩ rfl (by cases kind <;> exact clearSealer_keyed tag) pkt _ rfl hpos hroom
    ((congrArg (fun hdr => sealerSeal true (clearSealer tag) pkt hdr dst.length) hb).symm.trans hseal)
    (List.replicate 20 1) dst.length fun _ => rfl
  -- the receiver's has ones
  have hdatagram : (h.masked ((clearSealer tag).wMask zeros) ++ c ++ List.replicate 20 0).take
      (h.bytes.length + c.length - 0) = h.masked ((clearSealer tag).wMask zeros) ++ c := by
    rw [Nat.sub_zero, ← h.length_masked ((clearSealer tag).wMask zeros), ← List.length_append,
      List.take_left]
  have hfirst0 : applyFirstByte ((clearSealer tag).wMask zeros) h.first = h.first :=
    applyFirstByte_zero hlast h.first
  have hmasked : h.masked ((clearSealer tag).wMask zeros) ++ c ++ List.replicate 20 1 =
      h.first :: (h.body ++ xorBytes (fun i => (clearSealer tag).wMask zeros (i + 1)) h.pnum ++ c ++
        List.replicate 20 1) := by
    rw [SentHeader.masked, hfirst0]
    rfl
  have hoff := h.masked_pnumOff ((clearSealer tag).wMask zeros) (c ++ List.replicate 20 1)
  have hslice : slice (h.masked ((clearSealer tag).wMask zeros) ++ (c ++ List.replicate 20 1))
      (1 + h.body.length + 4) 16 = sampleOf h.pnum.length (c ++ List.replicate 20 1) :=
    slice_sample h (h.length_masked _) rfl
  rw [← List.append_assoc, hmasked] at hoff hslice
  rw [hones] at hslice
  have hx' : sealerOpen (fun _ => true) ⟨clearSealer tag, clearSealer tag, clearSealer tag⟩
      (h.masked ((clearSealer tag).wMask zeros) ++ c ++ List.replicate 20 1)
      (h.bytes.length + c.length - 0) dst.length = some x := by
    rw [← hdatagram]
    exact hx
  rw [hmasked] at hx'
  have hback := sealerOpen_first (r := clearSealer tag) (by
    rw [hopen]
    cases kind <;> rfl) hoff hslice hx'
  have horig : x.1[0]? = some h.first := by
    have := congrArg (fun l : List UInt8 => l[0]?) hres
    rw [← hb, List.getElem?_take] at this
    split at this
    · exact this
    · cases this
  rw [horig] at hback
  have hone : (clearSealer tag).rMask ones 0 = 1 := hlast'
  exact applyFirstByte_one hone h.first (Option.some.inj hback).symm

/-- **The round trip.**  Opening restores what was sealed, for all keys and all contents of the two
buffers, if and only if the packet number, the plaintext and the tag have 20 bytes together. -/
theorem sealOpen_iff : SealOpen tag kind dst src num frames payload ↔
    20 ≤ packetNumberFormatLen num + payload.length + tag := by
  constructor
  · intro hround
    by_contra hlt
    exact not_sealOpen_of_short hdst hsrc hfits hpl (Nat.lt_of_not_le hlt) hround
  · exact sealOpen_of_long hdst hsrc hfits hpl

end

/-- a packet with three PINGs and a short header -/
theorem sealOpen_iff_pings :
    SealOpen 16 .short [7] [] 0 (List.replicate 3 (Frame.init 0x01 .ping)) [0x01, 0x01, 0x01] ↔
      20 ≤ packetNumberFormatLen 0 + 3 + 16 :=
  sealOpen_iff (by decide) (by decide) trivial (by decide +kernel)

/-- with a single PING the round trip fails -/
theorem not_sealOpen_ping : ¬ ∀ (kind : HeaderKind) (dst src : List UInt8) (num : Nat)
    (frames : List Frame) (payload : List UInt8), dst.length < 256 → src.length < 256 → kind.Fits →
    frames ≠ [] → plaintext frames = some payload → SealOpen 16 kind dst src num frames payload := by
  intro h
  have hpl : plaintext [Frame.init 0x01 .ping] = some [0x01] := by decide +kernel
  have hsrc : ([] : List UInt8).length < 256 := by decide
  have hdst : ([7] : List UInt8).length < 256 := by decide
  refine not_sealOpen_of_short hdst hsrc (show HeaderKind.short.Fits from trivial) hpl (by decide)
    (h .short [7] [] 0 [Frame.init 0x01 .ping] [0x01] hdst hsrc trivial ?_ hpl)
  exact List.cons_ne_nil _ _

end OpenQuic
