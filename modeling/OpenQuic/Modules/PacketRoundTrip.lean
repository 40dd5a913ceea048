import OpenQuic.Modules.FrameLoop
import OpenQuic.Modules.HeaderRoundTrip
import OpenQuic.Modules.Sender

/-!
# A packet, from the sender to the receiver

The sender formats the frames of a packet, puts a header in front and seals them; the receiver opens
the datagram, reads the header and loops over the frames.  Of all that, what is left is the loop.

* `Message`           what the bytes of a packet stand for;
* `receive`           what the receiver makes of it, the bytes left out;
* `packetPayload_generate`   the payload is found behind a generated header;
* `handlePacket_sealed`      **the receiver makes of the sealed datagram what `receive` makes of the
                      packet.**
-/

namespace OpenQuic
namespace Recver
open Word Window Sending

variable {σ : Type}

/-- the space, the packet number, the source ID and the frames of a packet -/
structure Message where
  space : Space
  num : Nat
  src : List UInt8
  frames : List Frame

/-- the type that the receiver gives to a packet of a space -/
def spaceType : Space → UInt8
  | .initial => packetInitialType
  | .handshake => packetHandshakeType
  | .app => packetShortType

/-- what is fixed about a receiver; `srcLen` is the length of its own connection ID -/
structure Receiver (σ : Type) where
  handlers : Handlers σ
  isCli : Bool
  sealers : Sealers
  srcLen : Nat

/-- a client takes its destination ID from the first packet, if that has a long header -/
def adopt (isCli : Bool) (p : Message) (st : State σ) : State σ :=
  if isCli && !st.recvFirst && decide (p.space ≠ .app) then { st with dst := p.src } else st

def receive (r : Receiver σ) (recvTime : Time) (p : Message) (st : State σ) : Done σ :=
  processFrames r.handlers (spaceType p.space) p.num (some p.space) recvTime false
    (p.frames.map arrived)
    { adopt r.isCli p st with
      recvFirst := true
      lastRecvTime := recvTime
      currAckEliciting := false } []

/-! ## behind a generated header -/

theorem locate_middle {hdr payload rest : List UInt8} (ag : Option Space) {p : Payload}
    (hpos : p.payload = hdr.length) :
    locate (hdr ++ payload ++ rest) ag p = ⟨p, ag, payload ++ rest⟩ := by
  unfold locate
  rw [hpos, List.append_assoc, List.drop_left]

/-- the first byte of a header says the space -/
theorem first_generate {dst src hdr : List UInt8} {num n : Nat} {sp : Space}
    (hhdr : hdr = (headerKind n sp).generate dst src num) (payload rest : List UInt8) :
    (hdr ++ payload ++ rest)[0]? = some (spaceType sp ||| numLenBits num) := by
  rw [hhdr]
  cases sp <;> rfl

section
variable {dst src payload : List UInt8} {num srcLen : Nat} (hnum : num < 2 ^ 32)
  (hdst : dst.length < 256) (hsrc : src.length < 256) (hpayload : payload ≠ [])
  (hfits : payload.length ≤ varintMax) (sp : Space) (rest : List UInt8)
include hnum hdst hsrc hpayload hfits

/-- **The payload** is found behind the header that is generated for it. -/
theorem packetPayload_generate (hlen : sp = .app → srcLen = dst.length)
    (junk : Payload × List UInt8) {hdr : List UInt8}
    (hhdr : hdr = (headerKind payload.length sp).generate dst src num) :
    packetPayload junk (hdr ++ payload ++ rest) (hdr.length + payload.length) srcLen =
      some (some ⟨⟨spaceType sp, num, payload.length, hdr.length⟩, some sp, payload ++ rest⟩) := by
  have hrest : packetNumberFormatLen num = 3 → payload ++ rest ≠ [] := fun _ h =>
    hpayload (List.append_eq_nil_iff.mp h).1
  have hvarint : varintMax < 2 ^ 63 := by decide
  have hshort := HeaderKind.generate_length_le num hdst hsrc (headerKind payload.length sp)
  rw [← hhdr] at hshort
  have hfirst := first_generate hhdr payload rest
  unfold packetPayload
  cases sp with
  | initial =>
    change _ = some (packetInitialType ||| numLenBits num) at hfirst
    obtain ⟨hform, hkind, _⟩ := initial_firstByte num
    have hreads := generateInitialHeader_reads hnum hrest hdst hsrc hfits
    have hhead := hreads.payload
    rw [← List.append_assoc] at hhead
    change initialHeader ((headerKind payload.length .initial).generate dst src num ++ _ ++ _) =
      some ⟨_, _, _, ((headerKind payload.length .initial).generate dst src num).length⟩ at hhead
    rw [← hhdr] at hhead
    rw [hfirst, Option.bind_eq_bind, Option.bind_some, if_pos hform, if_pos (hkind rfl), hhead,
      Option.map_some, locate_middle _ rfl]
    rfl
  | handshake =>
    change _ = some (packetHandshakeType ||| numLenBits num) at hfirst
    obtain ⟨hform, hkind, _⟩ := handshake_firstByte num
    have hreads := generateHandshakeHeader_reads hnum hrest hdst hsrc hfits
    have hhead := hreads.payload
    rw [← List.append_assoc] at hhead
    change handshakeHeader ((headerKind payload.length .handshake).generate dst src num ++ _ ++ _) =
      some ⟨_, _, _, ((headerKind payload.length .handshake).generate dst src num).length⟩ at hhead
    rw [← hhdr] at hhead
    rw [hfirst, Option.bind_eq_bind, Option.bind_some, if_pos hform,
      if_neg (by rw [hkind rfl]; decide), if_pos (hkind rfl), hhead, Option.map_some,
      locate_middle _ rfl]
    rfl
  | app =>
    change _ = some (packetShortType ||| numLenBits num) at hfirst
    obtain ⟨hform, _, _⟩ := short_firstByte num
    have hreads := generateShortHeader_reads hnum hrest dst
    have hhead := hreads.payload
    rw [← List.append_assoc] at hhead
    change shortHeader ((headerKind payload.length .app).generate dst src num ++ _ ++ _) _ =
      some ⟨_, _, _, ((headerKind payload.length .app).generate dst src num).length⟩ at hhead
    rw [← hhdr] at hhead
    -- a short header has no length: what is behind it is the payload
    have hsub : sub64 (hdr.length + payload.length) hdr.length = payload.length := by
      rw [sub64_of_le (Nat.le_add_right _ _) (by omega), Nat.add_sub_cancel_left]
    rw [hfirst, Option.bind_eq_bind, Option.bind_some, if_neg (by rw [hform]; exact Bool.false_ne_true),
      hlen rfl, hhead, Option.map_some, hsub, locate_middle _ rfl]
    rfl

omit hnum hpayload hfits in
/-- the IDs are where a client looks for them -/
theorem adoptDst_generate (isCli : Bool) (frames : List Frame) (st : State σ) {hdr : List UInt8}
    (hhdr : hdr = (headerKind payload.length sp).generate dst src num) :
    adoptDst isCli (hdr ++ payload ++ rest) st = some (adopt isCli ⟨sp, num, src, frames⟩ st) := by
  have hsame : (if src ≠ st.dst then { st with dst := src } else st) = { st with dst := src } := by
    split
    · rfl
    · rename_i h
      rw [not_not.mp h]
  have hlong : ∀ first tail, hdr = first :: longHeaderConns dst src ++ tail → isLong first = true →
      adoptDst isCli (hdr ++ payload ++ rest) st =
        some (if isCli && !st.recvFirst then { st with dst := src } else st) := by
    intro first tail hsplit hform
    have hconns : longHeaderSrcConn (hdr ++ payload ++ rest) = some src := by
      rw [hsplit, List.append_assoc, List.append_assoc]
      exact longHeaderSrcConn_conns hdst hsrc first _
    have hfirst : (hdr ++ payload ++ rest)[0]? = some first := by
      rw [hsplit]
      rfl
    unfold adoptDst
    rw [hfirst, Option.bind_eq_bind, Option.bind_some, hform, Bool.and_true, hconns]
    split
    · exact congrArg some hsame
    · rfl
  unfold adopt
  cases sp with
  | initial =>
    refine (hlong (packetInitialType ||| numLenBits num) (varintFormatR 0 ++
      varintFormatR payload.length ++ packetNumberFormat num (packetNumberFormatLen num)) ?_
        (initial_firstByte num).form).trans ?_
    · rw [hhdr]
      show generateInitialHeader dst src num payload.length = _
      unfold generateInitialHeader initialHeaderBody
      simp only [List.cons_append, List.append_assoc]
    · rw [decide_eq_true (show Space.initial ≠ .app by decide), Bool.and_true]
  | handshake =>
    refine (hlong (packetHandshakeType ||| numLenBits num) (varintFormatR payload.length ++
      packetNumberFormat num (packetNumberFormatLen num)) ?_ (handshake_firstByte num).form).trans ?_
    · rw [hhdr]
      show generateHandshakeHeader dst src num payload.length = _
      unfold generateHandshakeHeader handshakeHeaderBody
      simp only [List.cons_append, List.append_assoc]
    · rw [decide_eq_true (show Space.handshake ≠ .app by decide), Bool.and_true]
  | app =>
    have hfirst := first_generate hhdr payload rest
    change _ = some (packetShortType ||| numLenBits num) at hfirst
    unfold adoptDst
    rw [hfirst, Option.bind_eq_bind, Option.bind_some, (short_firstByte num).form, Bool.and_false,
      decide_eq_false (not_not.mpr rfl), Bool.and_false]
    rfl

end

/-! ## a sealed packet -/

/-- the plaintext of frames with sizes -/
theorem plaintext_sized {fs : List Frame} (h : ∀ f ∈ fs, f.Sized) : plaintext fs = some (bytesAll fs) := by
  obtain ⟨hsize, hformat⟩ := formatFrames_sized fs h [] 0
  rw [Nat.add_zero, List.nil_append] at hformat
  unfold plaintext
  rw [hsize, Option.bind_eq_bind, Option.bind_some, hformat]
  rfl

/-- a frame takes a byte -/
theorem bytesAll_ne_nil {fs : List Frame} (h : ∀ f ∈ fs, f.Sized) (hne : fs ≠ []) :
    bytesAll fs ≠ [] := by
  obtain ⟨f, fs, rfl⟩ := List.exists_cons_of_ne_nil hne
  obtain ⟨chunks, hchunks, _⟩ := h f List.mem_cons_self
  have hbytes : bytesAll (f :: fs) = ([f.firstByte] :: chunks).flatten ++ bytesAll fs := by
    show frameBytes f ++ bytesAll fs = _
    rw [frameBytes, hchunks]
    rfl
  rw [hbytes]
  exact List.cons_ne_nil _ _

/-- frames that a payload carries as they are -/
structure Carriable (fs : List Frame) : Prop where
  nonempty : fs ≠ []
  stored : ∀ f ∈ fs, f.WellStored
  sound : ∀ f ∈ fs, f.Sound
  packed : Packed fs

theorem Carriable.sized {fs : List Frame} (h : Carriable fs) : ∀ f ∈ fs, f.Sized := by
  intro f hf
  refine sized_of (h.stored f hf) fun htype => (h.sound f hf).1 ?_
  unfold Frame.Misrouted
  rcases htype with htype | htype <;> simp [htype]

/-- The keys are shared, the IDs fit, and the packet number, the plaintext and the tag have 20 bytes
together. -/
structure Sealable (r : Receiver σ) (b : Build) (s : Sending.State) : Prop where
  mem : b.sealMem = true
  frames : Carriable (b.frames s).1
  num : s.next b.space < 2 ^ 32
  dst : b.dst.length < 256
  src : b.src.length < 256
  short : b.space = .app → r.srcLen = b.dst.length
  keyed : Keyed b.sealer ((headerKind 0 b.space).sealer r.sealers)
  long : 20 ≤ packetNumberFormatLen (s.next b.space) + (bytesAll (b.frames s).1).length +
    b.sealer.wTag

/-- what a packet that is built stands for -/
def message (b : Build) (s : Sending.State) : Message :=
  ⟨b.space, s.next b.space, b.src, (b.frames s).1⟩

theorem headerKind_fits {n : Nat} (h : n ≤ varintMax) (sp : Space) : (headerKind n sp).Fits := by
  cases sp with
  | initial => exact h
  | handshake => exact h
  | app => trivial

theorem headerKind_sealer (n n' : Nat) (sp : Space) (m : Sealers) :
    (headerKind n sp).sealer m = (headerKind n' sp).sealer m := by
  cases sp <;> rfl

theorem headerKind_short {n : Nat} {sp : Space} (h : headerKind n sp = .short) : sp = .app := by
  cases sp with
  | initial => cases h
  | handshake => cases h
  | app => rfl

section
variable {r : Receiver σ} {b : Build} {s : Sending.State} (hb : Sealable r b s) {pkt : SendPacket}
  (hpkt : b.sealed s = some pkt)
include hb hpkt

/-- The buffer has room for a packet that is sealed, so the length in its header is right. -/
theorem Sealable.sealed_spec : (bytesAll (b.frames s).1).length < 2 ^ 32 ∧
    sealerSeal true b.sealer (b.packet s)
      ((headerKind (bytesAll (b.frames s).1).length b.space).generate b.dst b.src (s.next b.space))
      b.dst.length = some (pkt, .success) := by
  have hsize := (formatFrames_sized (b.frames s).1 hb.frames.sized [] 0).1
  obtain ⟨n, hn, hmap⟩ := Option.bind_eq_some_iff.mp hpkt
  obtain ⟨⟨_, e⟩, hseal, rfl⟩ := Option.map_eq_some_iff.mp hmap
  clear hmap
  rw [hsize] at hn
  cases hn
  have hfits : u32 (bytesAll (b.frames s).1).length ≤ varintMax := by
    have hlt := u32_lt (bytesAll (b.frames s).1).length
    have hvarint : 2 ^ 32 ≤ varintMax := by decide
    omega
  obtain ⟨h, hbytes, _⟩ : ∃ h : SentHeader b.dst.length, _ :=
    HeaderKind.exists_sentHeader (s.next b.space) hb.dst hb.src
      (headerKind (u32 (bytesAll (b.frames s).1).length) b.space) (headerKind_fits hfits _) fun _ => rfl
  have hplain : plaintext (b.packet s).frames = some (bytesAll (b.frames s).1) :=
    plaintext_sized hb.frames.sized
  obtain ⟨c, hc, hclen, _⟩ := hb.keyed.sealed (bytesAll (b.frames s).1) h.bytes
  rw [hb.mem, ← hbytes] at hseal
  have hroom : h.bytes.length + c.length ≤ (b.packet s).data.length := by
    by_contra hlt
    rw [sealerSeal_none h hplain hc (Nat.lt_of_not_le hlt)] at hseal
    cases hseal
  have hdata : (b.packet s).data.length < 2 ^ 32 := b.data.2
  have hlt : (bytesAll (b.frames s).1).length < 2 ^ 32 := by omega
  rw [u32_of_lt hlt] at hbytes
  refine ⟨hlt, ?_⟩
  rw [← hbytes, hseal]
  -- nothing fails once there is room
  obtain ⟨old, rest, hsplit, hold⟩ : ∃ old rest, (b.packet s).data = old ++ rest ∧
      old.length = h.bytes.length + c.length :=
    ⟨_, _, (List.take_append_drop (h.bytes.length + c.length) _).symm, by
      rw [List.length_take, Nat.min_eq_left hroom]⟩
  rw [sealerSeal_spec h rfl hplain hc hsplit hold] at hseal
  obtain ⟨sample, _, hsample⟩ := Option.map_eq_some_iff.mp hseal
  rw [(Prod.mk.inj hsample).2]

/-- **A packet.**  Whatever is in memory behind the datagram, the receiver makes of it what `receive`
makes of the packet. -/
theorem handlePacket_sealed (tail : List UInt8) (junk : Payload × List UInt8) (recvTime : Time)
    (st : State σ) :
    handlePacket r.handlers (fun _ => true) memOk r.isCli r.sealers r.srcLen junk
        ⟨pkt.data.take pkt.size ++ tail, pkt.size, recvTime⟩ st =
      some ⟨{ receive r recvTime (message b s) st with
        err := (receive r recvTime (message b s) st).err.map fun _ => .success },
        some (bytesAll (b.frames s).1)⟩ := by
  obtain ⟨hlt, hseal⟩ := hb.sealed_spec hpkt
  have hfits : (bytesAll (b.frames s).1).length ≤ varintMax := by
    have hvarint : 2 ^ 32 ≤ varintMax := by decide
    omega
  have hplain := plaintext_sized hb.frames.sized
  have hkeyed : Keyed b.sealer
      ((headerKind (bytesAll (b.frames s).1).length b.space).sealer r.sealers) := by
    rw [headerKind_sealer _ 0]
    exact hb.keyed
  obtain ⟨⟨buf, ret, e⟩, hopen, he, hret, hbuf⟩ := sealOpen_of_long hb.dst hb.src
    (headerKind_fits hfits b.space) hplain hb.long b.sealer r.sealers rfl hkeyed (b.packet s) pkt rfl
    rfl b.data.2 hseal tail r.srcLen fun hk => hb.short (headerKind_short hk)
  dsimp only at he hret hbuf
  subst he hret
  generalize hhdr : (headerKind (bytesAll (b.frames s).1).length b.space).generate b.dst b.src
    (s.next b.space) = hdr at hopen hbuf
  obtain ⟨rest, rfl⟩ : ∃ rest, buf = hdr ++ bytesAll (b.frames s).1 ++ rest :=
    ⟨buf.drop (hdr.length + (bytesAll (b.frames s).1).length), by rw [← hbuf, List.take_append_drop]⟩
  have hdst := adoptDst_generate hb.dst hb.src b.space rest r.isCli (b.frames s).1 st hhdr.symm
  have hpayload := packetPayload_generate hb.num hb.dst hb.src
    (bytesAll_ne_nil hb.frames.sized hb.frames.nonempty) hfits b.space rest hb.short junk hhdr.symm
  have hlt : (bytesAll (b.frames s).1).length < 2 ^ 63 := by
    have hvarint : varintMax < 2 ^ 63 := by decide
    omega
  obtain ⟨hunread, hparsed⟩ := Located.unread_before (l := ⟨⟨spaceType b.space, s.next b.space,
    (bytesAll (b.frames s).1).length, hdr.length⟩, some b.space, bytesAll (b.frames s).1 ++ rest⟩)
    rfl rfl hlt
  have hfuel : (bytesAll (b.frames s).1).length ≤ (bytesAll (b.frames s).1 ++ rest).length := by
    rw [List.length_append]
    exact Nat.le_add_right _ _
  unfold handlePacket
  rw [hopen, Option.bind_eq_bind, Option.bind_some]
  dsimp only
  rw [if_neg (not_not.mpr rfl), hdst, Option.bind_eq_bind, Option.bind_some, hpayload,
    Option.bind_eq_bind, Option.bind_some]
  dsimp only
  rw [hunread, hparsed, processPayload_frames r.handlers _ _ recvTime hb.frames.stored hb.frames.sound
    hb.frames.packed hfuel]
  rfl

end

end Recver
end OpenQuic
