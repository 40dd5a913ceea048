import OpenQuic.Format.Within
import OpenQuic.Modules.Recver
import OpenQuic.Modules.SealOpen

/-!
# What reaches the handlers

* `aeadOpened`       the plaintext that the AEAD returns for a datagram;
* `Authentic`        frames are handed over and numbers recorded only where the bytes that are parsed
                     are that plaintext, and without it the session stays as it was;
* `Inert`            the bytes fail to parse before the first frame that has a handler, and before the
                     end of the payload if there is an ACK generator, wherever the header puts the end;
* `Verified`         the condition: the AEAD has opened the payload and its length is the one in the
                     header, or the bytes are inert;
* `authentic_iff`    the two are the same.
-/

namespace OpenQuic
open Word Window

/-! ## reading a header -/

/-- the two buffers are the same between their first byte and `off` -/
def Agree (p q : List UInt8) (off : Nat) : Prop := ∀ i, 1 ≤ i → i < off → q[i]? = p[i]?

theorem varintLen_pos (b : UInt8) : 0 < varintLen b := by
  unfold varintLen
  rw [Nat.one_shiftLeft]
  exact Nat.two_pow_pos _

section
variable {p q : List UInt8} {off at_ n : Nat} (h : Agree p q off) (h1 : 1 ≤ at_)
include h h1

theorem Agree.varintLenAt (hle : at_ + n ≤ off) (hn : varintLenAt p at_ = some n) :
    varintLenAt q at_ = some n := by
  obtain ⟨b, hb, hlen⟩ := Option.bind_eq_some_iff.mp hn
  have hpos := varintLen_pos b
  rw [← Option.some.inj hlen] at hle
  refine Option.bind_eq_some_iff.mpr ⟨b, ?_, hlen⟩
  rw [h at_ h1 (by omega)]
  exact hb

theorem Agree.varintAt {v : Nat} (hle : at_ + n ≤ off) (hn : OpenQuic.varintLenAt p at_ = some n)
    (hv : varintAt p at_ = some v) : OpenQuic.varintAt q at_ = some v := by
  obtain ⟨len, hlen, hv⟩ := Option.bind_eq_some_iff.mp hv
  obtain ⟨bytes, hbytes, hv⟩ := Option.bind_eq_some_iff.mp hv
  obtain rfl : len = n := Option.some.inj (hlen.symm.trans hn)
  obtain ⟨b, _, hb⟩ := Option.bind_eq_some_iff.mp hn
  have hpos : 0 < len := by
    rw [← Option.some.inj hb]
    exact varintLen_pos b
  refine Option.bind_eq_some_iff.mpr ⟨len, h.varintLenAt h1 hle hn, ?_⟩
  refine Option.bind_eq_some_iff.mpr ⟨bytes, ?_, hv⟩
  exact slice_congr hpos (fun i hi hlt => h i (by omega) (by omega)) hbytes

end

theorem longHeaderPayload_bounds {p : List UInt8} {off : Nat} (h : longHeaderPayload p = some off) :
    1 ≤ off := by
  obtain ⟨src, hsrc, h⟩ := Option.bind_eq_some_iff.mp h
  obtain ⟨len, hlen, h⟩ := Option.bind_eq_some_iff.mp h
  rw [← Option.some.inj h]
  omega

theorem Agree.longHeaderPayload {p q : List UInt8} {off at_ : Nat} (h : Agree p q off)
    (hle : at_ ≤ off) (hp : longHeaderPayload p = some at_) :
    OpenQuic.longHeaderPayload q = some at_ := by
  obtain ⟨src, hsrc, hp⟩ := Option.bind_eq_some_iff.mp hp
  obtain ⟨dlen, hdlen, hsrc⟩ := Option.bind_eq_some_iff.mp hsrc
  obtain ⟨slen, hslen, hp⟩ := Option.bind_eq_some_iff.mp hp
  have hsrc' := Option.some.inj hsrc
  have hp' := Option.some.inj hp
  unfold longHeaderDstConnLenOff at hsrc'
  refine Option.bind_eq_some_iff.mpr ⟨src, Option.bind_eq_some_iff.mpr ⟨dlen, ?_, hsrc⟩, ?_⟩
  · rw [h longHeaderDstConnLenOff (by decide) (by unfold longHeaderDstConnLenOff; omega)]
    exact hdlen
  · refine Option.bind_eq_some_iff.mpr ⟨slen, ?_, hp⟩
    rw [h src (by omega) (by omega)]
    exact hslen

/-- **The packet number is found where it was**, in a buffer that is the same up to it. -/
theorem Agree.headerPacketNumberOff {p q : List UInt8} {off srcLen : Nat} {first first' : UInt8}
    (h : Agree p q off) (hp0 : p[0]? = some first) (hq0 : q[0]? = some first')
    (hlong : isLong first' = isLong first)
    (htype : isLong first = true → packetType first' = packetType first)
    (hp : headerPacketNumberOff p srcLen = some off) :
    OpenQuic.headerPacketNumberOff q srcLen = some off := by
  simp only [OpenQuic.headerPacketNumberOff, hp0, hq0, hlong, Option.bind_eq_bind,
    Option.bind_some] at hp ⊢
  by_cases hl : isLong first = true
  · rw [if_pos hl] at hp ⊢
    rw [htype hl]
    split at hp
    · rename_i hinitial
      rw [if_pos hinitial]
      obtain ⟨at_, hat, hp⟩ := Option.bind_eq_some_iff.mp hp
      obtain ⟨token, htoken, hp⟩ := Option.bind_eq_some_iff.mp hp
      obtain ⟨tokenLen, htlen, hp⟩ := Option.bind_eq_some_iff.mp hp
      obtain ⟨len, hlen, hp⟩ := Option.bind_eq_some_iff.mp hp
      have hoff := Option.some.inj hp
      have h1 := longHeaderPayload_bounds hat
      rw [h.longHeaderPayload (by omega) hat, Option.bind_some,
        h.varintAt h1 (by omega) htlen htoken, Option.bind_some,
        h.varintLenAt h1 (by omega) htlen, Option.bind_some,
        h.varintLenAt (by omega) (by omega) hlen, Option.bind_some]
      exact hp
    · rename_i hinitial
      rw [if_neg hinitial]
      split at hp
      · rename_i hhandshake
        rw [if_pos hhandshake]
        obtain ⟨at_, hat, hp⟩ := Option.bind_eq_some_iff.mp hp
        obtain ⟨len, hlen, hp⟩ := Option.bind_eq_some_iff.mp hp
        have hoff := Option.some.inj hp
        have h1 := longHeaderPayload_bounds hat
        rw [h.longHeaderPayload (by omega) hat, Option.bind_some,
          h.varintLenAt h1 (by omega) hlen, Option.bind_some]
        exact hp
      · cases hp
  · rw [if_neg hl] at hp ⊢
    exact hp

/-- a decoded long header has its payload behind the packet number -/
theorem longPayload_payload {type first : UInt8} {p : List UInt8} {off len : Nat} {x : Payload}
    (hp0 : p[0]? = some first) (hlen : varintLenAt p off = some len)
    (h : longPayload type p off = some x) : x.payload = off + len + packetNumberLen first := by
  simp only [longPayload, hp0, hlen, Option.bind_eq_bind, Option.bind_some] at h
  obtain ⟨payloadLen, _, h⟩ := Option.bind_eq_some_iff.mp h
  obtain ⟨num, _, h⟩ := Option.bind_eq_some_iff.mp h
  rw [← Option.some.inj h]

namespace Recver

/-- the payload of a packet that is opened starts behind the packet number -/
theorem packetPayload_payload {junk : Payload × List UInt8} {q : List UInt8} {ret srcLen off : Nat}
    {m : Sealers} {s : Sealer} {first : UInt8} {l : Located} (hq0 : q[0]? = some first)
    (hm : openSealer m first = some s) (hoff : headerPacketNumberOff q srcLen = some off)
    (h : packetPayload junk q ret srcLen = some (some l)) :
    l.bytes = q.drop (off + packetNumberLen first) := by
  simp only [packetPayload, hq0, Option.bind_eq_bind, Option.bind_some] at h
  simp only [headerPacketNumberOff, hq0, Option.bind_eq_bind, Option.bind_some] at hoff
  unfold openSealer at hm
  by_cases hl : isLong first = true
  · rw [if_pos hl] at h hoff hm
    by_cases hinitial : packetType first = packetInitialType
    · rw [if_pos hinitial] at h hoff
      obtain ⟨p, hp, hl⟩ := Option.map_eq_some_iff.mp h
      obtain rfl := Option.some.inj hl
      obtain ⟨at_, hat, hoff⟩ := Option.bind_eq_some_iff.mp hoff
      obtain ⟨token, htoken, hoff⟩ := Option.bind_eq_some_iff.mp hoff
      obtain ⟨tokenLen, htlen, hoff⟩ := Option.bind_eq_some_iff.mp hoff
      obtain ⟨len, hlen, hoff⟩ := Option.bind_eq_some_iff.mp hoff
      simp only [initialHeader, hat, htoken, htlen, Option.bind_eq_bind, Option.bind_some] at hp
      rw [locate, longPayload_payload hq0 hlen hp, ← Option.some.inj hoff]
    · rw [if_neg hinitial] at h hoff hm
      by_cases hhandshake : packetType first = packetHandshakeType
      · rw [if_pos hhandshake] at h hoff
        obtain ⟨p, hp, hl⟩ := Option.map_eq_some_iff.mp h
        obtain rfl := Option.some.inj hl
        obtain ⟨at_, hat, hoff⟩ := Option.bind_eq_some_iff.mp hoff
        obtain ⟨len, hlen, hoff⟩ := Option.bind_eq_some_iff.mp hoff
        simp only [handshakeHeader, hat, Option.bind_eq_bind, Option.bind_some] at hp
        rw [locate, longPayload_payload hq0 hlen hp, ← Option.some.inj hoff]
      · rw [if_neg hhandshake] at hm
        cases hm
  · rw [if_neg hl] at h hoff
    obtain ⟨p, hp, hl⟩ := Option.map_eq_some_iff.mp h
    obtain rfl := Option.some.inj hl
    simp only [shortHeader, hq0, Option.bind_eq_bind, Option.bind_some] at hp
    obtain ⟨num, _, hp⟩ := Option.bind_eq_some_iff.mp hp
    rw [locate, ← Option.some.inj hp, ← Option.some.inj hoff]

/-! ## opening -/

/-- what the AEAD returns for a datagram, if it is asked -/
def aeadOpened (m : Sealers) (buf : List UInt8) (ret srcLen : Nat) : Option (List UInt8) := do
  let first ← buf[0]?
  let s ← openSealer m first
  let pnumOff ← headerPacketNumberOff buf srcLen
  let sample ← slice buf (pnumOff + 4) 16
  let mask := s.rMask sample
  let pnumSize := packetNumberLen (applyFirstByte mask first)
  let buf ← applyPacketNumber mask (applyFirstByte mask first :: buf.tail) pnumOff pnumSize
  let hdrSize := pnumOff + pnumSize
  let ad ← slice buf 0 hdrSize
  let sealed ← slice buf hdrSize (sub64 ret hdrSize)
  s.rOpen s.rIv sealed ad

theorem headerPacketNumberOff_pos {p : List UInt8} {off srcLen : Nat}
    (h : headerPacketNumberOff p srcLen = some off) : 1 ≤ off := by
  obtain ⟨first, _, h⟩ := Option.bind_eq_some_iff.mp h
  split at h
  · split at h
    · obtain ⟨at_, hat, h⟩ := Option.bind_eq_some_iff.mp h
      obtain ⟨token, _, h⟩ := Option.bind_eq_some_iff.mp h
      obtain ⟨tokenLen, _, h⟩ := Option.bind_eq_some_iff.mp h
      obtain ⟨len, _, h⟩ := Option.bind_eq_some_iff.mp h
      have hoff := Option.some.inj h
      have h1 := longHeaderPayload_bounds hat
      omega
    · split at h
      · obtain ⟨at_, hat, h⟩ := Option.bind_eq_some_iff.mp h
        obtain ⟨len, _, h⟩ := Option.bind_eq_some_iff.mp h
        have hoff := Option.some.inj h
        have h1 := longHeaderPayload_bounds hat
        omega
      · cases h
  · have hoff := Option.some.inj h
    unfold shortHeaderPayload at hoff
    omega

/-- the plaintext in the buffer that is left, behind a header of `off` bytes and a packet number -/
structure OpenedAt (m : Sealers) (buf plain : List UInt8) (srcLen off : Nat) (first : UInt8) :
    Prop where
  head : buf[0]? = some first
  opened : ∃ s, openSealer m first = some s
  pnumOff : headerPacketNumberOff buf srcLen = some off
  plain : slice buf (off + packetNumberLen first) plain.length = some plain

/-- **Opening leaves the plaintext where the payload is read.** -/
theorem opened_spec {mem : Nat → Bool} {m : Sealers} {buf buf' plain : List UInt8}
    {ret ret' srcLen : Nat} (hopen : aeadOpened m buf ret srcLen = some plain)
    (h : sealerOpen mem m buf ret srcLen = some (buf', ret', .success)) :
    ∃ off first, OpenedAt m buf' plain srcLen off first := by
  obtain ⟨first, hfirst, hopen⟩ := Option.bind_eq_some_iff.mp hopen
  obtain ⟨s, hs, hopen⟩ := Option.bind_eq_some_iff.mp hopen
  obtain ⟨off, hoff, hopen⟩ := Option.bind_eq_some_iff.mp hopen
  obtain ⟨sample, hsample, hopen⟩ := Option.bind_eq_some_iff.mp hopen
  obtain ⟨buf1, hbuf1, hopen⟩ := Option.bind_eq_some_iff.mp hopen
  obtain ⟨ad, had, hopen⟩ := Option.bind_eq_some_iff.mp hopen
  obtain ⟨sealed, hsealed, hopen⟩ := Option.bind_eq_some_iff.mp hopen
  simp only [sealerOpen, hfirst, hs, hoff, hsample, hbuf1, had, hsealed, hopen, Option.bind_eq_bind,
    Option.bind_some, Option.getD_some] at h
  split at h
  · obtain ⟨_, h⟩ := Prod.mk.inj (Option.some.inj h)
    obtain ⟨_, h⟩ := Prod.mk.inj h
    cases h
  · obtain ⟨buf2, hstore, h⟩ := Option.bind_eq_some_iff.mp h
    obtain ⟨rfl, _⟩ := Prod.mk.inj (Option.some.inj h)
    have hpos := headerPacketNumberOff_pos hoff
    -- before the packet number only the first byte has changed
    have hbefore : ∀ i, i < off →
        buf2[i]? = (applyFirstByte (s.rMask sample) first :: buf.tail)[i]? := by
      intro i hi
      rw [store_before hstore (by omega), xorAt_before hbuf1 hi]
    have hhead : buf2[0]? = some (applyFirstByte (s.rMask sample) first) := hbefore 0 (by omega)
    have hagree : Agree buf buf2 off := by
      intro i h1 hi
      obtain ⟨j, rfl⟩ : ∃ j, i = j + 1 := ⟨i - 1, by omega⟩
      rw [hbefore _ hi, List.getElem?_cons_succ, List.getElem?_tail]
    refine ⟨off, _, hhead, ⟨s, ?_⟩, ?_, slice_store hstore⟩
    · rw [openSealer_applyFirstByte, hs]
    · exact hagree.headerPacketNumberOff hfirst hhead (applyFirstByte_form _ _)
        (fun hl => applyFirstByte_kind _ hl) hoff

/-- what is parsed is the plaintext if and only if it is as long -/
theorem opened_bytes {mem : Nat → Bool} {m : Sealers} {buf buf' plain : List UInt8}
    {ret ret' srcLen : Nat} {junk : Payload × List UInt8} {l : Located}
    (hopen : aeadOpened m buf ret srcLen = some plain)
    (h : sealerOpen mem m buf ret srcLen = some (buf', ret', .success))
    (hl : packetPayload junk buf' ret' srcLen = some (some l)) :
    l.parsed = some plain ↔ l.payload.payloadLen = plain.length := by
  obtain ⟨off, first, hat⟩ := opened_spec hopen h
  obtain ⟨s, hs⟩ := hat.opened
  have hbytes := packetPayload_payload hat.head hs hat.pnumOff hl
  obtain ⟨a, c, hbuf, ha, _⟩ := slice_eq_some hat.plain
  rw [hbuf, List.append_assoc, ← ha, List.drop_left] at hbytes
  unfold Located.parsed
  constructor
  · intro he
    obtain ⟨_, _, _, _, hlen⟩ := slice_eq_some he
    exact hlen.symm
  · intro he
    rw [hbytes, he]
    exact slice_middle (a := []) rfl rfl

/-! ## the loop -/

/-- Parsing fails, or leaves the memory, before the first frame that has a handler, and before the end
if the number would be recorded there. -/
def Inert (mem : Nat → Bool) (ag : Option Space) : (fuel : Nat) → Unread → Prop
  | 0, u => u.left = 0 → ag = none
  | fuel + 1, u =>
    if u.left = 0 then ag = none else
    match u.parse mem with
    | .error _ => True
    | .ok (f, rest) => sessionHandler f.firstByte.toNat = false ∧ Inert mem ag fuel rest

/-- the bytes of a payload -/
def Located.Inert (mem : Nat → Bool) (l : Located) : Prop :=
  Recver.Inert mem l.ag l.bytes.length l.unread

theorem stamp_firstByte (type : UInt8) (recvTime : Time) (f : Frame) :
    (stamp type recvTime f).firstByte = f.firstByte := by
  unfold stamp
  split <;> rfl

section
variable {σ : Type} (h : Handlers σ) (mem : Nat → Bool) (p : Payload) (ag : Option Space)
  (recvTime : Time)

/-- the end of a payload records the number -/
theorem finishPayload_extends (shouldAck : Bool) (st : State σ) (calls : List Call) :
    calls <+: (finishPayload h p ag recvTime shouldAck st calls).calls := by
  cases ag with
  | none => exact List.prefix_rfl
  | some sp => exact List.prefix_append calls _

/-- no call is taken back -/
theorem processPayload_extends (fuel : Nat) (shouldAck : Bool) (u : Unread) (st : State σ)
    (calls : List Call) :
    calls <+: (processPayload h mem p ag recvTime fuel shouldAck u st calls).calls := by
  induction fuel generalizing shouldAck u st calls with
  | zero =>
    unfold processPayload
    split
    · exact finishPayload_extends h p ag recvTime _ _ _
    · exact List.prefix_rfl
  | succ fuel ih =>
    unfold processPayload
    split
    · exact finishPayload_extends h p ag recvTime _ _ _
    · split
      · exact List.prefix_rfl
      · exact List.prefix_rfl
      · dsimp only
        split
        · exact ih _ _ _ _
        · split
          · exact List.prefix_append calls _
          · exact (List.prefix_append calls _).trans (ih _ _ _ _)

/-- inert bytes change nothing -/
theorem processPayload_inert {fuel : Nat} {shouldAck : Bool} {u : Unread} (st : State σ)
    (calls : List Call) (hi : Inert mem ag fuel u) :
    (processPayload h mem p ag recvTime fuel shouldAck u st calls).st = st ∧
      (processPayload h mem p ag recvTime fuel shouldAck u st calls).calls = calls := by
  induction fuel generalizing shouldAck u with
  | zero =>
    unfold processPayload
    by_cases hleft : u.left = 0
    · obtain rfl : ag = none := hi hleft
      rw [if_pos hleft]
      exact ⟨rfl, rfl⟩
    · rw [if_neg hleft]
      exact ⟨rfl, rfl⟩
  | succ fuel ih =>
    unfold Inert at hi
    unfold processPayload
    by_cases hleft : u.left = 0
    · rw [if_pos hleft] at hi
      obtain rfl : ag = none := hi
      rw [if_pos hleft]
      exact ⟨rfl, rfl⟩
    · rw [if_neg hleft] at hi
      rw [if_neg hleft]
      split at hi
      · rename_i e he
        rw [he]
        cases e <;> exact ⟨rfl, rfl⟩
      · rename_i f rest he
        obtain ⟨hno, hrest⟩ := hi
        rw [he]
        dsimp only
        rw [stamp_firstByte, hno, Bool.not_false, if_pos rfl]
        exact ih hrest

/-- and the others make a call -/
theorem processPayload_calls {fuel : Nat} {shouldAck : Bool} {u : Unread} {st : State σ}
    {calls : List Call} (hi : ¬ Inert mem ag fuel u) :
    (processPayload h mem p ag recvTime fuel shouldAck u st calls).calls ≠ calls := by
  have hgrow : ∀ {c : Call} {l : List Call}, calls ++ [c] <+: l → l ≠ calls := by
    intro c l hl he
    have := hl.length_le
    rw [he, List.length_append] at this
    exact absurd this (by simp)
  have hfinish : ag ≠ none → (finishPayload h p ag recvTime shouldAck st calls).calls ≠ calls := by
    intro hag
    cases ag with
    | none => exact absurd rfl hag
    | some sp => exact hgrow List.prefix_rfl
  induction fuel generalizing shouldAck u st with
  | zero =>
    obtain ⟨hleft, hag⟩ := Classical.not_imp.mp hi
    unfold processPayload
    rw [if_pos hleft]
    exact hfinish hag
  | succ fuel ih =>
    unfold Inert at hi
    unfold processPayload
    by_cases hleft : u.left = 0
    · rw [if_pos hleft] at hi ⊢
      exact hfinish hi
    · rw [if_neg hleft] at hi ⊢
      split at hi
      · exact absurd trivial hi
      · rename_i f rest he
        rw [he]
        dsimp only
        rw [stamp_firstByte]
        cases hrow : sessionHandler f.firstByte.toNat with
        | false =>
          rw [Bool.not_false, if_pos rfl]
          refine ih (fun hr => hi ⟨hrow, hr⟩) fun hag => ?_
          cases ag with
          | none => exact absurd rfl hag
          | some sp => exact hgrow List.prefix_rfl
        | true =>
          rw [Bool.not_true, if_neg Bool.false_ne_true]
          split
          · exact hgrow List.prefix_rfl
          · exact hgrow (processPayload_extends h mem p ag recvTime _ _ _ _ _)

end

/-! ## a packet -/

section
variable {σ : Type}

/-- the client takes another destination ID from its first long header -/
def Adopts (isCli : Bool) (buf : List UInt8) (st : State σ) : Prop :=
  isCli = true ∧ st.recvFirst = false ∧ (∃ first, buf[0]? = some first ∧ isLong first = true) ∧
    ∃ src, longHeaderSrcConn buf = some src ∧ src ≠ st.dst

theorem adoptDst_spec {isCli : Bool} {buf : List UInt8} {st st' : State σ}
    (h : adoptDst isCli buf st = some st') :
    st'.rest = st.rest ∧ (st'.dst = st.dst ↔ ¬ Adopts isCli buf st) := by
  obtain ⟨first, hfirst, h⟩ := Option.bind_eq_some_iff.mp h
  split at h
  · rename_i hcond
    simp only [Bool.and_eq_true, Bool.not_eq_true'] at hcond
    obtain ⟨⟨hcli, hrecv⟩, hlong⟩ := hcond
    obtain ⟨src, hsrc, h⟩ := Option.bind_eq_some_iff.mp h
    rw [← Option.some.inj h]
    have hadopts : Adopts isCli buf st ↔ src ≠ st.dst := by
      constructor
      · rintro ⟨_, _, _, src', hsrc', hne⟩
        obtain rfl : src = src' := Option.some.inj (hsrc.symm.trans hsrc')
        exact hne
      · exact fun hne => ⟨hcli, hrecv, ⟨first, hfirst, hlong⟩, src, hsrc, hne⟩
    rw [hadopts, not_not]
    split
    · exact ⟨rfl, Iff.rfl⟩
    · rename_i he
      exact ⟨rfl, iff_of_true rfl (not_not.mp he)⟩
  · rename_i hcond
    rw [← Option.some.inj h]
    refine ⟨rfl, iff_of_true rfl ?_⟩
    rintro ⟨hcli, hrecv, ⟨first', hfirst', hlong⟩, _⟩
    obtain rfl : first = first' := Option.some.inj (hfirst.symm.trans hfirst')
    rw [hcli, hrecv, hlong] at hcond
    exact hcond rfl

variable (h : Handlers σ) (mem frameMem : Nat → Bool) (isCli : Bool) (m : Sealers) (srcLen : Nat)
  (pkt : Packet) (st : State σ)

/-- Whatever the uninitialised payload holds: a frame is handed over, or a number recorded, only
where the payload that is parsed is in memory and is what the AEAD has returned, and where it has
returned nothing the session stays as it was.  The destination ID does so also where the header
leaves the memory behind the source ID, and there is no result. -/
def Authentic : Prop :=
  (∀ junk x, handlePacket h mem frameMem isCli m srcLen junk pkt st = some x →
    (x.calls ≠ [] → ∃ plain, aeadOpened m pkt.buf pkt.ret srcLen = some plain ∧
        x.parsed = some plain) ∧
      (aeadOpened m pkt.buf pkt.ret srcLen = none → x.st.dst = st.dst ∧ x.st.rest = st.rest)) ∧
  (aeadOpened m pkt.buf pkt.ret srcLen = none → ∀ buf ret st',
    sealerOpen mem m pkt.buf pkt.ret srcLen = some (buf, ret, .success) →
      adoptDst isCli buf st = some st' → st'.dst = st.dst)

/-- The condition, for the buffer as it is after opening.  Without a plaintext the client must not
take an ID; and there must be a plaintext with the length that the header gives, or the bytes must be
inert. -/
def Verified : Prop :=
  (aeadOpened m pkt.buf pkt.ret srcLen = none → ∀ buf ret st',
    sealerOpen mem m pkt.buf pkt.ret srcLen = some (buf, ret, .success) →
      adoptDst isCli buf st = some st' → ¬ Adopts isCli buf st) ∧
  ∀ junk buf ret st' l, sealerOpen mem m pkt.buf pkt.ret srcLen = some (buf, ret, .success) →
    adoptDst isCli buf st = some st' → packetPayload junk buf ret srcLen = some (some l) →
      (∃ plain, aeadOpened m pkt.buf pkt.ret srcLen = some plain ∧
        l.payload.payloadLen = plain.length) ∨ l.Inert frameMem

/-- the state before the loop -/
def State.received (pkt : Packet) (st : State σ) : State σ :=
  { st with recvFirst := true, lastRecvTime := pkt.recvTime, currAckEliciting := false }

variable {mem isCli m srcLen pkt st}

/-- a packet that is opened and located -/
theorem handlePacket_opened {junk : Payload × List UInt8} {buf : List UInt8} {ret : Nat}
    {st' : State σ} {y : Option Located}
    (hopen : sealerOpen mem m pkt.buf pkt.ret srcLen = some (buf, ret, .success))
    (hdst : adoptDst isCli buf st = some st') (hy : packetPayload junk buf ret srcLen = some y) :
    ∃ x, handlePacket h mem frameMem isCli m srcLen junk pkt st = some x ∧
      match y with
      | none => x.calls = [] ∧ x.st.dst = st'.dst ∧ x.st.rest = st'.rest
      | some l => x.parsed = l.parsed ∧
          x.st = (processPayload h frameMem l.payload l.ag pkt.recvTime l.bytes.length false l.unread
            (st'.received pkt) []).st ∧
          x.calls = (processPayload h frameMem l.payload l.ag pkt.recvTime l.bytes.length false
            l.unread (st'.received pkt) []).calls := by
  have hok : ¬ Err.success ≠ .success := fun hne => hne rfl
  simp only [handlePacket, hopen, hdst, hy, if_neg hok, Option.bind_eq_bind, Option.bind_some]
  cases y with
  | none => exact ⟨_, rfl, rfl, rfl, rfl⟩
  | some l => exact ⟨_, rfl, rfl, rfl, rfl⟩

variable {h frameMem} in
/-- every result is one of these, or nothing has happened -/
theorem handlePacket_cases {junk : Payload × List UInt8} {x : Handled σ}
    (hx : handlePacket h mem frameMem isCli m srcLen junk pkt st = some x) :
    (x.calls = [] ∧ x.st = st) ∨
      ∃ buf ret st' y, sealerOpen mem m pkt.buf pkt.ret srcLen = some (buf, ret, .success) ∧
        adoptDst isCli buf st = some st' ∧ packetPayload junk buf ret srcLen = some y := by
  obtain ⟨⟨buf, ret, e⟩, hopen, hx⟩ := Option.bind_eq_some_iff.mp hx
  dsimp only at hx
  split at hx
  · rw [← Option.some.inj hx]
    exact .inl ⟨rfl, rfl⟩
  · rename_i he
    obtain rfl : e = .success := not_not.mp he
    obtain ⟨st', hdst, hx⟩ := Option.bind_eq_some_iff.mp hx
    obtain ⟨y, hy, _⟩ := Option.bind_eq_some_iff.mp hx
    exact .inr ⟨buf, ret, st', y, hopen, hdst, hy⟩

variable {h frameMem} in
/-- where only plaintext reaches the handlers, what the buffer holds after opening is verified -/
theorem verified_of_authentic (ha : Authentic h mem frameMem isCli m srcLen pkt st) :
    Verified mem frameMem isCli m srcLen pkt st := by
  refine ⟨fun haead buf ret st' hopen hdst => ?_, fun junk buf ret st' l hopen hdst hl => ?_⟩
  · exact (adoptDst_spec hdst).2.mp (ha.2 haead buf ret st' hopen hdst)
  · by_cases hi : l.Inert frameMem
    · exact .inr hi
    · -- bytes that are not inert are the plaintext
      obtain ⟨x, hx, hparsed, _, hcall⟩ := handlePacket_opened h frameMem hopen hdst hl
      have hne : x.calls ≠ [] := by
        rw [hcall]
        exact processPayload_calls h frameMem l.payload l.ag pkt.recvTime hi
      obtain ⟨plain, hplain, hxparsed⟩ := (ha.1 junk x hx).1 hne
      exact .inl ⟨plain, hplain, (opened_bytes hplain hopen hl).mp (hparsed.symm.trans hxparsed)⟩

variable {h frameMem} in
theorem authentic_of_verified (hv : Verified mem frameMem isCli m srcLen pkt st) :
    Authentic h mem frameMem isCli m srcLen pkt st := by
  have hkept : aeadOpened m pkt.buf pkt.ret srcLen = none → ∀ buf ret st',
      sealerOpen mem m pkt.buf pkt.ret srcLen = some (buf, ret, .success) →
        adoptDst isCli buf st = some st' → st'.dst = st.dst :=
    fun haead buf ret st' hopen hdst =>
      (adoptDst_spec hdst).2.mpr (hv.1 haead buf ret st' hopen hdst)
  refine ⟨fun junk x hx => ?_, hkept⟩
  rcases handlePacket_cases hx with ⟨hcalls, hst⟩ | ⟨buf, ret, st', y, hopen, hdst, hy⟩
  · rw [hst]
    exact ⟨fun hne => absurd hcalls hne, fun _ => ⟨rfl, rfl⟩⟩
  · have hrest := (adoptDst_spec hdst).1
    obtain ⟨x', hx', hxy⟩ := handlePacket_opened h frameMem hopen hdst hy
    obtain rfl : x = x' := Option.some.inj (hx.symm.trans hx')
    cases y with
    | none =>
      obtain ⟨hcalls, hxdst, hxrest⟩ := hxy
      exact ⟨fun hne => absurd hcalls hne,
        fun haead => ⟨hxdst.trans (hkept haead buf ret st' hopen hdst), hxrest.trans hrest⟩⟩
    | some l =>
      obtain ⟨hparsed, hst, hcall⟩ := hxy
      rcases hv.2 junk buf ret st' l hopen hdst hy with ⟨plain, hplain, hlen⟩ | hi
      · exact ⟨fun _ => ⟨plain, hplain, hparsed.trans ((opened_bytes hplain hopen hy).mpr hlen)⟩,
          fun hno => by cases hplain.symm.trans hno⟩
      · obtain ⟨hs, hc⟩ := processPayload_inert h frameMem l.payload l.ag pkt.recvTime
          (st'.received pkt) [] hi
        refine ⟨fun hne => absurd (hcall.trans hc) hne, fun haead => ?_⟩
        rw [hst, hs]
        exact ⟨hkept haead buf ret st' hopen hdst, hrest⟩

variable (mem isCli m srcLen pkt st)

/-- **What reaches the handlers is what the AEAD returns**, exactly for the verified packets. -/
theorem authentic_iff : Authentic h mem frameMem isCli m srcLen pkt st ↔
    Verified mem frameMem isCli m srcLen pkt st :=
  ⟨verified_of_authentic, authentic_of_verified⟩

end

/-- keys for an AEAD that opens nothing -/
def closedSealer : Sealer where
  wSeal := fun _ _ _ => none
  wTag := 16
  wIv := []
  wMask := fun _ _ => 0
  rOpen := fun _ _ _ => none
  rTag := 16
  rIv := []
  rMask := fun _ _ => 0

/-- handlers that keep the frames -/
def keepFrames : Handlers (List Frame) where
  handle := fun f st => ({ st with rest := f :: st.rest }, .success)
  received := fun _ _ _ _ st => st

/-- A datagram with a short header whose first payload byte is a HANDSHAKE_DONE frame, which the AEAD
does not open: the frame is handed over. -/
theorem not_authentic : ¬ ∀ (h : Handlers (List Frame)) (mem frameMem : Nat → Bool) (isCli : Bool)
    (m : Sealers) (srcLen : Nat) (pkt : Packet) (st : State (List Frame)),
      Authentic h mem frameMem isCli m srcLen pkt st := by
  intro hall
  have hrun : (handlePacket keepFrames
      (fun _ => true) (fun _ => true) false ⟨closedSealer, closedSealer, closedSealer⟩ 0
      (⟨0, 0, 0, 0⟩, []) ⟨0x40 :: 0 :: 0x1e :: List.replicate 18 0, 21, 0⟩
      ⟨[], true, 0, false, []⟩).map (fun x => x.calls.length) = some 1 := by decide +kernel
  obtain ⟨x, hx, hlen⟩ := Option.map_eq_some_iff.mp hrun
  obtain ⟨hcalls, _⟩ := (hall _ _ _ _ _ _ _ _).1 _ x hx
  obtain ⟨plain, hopened, _⟩ := hcalls (List.length_pos_iff.mp (by rw [hlen]; exact Nat.one_pos))
  exact absurd (Option.isSome_iff_exists.mpr ⟨_, hopened⟩) (by decide +kernel)

end Recver

end OpenQuic
