import OpenQuic.Modules.CryptoIn
import OpenQuic.Peers.Arrival

/-!
# The handshake between two peers

The TLS output of one encryption level, from the write sorter of one peer to the TLS library of the
other, with a network in between that may lose, duplicate and reorder the CRYPTO frames.

* `State`, `step`       the write sorter and its frames, and the session of the peer, which handles
                        frames of other kinds and of the other level in between;
* `cryptoLoop_pieces`   what the loop over the messages does to a sorter that is filled in pieces;
* `handleFrame_other`   the other frames leave the sorter alone;
* `Inv`, `step_inv`     the invariant and the step that keeps it;
* `heard_run`           **the library of the peer is given the messages that were put out, from the
                        first on, in order, whole and once;**
* `heard_all_run`       **once every frame has arrived, it has been given all of them.**
-/

namespace OpenQuic
open Word Runs Framing

/-- the readable bytes of a sorter that is filled in pieces -/
theorem Delivery.PiecesInv.holds {S : Nat → UInt8} {ops : List SortOp} {s : Sorter}
    {got : List (Option UInt8)} (h : PiecesInv S ops ⟨s, got⟩) :
    s.Holds ((List.range (s.availSize - s.readedSize)).map fun i => S (s.readedSize + i)) := by
  have hle : s.readedSize ≤ s.availSize := h.readed_le
  have hlt : s.availSize < Sorter.maxSize := h.avail_lt
  have hmax := Sorter.maxSize_lt
  refine ⟨hle, by omega, by rw [List.length_map, List.length_range], fun i hi => ?_⟩
  rw [List.length_map, List.length_range] at hi
  have hheld : Sorter.byteAt s.clusters (s.readedSize + i) = some (S (s.readedSize + i)) :=
    h.held _ (Nat.le_add_right _ _) (show _ < Sorter.maxSize by omega)
      (h.present (show _ < s.availSize by omega))
  rw [hheld, List.getElem?_map, List.getElem?_range hi]
  rfl

namespace Session
open Delivery

section
variable {τ ρ : Type} {env : Env τ ρ} {o : Outcomes} {c : CryptoSorter}
variable {S : Nat → UInt8} {ops : List SortOp} {got : List (Option UInt8)}

theorem foldlM_pieces {s s' : Session τ ρ} {ps : List (List UInt8)} {left : List UInt8}
    (hp : PiecesInv S ops ⟨s.rSorter c, got⟩) (h : (s.rSorter c).Holds (ps.flatten ++ left))
    (hs : ps.foldlM (give env o c) s = some s') :
    PiecesInv S ops ⟨s'.rSorter c, got ++ ps.flatten.map some⟩ ∧ (s'.rSorter c).Holds left := by
  induction ps generalizing s got with
  | nil =>
    cases hs
    rw [List.flatten_nil, List.map_nil, List.append_nil]
    exact ⟨hp, h⟩
  | cons m ps ih =>
    rw [List.foldlM_cons] at hs
    obtain ⟨s1, hgive, hs⟩ := Option.bind_eq_some_iff.mp hs
    rw [List.flatten_cons, List.append_assoc] at h
    have hlen : m.length ≤ (m ++ (ps.flatten ++ left)).length := by
      rw [List.length_append]
      exact Nat.le_add_right _ _
    have hbytes := (h.read_eq hlen).1
    rw [List.take_left] at hbytes
    have hsorter : s1.rSorter c = ((s.rSorter c).read m.length).1 := by
      rw [(giveFragment_keeps hgive).1]
      exact Function.update_self _ _ _
    have hp1 : PiecesInv S ops ⟨s1.rSorter c, got ++ m.map some⟩ := by
      rw [hsorter, ← hbytes]
      exact read_pieces hp m.length
    have hrest := ih hp1 (give_holds h hgive).1 hs
    rw [List.append_assoc, ← List.map_append, ← List.flatten_cons] at hrest
    exact hrest

/-- The loop gives the library messages only, takes their bytes from the sorter, and leaves no
message in front if it finds the memory for each. -/
theorem cryptoLoop_pieces {s s' : Session (τ × List (List UInt8)) ρ} {e : Err}
    (hp : PiecesInv S ops ⟨s.rSorter c, got⟩)
    (h : cryptoLoop env.logged o c ((s.rSorter c).readable + 1) 0 s = some (s', e)) :
    ∃ ps, (∀ m ∈ ps, IsHandshakeMessage m) ∧ s'.tls.2 = s.tls.2 ++ ps ∧
      PiecesInv S ops ⟨s'.rSorter c, got ++ ps.flatten.map some⟩ ∧
      ((∀ i, o.fragment i = true) →
        ∃ left, (s'.rSorter c).Holds left ∧ ∀ m, IsHandshakeMessage m → ¬ m <+: left) := by
  have hholds := hp.holds
  generalize (List.range _).map _ = bs at hholds
  obtain ⟨ms, rest, hsplit⟩ := exists_splits not_isHandshakeMessage_nil bs
  have hlen : ms.length < (s.rSorter c).readable + 1 := by
    rw [hholds.readable]
    exact Nat.lt_succ_of_le (hsplit.length_le not_isHandshakeMessage_nil)
  rw [cryptoLoop_eq hsplit hholds hlen] at h
  obtain ⟨s1, hfold, hs1⟩ := Option.map_eq_some_iff.mp h
  obtain rfl := (Prod.mk.inj hs1).1
  obtain ⟨ns, hns⟩ := passed_isPrefix o.fragment 0 ms
  have hbytes : (s.rSorter c).Holds
      ((passed o.fragment 0 ms).flatten ++ (ns.flatten ++ rest)) := by
    rw [← List.append_assoc, ← List.flatten_append, hns, ← hsplit.stream]
    exact hholds
  obtain ⟨hpieces, hleft⟩ := foldlM_pieces hp hbytes hfold
  refine ⟨passed o.fragment 0 ms, fun m hm => hsplit.messages m ?_, (foldlM_give hbytes hfold).given,
    hpieces, fun hmem => ⟨ns.flatten ++ rest, hleft, ?_⟩⟩
  · rw [← hns]
    exact List.mem_append_left _ hm
  · rw [passed_eq_self hmem] at hns
    rw [List.append_right_eq_self.mp hns]
    exact hsplit.rest

end

/-! ## the other frames -/

/-- not a CRYPTO frame for the sorter -/
def Elsewhere (c : CryptoSorter) (f : Frame) : Prop :=
  match f.body with
  | .crypto packetType _ _ => cryptoSorter packetType ≠ some c
  | _ => True

section
variable {τ ρ : Type} {env : Env τ ρ} {o : Outcomes} {c : CryptoSorter} {s s' : Session τ ρ} {e : Err}

theorem cryptoLoop_other {c' : CryptoSorter} (hc : c ≠ c') {fuel i : Nat}
    (h : cryptoLoop env o c' fuel i s = some (s', e)) : s'.rSorter c = s.rSorter c := by
  induction fuel generalizing i s with
  | zero => cases h
  | succ fuel ih =>
    obtain rfl | ⟨data, sorter, s1, _, hs1, h⟩ := cryptoLoop_cases h
    · rfl
    · rw [ih h, (giveFragment_keeps hs1).1]
      exact Function.update_of_ne hc _ _

theorem handleCrypto_other {packetType : UInt8} (hc : cryptoSorter packetType ≠ some c) {off : Nat}
    {data : List UInt8} (h : handleCrypto env o packetType off data s = some (s', e)) :
    s'.rSorter c = s.rSorter c := by
  unfold handleCrypto at h
  split at h
  · cases h
    rfl
  · rename_i c' hc'
    obtain ⟨s1, hs1, h⟩ := Option.bind_eq_some_iff.mp h
    obtain ⟨x, _, rfl⟩ := Option.map_eq_some_iff.mp hs1
    have hne : c ≠ c' := fun heq => hc (heq ▸ hc')
    rw [cryptoLoop_other hne h]
    exact Function.update_of_ne hne _ _

theorem handleAck_rSorter {a : AckFrame} (h : handleAck env o a s = some (s', e)) :
    s'.rSorter = s.rSorter := by
  unfold handleAck at h
  split at h
  · cases h
    rfl
  · obtain ⟨x, _, h⟩ := Option.bind_eq_some_iff.mp h
    obtain ⟨st, _, h⟩ := Option.map_eq_some_iff.mp h
    cases h
    rfl

/-- Frames of other kinds, and CRYPTO frames of the other level, leave a sorter alone. -/
theorem handleFrame_other {f : Frame} (hf : Elsewhere c f)
    (h : handleFrame env f s = some (s', e)) : s'.rSorter c = s.rSorter c := by
  unfold handleFrame at h
  unfold Elsewhere at hf
  dsimp only at h
  split at h
  · rw [handleAck_rSorter h]
  · rename_i packetType off data hbody
    rw [hbody] at hf
    exact handleCrypto_other hf h
  · obtain ⟨st, _, h⟩ := Option.map_eq_some_iff.mp h
    cases h
    rfl
  · obtain ⟨st, _, h⟩ := Option.map_eq_some_iff.mp h
    cases h
    rfl
  · cases h
    rfl
  · obtain ⟨x, _, h⟩ := Option.map_eq_some_iff.mp h
    cases h
    rfl
  · cases h
    unfold handleConnectionClose
    split <;> rfl
  · unfold handleHandshakeDone at h
    split at h
    · cases h
      rfl
    · cases h
      rfl
  · cases h
    rfl

end

end Session

namespace Handshake
open Session Delivery

/-! ## the two peers -/

structure State (τ ρ : Type) where
  out : CryptoOut
  /-- everything that the TLS library has put out -/
  written : List UInt8
  recv : Session (τ × List (List UInt8)) ρ
  /-- the messages of this level that the library of the peer was given -/
  heard : List (List UInt8)
  /-- the frames that have arrived, by their number: a record that is not part of the code -/
  arrived : List Nat

inductive Event where
  | output (data : List UInt8)
  | frame (capa : Nat) (junk : Nat → UInt8)
  | deliver (i : Nat) (packetType : UInt8) (recvTime : Time) (rest : List UInt8)
  | other (f : Frame)

section
variable {τ ρ : Type} (env : Env τ ρ)

/-- `quic_session_handler` with the count of the frames -/
def handled (f : Frame) (s : Session (τ × List (List UInt8)) ρ) :
    Option (Session (τ × List (List UInt8)) ρ) :=
  (handleFrame env.logged f s).map fun x => { x.1 with handled := x.1.handled + 1 }

def step (s : State τ ρ) : Event → Option (State τ ρ)
  | .output data => (CryptoOut.step s.out (.output data)).map fun x =>
      { s with out := x, written := s.written ++ data }
  | .frame capa junk => (CryptoOut.step s.out (.frame capa junk)).map fun x => { s with out := x }
  | .deliver i packetType recvTime rest =>
    match s.out.frames[i]? with
    | none => some s
    | some f => do
      let g ← overWire f rest
      let x ← handled env (Recver.stamp packetType recvTime g) s.recv
      return { s with
        recv := x
        heard := s.heard ++ x.tls.2.drop s.recv.tls.2.length
        arrived := s.arrived ++ [i] }
  | .other f => (handled env f s.recv).map fun x => { s with recv := x }

def start (recv : Session (τ × List (List UInt8)) ρ) : State τ ρ :=
  ⟨CryptoOut.start, [], recv, [], []⟩

/-- The output of a level stays below `2 ^ 62` bytes, and the frames arrive in packets of their
level. -/
def Guarded (c : CryptoSorter) (s : State τ ρ) : Event → Prop
  | .output data => (s.written ++ data).length < 2 ^ 62
  | .frame _ _ => True
  | .deliver _ packetType _ _ => cryptoSorter packetType = some c
  | .other f => Elsewhere c f

/-- what the library of the peer was given is messages, the first ones that were put out -/
structure Heard (s : State τ ρ) : Prop where
  messages : ∀ m ∈ s.heard, IsHandshakeMessage m
  first : ∀ ms rest, Splits IsHandshakeMessage s.written ms rest → s.heard <+: ms

/-- where nothing waits in the write sorter and every frame has arrived, nothing is missing -/
def HeardAll (s : State τ ρ) : Prop :=
  sealerShouldSend s.out.sorter = false → (∀ i < s.out.frames.length, i ∈ s.arrived) →
    ∃ rest, Splits IsHandshakeMessage s.written s.heard rest

/-! ## the invariant -/

structure Inv (c : CryptoSorter) (s : State τ ρ) (fs : CryptoOut.Fragments) : Prop where
  out : CryptoOut.OutInv s.written s.out fs
  short : s.written.length < 2 ^ 62
  messages : ∀ m ∈ s.heard, IsHandshakeMessage m
  pieces : ∃ ops, Drawn fs s.arrived ops ∧
    PiecesInv (CryptoOut.streamOf s.written) ops ⟨s.recv.rSorter c, s.heard.flatten.map some⟩
  done : (∀ n i, (env.outcomes n).fragment i = true) →
    ∃ left, (s.recv.rSorter c).Holds left ∧ ∀ m, IsHandshakeMessage m → ¬ m <+: left

end

section
variable {τ ρ : Type} {env : Env τ ρ} {c : CryptoSorter} {s s' : State τ ρ} {fs : CryptoOut.Fragments}

theorem start_inv {recv : Session (τ × List (List UInt8)) ρ} (h : recv.rSorter c = Sorter.init) :
    Inv env c (start recv) [] := by
  refine ⟨CryptoOut.start_out, Nat.two_pow_pos 62, List.forall_mem_nil _, ⟨[], drawn_nil _, ?_⟩,
    fun _ => ⟨[], ?_, fun m hm hp => ?_⟩⟩
  · show PiecesInv _ [] ⟨recv.rSorter c, []⟩
    rw [h]
    exact start_pieces
  · show (recv.rSorter c).Holds []
    rw [h]
    exact ⟨le_refl _, by decide, rfl, fun i hi => absurd hi (Nat.not_lt_zero i)⟩
  · rw [List.prefix_nil.mp hp] at hm
    exact not_isHandshakeMessage_nil hm

theorem consecutive_row {off : Nat} (h : CryptoOut.Consecutive off fs) :
    StreamSend.Consecutive off fs (off + (CryptoOut.payloads fs).length) := by
  induction fs generalizing off with
  | nil => rfl
  | cons f fs ih =>
    have hrest := ih h.2
    rw [Nat.add_assoc, ← List.length_append] at hrest
    exact ⟨h.1, hrest⟩

theorem Inv.row (hi : Inv env c s fs) :
    StreamSend.Consecutive 0 fs (CryptoOut.payloads fs).length ∧
      CryptoOut.payloads fs <+: s.written := by
  have hcons := consecutive_row hi.out.consecutive
  rw [Nat.zero_add] at hcons
  refine ⟨hcons, ?_⟩
  rw [hi.out.payloads]
  exact List.take_prefix _ _

/-- the bytes of a fragment are those of the output at its offset -/
theorem Inv.fragment_at (hi : Inv env c s fs) {x : Nat × List UInt8} (hx : x ∈ fs) :
    ∀ i < x.2.length, x.2.getD i 0 = CryptoOut.streamOf s.written (x.1 + i) := by
  obtain ⟨hcons, more, hmore⟩ := hi.row
  intro i hlt
  have hat := hcons.payload_at hx hlt
  have hin := (hcons.inside hx).2
  rw [Nat.sub_zero, ← List.flatMap_def] at hat
  rw [← hmore, CryptoOut.streamOf_append_left (by omega), CryptoOut.streamOf,
    List.getD_eq_getElem?_getD, List.getD_eq_getElem?_getD]
  exact congrArg (Option.getD · 0) hat.symm

/-- the bytes of a CRYPTO frame reach the peer as they were sent -/
theorem overWire_crypto {off : Nat} {data : List UInt8} (ho : off ≤ varintMax)
    (hd : data.length ≤ varintMax) (rest : List UInt8) :
    overWire (CryptoOut.frameOf (off, data)) rest = some (.init 0x06 (.crypto 0 off data)) := by
  have hstored : (CryptoOut.frameOf (off, data)).WellStored :=
    ⟨List.mem_singleton_self _, ⟨ho, hd⟩, trivial⟩
  have hmis : ¬ (CryptoOut.frameOf (off, data)).Misrouted := by
    show ¬ (0x06 : UInt8).toNat ∈ [0x15, 0x16, 0x17]
    decide
  obtain ⟨chunks, h1, _, h3⟩ := frame_codec rest hstored hmis id fun h => h.elim
  have hbytes : frameBytes (CryptoOut.frameOf (off, data)) = 0x06 :: chunks.flatten := by
    rw [frameBytes, h1]
    rfl
  have hparse : frameParse memOk (0x06 :: (chunks.flatten ++ rest)) =
      .ok (.init 0x06 (.crypto 0 off data), rest) := h3
  unfold overWire
  rw [hbytes, List.cons_append, hparse]

theorem frameOf_injective : Function.Injective CryptoOut.frameOf := by
  intro a b hab
  have hbody := congrArg Frame.body hab
  simp only [CryptoOut.frameOf, Frame.init, Body.crypto.injEq] at hbody
  exact Prod.ext hbody.2.1 hbody.2.2

/-! ## the steps -/

theorem output_inv (hi : Inv env c s fs) {data : List UInt8}
    (hg : (s.written ++ data).length < 2 ^ 62) (hs : step env s (.output data) = some s') :
    Inv env c s' fs := by
  obtain ⟨x, hx, hout⟩ := hi.out.output hg
  rw [step, hx] at hs
  cases hs
  obtain ⟨hcons, hle⟩ := hi.row
  obtain ⟨ops, hdrawn, hpieces⟩ := hi.pieces
  refine ⟨hout, hg, hi.messages, ⟨ops, hdrawn, ?_⟩, hi.done⟩
  refine hpieces.congr fun op hop i hc => ?_
  have hlt := hdrawn.below hcons op hop i hc
  exact (CryptoOut.streamOf_append_left (hlt.trans_le hle.length_le)).symm

theorem frame_inv (hi : Inv env c s fs) {capa : Nat} {junk : Nat → UInt8}
    (hs : step env s (.frame capa junk) = some s') : ∃ fs', Inv env c s' fs' := by
  obtain ⟨x, fs', hx, hout⟩ := hi.out.frame capa junk
  rw [step, hx] at hs
  cases hs
  obtain ⟨hcons, _⟩ := hi.row
  obtain ⟨ops, hdrawn, hpieces⟩ := hi.pieces
  -- the new fragments continue the old ones
  have hframes : s.out.frames <+: x.frames := by
    cases hx
    unfold appendCryptoFrame
    split
    · exact List.prefix_rfl
    · dsimp only
      split
      · exact List.prefix_rfl
      · exact List.prefix_append _ _
  rw [hi.out.frames, hout.frames] at hframes
  obtain ⟨more, hmore⟩ := hframes
  obtain ⟨old, new, rfl, hold, _⟩ := List.map_eq_append_iff.mp hmore.symm
  obtain rfl := List.map_injective_iff.mpr frameOf_injective hold
  exact ⟨_, hout, hi.short, hi.messages, ⟨ops, hdrawn.grow, hpieces⟩, hi.done⟩

theorem deliver_inv (hi : Inv env c s fs) (hcrypto : ∀ n, (env.outcomes n).crypto = .ok) {i : Nat}
    {packetType : UInt8} {recvTime : Time} {rest : List UInt8}
    (hg : cryptoSorter packetType = some c)
    (hs : step env s (.deliver i packetType recvTime rest) = some s') : Inv env c s' fs := by
  rw [step] at hs
  cases hf : s.out.frames[i]? with
  | none =>
    rw [hf] at hs
    cases hs
    exact hi
  | some f =>
    rw [hf] at hs
    rw [hi.out.frames, List.getElem?_map] at hf
    obtain ⟨x, hx, rfl⟩ := Option.map_eq_some_iff.mp hf
    obtain ⟨off, data⟩ := x
    have hxmem := List.mem_of_getElem? hx
    obtain ⟨hcons, hle⟩ := hi.row
    have hend : off + data.length ≤ (CryptoOut.payloads fs).length := (hcons.inside hxmem).2
    have hlen := hle.length_le
    have hshort := hi.short
    have hmax : varintMax = 2 ^ 62 - 1 := rfl
    dsimp only at hs
    rw [overWire_crypto (by omega) (by omega)] at hs
    obtain ⟨_, hframe, hs⟩ := Option.bind_eq_some_iff.mp hs
    cases hframe
    obtain ⟨y, hy, hs⟩ := Option.bind_eq_some_iff.mp hs
    cases hs
    obtain ⟨⟨s1, e⟩, hhandle, rfl⟩ := Option.map_eq_some_iff.mp hy
    replace hhandle : handleCrypto env.logged (env.outcomes s.recv.handled) packetType off data s.recv
        = some (s1, e) := hhandle
    unfold handleCrypto at hhandle
    rw [hg] at hhandle
    obtain ⟨s2, hwrite, hloop⟩ := Option.bind_eq_some_iff.mp hhandle
    -- the frame is written, and the loop takes the messages
    obtain ⟨ops, hdrawn, hpieces⟩ := hi.pieces
    obtain ⟨z, hz, hpieces'⟩ := piece_arrives hpieces (⟨by omega, by omega⟩ : (SortOp.write off
      data.length).Fits) (hdrawn.whole hcons hxmem) (hi.fragment_at hxmem)
    rw [writeCrypto, hcrypto, hz] at hwrite
    cases hwrite
    have hsorter : (s.recv.setSorter c z.1).rSorter c = z.1 := Function.update_self _ _ _
    rw [← hsorter] at hpieces'
    obtain ⟨ps, hps, hlog, hpieces2, hdone⟩ := cryptoLoop_pieces hpieces' hloop
    have hlog' : s1.tls.2 = s.recv.tls.2 ++ ps := hlog
    have hnew : s.heard ++ s1.tls.2.drop s.recv.tls.2.length = s.heard ++ ps := by
      rw [hlog', List.drop_left]
    refine ⟨hi.out, hi.short, fun m hm => ?_, ⟨_, hdrawn.arrive hx, ?_⟩, fun hmem => hdone (hmem _)⟩
    · replace hm : m ∈ s.heard ++ s1.tls.2.drop s.recv.tls.2.length := hm
      rw [hnew] at hm
      rcases List.mem_append.mp hm with hm | hm
      · exact hi.messages m hm
      · exact hps m hm
    · show PiecesInv _ _ ⟨s1.rSorter c, (s.heard ++ s1.tls.2.drop s.recv.tls.2.length).flatten.map some⟩
      rw [hnew, List.flatten_append, List.map_append]
      exact hpieces2

theorem other_inv (hi : Inv env c s fs) {f : Frame} (hg : Elsewhere c f)
    (hs : step env s (.other f) = some s') : Inv env c s' fs := by
  obtain ⟨y, hy, rfl⟩ := Option.map_eq_some_iff.mp hs
  obtain ⟨⟨s1, e⟩, hhandle, rfl⟩ := Option.map_eq_some_iff.mp hy
  have hsame := handleFrame_other hg hhandle
  refine ⟨hi.out, hi.short, hi.messages, ?_, fun hmem => ?_⟩
  · obtain ⟨ops, hdrawn, hpieces⟩ := hi.pieces
    refine ⟨ops, hdrawn, ?_⟩
    show PiecesInv _ _ ⟨s1.rSorter c, _⟩
    rw [hsame]
    exact hpieces
  · show ∃ left, (s1.rSorter c).Holds left ∧ _
    rw [hsame]
    exact hi.done hmem

/-- **One step.** -/
theorem step_inv (hi : ∃ fs, Inv env c s fs) (hcrypto : ∀ n, (env.outcomes n).crypto = .ok)
    {e : Event} (hg : Guarded c s e) (hs : step env s e = some s') : ∃ fs, Inv env c s' fs := by
  obtain ⟨fs, hi⟩ := hi
  cases e with
  | output data => exact ⟨fs, output_inv hi hg hs⟩
  | frame capa junk => exact frame_inv hi hs
  | deliver i packetType recvTime rest => exact ⟨fs, deliver_inv hi hcrypto hg hs⟩
  | other f => exact ⟨fs, other_inv hi hg hs⟩

/-! ## what is heard -/

theorem Inv.heard (hi : Inv env c s fs) : Heard s := by
  refine ⟨hi.messages, fun ms rest hsplit => hsplit.maximal handshakeMessage_prefixFree hi.messages ?_⟩
  obtain ⟨hcons, hle⟩ := hi.row
  obtain ⟨ops, hdrawn, hpieces⟩ := hi.pieces
  have hreaded : (s.recv.rSorter c).readedSize ≤ (s.recv.rSorter c).availSize := hpieces.readed_le
  have havail := hpieces.avail_le (hdrawn.below hcons)
  have heq := hpieces.returned_eq (hreaded.trans (havail.trans hle.length_le))
  rw [List.map_injective_iff.mpr (Option.some_injective _) heq]
  exact List.take_prefix _ _

theorem Inv.heardAll (hi : Inv env c s fs) (hmem : ∀ n i, (env.outcomes n).fragment i = true) :
    HeardAll s := by
  intro hsend hall
  obtain ⟨hcons, _⟩ := hi.row
  obtain ⟨ops, hdrawn, hpieces⟩ := hi.pieces
  obtain ⟨left, hleft, hno⟩ := hi.done hmem
  -- nothing waits in the write sorter, so the fragments are all of the output
  have hwhole : CryptoOut.payloads fs = s.written := by
    obtain ⟨_, _, hd⟩ := hi.out.delivers
    have hreadable : s.out.sorter.readable = s.written.length - s.out.sorter.readedSize := by
      rw [← hi.out.avail]
      exact hd.readable_eq
    unfold sealerShouldSend Sorter.empty at hsend
    rw [Bool.not_eq_false', decide_eq_true_iff, hreadable] at hsend
    rw [hi.out.payloads, List.take_of_length_le (by omega)]
  rw [hwhole] at hcons
  rw [hi.out.frames, List.length_map] at hall
  have hcomplete := (hpieces.complete (hdrawn.below hcons) (hdrawn.all_covered hcons hall)
    (Nat.sub_le s.written.length (s.recv.rSorter c).readedSize)).2
  have hread : ((s.recv.rSorter c).read s.written.length).2 = left.map some := by
    have hlen : left.length ≤ s.written.length := by
      have havail := hpieces.avail_le (hdrawn.below hcons)
      rw [hleft.length]
      exact (Nat.sub_le _ _).trans havail
    have hmin : min s.written.length (s.recv.rSorter c).readable = left.length := by
      rw [hleft.readable]
      exact Nat.min_eq_right hlen
    have hbytes := (hleft.readCluster true (le_refl left.length)).1
    rw [List.take_length] at hbytes
    unfold Sorter.read
    rw [hmin]
    exact hbytes
  rw [hread, ← List.map_append] at hcomplete
  have heq := List.map_injective_iff.mpr (Option.some_injective _) hcomplete
  exact ⟨left, heq.symm, hi.messages, hno⟩

end

/-! ## runs -/

section
variable {τ ρ : Type}

instance (c : CryptoSorter) (f : Frame) : Decidable (Elsewhere c f) := by
  unfold Elsewhere
  split <;> infer_instance

instance (c : CryptoSorter) (s : State τ ρ) : (e : Event) → Decidable (Guarded c s e)
  | .output _ => inferInstanceAs (Decidable (_ < _))
  | .frame _ _ => isTrue trivial
  | .deliver _ _ _ _ => inferInstanceAs (Decidable (_ = _))
  | .other _ => inferInstanceAs (Decidable (Elsewhere _ _))

theorem run_heard {env : Env τ ρ} (hcrypto : ∀ n, (env.outcomes n).crypto = .ok) {c : CryptoSorter}
    {recv : Session (τ × List (List UInt8)) ρ} (hrecv : recv.rSorter c = Sorter.init)
    {es past : List Event} (hg : Along (step env) (Guarded c) (start recv) es) (hp : past <+: es)
    {s : State τ ρ} (h : run (step env) (start recv) past = some s) : ∃ fs, Inv env c s fs :=
  run_reached (fun _ _ _ hi hg hs => step_inv hi hcrypto hg hs) ⟨[], start_inv hrecv⟩ hg hp h

/-- **In order.**  Whatever the network loses, repeats and reorders, and whatever else the peer
handles in between, its TLS library is given the messages of the level from the first on. -/
theorem heard_run (env : Env τ ρ) (hcrypto : ∀ n, (env.outcomes n).crypto = .ok) (c : CryptoSorter)
    (recv : Session (τ × List (List UInt8)) ρ) (hrecv : recv.rSorter c = Sorter.init)
    (es : List Event) (hg : Along (step env) (Guarded c) (start recv) es) :
    ∀ past, past <+: es → ∀ s, run (step env) (start recv) past = some s → Heard s := by
  intro past hp s h
  obtain ⟨_, hi⟩ := run_heard hcrypto hrecv hg hp h
  exact hi.heard

end

/-- two messages in three frames, which arrive out of order and twice -/
def flights : List Event :=
  [.output [1, 0, 0, 2, 7], .frame 3 fun _ => 0, .output [8, 20, 0, 0, 0], .frame 4 fun _ => 0,
    .frame 9 fun _ => 0, .deliver 2 packetInitialType 0 [], .deliver 1 packetInitialType 0 [0x01],
    .other (.init 0x01 .ping), .deliver 0 packetInitialType 0 [], .deliver 1 packetInitialType 0 []]

theorem flights_guarded : Along (step client) (Guarded .initial) (start (reading Sorter.init))
    flights := by decide +kernel

/-- the TLS library is given the two messages -/
theorem flights_runs : ∃ s, run (step client) (start (reading Sorter.init)) flights = some s ∧
    s.heard = [[1, 0, 0, 2, 7, 8], [20, 0, 0, 0]] := by
  have hheard : (run (step client) (start (reading Sorter.init)) flights).map State.heard =
      some [[1, 0, 0, 2, 7, 8], [20, 0, 0, 0]] := by decide +kernel
  exact Option.map_eq_some_iff.mp hheard

theorem heard_run_flights : ∃ s, run (step client) (start (reading Sorter.init)) flights = some s ∧
    Heard s := by
  obtain ⟨s, hs, _⟩ := flights_runs
  exact ⟨s, hs, heard_run client (fun _ => rfl) .initial (reading Sorter.init)
    (reading_rSorter Sorter.init) flights flights_guarded flights List.prefix_rfl s hs⟩

section
variable {τ ρ : Type}

/-- **All of it.**  Where memory is found for every message, nothing is left out once nothing waits to
be sent and every frame has arrived. -/
theorem heard_all_run (env : Env τ ρ) (hcrypto : ∀ n, (env.outcomes n).crypto = .ok)
    (hfragment : ∀ n i, (env.outcomes n).fragment i = true) (c : CryptoSorter)
    (recv : Session (τ × List (List UInt8)) ρ) (hrecv : recv.rSorter c = Sorter.init)
    (es : List Event) (hg : Along (step env) (Guarded c) (start recv) es) :
    ∀ past, past <+: es → ∀ s, run (step env) (start recv) past = some s → HeardAll s := by
  intro past hp s h
  obtain ⟨_, hi⟩ := run_heard hcrypto hrecv hg hp h
  exact hi.heardAll hfragment

end

theorem heard_all_run_flights : ∃ s, run (step client) (start (reading Sorter.init)) flights =
    some s ∧ HeardAll s := by
  obtain ⟨s, hs, _⟩ := flights_runs
  exact ⟨s, hs, heard_all_run client (fun _ => rfl) (fun _ _ => rfl) .initial (reading Sorter.init)
    (reading_rSorter Sorter.init) flights flights_guarded flights List.prefix_rfl s hs⟩

end Handshake
end OpenQuic
