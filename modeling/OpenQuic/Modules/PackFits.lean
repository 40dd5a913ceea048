import OpenQuic.Lib.Budget
import OpenQuic.Modules.Pack
import OpenQuic.Modules.StreamFits
import Mathlib.Algebra.Order.BigOperators.Group.List
import Mathlib.Algebra.Order.Group.Nat

/-!
# What a packed packet takes

* `CallFits`         what an append needs of the packet before it, for each source: the frames of the
                     two queues are checked, the others are not;
* `append_spec`      an append keeps to the budget if and only if this holds;
* `Walk`             the appends of one packet, one after the other;
* `pack_fits_iff`    a packet is not longer than the MTU and its budget does not wrap, exactly when all
                     appends keep to it.
-/

namespace OpenQuic
open Word

/-! ## sizes -/

/-- a frame out of a queue is not larger than what it was taken for -/
theorem takeFrame_fits {capa : Nat} {queue rest : List Frame} {f : Frame}
    (h : Retransmission.takeFrame capa queue = some (f, rest)) : frameSize f ≤ capa := by
  induction queue generalizing rest with
  | nil => cases h
  | cons g queue ih =>
    unfold Retransmission.takeFrame at h
    split at h
    · rename_i hle
      obtain ⟨rfl, _⟩ := Prod.mk.inj (Option.some.inj h)
      exact hle
    · obtain ⟨x, hx, he⟩ := Option.map_eq_some_iff.mp h
      obtain ⟨rfl, _⟩ := Prod.mk.inj he
      exact ih hx

theorem cryptoFrame_size (off : Nat) (data : List UInt8) :
    frameSize (Frame.init frameCryptoType (.crypto 0 off data)) =
      1 + varintFormatLen off + varintFormatLen data.length + data.length := rfl

/-- the size of a STREAM frame with `n` bytes of data and a length -/
def streamBytes (sid off n : Nat) : Nat :=
  1 + varintFormatLen sid + (if off ≠ 0 then varintFormatLen off else 0) + varintFormatLen n + n

theorem streamBytes_eq (sid off n : Nat) : streamBytes sid off n = streamFrameLen sid off false n := rfl

/-- the data of a frame are chosen so that it fits -/
theorem payloadSize_fits {str : Stream} {sid bytes : Nat} (hn : str.payloadSize sid bytes false ≠ 0)
    (hmax : min str.flowctrl.getSwnd str.send.readerLen ≤ varintMax) :
    streamBytes sid str.send.off (str.payloadSize sid bytes false) ≤ bytes := by
  rw [streamBytes_eq]
  exact (payloadSize_fits_iff hn).mpr (Or.inr (Or.inl hmax))

/-- a window and a reader that no varint holds: no room is kept for the length -/
theorem payloadSize_wide {str : Stream} {sid bytes : Nat} (hn : str.payloadSize sid bytes false ≠ 0)
    (hbytes : bytes ≤ varintMax)
    (hmax : varintMax < min str.flowctrl.getSwnd str.send.readerLen) :
    bytes < streamBytes sid str.send.off (str.payloadSize sid bytes false) := by
  rw [streamBytes_eq]
  by_contra hle
  rcases (payloadSize_fits_iff hn).mp (Nat.le_of_not_lt hle) with h | h | h
  · cases h
  · exact absurd hmax (Nat.not_lt.mpr h)
  · omega

namespace Pack

/-- the stream at the head of the queue, as the framer finds it -/
def nextStream (cfg : Config) (st : Streams) : Option (Nat × Stream) :=
  if st.framer.activeSet.entries.isEmpty then none
  else
    match st.framer.activeQueue with
    | [] => none
    | sid :: queue =>
      let x := Streams.sendRelationStream cfg
        { st with framer := { st.framer with activeQueue := queue } } sid
      (x.1.bind fun name => (x.2.streams name).find sid).map fun str => (sid, str)

/-- the frame that the framer takes is the one that this stream makes -/
theorem appendStreamFrame_frame {cfg : Config} {mem : StreamAlloc} {st : Streams} {capa : Nat}
    {x : Nat × Option Frame × Streams} (h : st.appendStreamFrame cfg mem capa false = some x) :
    x.2.1 = ((nextStream cfg st).bind fun e => (e.2.generate mem e.1 capa false).frame).map
        (fun f => { f with onLost := true }) ∧
      x.1 = (x.2.1.map frameSize).getD 0 := by
  unfold Streams.appendStreamFrame at h
  unfold nextStream
  split at h
  · rename_i hempty
    rw [if_pos hempty, ← Option.some.inj h]
    exact ⟨rfl, rfl⟩
  · rename_i hactive
    rw [if_neg hactive]
    cases hq : st.framer.activeQueue with
    | nil =>
      rw [hq] at h
      cases h
    | cons sid queue =>
      rw [hq] at h
      dsimp only at h ⊢
      generalize Streams.sendRelationStream cfg _ sid = y at h ⊢
      cases hn : y.1 with
      | none =>
        rw [hn] at h
        obtain ⟨f, _, hx⟩ := Option.map_eq_some_iff.mp h
        rw [← hx]
        exact ⟨rfl, rfl⟩
      | some name =>
        rw [hn, Option.bind_some] at h
        cases hf : (y.2.streams name).find sid with
        | none =>
          rw [hf, Option.map_none] at h
          obtain ⟨f, _, hx⟩ := Option.map_eq_some_iff.mp h
          rw [← hx, Option.bind_some, hf]
          exact ⟨rfl, rfl⟩
        | some str =>
          rw [hf, Option.map_some] at h
          rw [Option.bind_some, hf, Option.map_some, Option.bind_some]
          dsimp only at h ⊢
          cases hg : (str.generate mem sid capa false).frame with
          | none =>
            rw [hg] at h
            rw [← Option.some.inj h]
            exact ⟨rfl, rfl⟩
          | some f =>
            rw [hg] at h
            dsimp only at h
            split at h
            · obtain ⟨fr, _, hx⟩ := Option.map_eq_some_iff.mp h
              rw [← hx]
              exact ⟨rfl, rfl⟩
            · rw [← Option.some.inj h]
              exact ⟨rfl, rfl⟩

/-! ## one append -/

/-- What an append needs of the packet before it.  Frames out of the two queues are checked.  An ACK
frame is as large as its ranges make it.  Crypto data are cut to the budget and get a header on top.
A closed stream sends a header without data, whatever is left, and no room is kept for a length that
no varint holds. -/
def CallFits (env : Env) : Source → Packing → Prop
  | .ack, p => ∀ a g, p.ack.generate env.ackMem env.now = some (some a, g) →
      frameSize (Frame.init AckGenerator.frameAckType (.ack a)) ≤ p.maxBytes
  | .retransmission, _ => True
  | .ctrl, _ => True
  | .crypto, p => p.crypto.empty = false → env.cryptoMem = true →
      1 + varintFormatLen p.crypto.readedSize + varintFormatLen p.crypto.readable +
        p.crypto.readable ≤ p.maxBytes
  | .stream, p => ∀ e ∈ nextStream env.cfg p.streams, env.streamMem.frame = true →
      (e.2.payloadSize e.1 p.maxBytes false = 0 → e.2.send.closed = true →
        streamBytes e.1 e.2.send.off 0 ≤ p.maxBytes) ∧
      (e.2.payloadSize e.1 p.maxBytes false ≠ 0 →
        min e.2.flowctrl.getSwnd e.2.send.readerLen ≤ varintMax)

/-- an append adds a frame of the size that it returns, or none -/
structure Added (p q : Packing) (size : Nat) : Prop where
  frames : (q.frames.map frameSize).sum = (p.frames.map frameSize).sum + size
  maxBytes : q.maxBytes = p.maxBytes
  payloadLen : q.payloadLen = p.payloadLen

theorem sum_concat (frames : List Frame) (f : Frame) :
    ((frames ++ [f]).map frameSize).sum = (frames.map frameSize).sum + frameSize f := by
  rw [List.map_append, List.sum_append]
  rfl

theorem ack_spec {env : Env} {p q : Packing} {size : Nat} (h : append env .ack p = some (size, q)) :
    Added p q size ∧ (CallFits env .ack p ↔ size ≤ p.maxBytes) := by
  obtain ⟨x, hx, he⟩ := Option.map_eq_some_iff.mp h
  obtain ⟨rfl, rfl⟩ := Prod.mk.inj he
  obtain ⟨⟨o, g⟩, hgen, rfl⟩ := Option.map_eq_some_iff.mp hx
  unfold CallFits
  cases o with
  | none =>
    refine ⟨⟨rfl, rfl, rfl⟩, iff_of_true (fun a g' ha => ?_) (Nat.zero_le _)⟩
    rw [hgen] at ha
    cases ha
  | some a =>
    refine ⟨⟨sum_concat _ _, rfl, rfl⟩, fun hfit => hfit a g hgen, fun hle a' g' ha => ?_⟩
    obtain ⟨ha, _⟩ := Prod.mk.inj (Option.some.inj (hgen.symm.trans ha))
    rw [← Option.some.inj ha]
    exact hle

theorem retransmission_spec {env : Env} {p q : Packing} {size : Nat}
    (h : append env .retransmission p = some (size, q)) :
    Added p q size ∧ (CallFits env .retransmission p ↔ size ≤ p.maxBytes) := by
  obtain ⟨rfl, rfl⟩ := Prod.mk.inj (Option.some.inj h)
  unfold Retransmission.appendFrame
  split
  · exact ⟨⟨rfl, rfl, rfl⟩, iff_of_true trivial (Nat.zero_le _)⟩
  · split
    · rename_i ht
      exact ⟨⟨sum_concat _ _, rfl, rfl⟩, iff_of_true trivial (takeFrame_fits ht)⟩
    · exact ⟨⟨rfl, rfl, rfl⟩, iff_of_true trivial (Nat.zero_le _)⟩

theorem ctrl_spec {env : Env} {p q : Packing} {size : Nat}
    (h : append env .ctrl p = some (size, q)) :
    Added p q size ∧ (CallFits env .ctrl p ↔ size ≤ p.maxBytes) := by
  obtain ⟨rfl, rfl⟩ := Prod.mk.inj (Option.some.inj h)
  unfold appendCtrlFrame
  split
  · rename_i ht
    exact ⟨⟨sum_concat _ _, rfl, rfl⟩, iff_of_true trivial (takeFrame_fits ht)⟩
  · exact ⟨⟨rfl, rfl, rfl⟩, iff_of_true trivial (Nat.zero_le _)⟩

theorem crypto_spec {env : Env} {p q : Packing} {size : Nat}
    (h : append env .crypto p = some (size, q)) :
    Added p q size ∧ (CallFits env .crypto p ↔ size ≤ p.maxBytes) := by
  obtain ⟨rfl, rfl⟩ := Prod.mk.inj (Option.some.inj h)
  unfold appendCryptoFrame CallFits
  cases hempty : p.crypto.empty with
  | true =>
    rw [if_pos rfl]
    refine ⟨⟨rfl, rfl, rfl⟩, iff_of_true (fun hno => ?_) (Nat.zero_le _)⟩
    rw [hempty] at hno
    cases hno
  | false =>
    rw [if_neg Bool.false_ne_true]
    cases hmem : env.cryptoMem with
    | false =>
      refine ⟨⟨rfl, rfl, rfl⟩, iff_of_true (fun _ hno => ?_) (Nat.zero_le _)⟩
      cases hno
    | true =>
      dsimp only
      rw [Bool.not_true, if_neg Bool.false_ne_true]
      refine ⟨⟨sum_concat _ _, rfl, rfl⟩, ?_⟩
      rw [cryptoFrame_size, List.length_map, List.length_range]
      split
      · exact ⟨fun hfit => hfit hempty rfl, fun hle _ _ => hle⟩
      · -- the whole budget is taken for data
        rename_i hlt
        refine iff_of_false (fun hfit => ?_) (by omega)
        have := hfit hempty rfl
        omega

section
variable {env : Env} {p : Packing} {e : Nat × Stream}

/-- a stream that makes no frame needs nothing of the packet -/
theorem callFits_unmade (hnext : nextStream env.cfg p.streams = some e)
    (hg : (e.2.generate env.streamMem e.1 p.maxBytes false).frame = none) :
    CallFits env .stream p := by
  intro e' he' hmem
  obtain rfl := Option.some.inj (hnext.symm.trans he')
  have hopen : ¬ (e.2.payloadSize e.1 p.maxBytes false = 0 → e.2.send.closed = true) := fun hyes => by
    have hsome := generate_isSome.mpr ⟨hmem, hyes⟩
    rw [hg] at hsome
    cases hsome
  rw [Classical.not_imp] at hopen
  exact ⟨fun _ hc => absurd hc hopen.2, fun hne => absurd hopen.1 hne⟩

/-- a stream that makes a frame needs room for it -/
theorem callFits_made (hp : p.maxBytes ≤ varintMax) (hnext : nextStream env.cfg p.streams = some e)
    (hg : (e.2.generate env.streamMem e.1 p.maxBytes false).frame.isSome = true) :
    CallFits env .stream p ↔
      streamBytes e.1 e.2.send.off (e.2.payloadSize e.1 p.maxBytes false) ≤ p.maxBytes := by
  obtain ⟨hmem, hclosed⟩ := generate_isSome.mp hg
  constructor
  · intro hfit
    obtain ⟨hzero, hwide⟩ := hfit e hnext hmem
    by_cases hn : e.2.payloadSize e.1 p.maxBytes false = 0
    · rw [hn]
      exact hzero hn (hclosed hn)
    · exact payloadSize_fits hn (hwide hn)
  · intro hle e' he' _
    obtain rfl := Option.some.inj (hnext.symm.trans he')
    refine ⟨fun hn _ => ?_, fun hn => ?_⟩
    · rw [hn] at hle
      exact hle
    · by_contra hmax
      have := payloadSize_wide hn hp (Nat.lt_of_not_le hmax)
      omega

end

theorem stream_spec {env : Env} {p q : Packing} {size : Nat} (hp : p.maxBytes ≤ varintMax)
    (h : append env .stream p = some (size, q)) :
    Added p q size ∧ (CallFits env .stream p ↔ size ≤ p.maxBytes) := by
  obtain ⟨x, hx, he⟩ := Option.map_eq_some_iff.mp h
  obtain ⟨rfl, rfl⟩ := Prod.mk.inj he
  obtain ⟨hframe, hsize⟩ := appendStreamFrame_frame hx
  have hsum : ((p.frames ++ x.2.1.toList).map frameSize).sum =
      (p.frames.map frameSize).sum + x.1 := by
    rw [hsize]
    cases x.2.1 with
    | none =>
      rw [Option.toList_none, List.append_nil]
      rfl
    | some f => exact sum_concat _ _
  refine ⟨⟨hsum, rfl, rfl⟩, ?_⟩
  cases hnext : nextStream env.cfg p.streams with
  | none =>
    rw [hnext, Option.bind_none, Option.map_none] at hframe
    rw [hframe] at hsize
    refine iff_of_true (fun e he => ?_) (hsize ▸ Nat.zero_le _)
    rw [hnext] at he
    cases he
  | some e =>
    rw [hnext, Option.bind_some] at hframe
    cases hg : (e.2.generate env.streamMem e.1 p.maxBytes false).frame with
    | none =>
      rw [hg, Option.map_none] at hframe
      rw [hframe] at hsize
      exact iff_of_true (callFits_unmade hnext hg) (hsize ▸ Nat.zero_le _)
    | some f =>
      rw [hg, Option.map_some] at hframe
      rw [hframe, Option.map_some, Option.getD_some, generate_size hg, ← streamBytes_eq] at hsize
      rw [hsize]
      exact callFits_made hp hnext (Option.isSome_of_eq_some hg)

/-- **An append keeps to the budget if and only if its source does.** -/
theorem append_spec {env : Env} {src : Source} {p q : Packing} {size : Nat}
    (hp : p.maxBytes ≤ varintMax) (h : append env src p = some (size, q)) :
    Added p q size ∧ (CallFits env src p ↔ size ≤ p.maxBytes) := by
  cases src with
  | ack => exact ack_spec h
  | retransmission => exact retransmission_spec h
  | ctrl => exact ctrl_spec h
  | crypto => exact crypto_spec h
  | stream => exact stream_spec hp h

/-! ## all appends of a packet -/

/-- the appends are made one after the other -/
inductive Walk : Packing → List Call → Packing → Prop
  | none (p : Packing) : Walk p [] p
  | more {p q r : Packing} {c : Call} {cs : List Call} (included : Bool)
      (h : turn c.env c.src p = some (q, c)) (hw : Walk { q with includedUnacked := included } cs r) :
      Walk p (c :: cs) r

theorem turn_call {env : Env} {src : Source} {p q : Packing} {c : Call}
    (h : turn env src p = some (q, c)) : turn c.env c.src p = some (q, c) := by
  obtain ⟨x, _, he⟩ := Option.map_eq_some_iff.mp h
  obtain ⟨_, rfl⟩ := Prod.mk.inj he
  exact h

theorem Walk.append {p q r : Packing} {cs ds : List Call} (h : Walk p cs q) (h' : Walk q ds r) :
    Walk p (cs ++ ds) r := by
  induction h with
  | none p => exact h'
  | more included ht _ ih => exact .more included ht (ih h')

theorem drain_walk (env : Nat → Env) (src : Source) (fuel : Nat) (p : Packing) :
    Walk p (drain env src fuel p).2.1 (drain env src fuel p).1 := by
  induction fuel generalizing p with
  | zero => exact .none p
  | succ fuel ih =>
    unfold drain
    cases ht : turn (env fuel) src p with
    | none => exact .none p
    | some x =>
      obtain ⟨q, c⟩ := x
      dsimp only
      split
      · exact .more q.includedUnacked (turn_call ht) (.none _)
      · exact .more true (turn_call ht) (ih _)

theorem drainAll_walk (env : Source → Nat → Env) (fuel : Nat) (srcs : List Source) (p : Packing) :
    Walk p (drainAll env fuel srcs p).2.1 (drainAll env fuel srcs p).1 := by
  induction srcs generalizing p with
  | nil => exact .none p
  | cons src srcs ih =>
    unfold drainAll
    have hw := drain_walk (env src) src fuel p
    dsimp only
    split
    · exact hw.append (ih _)
    · exact hw

theorem collect_walk (env : Source → Nat → Env) (fuel : Nat) (probe : Bool) (srcs : List Source)
    (p : Packing) :
    Walk p (collect env fuel probe srcs p).2.1 (collect env fuel probe srcs p).1 := by
  unfold collect
  cases ht : turn (env .ack fuel) .ack p with
  | none => exact .none p
  | some x =>
    obtain ⟨q, c⟩ := x
    dsimp only
    split
    · exact .more q.includedUnacked (turn_call ht) (.none _)
    · exact .more q.includedUnacked (turn_call ht) (drainAll_walk env fuel srcs q)

/-- what an append and the lines behind it do -/
structure Turn (p q : Packing) (c : Call) : Prop where
  before : c.before = p
  frames : (q.frames.map frameSize).sum = (p.frames.map frameSize).sum + c.size
  maxBytes : q.maxBytes = sub32 p.maxBytes (u32 c.size)
  payloadLen : q.payloadLen = add32 p.payloadLen (u32 c.size)
  fits : CallFits c.env c.src c.before ↔ c.size ≤ c.before.maxBytes

theorem turn_spec {env : Env} {src : Source} {p q : Packing} {c : Call}
    (hp : p.maxBytes ≤ varintMax) (h : turn env src p = some (q, c)) : Turn p q c := by
  obtain ⟨⟨size, q'⟩, happ, he⟩ := Option.map_eq_some_iff.mp h
  obtain ⟨rfl, rfl⟩ := Prod.mk.inj he
  obtain ⟨hadded, hfits⟩ := append_spec hp happ
  exact ⟨rfl, hadded.frames, rfl, rfl, hfits⟩

/-- the budget stays a 32-bit value -/
theorem Turn.maxBytes_le {p q : Packing} {c : Call} (h : Turn p q c) : q.maxBytes ≤ varintMax := by
  rw [h.maxBytes]
  have hlt : sub32 p.maxBytes (u32 c.size) < 2 ^ 32 := sub_lt _ _ _
  unfold varintMax
  omega

theorem Walk.fits {p r : Packing} {cs : List Call} (h : Walk p cs r) (hp : p.maxBytes ≤ varintMax) :
    ∀ c ∈ cs, (CallFits c.env c.src c.before ↔ c.size ≤ c.before.maxBytes) := by
  induction h with
  | none p => exact List.forall_mem_nil _
  | more _ ht _ ih =>
    have hturn := turn_spec hp ht
    exact List.forall_mem_cons.mpr ⟨hturn.fits, ih hturn.maxBytes_le⟩

theorem Walk.frames {p r : Packing} {cs : List Call} (h : Walk p cs r)
    (hp : p.maxBytes ≤ varintMax) :
    (r.frames.map frameSize).sum = (p.frames.map frameSize).sum + (cs.map Call.size).sum := by
  induction h with
  | none p => rfl
  | more _ ht _ ih =>
    have hturn := turn_spec hp ht
    rw [ih hturn.maxBytes_le, List.map_cons, List.sum_cons, ← Nat.add_assoc, ← hturn.frames]

/-- the budget is reduced by one size after the other -/
theorem Walk.budget {p r : Packing} {cs : List Call} (h : Walk p cs r)
    (hp : p.maxBytes ≤ varintMax) :
    (cs.map fun c => (c.before.maxBytes, c.size)) =
      Budget.steps 32 p.maxBytes (cs.map Call.size) := by
  induction h with
  | none p => rfl
  | more _ ht _ ih =>
    have hturn := turn_spec hp ht
    rw [List.map_cons, List.map_cons, Budget.steps, hturn.before, ih hturn.maxBytes_le]
    show _ :: Budget.steps 32 _ _ = _
    rw [hturn.maxBytes]
    rfl

theorem Walk.payloadLen {p r : Packing} {cs : List Call} (h : Walk p cs r)
    (hp : p.maxBytes ≤ varintMax) (hlt : p.payloadLen + (cs.map Call.size).sum < 2 ^ 32) :
    r.payloadLen = p.payloadLen + (cs.map Call.size).sum := by
  induction h with
  | none p => rfl
  | more _ ht _ ih =>
    rename_i p q r c cs included _
    have hturn := turn_spec hp ht
    have hlen := hturn.payloadLen
    rw [List.map_cons, List.sum_cons] at hlt ⊢
    have hq : q.payloadLen = p.payloadLen + c.size := by
      rw [hlen, u32_of_lt (by omega), add32_of_lt (by omega)]
    rw [ih hturn.maxBytes_le (by show q.payloadLen + _ < _; omega)]
    show q.payloadLen + _ = _
    omega

/-- all sizes keep to what is left exactly when they all fit into the budget at the start -/
theorem Walk.within_iff {p r : Packing} {cs : List Call} (h : Walk p cs r)
    (hp : p.maxBytes < 2 ^ 32) :
    (∀ c ∈ cs, c.size ≤ c.before.maxBytes) ↔ (cs.map Call.size).sum ≤ p.maxBytes := by
  have hvar : p.maxBytes ≤ varintMax := by
    unfold varintMax
    omega
  rw [← Budget.steps_within_iff hp, ← h.budget hvar, List.forall_mem_map]

theorem Walk.callFits_iff {p r : Packing} {cs : List Call} (h : Walk p cs r)
    (hp : p.maxBytes < 2 ^ 32) :
    (∀ c ∈ cs, CallFits c.env c.src c.before) ↔ (cs.map Call.size).sum ≤ p.maxBytes := by
  have hvar : p.maxBytes ≤ varintMax := by
    unfold varintMax
    omega
  rw [← h.within_iff hp]
  exact forall₂_congr fun c hc => h.fits hvar c hc

/-! ## the packet -/

/-- the budget does not wrap, and the packet is not longer than the MTU -/
def Fits (l : Level) (x : Packed) : Prop :=
  (∀ c ∈ x.calls, u32 c.size ≤ c.before.maxBytes) ∧
    x.hdr.length + (x.packing.frames.map frameSize).sum + l.tag ≤ l.mtu

/-- the budget at the start: what the header and the tag leave of the MTU -/
theorem startBudget_eq {mtu room tag : Nat} (hmtu : mtu < 2 ^ 32) (hroom : room + tag ≤ mtu) :
    u32 (sub64 (sub64 mtu room) tag) = mtu - room - tag := by
  have hsub : sub64 mtu room = mtu - room := sub64_of_le (by omega) (by omega)
  rw [hsub, sub64_of_le (by omega) (by omega), u32_of_lt (by omega)]

/-- a walk from an empty packet gives a packet that fits exactly when the sizes fit -/
theorem Walk.packet_fits_iff {p r : Packing} {cs : List Call} {room : Nat}
    {hdr : Nat → List UInt8} {l : Level} (h : Walk p cs r) (hmtu : l.mtu < 2 ^ 32)
    (hroom : room + l.tag ≤ l.mtu) (hhdr : ∀ n, n ≤ l.mtu → (hdr n).length ≤ room)
    (hmax : p.maxBytes = l.mtu - room - l.tag) (hlen : p.payloadLen = 0)
    (hnone : (p.frames.map frameSize).sum = 0) :
    ((∀ c ∈ cs, u32 c.size ≤ c.before.maxBytes) ∧
      (hdr r.payloadLen).length + (r.frames.map frameSize).sum + l.tag ≤ l.mtu) ↔
      (cs.map Call.size).sum ≤ p.maxBytes := by
  have hp : p.maxBytes < 2 ^ 32 := by omega
  have hvar : p.maxBytes ≤ varintMax := by
    unfold varintMax
    omega
  rw [h.frames hvar, hnone, Nat.zero_add]
  constructor
  · intro hfits
    obtain ⟨hwrap, hfit⟩ := hfits
    refine (h.within_iff hp).mp fun c hc => ?_
    have hle : c.size ≤ (cs.map Call.size).sum := List.le_sum_of_mem (List.mem_map_of_mem hc)
    have hsize := hwrap c hc
    rwa [u32_of_lt (by omega)] at hsize
  · intro hsum
    refine ⟨fun c hc => ?_, ?_⟩
    · exact (Nat.mod_le _ _).trans ((h.within_iff hp).mpr hsum c hc)
    · have hpayload := h.payloadLen hvar (by omega)
      rw [hlen, Nat.zero_add] at hpayload
      have := hhdr r.payloadLen (by omega)
      omega

theorem pack_fits {mem : Bool} {env : Source → Nat → Env} {fuel : Nat} {probe : Bool}
    {srcs : List Source} {room : Nat} {hdr : Nat → List UInt8} {l : Level} {x : Packed}
    (hmtu : l.mtu < 2 ^ 32) (hroom : room + l.tag ≤ l.mtu)
    (hhdr : ∀ n, n ≤ l.mtu → (hdr n).length ≤ room)
    (h : pack mem env fuel probe srcs room hdr l = some x) :
    Fits l x ↔ ∀ c ∈ x.calls, CallFits c.env c.src c.before := by
  unfold pack at h
  split at h
  · cases h
  · dsimp only at h
    generalize hp : Packing.mk [] 0 false (u32 (sub64 (sub64 l.mtu room) l.tag)) 0 l.ack l.rtx
      l.crypto l.streams = p at h
    have hw := collect_walk env fuel probe srcs p
    generalize collect env fuel probe srcs p = y at h hw
    split at h
    · cases h
    · rw [← Option.some.inj h]
      have hmax : p.maxBytes = l.mtu - room - l.tag := by
        rw [← hp]
        exact startBudget_eq hmtu hroom
      have hlen : p.payloadLen = 0 := by rw [← hp]
      have hnone : (p.frames.map frameSize).sum = 0 := by
        rw [← hp]
        rfl
      rw [hw.callFits_iff (by omega)]
      exact hw.packet_fits_iff hmtu hroom hhdr hmax hlen hnone

/-! ## the three functions -/

/-- what is kept free for the header -/
def headerRoom (l : Level) : Space → Nat
  | .initial => initialHeaderMaxSize l.dst l.src l.num l.mtu
  | .handshake => handshakeHeaderMaxSize l.dst l.src l.num l.mtu
  | .app => (generateShortHeader l.dst l.num).length

def packPacket (mem : Bool) (env : Source → Nat → Env) (fuel : Nat) (probe : Bool) (l : Level)
    (e : Env) : Space → Option Packed
  | .initial => packInitialPacket mem env fuel probe l
  | .handshake => packHandshakePacket mem env fuel probe l
  | .app => packAppPacket mem env fuel probe l e

/-- **A packet stays within the MTU, and its budget does not wrap, exactly when every append keeps
to what is left.** -/
theorem pack_fits_iff {mem : Bool} {env : Source → Nat → Env} {fuel : Nat} {probe : Bool}
    {l : Level} {e : Env} {space : Space} {x : Packed} (hmtu : l.mtu < 2 ^ 32)
    (hroom : headerRoom l space + l.tag ≤ l.mtu)
    (h : packPacket mem env fuel probe l e space = some x) :
    Fits l x ↔ ∀ c ∈ x.calls, CallFits c.env c.src c.before := by
  have hvar : l.mtu ≤ varintMax := by
    unfold varintMax
    omega
  cases space with
  | initial =>
    replace h : packInitialPacket mem env fuel probe l = some x := h
    unfold packInitialPacket at h
    split at h
    · cases h
    · split at h
      · cases h
      · exact pack_fits hmtu hroom (fun n hn => generateInitialHeader_length_le hn hvar) h
  | handshake =>
    replace h : packHandshakePacket mem env fuel probe l = some x := h
    unfold packHandshakePacket at h
    split at h
    · cases h
    · split at h
      · cases h
      · exact pack_fits hmtu hroom (fun n hn => generateHandshakeHeader_length_le hn hvar) h
  | app =>
    replace h : packAppPacket mem env fuel probe l e = some x := h
    unfold packAppPacket at h
    dsimp only at h
    split at h
    · cases h
    · split at h
      · cases h
      · -- the windows do not change the MTU
        exact pack_fits (l := { l with streams := l.streams.processRwnd e.cfg e.streamMem }) hmtu
          hroom (fun _ _ => Nat.le_refl _) h

/-! ## a handshake -/

/-- the environment of an append that gets its memory -/
def allOk : Env := ⟨serverCfg, 0, true, true, fun _ => 0, .ok⟩

/-- an Initial level with the crypto data of a flight, at an MTU of 1460 -/
def flight (len : Nat) : Level :=
  ⟨1460, 0, [], [], 16, .init, .init,
    (((Sorter.init.append .ok len fun _ => 0x16).map Prod.fst).getD .init), .init serverCfg⟩

/-- a flight of 100 bytes -/
theorem pack_fits_iff_flight :
    ∃ x, packPacket true (fun _ _ => allOk) 10 false (flight 100) allOk .initial = some x ∧
      (Fits (flight 100) x ↔ ∀ c ∈ x.calls, CallFits c.env c.src c.before) := by
  have hsome : (packPacket true (fun _ _ => allOk) 10 false (flight 100) allOk .initial).isSome =
      true := by decide +kernel
  obtain ⟨x, hx⟩ := Option.isSome_iff_exists.mp hsome
  exact ⟨x, hx, pack_fits_iff (by decide) (by decide) hx⟩

/-- A flight of 2000 bytes: the data fill the budget of 1433 bytes, the frame has 1437. -/
theorem not_pack_fits :
    ¬ ∀ (mem : Bool) (env : Source → Nat → Env) (fuel : Nat) (probe : Bool) (l : Level) (e : Env)
      (space : Space) (x : Packed), l.mtu < 2 ^ 32 → headerRoom l space + l.tag ≤ l.mtu →
      packPacket mem env fuel probe l e space = some x → x.ended = .done → Fits l x := by
  intro h
  have hx : (packPacket true (fun _ _ => allOk) 10 false (flight 2000) allOk .initial).map (fun x =>
      (x.ended, x.calls.map fun c => (c.size, c.before.maxBytes))) =
      some (.done, [(0, 1433), (0, 1433), (1437, 1433), (572, 4294967292), (0, 4294966720)]) := by
    decide +kernel
  obtain ⟨x, hpack, he⟩ := Option.map_eq_some_iff.mp hx
  obtain ⟨hdone, hcalls⟩ := Prod.mk.inj he
  have hmem : (1437, 1433) ∈ x.calls.map fun c => (c.size, c.before.maxBytes) := by
    rw [hcalls]
    decide
  obtain ⟨c, hc, hsize⟩ := List.mem_map.mp hmem
  obtain ⟨hsize, hmax⟩ := Prod.mk.inj hsize
  have hfit := (h true _ 10 false (flight 2000) allOk .initial x (by decide) (by decide) hpack
    hdone).1 c hc
  rw [hsize, hmax] at hfit
  exact absurd hfit (by decide)

end Pack

end OpenQuic
