import OpenQuic.Modules.ConnidGen
import OpenQuic.Modules.StreamLife
import OpenQuic.Sorter.Covered

/-!
# Frames that change nothing

The handlers of the stream and the connection-ID module, and the frames that leave the receive
streams, the stream sets, the connection IDs and the queued control frames as they are.

* `StreamGuard`            the receiving halves of the streams, their sets, and the calls of `accept_cb`;
* `Settled`, `QuietStream`, `QuietMaxStreamData`   the frames by the streams that they find;
* `QuietNewConnectionId`, `QuietRetireConnectionId`   the frames by the tables that they find;
* `..._quiet`              such a frame changes nothing;
* `..._loud`, `..._iff`    and every other one does, if no allocation fails and the gap lists of the
                           streams are in form.
-/

namespace OpenQuic
open Word Streams

/-! ## what is guarded -/

def Life.isAccepted : Life → Bool
  | .accepted _ => true
  | _ => false

/-- the streams of each set with their receiving halves, and the calls of `accept_cb` -/
structure StreamGuard where
  recvs : SetName → Nat → Option RecvStream
  nextSids : SetName → Nat
  accepted : List Life

def Streams.guard (st : Streams) : StreamGuard where
  recvs := fun name sid => ((st.streams name).find sid).map Stream.recv
  nextSids := fun name => (st.sets name).nextSid
  accepted := st.trace.filter Life.isAccepted

/-! ## streams -/

section
variable {cfg : Config} {mem : StreamAlloc} {st st' : Streams}

theorem putStream_recvs (st : Streams) (name n : SetName) (sid k : Nat) (str : Stream) :
    (st.putStream name sid str).guard.recvs n k =
      if n = name ∧ k = sid then some str.recv else st.guard.recvs n k := by
  show (((st.putStream name sid str).streams n).find k).map Stream.recv = _
  rw [StreamLife.find_putStream]
  split <;> rfl

/-- a stream that is put back with the same receiving half -/
theorem putStream_guard {name : SetName} {sid : Nat} {str0 str : Stream}
    (h : (st.streams name).find sid = some str0) (hr : str.recv = str0.recv) :
    (st.putStream name sid str).guard = st.guard := by
  have hrecvs : (st.putStream name sid str).guard.recvs = st.guard.recvs := by
    funext n k
    rw [putStream_recvs]
    split
    · rename_i hk
      obtain ⟨rfl, rfl⟩ := hk
      show some str.recv = ((st.streams n).find k).map Stream.recv
      rw [h, hr]
      rfl
    · rfl
  have hnext : (st.putStream name sid str).guard.nextSids = st.guard.nextSids := by
    funext n
    show (if n = name then _ else _ : StreamSet).nextSid = _
    split <;> rfl
  rw [show (st.putStream name sid str).guard =
    ⟨(st.putStream name sid str).guard.recvs, (st.putStream name sid str).guard.nextSids,
      st.guard.accepted⟩ from rfl, hrecvs, hnext]

/-- the frame brings nothing new to its stream -/
def Settled (r : RecvStream) (firstByte : UInt8) (off len : Nat) : Prop :=
  (hasFin firstByte = true → r.finFlag = true ∧ r.finalOff = add64 off len) ∧
    (r.closed = true ∨ r.sorter.covers off len)

theorem finish_eq_iff (r : RecvStream) (fin : Bool) (tOff : Nat) :
    r.finish fin tOff = r ↔ (fin = true → r.finFlag = true ∧ r.finalOff = tOff) := by
  unfold RecvStream.finish
  cases fin with
  | false => exact ⟨fun _ => nofun, fun _ => rfl⟩
  | true =>
    constructor
    · intro h _
      rw [if_pos rfl] at h
      rw [← h]
      exact ⟨rfl, rfl⟩
    · intro h
      obtain ⟨h1, h2⟩ := h rfl
      rw [if_pos rfl, ← h1, ← h2]

variable {str : Stream} {conn : ConnFlowctrl} {firstByte : UInt8} {sid off maxData : Nat}
  {data : List UInt8} {x : Stream × ConnFlowctrl × Bool}

theorem recvStreamHandleFrame_settled (hs : Settled str.recv firstByte off data.length)
    (h : recvStreamHandleFrame mem str conn firstByte off data = some x) : x.1.recv = str.recv := by
  obtain ⟨hfin, hdata⟩ := hs
  have hrecv := (finish_eq_iff _ _ _).mpr hfin
  unfold recvStreamHandleFrame at h
  dsimp only at h
  rw [hrecv] at h
  split at h
  · rw [← Option.some.inj h]
  · rename_i hopen
    split at h
    · rw [← Option.some.inj h]
    · rw [Sorter.write_covers _ _ (hdata.resolve_left hopen)] at h
      rw [← Option.some.inj h]

theorem recvStreamHandleFrame_unsettled (hmem : mem.sorter.gap = true)
    (hok : Sorter.GapsOk str.recv.sorter.gaps)
    (h : recvStreamHandleFrame mem str conn firstByte off data = some x)
    (hx : x.1.recv = str.recv) : Settled str.recv firstByte off data.length := by
  have hsorter : (str.recv.finish (hasFin firstByte) (add64 off data.length)).sorter =
    str.recv.sorter := RecvStream.finish_sorter _ _ _
  have hclosed : (str.recv.finish (hasFin firstByte) (add64 off data.length)).closed =
    str.recv.closed := RecvStream.finish_closed _ _ _
  have hfinish := finish_eq_iff str.recv (hasFin firstByte) (add64 off data.length)
  unfold recvStreamHandleFrame at h
  dsimp only at h
  generalize str.recv.finish (hasFin firstByte) (add64 off data.length) = r at h hsorter hclosed hfinish
  rw [hclosed, hsorter] at h
  split at h
  · rename_i hc
    rw [← Option.some.inj h] at hx
    exact ⟨hfinish.mp hx, Or.inl hc⟩
  · split at h
    · rename_i hlen
      rw [← Option.some.inj h] at hx
      exact ⟨hfinish.mp hx, Or.inr (Or.inl hlen)⟩
    · obtain ⟨w, hw, hwx⟩ := Option.map_eq_some_iff.mp h
      rw [← hwx] at hx
      have hgaps : w.1.gaps = str.recv.sorter.gaps := congrArg (fun r => r.sorter.gaps) hx
      have hr : r = str.recv := by
        obtain ⟨sorter, finalOff, finFlag, closed⟩ := r
        have hfinal : finalOff = str.recv.finalOff := congrArg RecvStream.finalOff hx
        have hflag : finFlag = str.recv.finFlag := congrArg RecvStream.finFlag hx
        dsimp only at hsorter hclosed
        rw [hsorter, hfinal, hflag, hclosed]
      refine ⟨hfinish.mp hr, Or.inr ?_⟩
      by_contra hno
      exact Sorter.write_changes hmem hok hno hw hgaps

/-! ### STREAM frames -/

/-- The stream that the frame belongs to is there and settled; for a stream of the session itself
there may be none. -/
def QuietStream (cfg : Config) (st : Streams) (firstByte : UInt8) (sid off len : Nat) : Prop :=
  if streamIdSamePrincipal sid cfg = true then
    streamIdIsBidi sid = true → ∀ r ∈ st.guard.recvs .outbidi sid, Settled r firstByte off len
  else ∃ r ∈ st.guard.recvs (recvSet sid) sid, Settled r firstByte off len

/-- the gap lists of the streams are in form -/
def InForm (g : StreamGuard) : Prop :=
  ∀ name sid, ∀ r ∈ g.recvs name sid, Sorter.GapsOk r.sorter.gaps

theorem mem_recvs {name : SetName} {r : RecvStream} :
    r ∈ st.guard.recvs name sid ↔ ∃ str, (st.streams name).find sid = some str ∧ str.recv = r :=
  Option.map_eq_some_iff

theorem openRecvStream_found (hf : (st.streams (recvSet sid)).find sid = some str) :
    openRecvStream cfg st sid = st := by
  rw [openRecvStream, hf]

/-- a stream that is created is in its set -/
theorem guard_created {st1 : Streams} {str0 : Stream} (hg : st1.guard = st.guard)
    (hf : (st.streams (recvSet sid)).find sid = none)
    (hf1 : (st1.streams (recvSet sid)).find sid = some str0) : False := by
  have hrecv : st1.guard.recvs (recvSet sid) sid = st.guard.recvs (recvSet sid) sid := by rw [hg]
  have hr1 : st1.guard.recvs (recvSet sid) sid = some str0.recv := congrArg (Option.map _) hf1
  have hr : st.guard.recvs (recvSet sid) sid = none := congrArg (Option.map _) hf
  rw [hr1, hr] at hrecv
  cases hrecv

/-- the frame on a stream that is there -/
theorem handleStreamFrame_found {name : SetName}
    (hrel : recvRelationStream cfg st sid = (some name, st))
    (hf : (st.streams name).find sid = some str)
    (h : handleStreamFrame cfg mem st firstByte sid off data = some st') :
    ∃ x, recvStreamHandleFrame mem str st.conn firstByte off data = some x ∧
      st' = { st.putStream name sid x.1 with conn := x.2.1 } := by
  unfold handleStreamFrame at h
  rw [hrel] at h
  dsimp only at h
  rw [hf] at h
  obtain ⟨x, hx, hst⟩ := Option.map_eq_some_iff.mp h
  exact ⟨x, hx, hst.symm⟩

theorem recvRelation_own (hp : streamIdSamePrincipal sid cfg = true) :
    recvRelationStream cfg st sid = (if streamIdIsBidi sid = true ∧
      ((st.streams .outbidi).find sid).isSome then some .outbidi else none, st) := by
  rw [recvRelationStream, if_pos hp]

theorem recvRelation_peer (hp : ¬ streamIdSamePrincipal sid cfg = true) :
    recvRelationStream cfg st sid = (some (recvSet sid), openRecvStream cfg st sid) := by
  rw [recvRelationStream, if_neg hp]

/-- the frame on a stream that is there changes the receiving half of that stream at most -/
theorem handleStreamFrame_guard {name : SetName}
    (hrel : recvRelationStream cfg st sid = (some name, st))
    (hf : (st.streams name).find sid = some str) (hmem : mem.sorter.gap = true)
    (hform : InForm st.guard)
    (h : handleStreamFrame cfg mem st firstByte sid off data = some st')
    (hg : st'.guard = st.guard) : Settled str.recv firstByte off data.length := by
  obtain ⟨x, hx, rfl⟩ := handleStreamFrame_found hrel hf h
  have hrecv : (st.putStream name sid x.1).guard.recvs name sid = st.guard.recvs name sid :=
    congrArg (fun g => g.recvs name sid) hg
  rw [putStream_recvs, if_pos ⟨rfl, rfl⟩] at hrecv
  have hstr : st.guard.recvs name sid = some str.recv := congrArg (Option.map _) hf
  rw [hstr] at hrecv
  exact recvStreamHandleFrame_unsettled hmem (hform name sid _ hstr) hx (Option.some.inj hrecv)

theorem handleStreamFrame_quiet (hq : QuietStream cfg st firstByte sid off data.length)
    (h : handleStreamFrame cfg mem st firstByte sid off data = some st') : st'.guard = st.guard := by
  have hfound : ∀ name str, recvRelationStream cfg st sid = (some name, st) →
      (st.streams name).find sid = some str → Settled str.recv firstByte off data.length →
      st'.guard = st.guard := by
    intro name str hrel hf hs
    obtain ⟨x, hx, rfl⟩ := handleStreamFrame_found hrel hf h
    exact putStream_guard hf (recvStreamHandleFrame_settled hs hx)
  unfold QuietStream at hq
  by_cases hp : streamIdSamePrincipal sid cfg = true
  · rw [if_pos hp] at hq
    by_cases hb : streamIdIsBidi sid = true ∧ ((st.streams .outbidi).find sid).isSome
    · obtain ⟨str, hf⟩ := Option.isSome_iff_exists.mp hb.2
      refine hfound .outbidi str ?_ hf (hq hb.1 _ (mem_recvs.mpr ⟨str, hf, rfl⟩))
      rw [recvRelation_own hp, if_pos hb]
    · unfold handleStreamFrame at h
      rw [recvRelation_own hp, if_neg hb] at h
      rw [← Option.some.inj h]
  · rw [if_neg hp] at hq
    obtain ⟨r, hr, hs⟩ := hq
    obtain ⟨str, hf, rfl⟩ := mem_recvs.mp hr
    refine hfound (recvSet sid) str ?_ hf hs
    rw [recvRelation_peer hp, openRecvStream_found hf]

theorem handleStreamFrame_loud (hmem : mem.sorter.gap = true) (hform : InForm st.guard)
    (h : handleStreamFrame cfg mem st firstByte sid off data = some st')
    (hg : st'.guard = st.guard) : QuietStream cfg st firstByte sid off data.length := by
  unfold QuietStream
  by_cases hp : streamIdSamePrincipal sid cfg = true
  · rw [if_pos hp]
    intro hb r hr
    obtain ⟨str, hf, rfl⟩ := mem_recvs.mp hr
    refine handleStreamFrame_guard ?_ hf hmem hform h hg
    rw [recvRelation_own hp, if_pos ⟨hb, by rw [hf]; rfl⟩]
  · rw [if_neg hp]
    cases hf : (st.streams (recvSet sid)).find sid with
    | some str =>
      refine ⟨str.recv, mem_recvs.mpr ⟨str, hf, rfl⟩, handleStreamFrame_guard ?_ hf hmem hform h hg⟩
      rw [recvRelation_peer hp, openRecvStream_found hf]
    | none =>
      exfalso
      obtain ⟨str, hstr, _⟩ := StreamLife.openRecvStream_find cfg st sid
      unfold handleStreamFrame at h
      rw [recvRelation_peer hp] at h
      dsimp only at h
      rw [hstr] at h
      obtain ⟨x, _, rfl⟩ := Option.map_eq_some_iff.mp h
      have hput : (((openRecvStream cfg st sid).putStream (recvSet sid) sid x.1).streams
          (recvSet sid)).find sid = some x.1 := by
        rw [StreamLife.find_putStream, if_pos ⟨rfl, rfl⟩]
      exact guard_created hg hf hput

theorem handleStreamFrame_framer
    (h : handleStreamFrame cfg mem st firstByte sid off data = some st') : st'.framer = st.framer := by
  have hrest := (StreamLife.recvRelationStream_looked cfg st sid).rest.framer
  unfold handleStreamFrame at h
  dsimp only at h
  split at h
  · rw [← Option.some.inj h]
    exact hrest
  · split at h
    · cases h
    · obtain ⟨x, _, rfl⟩ := Option.map_eq_some_iff.mp h
      exact hrest

/-! ### MAX_STREAM_DATA frames -/

/-- a stream that the peer could open is there -/
def QuietMaxStreamData (cfg : Config) (st : Streams) (sid : Nat) : Prop :=
  streamIdSamePrincipal sid cfg = false → streamIdIsBidi sid = true →
    (st.guard.recvs (recvSet sid) sid).isSome

theorem addActive_ctrls (mem : StreamAlloc) (f : Framer) (sid : Nat) :
    (f.addActive mem sid).ctrls = f.ctrls := by
  unfold Framer.addActive
  split
  · rfl
  · dsimp only
    split <;> rfl

/-- the frame on a stream that is found works on its sending half -/
theorem handleMaxStreamData_shape
    (h : handleMaxStreamData cfg mem st sid maxData = some st') :
    st'.guard = (sendRelationStream cfg st sid).2.guard ∧
      st'.framer.ctrls = (sendRelationStream cfg st sid).2.framer.ctrls := by
  unfold handleMaxStreamData at h
  dsimp only at h
  generalize sendRelationStream cfg st sid = x at h
  split at h
  · rw [← Option.some.inj h]
    exact ⟨rfl, rfl⟩
  · split at h
    · cases h
    · rename_i name _ str hf
      rw [← Option.some.inj h]
      split
      · exact ⟨putStream_guard hf rfl, addActive_ctrls _ _ _⟩
      · exact ⟨putStream_guard hf rfl, rfl⟩

theorem handleMaxStreamData_ctrls
    (h : handleMaxStreamData cfg mem st sid maxData = some st') :
    st'.framer.ctrls = st.framer.ctrls := by
  rw [(handleMaxStreamData_shape h).2,
    (StreamLife.sendRelationStream_looked cfg st sid).rest.framer]

theorem handleMaxStreamData_iff
    (h : handleMaxStreamData cfg mem st sid maxData = some st') :
    st'.guard = st.guard ↔ QuietMaxStreamData cfg st sid := by
  rw [(handleMaxStreamData_shape h).1]
  unfold QuietMaxStreamData
  cases hp : streamIdSamePrincipal sid cfg with
  | true =>
    rw [sendRelationStream, if_pos hp]
    exact ⟨fun _ hno => Bool.noConfusion hno, fun _ => rfl⟩
  | false =>
    rw [sendRelationStream, if_neg (by rw [hp]; decide)]
    cases hb : streamIdIsBidi sid with
    | false => exact ⟨fun _ _ hno => Bool.noConfusion hno, fun _ => rfl⟩
    | true =>
      rw [if_pos rfl]
      cases hf : (st.streams (recvSet sid)).find sid with
      | some str =>
        rw [openRecvStream_found hf]
        exact ⟨fun _ _ _ => Option.isSome_iff_exists.mpr ⟨_, mem_recvs.mpr ⟨str, hf, rfl⟩⟩,
          fun _ => rfl⟩
      | none =>
        constructor
        · intro hg
          obtain ⟨str, hstr, _⟩ := StreamLife.openRecvStream_find cfg st sid
          exact (guard_created hg hf hstr).elim
        · intro hq
          obtain ⟨r, hr⟩ := Option.isSome_iff_exists.mp (hq rfl rfl)
          obtain ⟨str, hstr, _⟩ := mem_recvs.mp hr
          cases hf.symm.trans hstr

end

/-! ## connection IDs -/

/-- every allocation for connection IDs succeeds -/
structure ConnidAlloc.Succeeds (mem : ConnidAlloc) : Prop where
  srcBuf : mem.srcBuf = true
  dstNode : mem.dstNode = true
  dstBuf : mem.dstBuf = true
  gened : mem.gened = true
  frame : mem.frame = true
  updateFrame : mem.updateFrame = true
  retireFrame : ∀ seq, mem.retireFrame seq = true

/-- The number is not below those that were retired, the frame retires no more, and its ID is the one
in use, or one of those stored which does not replace it. -/
def QuietNewConnectionId (g : ConnidGen) (seq retire : Nat) : Prop :=
  g.dstHretire ≤ seq ∧ retire ≤ g.dstHretire ∧
    (seq = g.dstActive ∨ (g.dsts.find seq).isSome ∧ retire < g.dstActive)

/-- no ID of the session has the number -/
def QuietRetireConnectionId (g : ConnidGen) (seq : Nat) : Prop :=
  g.srcHseq < seq ∨ g.srcs.find seq = none

namespace Connids

variable {mem : ConnidAlloc} {s : Connids} {seq retire : Nat} {conn : List UInt8}

theorem handleNewConnectionId_quiet (hq : QuietNewConnectionId s.gen seq retire) :
    (s.handleNewConnectionId mem seq retire conn).1 = s := by
  obtain ⟨h1, h2, h3⟩ := hq
  rw [handleNewConnectionId, if_neg (Nat.not_lt.mpr h1), if_neg (Nat.not_lt.mpr h2)]
  dsimp only
  by_cases hactive : seq = s.gen.dstActive
  · rw [if_pos hactive]
  · obtain ⟨hfound, hretire⟩ := h3.resolve_left hactive
    have hinsert : s.insertDst mem seq conn = (s, .success) := by
      rw [insertDst, if_neg]
      rw [Option.isNone_iff_eq_none]
      exact Option.isSome_iff_ne_none.mp hfound
    rw [if_neg hactive, hinsert]
    dsimp only
    rw [if_neg (Nat.not_le.mpr hretire)]

theorem retireDsts_success (hmem : mem.Succeeds) (retire fuel : Nat) (s : Connids) :
    (retireDsts mem retire fuel s).2 = .success := by
  induction fuel generalizing s with
  | zero => rfl
  | succ fuel ih =>
    rw [retireDsts]
    split
    · rfl
    · rename_i key c _
      split
      · rw [if_pos (hmem.retireFrame key)]
        exact ih _
      · rfl

/-- a new active ID is announced to the peer, and the retired ones stay retired -/
theorem updateDst_shape (hmem : mem.Succeeds) (s : Connids) :
    (s.updateDst mem).1.framer.ctrls =
        s.framer.ctrls ++ [retireConnectionIdFrame s.gen.dstActive] ∧
      s.gen.dstHretire ≤ (s.updateDst mem).1.gen.dstHretire := by
  unfold updateDst
  rw [if_neg (by rw [hmem.updateFrame]; decide)]
  extract_lets s1 g1 s2 s3 g3
  have h2 : s2.framer.ctrls = s.framer.ctrls ++ [retireConnectionIdFrame s.gen.dstActive] ∧
      s.gen.dstHretire ≤ s2.gen.dstHretire := by
    show (ite (s.gen.dstHretire < s.gen.dstActive) _ _ : Connids).framer.ctrls = _ ∧
      _ ≤ (ite (s.gen.dstHretire < s.gen.dstActive) _ _ : Connids).gen.dstHretire
    split
    · rename_i hlt
      exact ⟨rfl, hlt.le⟩
    · exact ⟨rfl, le_rfl⟩
  have h3 : s3.framer.ctrls = s2.framer.ctrls ∧ s3.gen.dstHretire = s2.gen.dstHretire := by
    simp only [s3]
    split <;> exact ⟨rfl, rfl⟩
  split
  · exact ⟨h3.1.trans h2.1, h3.2 ▸ h2.2⟩
  · exact ⟨h3.1.trans h2.1, h3.2 ▸ h2.2⟩

theorem insertDst_keeps (mem : ConnidAlloc) (s : Connids) (seq : Nat) (conn : List UInt8) :
    (s.insertDst mem seq conn).1.framer = s.framer ∧
      (s.insertDst mem seq conn).1.gen.dstHretire = s.gen.dstHretire ∧
      (s.insertDst mem seq conn).1.gen.dstActive = s.gen.dstActive := by
  unfold insertDst
  split
  · split <;> exact ⟨rfl, rfl, rfl⟩
  · exact ⟨rfl, rfl, rfl⟩

theorem insertDst_success (hmem : mem.Succeeds) (s : Connids) (seq : Nat) (conn : List UInt8) :
    (s.insertDst mem seq conn).2 = .success ∧
      ((s.insertDst mem seq conn).1.gen.dsts.find seq).isSome := by
  unfold insertDst
  split
  · rw [if_pos (by rw [hmem.dstNode, hmem.dstBuf]; rfl)]
    refine ⟨rfl, ?_⟩
    show ((s.gen.dsts.insert seq _).find seq).isSome = true
    rw [OrdMap.find_insert_self]
    rfl
  · rename_i hfound
    exact ⟨rfl, Option.isSome_iff_ne_none.mpr fun hn => hfound (Option.isNone_iff_eq_none.mpr hn)⟩

/-- the end of the handler, behind the numbers that are retired -/
def store (mem : ConnidAlloc) (s : Connids) (seq retire : Nat) (conn : List UInt8) : Connids × Err :=
  if seq = s.gen.dstActive then (s, .success)
  else
    match s.insertDst mem seq conn with
    | (s, .success) =>
      if s.gen.dstActive ≤ retire then ((s.updateDst mem).1, .success) else (s, .success)
    | x => x

theorem store_eq (hmem : mem.Succeeds) (h : seq ≠ s.gen.dstActive) :
    (s.store mem seq retire conn).1 = if s.gen.dstActive ≤ retire then
      ((s.insertDst mem seq conn).1.updateDst mem).1 else (s.insertDst mem seq conn).1 := by
  have hsuccess := (insertDst_success hmem s seq conn).1
  have hactive := (insertDst_keeps mem s seq conn).2.2
  rw [store, if_neg h]
  generalize s.insertDst mem seq conn = x at hsuccess hactive
  obtain ⟨s1, e⟩ := x
  dsimp only at hsuccess hactive
  rw [hsuccess]
  dsimp only
  rw [hactive]
  split <;> rfl

theorem store_hretire (hmem : mem.Succeeds) (s : Connids) (seq retire : Nat) (conn : List UInt8) :
    s.gen.dstHretire ≤ (s.store mem seq retire conn).1.gen.dstHretire := by
  by_cases h : seq = s.gen.dstActive
  · rw [store, if_pos h]
  · have hinsert := (insertDst_keeps mem s seq conn).2.1
    rw [store_eq hmem h]
    split
    · exact hinsert.symm.le.trans (updateDst_shape hmem _).2
    · exact hinsert.symm.le

theorem handleNewConnectionId_eq (hmem : mem.Succeeds) (h : s.gen.dstHretire ≤ seq) :
    (s.handleNewConnectionId mem seq retire conn).1 =
      (store mem (if s.gen.dstHretire < retire then
        { (retireDsts mem retire s.gen.dsts.entries.length s).1 with
          gen := { (retireDsts mem retire s.gen.dsts.entries.length s).1.gen with
            dstHretire := retire } }
        else s) seq retire conn).1 := by
  rw [handleNewConnectionId, if_neg (Nat.not_lt.mpr h)]
  have hretire := retireDsts_success hmem retire s.gen.dsts.entries.length s
  split
  · generalize retireDsts mem retire s.gen.dsts.entries.length s = x at hretire
    obtain ⟨s1, e⟩ := x
    dsimp only at hretire
    rw [hretire]
    rfl
  · rfl

theorem handleNewConnectionId_loud (hmem : mem.Succeeds)
    (hgen : (s.handleNewConnectionId mem seq retire conn).1.gen = s.gen)
    (hctrls : (s.handleNewConnectionId mem seq retire conn).1.framer.ctrls = s.framer.ctrls) :
    QuietNewConnectionId s.gen seq retire := by
  have hself : ∀ f : Frame, s.framer.ctrls ++ [f] ≠ s.framer.ctrls := fun f hf => by
    have := congrArg List.length hf
    simp at this
  by_cases h1 : s.gen.dstHretire ≤ seq
  · rw [handleNewConnectionId_eq hmem h1] at hgen hctrls
    by_cases h2 : s.gen.dstHretire < retire
    · -- the frame retires more numbers
      exfalso
      rw [if_pos h2] at hgen
      have hle := store_hretire hmem { (retireDsts mem retire s.gen.dsts.entries.length s).1 with
          gen := { (retireDsts mem retire s.gen.dsts.entries.length s).1.gen with
            dstHretire := retire } } seq retire conn
      rw [hgen] at hle
      exact absurd h2 (Nat.not_lt.mpr hle)
    · rw [if_neg h2] at hgen hctrls
      refine ⟨h1, Nat.le_of_not_lt h2, ?_⟩
      by_cases hactive : seq = s.gen.dstActive
      · exact Or.inl hactive
      · rw [store_eq hmem hactive] at hgen hctrls
        by_cases hle : s.gen.dstActive ≤ retire
        · -- another ID takes the place of the active one
          exfalso
          rw [if_pos hle, (updateDst_shape hmem _).1, (insertDst_keeps mem s seq conn).1] at hctrls
          exact hself _ hctrls
        · rw [if_neg hle] at hgen
          have hfound := (insertDst_success hmem s seq conn).2
          rw [hgen] at hfound
          exact Or.inr ⟨hfound, Nat.lt_of_not_le hle⟩
  · exfalso
    rw [handleNewConnectionId, if_pos (Nat.lt_of_not_le h1), if_pos (hmem.retireFrame seq)] at hctrls
    exact hself _ hctrls

/-! ### RETIRE_CONNECTION_ID frames -/

variable {κ : Type} {newConnid : Option (NewConnid κ)} {retireConnid : Option (ConnId → κ → κ)}
  {ds : List Draw} {t : κ} {x : Connids × κ × Err}

theorem retireSrc_quiet (hq : QuietRetireConnectionId s.gen seq) :
    ∃ e, retireSrc newConnid retireConnid mem ds seq s t = some (s, t, e) := by
  unfold retireSrc
  by_cases h : s.gen.srcHseq < seq
  · exact ⟨_, if_pos h⟩
  · rw [if_neg h, hq.resolve_left h]
    exact ⟨_, rfl⟩

/-- an issue gives a new number, or leaves the IDs as they are; it may queue a frame -/
theorem issueSrc_shape (h : issueSrc newConnid mem ds s t = some x) :
    (x.1.gen = s.gen ∨ x.1.gen.srcHseq = add64 s.gen.srcHseq 1) ∧
      s.framer.ctrls.length ≤ x.1.framer.ctrls.length := by
  unfold issueSrc at h
  split at h
  · rw [← Option.some.inj h]
    exact ⟨Or.inl rfl, le_rfl⟩
  · split at h
    · cases h
    · obtain ⟨y, _, hy⟩ := Option.map_eq_some_iff.mp h
      rw [← hy]
      split
      · exact ⟨Or.inl rfl, le_rfl⟩
      · dsimp only
        split
        · exact ⟨Or.inr rfl, le_rfl⟩
        · refine ⟨Or.inr rfl, ?_⟩
          show _ ≤ (s.framer.ctrls ++ [_]).length
          rw [List.length_append]
          exact Nat.le_add_right _ _

/-- an issue that nothing refuses queues a frame -/
theorem issueSrc_queues (hmem : mem.Succeeds) (hlen : s.gen.connidLen ≠ 0 ∧ s.gen.connidLen ≤ 20)
    (h : issueSrc newConnid mem ds s t = some x) :
    s.framer.ctrls.length < x.1.framer.ctrls.length := by
  rw [issueSrc, if_neg (by omega), if_neg (by rw [hmem.srcBuf]; decide)] at h
  obtain ⟨y, _, hy⟩ := Option.map_eq_some_iff.mp h
  rw [if_neg (by rw [hmem.gened]; decide)] at hy
  dsimp only at hy
  rw [if_neg (by rw [hmem.frame]; decide)] at hy
  rw [← hy]
  show _ < (s.framer.ctrls ++ [_]).length
  rw [List.length_append]
  exact Nat.lt_succ_self _

theorem add64_one_ne (a : Nat) : add64 a 1 ≠ a := by
  show (a + 1) % 2 ^ 64 ≠ a
  omega

theorem retireSrc_loud (h : retireSrc newConnid retireConnid mem ds seq s t = some x)
    (hgen : x.1.gen = s.gen) : QuietRetireConnectionId s.gen seq := by
  unfold retireSrc at h
  by_cases hseq : s.gen.srcHseq < seq
  · exact Or.inl hseq
  · right
    rw [if_neg hseq] at h
    cases hf : s.gen.srcs.find seq with
    | none => rfl
    | some connid =>
      exfalso
      rw [hf] at h
      dsimp only at h
      have hgone : ({ s.gen with srcs := s.gen.srcs.erase seq } : ConnidGen) ≠ s.gen := fun he => by
        have hfind := congrArg (fun g : ConnidGen => g.srcs.find seq) he
        dsimp only at hfind
        rw [OrdMap.find_erase_self, hf] at hfind
        cases hfind
      split at h
      · rw [← Option.some.inj h] at hgen
        exact hgone hgen
      · obtain ⟨y, hy, hyx⟩ := Option.map_eq_some_iff.mp h
        rw [← hyx] at hgen
        obtain hsame | hnext := (issueSrc_shape hy).1
        · exact hgone (hsame.symm.trans hgen)
        · rw [show y.1.gen = s.gen from hgen] at hnext
          exact add64_one_ne _ hnext.symm

end Connids

end OpenQuic
