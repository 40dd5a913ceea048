import OpenQuic.Lib.Runs
import OpenQuic.Modules.Stream
import OpenQuic.Sorter.Gaps

/-!
# The receiving half of a stream

The runs of one receive stream: STREAM frames in any order, turns of reads, and closes.

* `recvStreamHandleFrame_spec`   what a STREAM frame does to a stream;
* `Stream.read_spec`, `Stream.close_spec`   what a read and a close do to it;
* `Agree`           the stream and its flow control have the same final size;
* `Contradicts`     a frame that does not fit the final size;
* `final_run`       along guarded runs the two agree, and a frame that contradicts has no effect.
-/

namespace OpenQuic
open Word

/-! ## the operations on a stream -/

namespace Sorter

theorem readCluster_length (consume : Bool) (fuel : Nat) (cs : Rbt Cluster) (off len : Nat) :
    (readCluster consume fuel cs off len).2.length ≤ len := by
  induction fuel generalizing cs off len with
  | zero => exact Nat.zero_le _
  | succ fuel ih =>
    rw [readCluster]
    split
    · exact Nat.zero_le _
    · dsimp only
      split
      · exact Nat.zero_le _
      · dsimp only
        rw [List.length_append, List.length_map, List.length_range]
        have hmin : min len (clusterSize - off % clusterSize) ≤ len := Nat.min_le_left _ _
        generalize min len (clusterSize - off % clusterSize) = n at hmin ⊢
        have := ih (if (consume : Prop) ∧ off / clusterSize ≠ add64 off n / clusterSize then
          cs.erase (off / clusterSize) else cs) (add64 off n) (len - n)
        omega

theorem readCluster_empty (consume : Bool) (fuel off len : Nat) :
    readCluster consume fuel OrdMap.empty off len = (OrdMap.empty, []) := by
  cases fuel with
  | zero => rfl
  | succ fuel =>
    rw [readCluster]
    split
    · rfl
    · dsimp only
      rw [OrdMap.find_empty]

theorem read_length (s : Sorter) (len : Nat) : (s.read len).2.length ≤ min len s.readable :=
  readCluster_length true _ s.clusters s.readedSize _

/-- a sorter without clusters has nothing to read -/
theorem read_of_empty {s : Sorter} (h : s.clusters = OrdMap.empty) (len : Nat) :
    (s.read len).2 = [] ∧ (s.read len).1.clusters = OrdMap.empty := by
  unfold read
  dsimp only
  rw [h, readCluster_empty]
  exact ⟨rfl, rfl⟩

theorem read_headFirst {s : Sorter} (h : HeadFirst s) (len : Nat) : HeadFirst (s.read len).1 := h

end Sorter

/-- What a read does: nothing of the records of the final size changes, and the bytes that it takes
are counted. -/
structure Stream.ReadOut (str : Stream) (conn : ConnFlowctrl) (len : Nat) (str' : Stream)
    (conn' : ConnFlowctrl) : Prop where
  send : str'.send = str.send
  finalOff : str'.recv.finalOff = str.recv.finalOff
  finFlag : str'.recv.finFlag = str.recv.finFlag
  closed : str'.recv.closed = str.recv.closed
  flowFin : str'.flowctrl.finFlag = str.flowctrl.finFlag
  recvOff : str'.flowctrl.recvOff = str.flowctrl.recvOff
  sorter : str'.recv.sorter = str.recv.sorter ∨ str'.recv.sorter = (str.recv.sorter.read len).1
  counts : (str'.flowctrl = str.flowctrl ∧ conn' = conn) ∨ ∃ n, n = (str.recv.sorter.read len).2.length ∧
    0 < n ∧ str'.flowctrl.readOff = add64 str.flowctrl.readOff n ∧
    conn'.recvOff = conn.recvOff ∧ conn'.readOff = add64 conn.readOff n

theorem Stream.read_spec {cfg : Config} {rtt : Nat} {now : Time} {woken : Bool} {len : Nat}
    {str : Stream} {conn : ConnFlowctrl} {x : Stream × ConnFlowctrl × Bool}
    (h : str.read cfg rtt now woken len conn = some x) : str.ReadOut conn len x.1 x.2.1 := by
  unfold Stream.read at h
  split at h
  · rw [← Option.some.inj h]
    exact ⟨rfl, rfl, rfl, rfl, rfl, rfl, Or.inl rfl, Or.inl ⟨rfl, rfl⟩⟩
  · extract_lets r recv at h
    split at h
    · rw [← Option.some.inj h]
      exact ⟨rfl, rfl, rfl, rfl, rfl, rfl, Or.inr rfl, Or.inl ⟨rfl, rfl⟩⟩
    · rename_i hn
      obtain ⟨y, hy, hx⟩ := Option.map_eq_some_iff.mp h
      obtain ⟨h1, h2, h3, h4, h5⟩ := StreamFlowctrl.read_spec hy
      rw [← hx]
      exact ⟨rfl, rfl, rfl, rfl, h2, h1, Or.inr rfl,
        Or.inr ⟨_, rfl, Nat.pos_of_ne_zero hn, h3, h4, h5⟩⟩

/-- a reader that has reached the final size gets nothing more -/
theorem Stream.read_done (cfg : Config) (rtt : Nat) (now : Time) (len : Nat) {str : Stream}
    (conn : ConnFlowctrl) (hf : str.recv.finFlag = true)
    (hle : str.recv.finalOff ≤ str.recv.sorter.readedSize) :
    str.read cfg rtt now false len conn = some (str, conn, false) := by
  unfold Stream.read
  refine if_pos ?_
  rw [hf, decide_eq_true hle]
  simp

/-- A close gives the bytes that were not read back to the connection, once the stream has its final
size. -/
structure Stream.CloseOut (str : Stream) (conn : ConnFlowctrl) (str' : Stream)
    (conn' : ConnFlowctrl) : Prop where
  send : str'.send = { str.send with closed := true }
  flowctrl : str'.flowctrl = str.flowctrl
  finalOff : str'.recv.finalOff = str.recv.finalOff
  finFlag : str'.recv.finFlag = str.recv.finFlag
  closed : str'.recv.closed = true
  sorter : str'.recv = str.recv ∨ str'.recv.sorter = str.recv.sorter.destory
  recvOff : conn'.recvOff = conn.recvOff
  readOff : conn'.readOff =
    if (!str.recv.closed && str.recv.finFlag) = true then
      if 0 < sub64 str.flowctrl.recvOff str.flowctrl.readOff then
        add64 conn.readOff (sub64 str.flowctrl.recvOff str.flowctrl.readOff)
      else conn.readOff
    else conn.readOff

theorem RecvStream.close_spec (r : RecvStream) : r.close.finalOff = r.finalOff ∧
    r.close.finFlag = r.finFlag ∧ r.close.closed = true ∧
      (r.close = r ∨ r.close.sorter = r.sorter.destory) := by
  unfold RecvStream.close
  split
  · rename_i hc
    exact ⟨rfl, rfl, hc, Or.inl rfl⟩
  · exact ⟨rfl, rfl, rfl, Or.inr rfl⟩

theorem Stream.close_spec {cfg : Config} {rtt : Nat} {now : Time} {str : Stream}
    {conn : ConnFlowctrl} {x : Stream × ConnFlowctrl}
    (h : str.close cfg rtt now conn = some x) : str.CloseOut conn x.1 x.2 := by
  unfold Stream.close at h
  extract_lets completed at h
  obtain ⟨conn', hc, hx⟩ := Option.map_eq_some_iff.mp h
  obtain ⟨h1, h2, h3, h4⟩ := str.recv.close_spec
  have hconn : conn'.recvOff = conn.recvOff ∧ conn'.readOff =
      if completed = true then
        if 0 < sub64 str.flowctrl.recvOff str.flowctrl.readOff then
          add64 conn.readOff (sub64 str.flowctrl.recvOff str.flowctrl.readOff)
        else conn.readOff
      else conn.readOff := by
    split at hc
    · rename_i hcomp
      rw [if_pos hcomp]
      exact StreamFlowctrl.abandon_spec hc
    · rename_i hcomp
      rw [if_neg hcomp, ← Option.some.inj hc]
      exact ⟨rfl, rfl⟩
  rw [← hx]
  exact ⟨rfl, rfl, h1, h2, h3, h4, hconn.1, hconn.2⟩

/-- how a STREAM frame takes `str` to `str'`, its flow control apart -/
structure Stream.Handled (str str' : Stream) (firstByte : UInt8) (off len : Nat) : Prop where
  send : str'.send = str.send
  closed : str'.recv.closed = str.recv.closed
  finFlag : str'.recv.finFlag = (str.recv.finFlag || hasFin firstByte)
  finalOff : str'.recv.finalOff = if hasFin firstByte then off + len else str.recv.finalOff
  untouched : str.recv.closed = true ∨ len = 0 → str'.recv.sorter = str.recv.sorter
  writes : Sorter.HeadFirst str.recv.sorter → Sorter.HeadFirst str'.recv.sorter ∧
    str'.recv.sorter.readedSize = str.recv.sorter.readedSize ∧
    (str.recv.sorter.availSize < off ∨ off + len ≤ str.recv.sorter.availSize →
      str'.recv.sorter.availSize = str.recv.sorter.availSize)

theorem recvStreamHandleFrame_spec {mem : StreamAlloc} {str : Stream} {conn : ConnFlowctrl}
    {firstByte : UInt8} {off : Nat} {data : List UInt8} {x : Stream × ConnFlowctrl × Bool}
    (hend : off + data.length < 2 ^ 64)
    (h : Streams.recvStreamHandleFrame mem str conn firstByte off data = some x) :
    str.Handled x.1 firstByte off data.length ∧
      (x.1.flowctrl, x.2.1) =
        str.flowctrl.updateRwnd conn (off + data.length) (hasFin firstByte) := by
  unfold Streams.recvStreamHandleFrame at h
  rw [add64_of_lt hend] at h
  extract_lets tOff fin newlyFin window recv at h
  have hsorter : recv.sorter = str.recv.sorter := str.recv.finish_sorter fin tOff
  have hclosed : recv.closed = str.recv.closed := str.recv.finish_closed fin tOff
  have hfinFlag : recv.finFlag = (str.recv.finFlag || fin) := str.recv.finish_finFlag fin tOff
  have hfinal : recv.finalOff = if fin then tOff else str.recv.finalOff :=
    str.recv.finish_finalOff fin tOff
  -- where the frame writes nothing
  have hsame : str.Handled ⟨str.send, recv, window.1⟩ firstByte off data.length := by
    refine ⟨rfl, hclosed, hfinFlag, hfinal, fun _ => hsorter, fun hh => ?_⟩
    show Sorter.HeadFirst recv.sorter ∧ recv.sorter.readedSize = _ ∧ (_ → recv.sorter.availSize = _)
    rw [hsorter]
    exact ⟨hh, rfl, fun _ => rfl⟩
  split at h
  · rw [← Option.some.inj h]
    exact ⟨hsame, rfl⟩
  · rename_i hopen
    split at h
    · rw [← Option.some.inj h]
      exact ⟨hsame, rfl⟩
    · rename_i hlen
      obtain ⟨y, hy, hx⟩ := Option.map_eq_some_iff.mp h
      rw [hsorter] at hy
      rw [← hx]
      refine ⟨⟨rfl, hclosed, hfinFlag, hfinal, fun hu => ?_, fun hh => ?_⟩, rfl⟩
      · rw [hclosed] at hopen
        exact absurd hu (not_or.mpr ⟨hopen, hlen⟩)
      · obtain ⟨h1, h2, h3⟩ := Sorter.write_headFirst hh hy
        exact ⟨h1, h2, h3 hend⟩

theorem recvStreamHandleFrame_send {mem : StreamAlloc} {str : Stream} {conn : ConnFlowctrl}
    {firstByte : UInt8} {off : Nat} {data : List UInt8} {x : Stream × ConnFlowctrl × Bool}
    (h : Streams.recvStreamHandleFrame mem str conn firstByte off data = some x) :
    x.1.send = str.send := by
  unfold Streams.recvStreamHandleFrame at h
  extract_lets tOff fin newlyFin window recv at h
  split at h
  · rw [← Option.some.inj h]
  · split at h
    · rw [← Option.some.inj h]
    · obtain ⟨y, _, hx⟩ := Option.map_eq_some_iff.mp h
      rw [← hx]

/-- a frame with data that finds the stream open -/
theorem recvStreamHandleFrame_open (mem : StreamAlloc) {str : Stream} (conn : ConnFlowctrl)
    (firstByte : UInt8) {off : Nat} {data : List UInt8}
    (hc : str.recv.closed = false) (hne : data ≠ []) {y : Sorter × Err}
    (hy : str.recv.sorter.write mem.sorter off data.length (fun i => data.getD i 0) = some y) :
    ∃ x, Streams.recvStreamHandleFrame mem str conn firstByte off data = some x ∧
      x.1.recv.sorter = y.1 := by
  have hlen : data.length ≠ 0 := fun h => hne (List.length_eq_zero_iff.mp h)
  unfold Streams.recvStreamHandleFrame
  dsimp only
  rw [RecvStream.finish_closed, hc, if_neg Bool.false_ne_true, if_neg hlen,
    RecvStream.finish_sorter, hy]
  exact ⟨_, rfl, rfl⟩

/-- the end of a frame whose fields are variable-length integers is a word -/
theorem varintMax_end {off len : Nat} (h1 : off ≤ varintMax) (h2 : len ≤ varintMax) :
    off + len < 2 ^ 64 := by
  rw [varintMax] at h1 h2
  omega

/-! ## runs of one receive stream -/

namespace StreamRecv

structure State where
  str : Stream
  conn : ConnFlowctrl

inductive Event where
  | frame (mem : StreamAlloc) (firstByte : UInt8) (off : Nat) (data : List UInt8)
  | read (rtt : Nat) (now : Time) (woken : Bool) (len : Nat)
  | close (rtt : Nat) (now : Time)

def step (cfg : Config) (s : State) : Event → Option State
  | .frame mem firstByte off data =>
    (Streams.recvStreamHandleFrame mem s.str s.conn firstByte off data).map fun x => ⟨x.1, x.2.1⟩
  | .read rtt now woken len => (s.str.read cfg rtt now woken len s.conn).map fun x => ⟨x.1, x.2.1⟩
  | .close rtt now => (s.str.close cfg rtt now s.conn).map fun x => ⟨x.1, x.2⟩

def start (cfg : Config) : State := ⟨Stream.create cfg, ConnFlowctrl.init cfg⟩

/-- the fields of a frame are variable-length integers -/
def OnWire : Event → Prop
  | .frame _ _ off data => off ≤ varintMax ∧ data.length ≤ varintMax
  | _ => True

/-- once there is a final size, the stream and its flow control have the same one -/
def Agree (s : State) : Prop :=
  s.str.recv.finFlag = true →
    s.str.flowctrl.finFlag = true ∧ s.str.recv.finalOff = s.str.flowctrl.recvOff

/-- the frame has its `FIN` bit at another offset than the final size, or data beyond it -/
def Contradicts (s : State) : Event → Prop
  | .frame _ firstByte off data => s.str.recv.finFlag = true ∧
      ((hasFin firstByte = true ∧ off + data.length ≠ s.str.recv.finalOff) ∨
        s.str.recv.finalOff < off + data.length)
  | _ => False

/-- neither the final size nor what the reader can get has changed -/
def Unmoved (s s' : State) : Prop :=
  s'.str.recv.finalOff = s.str.recv.finalOff ∧
    s'.str.recv.sorter.readable = s.str.recv.sorter.readable

/-- The first `FIN` is not before the end of what came, a later one is at the final size, and a frame
with an end beyond the final size finds the stream closed or carries no data: what it carries would
be stored, and be read once the bytes before it are there. -/
def Guarded (s : State) : Event → Prop
  | .frame _ firstByte off data =>
    (hasFin firstByte = true → if s.str.recv.finFlag then off + data.length = s.str.recv.finalOff
      else s.str.flowctrl.recvOff ≤ off + data.length) ∧
    (s.str.recv.finFlag = true → s.str.recv.finalOff < off + data.length →
      s.str.recv.closed = true ∨ data.length = 0)
  | _ => True

structure Inv (s : State) : Prop where
  fin : s.str.flowctrl.finFlag = s.str.recv.finFlag
  final : s.str.recv.finFlag = true → s.str.recv.finalOff = s.str.flowctrl.recvOff

theorem start_inv (cfg : Config) : Inv (start cfg) := ⟨rfl, nofun⟩

theorem Inv.agree {s : State} (h : Inv s) : Agree s := fun hf => ⟨h.fin.trans hf, h.final hf⟩

theorem frame_step {s s' : State} {cfg : Config} {mem : StreamAlloc} {firstByte : UInt8} {off : Nat}
    {data : List UInt8} (hi : Inv s) (hw : OnWire (.frame mem firstByte off data))
    (hg : Guarded s (.frame mem firstByte off data))
    (h : step cfg s (.frame mem firstByte off data) = some s') :
    Inv s' ∧ (Contradicts s (.frame mem firstByte off data) → Unmoved s s') := by
  have hend : off + data.length < 2 ^ 64 := varintMax_end hw.1 hw.2
  obtain ⟨x, hx, rfl⟩ := Option.map_eq_some_iff.mp h
  obtain ⟨hd, hflow⟩ := recvStreamHandleFrame_spec hend hx
  obtain ⟨h1, _, h3, _⟩ := s.str.flowctrl.updateRwnd_spec s.conn (off + data.length) (hasFin firstByte)
  rw [← hflow] at h1 h3
  dsimp only at h1 h3
  rw [hi.fin] at h1 h3
  obtain ⟨hgfin, hgdata⟩ := hg
  refine ⟨⟨h3.trans hd.finFlag.symm, fun hf => ?_⟩, ?_⟩
  · show x.1.recv.finalOff = x.1.flowctrl.recvOff
    rw [h1, hd.finalOff]
    have hf' : (s.str.recv.finFlag || hasFin firstByte) = true := hd.finFlag.symm.trans hf
    by_cases hfin : hasFin firstByte = true
    · have hg := hgfin hfin
      rw [if_pos hfin]
      split
      · rename_i hold
        rw [if_pos hold] at hg
        rw [hg, hi.final hold]
      · rename_i hold
        rw [if_neg hold] at hg
        exact (Nat.max_eq_right hg).symm
    · have hold : s.str.recv.finFlag = true := by simpa [hfin] using hf'
      rw [if_neg hfin, if_pos hold, hi.final hold]
  · rintro ⟨hold, hcon⟩
    constructor
    · show x.1.recv.finalOff = _
      rw [hd.finalOff]
      split
      · rename_i hfin
        have hg := hgfin hfin
        rwa [if_pos hold] at hg
      · rfl
    · show x.1.recv.sorter.readable = _
      have hbeyond : s.str.recv.finalOff < off + data.length := by
        rcases hcon with ⟨hfin, hne⟩ | hlt
        · have hg := hgfin hfin
          rw [if_pos hold] at hg
          exact absurd hg hne
        · exact hlt
      rw [hd.untouched (hgdata hold hbeyond)]

theorem step_inv {s s' : State} {cfg : Config} {e : Event} (hi : Inv s) (hw : OnWire e)
    (hg : Guarded s e) (h : step cfg s e = some s') : Inv s' ∧ (Contradicts s e → Unmoved s s') := by
  cases e with
  | frame mem firstByte off data => exact frame_step hi hw hg h
  | read rtt now woken len =>
    obtain ⟨x, hx, rfl⟩ := Option.map_eq_some_iff.mp h
    have hr := Stream.read_spec hx
    refine ⟨⟨?_, fun hf => ?_⟩, nofun⟩
    · exact hr.flowFin.trans (hi.fin.trans hr.finFlag.symm)
    · exact hr.finalOff.trans ((hi.final (hr.finFlag.symm.trans hf)).trans hr.recvOff.symm)
  | close rtt now =>
    obtain ⟨x, hx, rfl⟩ := Option.map_eq_some_iff.mp h
    have hc := Stream.close_spec hx
    refine ⟨⟨?_, fun hf => ?_⟩, nofun⟩
    · show x.1.flowctrl.finFlag = x.1.recv.finFlag
      rw [hc.flowctrl, hc.finFlag]
      exact hi.fin
    · show x.1.recv.finalOff = x.1.flowctrl.recvOff
      rw [hc.flowctrl, hc.finalOff]
      exact hi.final (hc.finFlag.symm.trans hf)

/-- **The final size of a stream.**  Along a guarded run the stream and its flow control agree on it,
and a frame that contradicts it leaves it and what the reader can get alone. -/
theorem final_run (cfg : Config) (es : List Event) (hw : ∀ e ∈ es, OnWire e)
    (hg : Runs.Along (step cfg) Guarded (start cfg) es) :
    ∀ past, past <+: es → ∀ s, Runs.run (step cfg) (start cfg) past = some s → Agree s ∧
      ∀ e s', past ++ [e] <+: es → step cfg s e = some s' → Contradicts s e → Unmoved s s' := by
  intro past hpast s hs
  have ha := hg.and_mem (step cfg) hw
  have hkeeps : ∀ s e s', Inv s → OnWire e ∧ Guarded s e → step cfg s e = some s' → Inv s' :=
    fun _ _ _ hi hge h => (step_inv hi hge.1 hge.2 h).1
  have hi : Inv s := Runs.run_reached hkeeps (start_inv cfg) ha hpast hs
  refine ⟨hi.agree, fun e s' he h => ?_⟩
  obtain ⟨_, hwe, hge⟩ := Runs.run_met hkeeps (start_inv cfg) ha he hs
  exact (step_inv hi hwe hge h).2

instance decidableOnWire : (e : Event) → Decidable (OnWire e)
  | .frame _ _ off data => inferInstanceAs (Decidable (off ≤ _ ∧ data.length ≤ _))
  | .read _ _ _ _ => isTrue trivial
  | .close _ _ => isTrue trivial

instance decidableGuarded (s : State) : (e : Event) → Decidable (Guarded s e)
  | .frame _ firstByte off data => inferInstanceAs (Decidable (
      (hasFin firstByte = true → if s.str.recv.finFlag then _ = _ else _ ≤ off + data.length) ∧
      (_ → _ < off + data.length → _ ∨ data.length = 0)))
  | .read _ _ _ _ => isTrue trivial
  | .close _ _ => isTrue trivial

/-- a `FIN` at 5 that comes before the bytes in between, and data beyond it after the close -/
def lateData : List Event :=
  [.frame .ok 0x0a 0 [1, 2], .frame .ok 0x0f 5 [], .frame .ok 0x0e 2 [3, 4, 5], .read 0 0 false 10,
    .close 0 0, .frame .ok 0x0e 2 [5, 6, 7, 8]]

theorem final_run_lateData : Runs.Along (step serverCfg) Guarded (start serverCfg) lateData ∧
    ∀ past, past <+: lateData → ∀ s,
      Runs.run (step serverCfg) (start serverCfg) past = some s → Agree s ∧
      ∀ e s', past ++ [e] <+: lateData → step serverCfg s e = some s' → Contradicts s e →
        Unmoved s s' :=
  ⟨by decide +kernel, final_run serverCfg lateData (by decide) (by decide +kernel)⟩

/-- A `FIN` before the end of what came gives the stream a final size that its flow control does not
have. -/
theorem not_final_run :
    ¬ ∀ (cfg : Config) (es : List Event), (∀ e ∈ es, OnWire e) → ∀ past, past <+: es → ∀ s,
      Runs.run (step cfg) (start cfg) past = some s → Agree s ∧
        ∀ e s', past ++ [e] <+: es → step cfg s e = some s' → Contradicts s e → Unmoved s s' := by
  intro h
  have hrun : (Runs.run (step serverCfg) (start serverCfg)
      [.frame .ok 0x0a 0 [0, 1, 2, 3, 4, 5, 6, 7, 8, 9], .frame .ok 0x0f 5 []]).map (fun s =>
        (s.str.recv.finFlag, s.str.recv.finalOff, s.str.flowctrl.recvOff)) =
      some (true, 5, 10) := by decide +kernel
  obtain ⟨s, hs, hv⟩ := Option.map_eq_some_iff.mp hrun
  obtain ⟨h1, h2⟩ := Prod.mk.inj hv
  obtain ⟨h2, h3⟩ := Prod.mk.inj h2
  have ha := ((h serverCfg _ (by decide) _ List.prefix_rfl s hs).1 h1).2
  rw [h2, h3] at ha
  exact absurd ha (by decide)

end StreamRecv
end OpenQuic
