import OpenQuic.Modules.Pack
import OpenQuic.Sorter.Delivery

/-!
# The handshake output stream

TLS output is appended to the write sorter of its level and leaves it in CRYPTO frames, in any order
of the two.

* `CryptoOut`         the sorter and the frames made of it;
* `Consecutive`       frames that begin where the one before ends;
* `append_one_gap`    an append to a sorter that has only been appended to;
* `OutInv`            the sorter holds what has been put out and not been framed;
* `output_framed`     the frames carry the output in order, without a hole or a repetition.
-/

namespace OpenQuic
open Word

/-- `quic_sealer_should_send` behind its choice of the sorter -/
def sealerShouldSend (sorter : Sorter) : Bool := !sorter.empty

/-! ## events -/

structure CryptoOut where
  sorter : Sorter
  frames : List Frame

namespace CryptoOut

/-- output of the TLS library, or an append of a frame, with what is in its allocation -/
inductive Event where
  | output (data : List UInt8)
  | frame (capa : Nat) (junk : Nat → UInt8)

def Event.bytes : Event → List UInt8
  | output data => data
  | frame _ _ => []

def start : CryptoOut := ⟨.init, []⟩

def step (s : CryptoOut) : Event → Option CryptoOut
  | .output data =>
    (s.sorter.append .ok data.length fun i => data.getD i 0).map fun x => { s with sorter := x.1 }
  | .frame capa junk =>
    let x := appendCryptoFrame true junk s.frames capa s.sorter
    some ⟨x.2.2, x.2.1⟩

/-- everything that has been put out -/
def outputs (es : List Event) : List UInt8 := es.flatMap Event.bytes

/-- the offset and the data of a frame -/
abbrev Fragments := List (Nat × List UInt8)

def frameOf (f : Nat × List UInt8) : Frame := Frame.init frameCryptoType (.crypto 0 f.1 f.2)

def payloads (fs : Fragments) : List UInt8 := fs.flatMap Prod.snd

def Consecutive : (off : Nat) → Fragments → Prop
  | _, [] => True
  | off, f :: fs => f.1 = off ∧ Consecutive (off + f.2.length) fs

theorem Consecutive.concat {off : Nat} {fs : Fragments} (h : Consecutive off fs)
    (data : List UInt8) : Consecutive off (fs ++ [(off + (payloads fs).length, data)]) := by
  induction fs generalizing off with
  | nil => exact ⟨rfl, trivial⟩
  | cons f fs ih =>
    obtain ⟨h1, h2⟩ := h
    refine ⟨h1, ?_⟩
    have hlen : off + (payloads (f :: fs)).length = off + f.2.length + (payloads fs).length := by
      show off + (f.2 ++ payloads fs).length = _
      rw [List.length_append, Nat.add_assoc]
    rw [hlen]
    exact ih h2

/-! ## an append -/

theorem copyIn_congr {d d' : Nat → UInt8} {n : Nat} (h : ∀ i < n, d i = d' i) (c : Cluster)
    (off : Nat) : Sorter.copyIn c off n d = Sorter.copyIn c off n d' := by
  funext i
  unfold Sorter.copyIn
  split
  · rw [h (i - off) (by omega)]
  · rfl

theorem writeCluster_congr (mem : Sorter.Alloc) (fuel : Nat) (cs : Rbt Cluster) (off len : Nat)
    {d d' : Nat → UInt8} (h : ∀ i < len, d i = d' i) :
    Sorter.writeCluster mem fuel cs off len d = Sorter.writeCluster mem fuel cs off len d' := by
  induction fuel generalizing cs off len d d' with
  | zero => rfl
  | succ fuel ih =>
    unfold Sorter.writeCluster
    dsimp only
    generalize hn : min len (Sorter.clusterSize - off % Sorter.clusterSize) = n
    have hcopy : ∀ c, Sorter.copyIn c (off % Sorter.clusterSize) n d =
        Sorter.copyIn c (off % Sorter.clusterSize) n d' := fun c =>
      copyIn_congr (fun i hi => h i (by omega)) c _
    have hrest : ∀ cs, Sorter.writeCluster mem fuel cs (add64 off n) (len - n) (fun i => d (i + n)) =
        Sorter.writeCluster mem fuel cs (add64 off n) (len - n) fun i => d' (i + n) := fun cs =>
      ih cs _ _ fun i hi => h (i + n) (by omega)
    simp only [hcopy, hrest]

/-- the gap list of a sorter that `n` bytes have been appended to -/
def oneGap (n : Nat) : List Gap := [⟨n, Sorter.maxSize - n⟩]

/-- An append to a list of one gap moves its start, and reads the data that it is given only. -/
theorem append_one_gap {s : Sorter} (hs : s.Ordered) {n len : Nat} (hg : s.gaps = oneGap n)
    (hpos : 0 < len) (hend : n + len < Sorter.maxSize) (data : Nat → UInt8) :
    s.write .ok n len data =
      some ({ s with
          gaps := oneGap (n + len)
          availSize := n + len
          clusters := (Sorter.writeCluster .ok len s.clusters n len data).1 },
        (Sorter.writeCluster .ok len s.clusters n len data).2) := by
  have hfit : Sorter.Fits ⟨n, Sorter.maxSize - n⟩ :=
    ⟨by dsimp only; omega, by dsimp only; omega⟩
  have hparts : Sorter.Parts s.gaps [] [⟨n, Sorter.maxSize - n⟩] [] n (n + len) := by
    refine ⟨hg, List.forall_mem_nil _, fun g hmem => ?_, List.forall_mem_nil _⟩
    rw [List.mem_singleton.mp hmem]
    dsimp only
    omega
  have hlast : n + len < n + (Sorter.maxSize - n) := by omega
  have hlen : n + (Sorter.maxSize - n) - (n + len) = Sorter.maxSize - (n + len) := by omega
  have hcut : Sorter.cut .ok ⟨n, Sorter.maxSize - n⟩ none (max n n)
      (min (n + len - 1) (Sorter.gapEnd (Sorter.lastOf ⟨n, Sorter.maxSize - n⟩ []))) =
      some (oneGap (n + len)) := by
    have hhead := Sorter.cut_head (e := none) (b := n + len) hfit hfit (by omega)
      (by show n < n + len; omega) fun l hl => by cases hl
    rw [Option.getD_none, if_pos hlast, hlen] at hhead
    rw [Nat.max_self]
    exact hhead
  have hgs : [] ++ oneGap (n + len) ++ [] = ⟨n + len, Sorter.maxSize - (n + len)⟩ :: [] := rfl
  have hnum : len = min (n + len) (n + (Sorter.maxSize - n)) - n := by omega
  have hfound := Sorter.write_found data hpos hend hs.gaps hparts hcut hgs (Nat.max_self n).symm hnum
  rw [Nat.sub_self] at hfound
  exact hfound

/-- a list of one gap is always safe to write to -/
theorem safe_oneGap (a b n : Nat) : Sorter.Safe a b (Sorter.touched (oneGap n) a b) := by
  unfold Sorter.touched oneGap
  rw [List.filter_cons]
  split
  · exact Or.inl rfl
  · trivial

/-! ## the two events -/

theorem step_output (s : CryptoOut) (data : List UInt8) :
    step s (.output data) =
      (s.sorter.write .ok s.sorter.availSize data.length fun i => data.getD i 0).map fun x =>
        ⟨x.1, s.frames⟩ := rfl

/-- the stream that is put out -/
def streamOf (out : List UInt8) (i : Nat) : UInt8 := out.getD i 0

theorem streamOf_append_left {out more : List UInt8} {i : Nat} (h : i < out.length) :
    streamOf (out ++ more) i = streamOf out i := List.getD_append out more 0 i h

theorem streamOf_append_right (out more : List UInt8) (i : Nat) :
    streamOf (out ++ more) (out.length + i) = more.getD i 0 := by
  unfold streamOf
  rw [List.getD_append_right out more 0 _ (Nat.le_add_right _ _), Nat.add_sub_cancel_left]

/-- The sorter holds `out`, and the frames carry what has been read of it. -/
structure OutInv (out : List UInt8) (s : CryptoOut) (fs : Fragments) : Prop where
  delivers : ∃ ops returned, Delivery.DeliveryInv (streamOf out) ops ⟨s.sorter, returned⟩
  gaps : s.sorter.gaps = oneGap out.length
  frames : s.frames = fs.map frameOf
  consecutive : Consecutive 0 fs
  payloads : payloads fs = out.take s.sorter.readedSize

section
variable {out : List UInt8} {s : CryptoOut} {fs : Fragments}

theorem OutInv.avail (h : OutInv out s fs) : s.sorter.availSize = out.length := by
  obtain ⟨_, _, hd⟩ := h.delivers
  have havail := hd.ordered.avail
  rw [show (Delivery.mk s.sorter _).sorter.gaps = oneGap out.length from h.gaps] at havail
  exact (Option.some.inj havail).symm

theorem OutInv.readed_le (h : OutInv out s fs) : s.sorter.readedSize ≤ out.length := by
  obtain ⟨_, _, hd⟩ := h.delivers
  rw [← h.avail]
  exact hd.readed_le

theorem start_out : OutInv [] start [] :=
  ⟨⟨[], [], Delivery.start_delivers (S := streamOf [])⟩, rfl, rfl, trivial, rfl⟩

theorem bytesOf_congr {S S' : Nat → UInt8} {off n : Nat}
    (h : ∀ i < n, S (off + i) = S' (off + i)) :
    Delivery.bytesOf S off n = Delivery.bytesOf S' off n :=
  List.map_congr_left fun i hi => congrArg some (h i (List.mem_range.mp hi))

/-- more output does not change what is there -/
theorem OutInv.extend (h : OutInv out s fs) (more : List UInt8) :
    ∃ ops returned, Delivery.DeliveryInv (streamOf (out ++ more)) ops ⟨s.sorter, returned⟩ := by
  have hle := h.readed_le
  obtain ⟨ops, returned, hd⟩ := h.delivers
  have hagree : ∀ i < out.length, streamOf out i = streamOf (out ++ more) i :=
    fun i hi => (streamOf_append_left hi).symm
  refine ⟨ops, returned, hd.ordered, hd.readed_le, fun x hx1 hx2 hno => ?_, hd.covered, ?_⟩
  · have hx : x < out.length := by
      by_contra hge
      refine hno (mem_cover_spans.mpr ⟨⟨out.length, Sorter.maxSize - out.length⟩, ?_, ?_⟩)
      · show _ ∈ s.sorter.gaps
        rw [h.gaps]
        exact List.mem_singleton_self _
      · dsimp only
        omega
    rw [← hagree x hx]
    exact hd.held x hx1 hx2 hno
  · rw [hd.returned]
    refine bytesOf_congr fun i hi => hagree _ ?_
    rw [Nat.zero_add]
    exact Nat.lt_of_lt_of_le hi hle

theorem OutInv.output (h : OutInv out s fs) {data : List UInt8}
    (hlt : (out ++ data).length < 2 ^ 62) :
    ∃ s', step s (.output data) = some s' ∧ OutInv (out ++ data) s' fs := by
  rw [List.length_append] at hlt
  have hmax : Sorter.maxSize = 2 ^ 63 - 1 := rfl
  obtain ⟨ops, returned, hd⟩ := h.extend data
  have hle := h.readed_le
  have htake : (out ++ data).take s.sorter.readedSize = out.take s.sorter.readedSize :=
    List.take_append_of_le_length hle
  cases data with
  | nil =>
    refine ⟨s, ?_, ⟨⟨ops, returned, hd⟩, ?_, h.frames, h.consecutive, ?_⟩⟩
    · rw [step_output, List.length_nil, Sorter.write_zero, Option.map_some]
    · rw [List.append_nil]
      exact h.gaps
    · rw [htake]
      exact h.payloads
  | cons b bs =>
    generalize hdata : b :: bs = data at *
    have hpos : 0 < data.length := by
      rw [← hdata]
      exact Nat.succ_pos _
    have hwrite := append_one_gap hd.ordered h.gaps hpos (by omega)
    -- the bytes of the event are those of the stream
    have hsame : s.sorter.write .ok out.length data.length (fun i => data.getD i 0) =
        s.sorter.write .ok out.length data.length fun i => streamOf (out ++ data) (out.length + i) := by
      have hbytes : ∀ i < data.length,
          data.getD i 0 = streamOf (out ++ data) (out.length + i) :=
        fun i _ => (streamOf_append_right out data i).symm
      rw [hwrite, hwrite, writeCluster_congr .ok _ s.sorter.clusters out.length _ hbytes]
    obtain ⟨d', hstep, hd', _⟩ := Delivery.step_delivers hd (.write out.length data.length)
      ⟨by omega, by omega⟩ (by
        show Sorter.Safe _ _ (Sorter.touched s.sorter.gaps _ _)
        rw [h.gaps]
        exact safe_oneGap _ _ _)
    have hx := hwrite fun i => streamOf (out ++ data) (out.length + i)
    have hstep' := hstep
    unfold SortOp.step at hstep'
    dsimp only at hstep' hx
    rw [hx, Option.map_some] at hstep'
    refine ⟨⟨d'.sorter, s.frames⟩, ?_, ⟨⟨_, d'.returned, hd'⟩, ?_, h.frames, h.consecutive, ?_⟩⟩
    · rw [step_output, h.avail, hsame, hx, Option.map_some, ← Option.some.inj hstep']
    · rw [← Option.some.inj hstep', List.length_append]
    · rw [← Option.some.inj hstep']
      exact h.payloads.trans htake.symm

/-- what `n` bytes from the reader's offset on are -/
theorem streamOf_range {off n : Nat} (h : off + n ≤ out.length) :
    (List.range n).map (fun i => streamOf out (off + i)) = (out.drop off).take n := by
  refine List.ext_getElem ?_ fun i h1 h2 => ?_
  · rw [List.length_map, List.length_range, List.length_take, List.length_drop]
    omega
  · rw [List.length_map, List.length_range] at h1
    rw [List.getElem_map, List.getElem_range, List.getElem_take, List.getElem_drop]
    exact List.getD_eq_getElem _ _ (by omega)

/-- a read of what is there returns bytes of the output only -/
theorem OutInv.read (h : OutInv out s fs) {n : Nat} (hn : n ≤ out.length - s.sorter.readedSize) :
    (∃ ops returned,
        Delivery.DeliveryInv (streamOf out) ops ⟨(s.sorter.read n).1, returned⟩) ∧
      (s.sorter.read n).2 = Delivery.bytesOf (streamOf out) s.sorter.readedSize n ∧
      (s.sorter.read n).1.readedSize = s.sorter.readedSize + n := by
  have havail := h.avail
  obtain ⟨ops, returned, hd⟩ := h.delivers
  have hread : SortOp.step (streamOf out) ⟨s.sorter, returned⟩ (.read n) =
      some ⟨(s.sorter.read n).1, returned ++ (s.sorter.read n).2⟩ := rfl
  obtain ⟨d', hstep', hd', _⟩ := Delivery.read_delivers hd n
  rw [hread] at hstep'
  rw [← Option.some.inj hstep'] at hd'
  have hbytes : (s.sorter.read n).2 =
      Delivery.bytesOf (streamOf out) s.sorter.readedSize n := by
    have heq := hd.read_eq n
    dsimp only at heq
    rwa [havail, Nat.min_eq_left hn] at heq
  refine ⟨⟨_, _, hd'⟩, hbytes, ?_⟩
  have hlt : s.sorter.availSize < Sorter.maxSize := hd.avail_lt
  have hmax := Sorter.maxSize_lt
  have hle := h.readed_le
  show add64 s.sorter.readedSize (s.sorter.read n).2.length = _
  rw [hbytes, Delivery.bytesOf, List.length_map, List.length_range, add64_of_lt (by omega)]

/-- the data of a frame that is filled from such a read -/
theorem frame_data (junk : Nat → UInt8) {off n : Nat} (h : off + n ≤ out.length) :
    ((List.range n).map fun i =>
        (((Delivery.bytesOf (streamOf out) off n)[i]?).join).getD (junk i)) =
      (out.drop off).take n := by
  rw [← streamOf_range h]
  refine List.map_congr_left fun i hi => ?_
  unfold Delivery.bytesOf
  rw [List.getElem?_map, List.getElem?_range (List.mem_range.mp hi)]
  rfl

theorem OutInv.frame (h : OutInv out s fs) (capa : Nat) (junk : Nat → UInt8) :
    ∃ s' fs', step s (.frame capa junk) = some s' ∧ OutInv out s' fs' := by
  have hle := h.readed_le
  have hreadable : s.sorter.readable = out.length - s.sorter.readedSize := by
    obtain ⟨ops, returned, hd⟩ := h.delivers
    rw [← h.avail]
    exact hd.readable_eq
  have hstep : step s (.frame capa junk) =
      some ⟨(appendCryptoFrame true junk s.frames capa s.sorter).2.2,
        (appendCryptoFrame true junk s.frames capa s.sorter).2.1⟩ := rfl
  rw [hstep]
  unfold appendCryptoFrame
  cases hempty : s.sorter.empty with
  | true =>
    rw [if_pos rfl]
    exact ⟨s, fs, rfl, h⟩
  | false =>
    rw [if_neg Bool.false_ne_true]
    dsimp only
    rw [Bool.not_true, if_neg Bool.false_ne_true]
    have hn : (if s.sorter.readable < capa then s.sorter.readable else capa) =
        min capa (out.length - s.sorter.readedSize) := by
      rw [hreadable]
      split <;> omega
    rw [hn]
    generalize hlen : min capa (out.length - s.sorter.readedSize) = n
    obtain ⟨hdelivers, hbytes, hreaded⟩ := h.read (n := n) (by omega)
    rw [hbytes, frame_data junk (by omega)]
    have hpay : (CryptoOut.payloads fs).length = s.sorter.readedSize := by
      rw [h.payloads, List.length_take]
      omega
    refine ⟨_, fs ++ [(s.sorter.readedSize, (out.drop s.sorter.readedSize).take n)], rfl,
      ⟨hdelivers, h.gaps, ?_, ?_, ?_⟩⟩
    · rw [h.frames, List.map_append]
      rfl
    · have hnext := h.consecutive.concat ((out.drop s.sorter.readedSize).take n)
      rw [Nat.zero_add, hpay] at hnext
      exact hnext
    · show CryptoOut.payloads (fs ++ _) = out.take (s.sorter.read n).1.readedSize
      rw [hreaded]
      have hconcat : CryptoOut.payloads (fs ++
          [(s.sorter.readedSize, (out.drop s.sorter.readedSize).take n)]) =
          CryptoOut.payloads fs ++ (out.drop s.sorter.readedSize).take n := by
        unfold CryptoOut.payloads
        rw [List.flatMap_append, List.flatMap_singleton]
      rw [hconcat, h.payloads, List.take_add]

end

/-! ## runs -/

theorem run_out (es : List Event) (h : (outputs es).length < 2 ^ 62) :
    ∃ s fs, Runs.run step start es = some s ∧ OutInv (outputs es) s fs := by
  induction es using List.reverseRecOn with
  | nil => exact ⟨start, [], rfl, start_out⟩
  | append_singleton es e ih =>
    have hout : outputs (es ++ [e]) = outputs es ++ e.bytes := by
      unfold outputs
      rw [List.flatMap_append, List.flatMap_singleton]
    rw [hout] at h ⊢
    obtain ⟨s, fs, hrun, hinv⟩ := ih (by rw [List.length_append] at h; omega)
    rw [Runs.run_concat _ hrun]
    cases e with
    | output data =>
      obtain ⟨s', hs', hinv'⟩ := hinv.output h
      exact ⟨s', fs, hs', hinv'⟩
    | frame capa junk =>
      obtain ⟨s', fs', hs', hinv'⟩ := hinv.frame capa junk
      refine ⟨s', fs', hs', ?_⟩
      show OutInv (outputs es ++ []) s' fs'
      rw [List.append_nil]
      exact hinv'

/-- **The frames carry the output.**  Their offsets are consecutive, their data are the output up to
`readedSize`, and nothing is left to be sent exactly when they are all of it. -/
theorem output_framed (es : List Event) (h : (outputs es).length < 2 ^ 62) :
    ∃ s fs, Runs.run step start es = some s ∧ s.frames = fs.map frameOf ∧ Consecutive 0 fs ∧
      s.sorter.readedSize ≤ (outputs es).length ∧
      payloads fs = (outputs es).take s.sorter.readedSize ∧
      (sealerShouldSend s.sorter = false ↔ payloads fs = outputs es) := by
  obtain ⟨s, fs, hrun, hinv⟩ := run_out es h
  refine ⟨s, fs, hrun, hinv.frames, hinv.consecutive, hinv.readed_le, hinv.payloads, ?_⟩
  obtain ⟨_, _, hd⟩ := hinv.delivers
  have hreadable : s.sorter.readable = (outputs es).length - s.sorter.readedSize := by
    rw [← hinv.avail]
    exact hd.readable_eq
  have hle := hinv.readed_le
  unfold sealerShouldSend Sorter.empty
  rw [Bool.not_eq_false', decide_eq_true_iff, hreadable, hinv.payloads, List.take_eq_self_iff]
  omega

/-- two pieces of output, and a frame of four bytes in between -/
theorem output_framed_two : ∃ s fs,
    Runs.run step start [.output [1, 2, 3], .frame 4 fun _ => 0, .output [4, 5], .frame 1 fun _ => 0] =
      some s ∧ s.frames = fs.map frameOf ∧ Consecutive 0 fs ∧
      payloads fs = [1, 2, 3, 4, 5].take s.sorter.readedSize := by
  obtain ⟨s, fs, hrun, hframes, hcons, _, hpay, _⟩ := output_framed
    [.output [1, 2, 3], .frame 4 fun _ => 0, .output [4, 5], .frame 1 fun _ => 0] (by decide)
  exact ⟨s, fs, hrun, hframes, hcons, hpay⟩

end CryptoOut

end OpenQuic
