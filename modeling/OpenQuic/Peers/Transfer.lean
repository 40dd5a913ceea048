import OpenQuic.Modules.StreamRecv
import OpenQuic.Modules.StreamSegments
import OpenQuic.Modules.Windows
import OpenQuic.Peers.Arrival

/-!
# A stream between two peers

One direction of a stream, from the writes of one peer to the reads of the other, with a network in
between that may lose, duplicate and reorder what it carries.  A frame that is sent again because
its packet was lost is the same frame, so a duplicate stands for a retransmission as well.

* `State`, `step`     the sending half, the receiving half, what the reader has got, and the
                      MAX_STREAM_DATA frames on the way back;
* `Guarded`           what the callers and the packets provide for;
* `Inv`               the invariant, `step_inv` the step that keeps it;
* `transfer_run`      **the reader gets what the writer wrote, from its start and in order**, and every
                      frame has an outcome;
* `arrived_run`       **once every frame has arrived, a read returns all that is left;**
* `fin_run`           **the final size is right, and is reached only behind the last byte;**
* `limit_run`        **the writer never passes a limit that the receiver has announced.**
-/

namespace OpenQuic
open Word Runs

/-- the bytes that a turn of `quic_stream_read_co` puts in front of the reader -/
def Stream.readBytes (woken : Bool) (len : Nat) (str : Stream) : List (Option UInt8) :=
  if !woken && (str.recv.closed || len = 0
      || (str.recv.finFlag && str.recv.finalOff ≤ str.recv.sorter.readedSize)) then []
  else (str.recv.sorter.read len).2

theorem Stream.read_sorter {cfg : Config} {rtt : Nat} {now : Time} {woken : Bool} {len : Nat}
    {str : Stream} {conn : ConnFlowctrl} {x : Stream × ConnFlowctrl × Bool}
    (h : str.read cfg rtt now woken len conn = some x) :
    (x.1.recv.sorter = str.recv.sorter ∧ str.readBytes woken len = []) ∨
      (x.1.recv.sorter = (str.recv.sorter.read len).1 ∧
        str.readBytes woken len = (str.recv.sorter.read len).2) := by
  unfold Stream.read at h
  unfold Stream.readBytes
  split at h
  · rename_i hskip
    rw [if_pos hskip]
    cases h
    exact Or.inl ⟨rfl, rfl⟩
  · rename_i hskip
    rw [if_neg hskip]
    refine Or.inr ⟨?_, rfl⟩
    dsimp only at h
    split at h
    · cases h
      rfl
    · obtain ⟨y, _, rfl⟩ := Option.map_eq_some_iff.mp h
      rfl

/-- a frame that writes nothing always has an outcome -/
theorem recvStreamHandleFrame_idle {str : Stream} (conn : ConnFlowctrl)
    (firstByte : UInt8) (off : Nat) {data : List UInt8} (h : str.recv.closed = true ∨ data = []) :
    ∃ x, Streams.recvStreamHandleFrame .ok str conn firstByte off data = some x := by
  unfold Streams.recvStreamHandleFrame
  dsimp only
  rw [RecvStream.finish_closed]
  rcases h with hc | rfl
  · rw [if_pos hc]
    exact ⟨_, rfl⟩
  · split
    · exact ⟨_, rfl⟩
    · exact ⟨_, rfl⟩

namespace Transfer
open Delivery

/-! ## the two peers -/

structure State where
  send : StreamSend.State
  recv : StreamRecv.State
  /-- what the reads have put in front of the reader -/
  got : List (Option UInt8)
  /-- the MAX_STREAM_DATA frames of the receiver -/
  announced : List Frame
  /-- the frames that have arrived, by their number: a record that is not part of the code -/
  arrived : List Nat

inductive Event where
  | turn (e : StreamSend.Event)
  | deliver (i : Nat) (rest : List UInt8)
  | read (rtt : Nat) (now : Time) (woken : Bool) (len : Nat)
  | close (rtt : Nat) (now : Time)
  | announce
  | window (i : Nat) (rest : List UInt8)

/-- a frame reaches the receiver, which has the memory to store it; a frame of another stream is not
for this one -/
def arrive (cfg : Config) (sid : Nat) (recv : StreamRecv.State) (f : Frame) :
    Option StreamRecv.State :=
  match f.body with
  | .stream sid' off data =>
    if sid' = sid then StreamRecv.step cfg recv (.frame .ok f.firstByte off data) else some recv
  | _ => some recv

/-- a frame reaches the sender -/
def reopen (sid : Nat) (send : StreamSend.State) (f : Frame) : Option StreamSend.State :=
  match f.body with
  | .maxStreamData sid' maxData =>
    if sid' = sid then StreamSend.step sid send (.maxStreamData maxData) else some send
  | _ => some send

/-- the MAX_STREAM_DATA frame that `quic_stream_module_process_rwnd` queues -/
def windowFrame (sid : Nat) (recv : StreamRecv.State) : Frame :=
  .init 0x11 (.maxStreamData sid recv.str.flowctrl.rwnd)

def step (cfg : Config) (sid : Nat) (s : State) : Event → Option State
  | .turn e => (StreamSend.step sid s.send e).map fun x => { s with send := x }
  | .deliver i rest =>
    match (StreamSend.frames s.send)[i]? with
    | none => some s
    | some f => do
      let g ← overWire f rest
      let recv ← arrive cfg sid s.recv g
      return { s with recv := recv, arrived := s.arrived ++ [i] }
  | .read rtt now woken len =>
    (StreamRecv.step cfg s.recv (.read rtt now woken len)).map fun x =>
      { s with recv := x, got := s.got ++ s.recv.str.readBytes woken len }
  | .close rtt now =>
    (StreamRecv.step cfg s.recv (.close rtt now)).map fun x => { s with recv := x }
  | .announce => some { s with announced := s.announced ++ [windowFrame sid s.recv] }
  | .window i rest =>
    match s.announced[i]? with
    | none => some s
    | some f => do
      let g ← overWire f rest
      let send ← reopen sid s.send g
      return { s with send := send }

def start (cfg peer : Config) : State :=
  ⟨StreamSend.start cfg, StreamRecv.start peer, [], [], []⟩

/-! ## what is provided for -/

/-- The turns of the sender's own side.  Its windows come from the peer. -/
def Own : StreamSend.Event → Prop
  | .maxStreamData _ => False
  | _ => True

/-- The writes come one after another; a frame without a length is the last one of its packet; and a
window is a variable-length integer. -/
def Guarded (s : State) : Event → Prop
  | .turn e => Own e ∧ StreamSend.OneByOne s.send e
  | .deliver i rest => ∀ f ∈ (StreamSend.frames s.send)[i]?, f.Unbounded → rest = []
  | .announce => s.recv.str.flowctrl.rwnd ≤ varintMax
  | _ => True

/-- a frame of a closed stream is made when nothing else is left to send -/
def FinGuarded (s : State) : Event → Prop
  | .turn e => StreamSend.FinGuarded s.send e
  | _ => True

instance decidableUnbounded : (f : Frame) → Decidable f.Unbounded
  | ⟨fb, _, _, .stream _ _ _⟩ => inferInstanceAs (Decidable (hasLen fb = false))
  | ⟨_, _, _, .ping⟩ | ⟨_, _, _, .ack _⟩ | ⟨_, _, _, .resetStream _ _ _⟩
  | ⟨_, _, _, .stopSending _ _⟩ | ⟨_, _, _, .crypto _ _ _⟩ | ⟨_, _, _, .newToken _⟩
  | ⟨_, _, _, .maxData _⟩ | ⟨_, _, _, .maxStreamData _ _⟩ | ⟨_, _, _, .maxStreams _⟩
  | ⟨_, _, _, .dataBlocked _⟩ | ⟨_, _, _, .streamDataBlocked _ _⟩ | ⟨_, _, _, .streamsBlocked _⟩
  | ⟨_, _, _, .newConnectionId _ _ _ _⟩ | ⟨_, _, _, .retireConnectionId _⟩
  | ⟨_, _, _, .pathChallenge _⟩ | ⟨_, _, _, .pathResponse _⟩
  | ⟨_, _, _, .connectionClose _ _ _⟩ | ⟨_, _, _, .handshakeDone⟩ => isFalse id

instance : (e : StreamSend.Event) → Decidable (Own e)
  | .maxStreamData _ => isFalse id
  | .write _ _ | .woken _ | .close | .setDeadline _ | .generate _ _ _ => isTrue trivial

instance (s : State) : (e : Event) → Decidable (Guarded s e)
  | .turn _ => inferInstanceAs (Decidable (_ ∧ _))
  | .deliver _ _ => inferInstanceAs (Decidable (∀ f ∈ (StreamSend.frames s.send)[_]?, _))
  | .announce => inferInstanceAs (Decidable (_ ≤ _))
  | .read _ _ _ _ | .close _ _ | .window _ _ => isTrue trivial

instance (s : State) : (e : Event) → Decidable (FinGuarded s e)
  | .turn (.generate _ _ _) => inferInstanceAs (Decidable (_ → _ → _))
  | .turn (.write _ _) | .turn (.woken _) | .turn .close | .turn (.setDeadline _)
  | .turn (.maxStreamData _) => isTrue trivial
  | .deliver _ _ | .read _ _ _ _ | .close _ _ | .announce | .window _ _ => isTrue trivial

/-! ## the invariant -/

/-- the bytes of the writer, as a stream -/
def source (s : State) : List UInt8 := StreamSend.consumed s.send

def segments (s : State) : List (Nat × List UInt8) := (StreamSend.frames s.send).map StreamSend.segment

/-- the receiving half of a stream that is open -/
def Held (s : State) : Prop :=
  ∃ ops, Drawn (segments s) s.arrived ops ∧
    Delivery.PiecesInv (CryptoOut.streamOf (source s)) ops ⟨s.recv.str.recv.sorter, s.got⟩

structure Inv (cfg : Config) (sid : Nat) (s : State) : Prop where
  carried : StreamSend.CarriedInv cfg s.send
  shaped : ∀ f ∈ StreamSend.frames s.send, StreamSend.Shaped sid f
  window : s.send.str.flowctrl.swnd ≤ varintMax
  length : s.got.length = s.recv.str.recv.sorter.readedSize
  got : s.got <+: (source s).map some
  held : s.recv.str.recv.closed = false → Held s
  emptied : s.recv.str.recv.closed = true → s.recv.str.recv.sorter.clusters = OrdMap.empty
  final : s.recv.str.recv.finFlag = true → ∃ f ∈ StreamSend.frames s.send,
    hasFin f.firstByte = true ∧
      s.recv.str.recv.finalOff = (StreamSend.segment f).1 + (StreamSend.segment f).2.length
  ended : ∀ i ∈ s.arrived, ∃ f, (StreamSend.frames s.send)[i]? = some f ∧
    (hasFin f.firstByte = true → s.recv.str.recv.finFlag = true)
  announced : ∀ f ∈ s.announced, ∃ m ≤ varintMax, f = .init 0x11 (.maxStreamData sid m)

section
variable {cfg peer : Config} {sid : Nat} {s s' : State}

theorem start_inv (hw : cfg.streamFlowctrlInitialSwnd ≤ varintMax) :
    Inv cfg sid (start cfg peer) := by
  have hword : cfg.streamFlowctrlInitialSwnd < 2 ^ 64 := by
    rw [varintMax] at hw
    omega
  exact
    { carried := StreamSend.start_carried cfg hword
      shaped := List.forall_mem_nil _
      window := hw
      length := rfl
      got := List.nil_prefix
      held := fun _ => ⟨[], drawn_nil _, Delivery.start_pieces⟩
      emptied := fun hc => absurd hc Bool.false_ne_true
      final := fun hf => absurd hf Bool.false_ne_true
      ended := List.forall_mem_nil _
      announced := List.forall_mem_nil _ }

/-- the segments are in a row, end where the sender is, and hold what the writer handed over -/
theorem Inv.row (hi : Inv cfg sid s) :
    StreamSend.Consecutive 0 (segments s) s.send.str.send.off ∧
      ((segments s).map Prod.snd).flatten = source s ∧
      s.send.str.send.off = (source s).length ∧ (source s).length ≤ varintMax := by
  have hcons := hi.carried.consecutive
  have hpay : ((segments s).map Prod.snd).flatten = source s := by
    rw [segments, List.map_map]
    exact hi.carried.payload
  have hlen : s.send.str.send.off = (source s).length := by
    have := hcons.total
    rw [Nat.zero_add] at this
    rw [← this, ← hpay]
    rfl
  have h1 := hi.carried.counters
  have h2 := hi.carried.window
  have h3 := hi.window
  exact ⟨hcons, hpay, hlen, by omega⟩

/-- a frame ends inside the stream -/
theorem Inv.frame_end (hi : Inv cfg sid s) {f : Frame} (hf : f ∈ StreamSend.frames s.send) :
    (StreamSend.segment f).1 + (StreamSend.segment f).2.length ≤ (source s).length := by
  obtain ⟨hcons, _, hoff, _⟩ := hi.row
  rw [← hoff]
  exact (hcons.inside (List.mem_map_of_mem hf)).2

/-! ## the steps of the sender -/

/-- What a step of the sender keeps of the receiver's side. -/
theorem sender_inv (hi : Inv cfg sid s) {e : StreamSend.Event} {x : StreamSend.State}
    (ho : StreamSend.OneByOne s.send e) (hs : StreamSend.step sid s.send e = some x)
    (hw : x.str.flowctrl.swnd ≤ varintMax) : Inv cfg sid { s with send := x } := by
  have hcarried := StreamSend.step_carried hi.carried ho hs
  obtain ⟨fs, hfs, hshape⟩ := StreamSend.step_frames hs
  obtain ⟨more, hmore⟩ := StreamSend.step_consumed hi.carried ho hs
  have hseg : segments { s with send := x } = segments s ++ fs.map StreamSend.segment := by
    show (StreamSend.frames x).map _ = (StreamSend.frames s.send).map _ ++ _
    rw [hfs, List.map_append]
  have hsource : source { s with send := x } = source s ++ more := hmore.symm
  obtain ⟨hcons, _, hoff, _⟩ := hi.row
  refine ⟨hcarried, fun f hf => ?_, hw, hi.length, ?_, fun hc => ?_, hi.emptied, fun hf => ?_,
    fun i hmem => ?_, hi.announced⟩
  · replace hf : f ∈ StreamSend.frames x := hf
    rw [hfs] at hf
    rcases List.mem_append.mp hf with hf | hf
    · exact hi.shaped f hf
    · exact hshape f hf
  · rw [hsource, List.map_append]
    exact hi.got.trans (List.prefix_append _ _)
  · obtain ⟨ops, hdrawn, hpieces⟩ := hi.held hc
    refine ⟨ops, ?_, ?_⟩
    · rw [hseg]
      exact hdrawn.grow
    · -- the bytes that have arrived are among those handed over before
      rw [hsource]
      refine hpieces.congr fun op hop i hcov => ?_
      have hlt := hdrawn.below hcons op hop i hcov
      exact (CryptoOut.streamOf_append_left (by omega)).symm
  · obtain ⟨f, hmem, hfin, hend⟩ := hi.final hf
    refine ⟨f, ?_, hfin, hend⟩
    show f ∈ StreamSend.frames x
    rw [hfs]
    exact List.mem_append_left _ hmem
  · obtain ⟨f, hf, hfin⟩ := hi.ended i hmem
    refine ⟨f, ?_, hfin⟩
    show (StreamSend.frames x)[i]? = some f
    rw [hfs, List.getElem?_append_left (List.getElem?_eq_some_iff.mp hf).1]
    exact hf

/-- only the peer moves the window -/
theorem own_swnd {e : StreamSend.Event} {x y : StreamSend.State} (ho : Own e)
    (hs : StreamSend.step sid x e = some y) : y.str.flowctrl.swnd = x.str.flowctrl.swnd := by
  cases e with
  | write now data =>
    cases hs
    rfl
  | woken now =>
    rw [StreamSend.step] at hs
    split at hs
    · cases hs
      rfl
    · cases hs
      rfl
  | close =>
    cases hs
    rfl
  | setDeadline deadline =>
    cases hs
    rfl
  | maxStreamData maxData => exact ho.elim
  | generate mem bytes fill =>
    cases hs
    rcases StreamSend.generate_cases mem x.str sid bytes fill with ⟨_, _, _, h, _⟩ | ⟨_, hm⟩
    · exact h
    · show (x.str.generate mem sid bytes fill).stream.flowctrl.swnd = _
      rw [hm.flowctrl]
      split <;> rfl

/-! ## the steps of the receiver -/

/-- the bytes of a frame reach the receiver as they were sent -/
theorem Inv.overWire_eq (hi : Inv cfg sid s) (hsid : sid ≤ varintMax) {f : Frame}
    (hf : f ∈ StreamSend.frames s.send) {rest : List UInt8} (hrest : f.Unbounded → rest = []) :
    overWire f rest = some (.init f.firstByte
      (.stream sid (StreamSend.segment f).1 (StreamSend.segment f).2)) := by
  have hend := (hi.frame_end hf).trans hi.row.2.2.2
  unfold overWire
  rw [StreamSend.frame_arrives (hi.shaped f hf) hsid hend hrest, (hi.shaped f hf).body]

/-- a segment at its place in the stream -/
theorem Inv.segment_at (hi : Inv cfg sid s) {x : Nat × List UInt8} (hx : x ∈ segments s) :
    ∀ i < x.2.length, x.2.getD i 0 = CryptoOut.streamOf (source s) (x.1 + i) := by
  obtain ⟨hcons, hpay, _, _⟩ := hi.row
  intro i hlt
  have hat := hcons.payload_at hx hlt
  rw [hpay, Nat.sub_zero] at hat
  rw [CryptoOut.streamOf, List.getD_eq_getElem?_getD, List.getD_eq_getElem?_getD, hat]

/-- A frame of the stream is handled, and keeps the invariant. -/
theorem frame_inv (peer : Config) (hi : Inv cfg sid s) {i : Nat} {f : Frame}
    (hf : (StreamSend.frames s.send)[i]? = some f) :
    ∃ x, StreamRecv.step peer s.recv (.frame .ok f.firstByte (StreamSend.segment f).1
        (StreamSend.segment f).2) = some x ∧
      Inv cfg sid { s with recv := x, arrived := s.arrived ++ [i] } := by
  have hfmem := List.mem_of_getElem? hf
  have hend := hi.frame_end hfmem
  obtain ⟨hcons, _, hoff, hmax⟩ := hi.row
  have hxmem : StreamSend.segment f ∈ segments s := List.mem_map_of_mem hfmem
  have hnth : (segments s)[i]? = some (StreamSend.segment f) := by
    rw [segments, List.getElem?_map, hf]
    rfl
  have hat := hi.segment_at hxmem
  generalize hseg : StreamSend.segment f = x at *
  obtain ⟨off, data⟩ := x
  dsimp only at hend hat ⊢
  have hmax' : (source s).length ≤ 2 ^ 62 - 1 := hmax
  have hfit : (SortOp.write off data.length).Fits := ⟨by omega, by omega⟩
  have hlt : off + data.length < 2 ^ 64 := by omega
  -- what the frame does, apart from the sorter of an open stream
  have hrest : ∀ y, Streams.recvStreamHandleFrame .ok s.recv.str s.recv.conn f.firstByte off data =
      some y → (s.recv.str.recv.closed = false →
        Held { s with recv := ⟨y.1, y.2.1⟩, arrived := s.arrived ++ [i] }) →
      y.1.recv.sorter.readedSize = s.recv.str.recv.sorter.readedSize →
      (s.recv.str.recv.closed = true → y.1.recv.sorter = s.recv.str.recv.sorter) →
      ∃ x, StreamRecv.step peer s.recv (.frame .ok f.firstByte off data) = some x ∧
        Inv cfg sid { s with recv := x, arrived := s.arrived ++ [i] } := by
    intro y hy hheld hreaded hsame
    obtain ⟨hd, _⟩ := recvStreamHandleFrame_spec hlt hy
    refine ⟨⟨y.1, y.2.1⟩, by rw [StreamRecv.step, hy, Option.map_some], hi.carried, hi.shaped,
      hi.window, hi.length.trans hreaded.symm, hi.got, fun hc => hheld (hd.closed.symm.trans hc),
      fun hc => ?_, fun hf' => ?_, fun j hj => ?_, hi.announced⟩
    · have hc' := hd.closed.symm.trans hc
      show y.1.recv.sorter.clusters = _
      rw [hsame hc']
      exact hi.emptied hc'
    · replace hf' : y.1.recv.finFlag = true := hf'
      show ∃ f ∈ StreamSend.frames s.send, _ ∧ y.1.recv.finalOff = _
      rw [hd.finalOff]
      by_cases hfin : hasFin f.firstByte = true
      · exact ⟨f, hfmem, hfin, by rw [if_pos hfin, hseg]⟩
      · rw [if_neg hfin]
        have hold := hd.finFlag.symm.trans hf'
        rw [Bool.not_eq_true] at hfin
        rw [hfin, Bool.or_false] at hold
        exact hi.final hold
    · show ∃ g, (StreamSend.frames s.send)[j]? = some g ∧ (_ → y.1.recv.finFlag = true)
      rw [hd.finFlag]
      rcases List.mem_append.mp hj with hj | hj
      · obtain ⟨g, hg, hfin⟩ := hi.ended j hj
        exact ⟨g, hg, fun h => by rw [hfin h, Bool.true_or]⟩
      · rw [List.mem_singleton.mp hj]
        exact ⟨f, hf, fun h => by rw [h, Bool.or_true]⟩
  rcases hc : s.recv.str.recv.closed with _ | _
  · obtain ⟨ops, hdrawn, hpieces⟩ := hi.held hc
    by_cases hne : data = []
    · obtain ⟨y, hy⟩ := recvStreamHandleFrame_idle s.recv.conn f.firstByte off
        (Or.inr hne : s.recv.str.recv.closed = true ∨ data = [])
      have hsame := (recvStreamHandleFrame_spec hlt hy).1.untouched
        (Or.inr (by rw [hne]; rfl))
      refine hrest y hy (fun _ => ⟨ops, hdrawn.idle hnth hne, ?_⟩) (by rw [hsame]) fun _ => hsame
      · show Delivery.PiecesInv _ ops ⟨y.1.recv.sorter, s.got⟩
        rw [hsame]
        exact hpieces
    · obtain ⟨z, hz, hpieces'⟩ := Delivery.piece_arrives hpieces hfit (hdrawn.whole hcons hxmem) hat
      obtain ⟨y, hy, hsorter⟩ := recvStreamHandleFrame_open .ok s.recv.conn f.firstByte hc hne hz
      have hold : s.recv.str.recv.sorter.readedSize = s.got.length := hi.length.symm
      have hnew : y.1.recv.sorter.readedSize = s.got.length := by
        have hret := hpieces'.returned
        rw [hsorter]
        dsimp only at hret
        rw [hret, Delivery.bytesOf, List.length_map, List.length_range]
      refine hrest y hy (fun _ => ⟨_, hdrawn.arrive hnth, ?_⟩) (hnew.trans hold.symm) fun h =>
        absurd (hc.symm.trans h) Bool.false_ne_true
      · show Delivery.PiecesInv _ _ ⟨y.1.recv.sorter, s.got⟩
        rw [hsorter]
        exact hpieces'
  · obtain ⟨y, hy⟩ := recvStreamHandleFrame_idle s.recv.conn f.firstByte off
      (Or.inl hc : s.recv.str.recv.closed = true ∨ data = [])
    have hsame := (recvStreamHandleFrame_spec hlt hy).1.untouched (Or.inl hc)
    exact hrest y hy (fun h => absurd (h.symm.trans hc) Bool.false_ne_true) (by rw [hsame])
      fun _ => hsame

theorem read_inv (hi : Inv cfg sid s) {rtt : Nat} {now : Time} {woken : Bool} {len : Nat}
    {x : StreamRecv.State} (hs : StreamRecv.step peer s.recv (.read rtt now woken len) = some x) :
    Inv cfg sid { s with recv := x, got := s.got ++ s.recv.str.readBytes woken len } := by
  obtain ⟨y, hy, rfl⟩ := Option.map_eq_some_iff.mp hs
  have hout := Stream.read_spec hy
  obtain ⟨hcons, _, hoff, hmax⟩ := hi.row
  have hmax' : (source s).length ≤ 2 ^ 62 - 1 := hmax
  have hgot : s.got.length ≤ (source s).length := by
    have := hi.got.length_le
    rwa [List.length_map] at this
  -- the reader's record and the sorter, whichever way the turn goes
  have hrest : (s.got ++ s.recv.str.readBytes woken len).length = y.1.recv.sorter.readedSize →
      s.got ++ s.recv.str.readBytes woken len <+: (source s).map some →
      (s.recv.str.recv.closed = false → Held { s with
        recv := ⟨y.1, y.2.1⟩, got := s.got ++ s.recv.str.readBytes woken len }) →
      (s.recv.str.recv.closed = true → y.1.recv.sorter.clusters = OrdMap.empty) →
      Inv cfg sid { s with
        recv := ⟨y.1, y.2.1⟩, got := s.got ++ s.recv.str.readBytes woken len } :=
    fun h1 h2 h3 h4 => ⟨hi.carried, hi.shaped, hi.window, h1, h2,
      fun hc => h3 (hout.closed.symm.trans hc), fun hc => h4 (hout.closed.symm.trans hc),
      fun hf => by
        show ∃ f ∈ StreamSend.frames s.send, _ ∧ y.1.recv.finalOff = _
        rw [hout.finalOff]
        exact hi.final (hout.finFlag.symm.trans hf),
      fun i hmem => by
        obtain ⟨f, hf, hfin⟩ := hi.ended i hmem
        exact ⟨f, hf, fun h => hout.finFlag.trans (hfin h)⟩,
      hi.announced⟩
  rcases Stream.read_sorter hy with ⟨hsame, hnone⟩ | ⟨hread, hbytes⟩
  · rw [hnone, List.append_nil] at hrest ⊢
    refine hrest (by rw [hsame, hi.length]) hi.got (fun hc => ?_) fun hc => by
      rw [hsame, hi.emptied hc]
    obtain ⟨ops, hdrawn, hpieces⟩ := hi.held hc
    refine ⟨ops, hdrawn, ?_⟩
    show Delivery.PiecesInv _ ops ⟨y.1.recv.sorter, s.got⟩
    rw [hsame]
    exact hpieces
  · rw [hbytes] at hrest ⊢
    rcases hc : s.recv.str.recv.closed with _ | _
    · obtain ⟨ops, hdrawn, hpieces⟩ := hi.held hc
      have hpieces' : Delivery.PiecesInv (CryptoOut.streamOf (source s)) ops
          ⟨y.1.recv.sorter, s.got ++ (s.recv.str.recv.sorter.read len).2⟩ := by
        rw [hread]
        exact Delivery.read_pieces hpieces len
      have hle : y.1.recv.sorter.readedSize ≤ (source s).length := by
        have h1 : y.1.recv.sorter.readedSize ≤ y.1.recv.sorter.availSize := hpieces'.readed_le
        have h2 := hpieces'.avail_le (hdrawn.below hcons)
        omega
      have heq := hpieces'.returned_eq hle
      refine hrest ?_ ?_ (fun _ => ⟨ops, hdrawn, hpieces'⟩) fun h =>
        absurd (hc.symm.trans h) Bool.false_ne_true
      · rw [heq, List.length_map, List.length_take, Nat.min_eq_left hle]
      · rw [heq]
        exact (List.take_prefix _ _).map _
    · obtain ⟨hempty, hclusters⟩ := Sorter.read_of_empty (hi.emptied hc) len
      have hreaded : y.1.recv.sorter.readedSize = s.got.length := by
        rw [hread]
        show add64 s.recv.str.recv.sorter.readedSize (s.recv.str.recv.sorter.read len).2.length = _
        rw [hempty, ← hi.length]
        exact add64_of_lt (by rw [List.length_nil]; omega)
      rw [hempty, List.append_nil] at hrest ⊢
      refine hrest hreaded.symm hi.got (fun h => absurd (h.symm.trans hc) Bool.false_ne_true)
        fun _ => ?_
      rw [hread]
      exact hclusters

theorem close_inv (hi : Inv cfg sid s) {rtt : Nat} {now : Time} {x : StreamRecv.State}
    (hs : StreamRecv.step peer s.recv (.close rtt now) = some x) :
    Inv cfg sid { s with recv := x } := by
  obtain ⟨y, hy, rfl⟩ := Option.map_eq_some_iff.mp hs
  have hout := Stream.close_spec hy
  have hsorter : y.1.recv.sorter.readedSize = s.recv.str.recv.sorter.readedSize ∧
      y.1.recv.sorter.clusters = OrdMap.empty := by
    rcases hout.sorter with hsame | hdestory
    · rw [hsame]
      refine ⟨rfl, hi.emptied ?_⟩
      rw [← hsame]
      exact hout.closed
    · rw [hdestory]
      exact ⟨rfl, rfl⟩
  refine ⟨hi.carried, hi.shaped, hi.window, hi.length.trans hsorter.1.symm, hi.got,
    fun hc => absurd (hc.symm.trans hout.closed) Bool.false_ne_true, fun _ => hsorter.2,
    fun hf => ?_, fun i hmem => ?_, hi.announced⟩
  · show ∃ f ∈ StreamSend.frames s.send, _ ∧ y.1.recv.finalOff = _
    rw [hout.finalOff]
    exact hi.final (hout.finFlag.symm.trans hf)
  · obtain ⟨f, hf, hfin⟩ := hi.ended i hmem
    exact ⟨f, hf, fun h => hout.finFlag.trans (hfin h)⟩

/-! ## the window -/

/-- the bytes of a MAX_STREAM_DATA frame reach the sender as they were sent -/
theorem overWire_window {m : Nat} (hsid : sid ≤ varintMax) (hm : m ≤ varintMax) (rest : List UInt8) :
    overWire (.init 0x11 (.maxStreamData sid m)) rest = some (.init 0x11 (.maxStreamData sid m)) := by
  have hstored : (Frame.init 0x11 (.maxStreamData sid m)).WellStored :=
    ⟨List.mem_singleton_self _, ⟨hsid, hm⟩, trivial⟩
  have hmis : ¬ (Frame.init 0x11 (.maxStreamData sid m)).Misrouted := by
    show ¬ (0x11 : UInt8).toNat ∈ [0x15, 0x16, 0x17]
    decide
  obtain ⟨chunks, h1, _, h3⟩ := frame_codec rest hstored hmis id fun h => h.elim
  have hbytes : frameBytes (.init 0x11 (.maxStreamData sid m)) = 0x11 :: chunks.flatten := by
    rw [frameBytes, h1]
    rfl
  have hparse : frameParse memOk (0x11 :: (chunks.flatten ++ rest)) =
      .ok (.init 0x11 (.maxStreamData sid m), rest) := h3
  unfold overWire
  rw [hbytes, List.cons_append, hparse]

theorem window_inv (hi : Inv cfg sid s) {m : Nat} (hm : m ≤ varintMax) {x : StreamSend.State}
    (hs : StreamSend.step sid s.send (.maxStreamData m) = some x) :
    Inv cfg sid { s with send := x } := by
  have hm' : m ≤ 2 ^ 62 - 1 := hm
  refine sender_inv (e := .maxStreamData m) hi (show m < 2 ^ 64 by omega) hs ?_
  cases hs
  show (s.send.str.flowctrl.updateSwnd m).swnd ≤ _
  rw [(StreamSend.updateSwnd_frame _ _).1]
  exact Nat.max_le.mpr ⟨hi.window, hm⟩

/-! ## a step -/

theorem step_deliver (peer : Config) (hi : Inv cfg sid s) (hsid : sid ≤ varintMax) {i : Nat} {rest : List UInt8}
    (hg : Guarded s (.deliver i rest)) :
    ∃ s', step peer sid s (.deliver i rest) = some s' ∧ Inv cfg sid s' := by
  rw [step]
  cases hf : (StreamSend.frames s.send)[i]? with
  | none => exact ⟨s, rfl, hi⟩
  | some f =>
    obtain ⟨x, hx, hinv⟩ := frame_inv peer hi hf
    have hr := hi.overWire_eq hsid (List.mem_of_getElem? hf) (hg f hf)
    dsimp only
    rw [hr]
    refine ⟨_, ?_, hinv⟩
    show (arrive peer sid s.recv _).bind _ = _
    unfold arrive
    dsimp only [Frame.init]
    rw [if_pos rfl, hx]
    rfl

theorem step_window (peer : Config) (hi : Inv cfg sid s) (hsid : sid ≤ varintMax) (i : Nat) (rest : List UInt8) :
    ∃ s', step peer sid s (.window i rest) = some s' ∧ Inv cfg sid s' := by
  rw [step]
  cases hf : s.announced[i]? with
  | none => exact ⟨s, rfl, hi⟩
  | some f =>
    obtain ⟨m, hm, rfl⟩ := hi.announced f (List.mem_of_getElem? hf)
    dsimp only
    rw [overWire_window hsid hm]
    refine ⟨_, ?_, window_inv hi hm rfl⟩
    show (reopen sid s.send _).bind _ = _
    unfold reopen
    dsimp only [Frame.init]
    rw [if_pos rfl]
    rfl

/-- **One step.**  Whatever the network does next, the invariant is kept. -/
theorem step_inv (hi : Inv cfg sid s) (hsid : sid ≤ varintMax) {e : Event} (hg : Guarded s e)
    (hs : step peer sid s e = some s') : Inv cfg sid s' := by
  cases e with
  | turn e =>
    obtain ⟨x, hx, rfl⟩ := Option.map_eq_some_iff.mp hs
    refine sender_inv hi hg.2 hx ?_
    rw [own_swnd hg.1 hx]
    exact hi.window
  | deliver i rest =>
    obtain ⟨s1, hs1, hinv⟩ := step_deliver peer hi hsid hg
    cases hs.symm.trans hs1
    exact hinv
  | read rtt now woken len =>
    obtain ⟨x, hx, rfl⟩ := Option.map_eq_some_iff.mp hs
    exact read_inv hi hx
  | close rtt now =>
    obtain ⟨x, hx, rfl⟩ := Option.map_eq_some_iff.mp hs
    exact close_inv hi hx
  | announce =>
    cases hs
    refine ⟨hi.carried, hi.shaped, hi.window, hi.length, hi.got, hi.held, hi.emptied, hi.final,
      hi.ended, fun f hf => ?_⟩
    rcases List.mem_append.mp hf with hf | hf
    · exact hi.announced f hf
    · exact ⟨_, hg, List.mem_singleton.mp hf⟩
  | window i rest =>
    obtain ⟨s1, hs1, hinv⟩ := step_window peer hi hsid i rest
    cases hs.symm.trans hs1
    exact hinv

/-! ## what the reader sees -/

/-- the reader has got the first bytes that the writer handed over, and every frame of the stream has
an outcome -/
structure InOrder (peer : Config) (sid : Nat) (s : State) : Prop where
  got : s.got <+: (source s).map some
  handled : ∀ i rest, Guarded s (.deliver i rest) → (step peer sid s (.deliver i rest)).isSome

/-- every frame that was sent has arrived at least once -/
def AllArrived (s : State) : Prop := ∀ i < (StreamSend.frames s.send).length, i ∈ s.arrived

/-- a turn of a read, whether or not it has waited, returns all that the writer handed over and the
reader has not got -/
def Complete (s : State) : Prop :=
  AllArrived s → s.recv.str.recv.closed = false → ∀ woken len, (source s).length ≤ len →
    s.got ++ s.recv.str.readBytes woken len = (source s).map some

/-- What the end of the stream tells the reader, and when it learns of it.  A read that waits can be
woken by the `FIN` alone, with bytes missing: the final size is right then, but it is not reached. -/
structure EndRight (s : State) : Prop where
  size : s.recv.str.recv.finFlag = true → s.recv.str.recv.finalOff = (source s).length ∧
    s.send.str.send.closed = true ∧ s.send.str.send.readerLen = 0
  seen : s.recv.str.recv.finFlag = true →
    s.recv.str.recv.finalOff ≤ s.recv.str.recv.sorter.readedSize → s.got = (source s).map some
  learnt : AllArrived s → (∃ f ∈ StreamSend.frames s.send, hasFin f.firstByte = true) →
    s.recv.str.recv.finFlag = true

theorem Inv.inOrder (hi : Inv cfg sid s) (hsid : sid ≤ varintMax) : InOrder peer sid s :=
  ⟨hi.got, fun _ _ hg => by
    obtain ⟨s', hs', _⟩ := step_deliver peer hi hsid hg
    rw [hs']
    rfl⟩

theorem Inv.endRight (hi : Inv cfg sid s) (hf : StreamSend.FinEnd s.send) : EndRight s := by
  obtain ⟨_, _, hoff, _⟩ := hi.row
  have hlen := hi.got.length_le
  rw [List.length_map] at hlen
  have hsize : s.recv.str.recv.finFlag = true → s.recv.str.recv.finalOff = (source s).length ∧
      s.send.str.send.closed = true ∧ s.send.str.send.readerLen = 0 := by
    intro hfin
    obtain ⟨f, hmem, hbit, hend⟩ := hi.final hfin
    obtain ⟨hc, _, hr, hlast⟩ := hf f hmem hbit
    exact ⟨by omega, hc, hr⟩
  refine ⟨hsize, fun hfin hle => ?_, fun hall hex => ?_⟩
  · have hgot := hi.length
    have hend := (hsize hfin).1
    refine hi.got.eq_of_length ?_
    rw [List.length_map]
    omega
  · obtain ⟨f, hmem, hbit⟩ := hex
    obtain ⟨i, hlt, hnth⟩ := List.mem_iff_getElem.mp hmem
    obtain ⟨g, hg, hflag⟩ := hi.ended i (hall i hlt)
    rw [List.getElem?_eq_getElem hlt, hnth, Option.some_inj] at hg
    subst hg
    exact hflag hbit

/-- the sorter has all of it, and a read that does not ask the sorter has nothing left to return -/
theorem Inv.complete (hi : Inv cfg sid s) (hf : StreamSend.FinEnd s.send) : Complete s := by
  intro hall hc woken len hlen
  obtain ⟨hcons, hpay, hoff, _⟩ := hi.row
  obtain ⟨ops, hdrawn, hpieces⟩ := hi.held hc
  rw [hoff] at hcons
  unfold Stream.readBytes
  split
  · rename_i hskip
    rw [List.append_nil]
    simp only [hc, Bool.and_eq_true, Bool.or_eq_true, Bool.false_or, decide_eq_true_eq] at hskip
    rcases hskip.2 with hzero | ⟨hfin, hend⟩
    · refine hi.got.eq_of_length (Nat.le_antisymm hi.got.length_le ?_)
      rw [List.length_map]
      omega
    · exact (hi.endRight hf).seen hfin hend
  · refine (hpieces.complete (hdrawn.below hcons) (hdrawn.all_covered hcons fun i hlt => ?_)
      ((Nat.sub_le _ _).trans hlen)).2
    rw [segments, List.length_map] at hlt
    exact hall i hlt

/-! ## the limits -/

/-- the limits that the sender knows of: the one it starts with and those of the receiver -/
def limits (cfg : Config) (s : State) : List Nat :=
  cfg.streamFlowctrlInitialSwnd :: s.announced.filterMap StreamWindow.maxData

structure WindowInv (cfg : Config) (s : State) : Prop where
  swnd : s.send.str.flowctrl.swnd ∈ limits cfg s
  recvOff : s.recv.str.flowctrl.recvOff ≤ s.send.str.send.off

/-- what was sent and what has come in stay below one of the limits -/
def Obeyed (cfg : Config) (s : State) : Prop :=
  ∃ limit ∈ limits cfg s, (source s).length ≤ limit ∧ s.recv.str.flowctrl.recvOff ≤ limit

theorem start_window (cfg peer : Config) : WindowInv cfg (start cfg peer) :=
  ⟨List.mem_cons_self, le_refl _⟩

theorem Inv.obeyed (hi : Inv cfg sid s) (hw : WindowInv cfg s) : Obeyed cfg s := by
  obtain ⟨_, _, hoff, _⟩ := hi.row
  have h1 := hi.carried.counters
  have h2 := hi.carried.window
  have h3 := hw.recvOff
  exact ⟨_, hw.swnd, by omega, by omega⟩

/-- the sender never goes back -/
theorem Inv.off_le (hi : Inv cfg sid s) {e : StreamSend.Event} {x : StreamSend.State}
    (ho : StreamSend.OneByOne s.send e) (hs : StreamSend.step sid s.send e = some x)
    (hw : x.str.flowctrl.swnd ≤ varintMax) : s.send.str.send.off ≤ x.str.send.off := by
  have hnew : x.str.send.off = (source { s with send := x }).length := (sender_inv hi ho hs hw).row.2.2.1
  have hold := hi.row.2.2.1
  have hle := (StreamSend.step_consumed hi.carried ho hs).length_le
  rw [hnew, hold]
  exact hle

theorem window_step (hi : Inv cfg sid s) (hw : WindowInv cfg s) (hsid : sid ≤ varintMax) {e : Event}
    (hg : Guarded s e) (hs : step peer sid s e = some s') : WindowInv cfg s' := by
  cases e with
  | turn e =>
    obtain ⟨x, hx, rfl⟩ := Option.map_eq_some_iff.mp hs
    have hsame := own_swnd hg.1 hx
    refine ⟨?_, hw.recvOff.trans (hi.off_le hg.2 hx (hsame ▸ hi.window))⟩
    show x.str.flowctrl.swnd ∈ _
    rw [hsame]
    exact hw.swnd
  | deliver i rest =>
    rw [step] at hs
    cases hf : (StreamSend.frames s.send)[i]? with
    | none =>
      rw [hf] at hs
      cases hs
      exact hw
    | some f =>
      have hfmem := List.mem_of_getElem? hf
      have hend := hi.frame_end hfmem
      obtain ⟨_, _, hoff, hmax⟩ := hi.row
      have hmax' : (source s).length ≤ 2 ^ 62 - 1 := hmax
      rw [hf] at hs
      dsimp only at hs
      rw [hi.overWire_eq hsid hfmem (hg f hf)] at hs
      obtain ⟨_, hframe, hs⟩ := Option.bind_eq_some_iff.mp hs
      cases hframe
      obtain ⟨x, hx, hs⟩ := Option.bind_eq_some_iff.mp hs
      cases hs
      unfold arrive at hx
      dsimp only [Frame.init] at hx
      rw [if_pos rfl] at hx
      obtain ⟨y, hy, rfl⟩ := Option.map_eq_some_iff.mp hx
      obtain ⟨_, hflow⟩ := recvStreamHandleFrame_spec (by omega) hy
      have hrecv := (s.recv.str.flowctrl.updateRwnd_spec s.recv.conn
        ((StreamSend.segment f).1 + (StreamSend.segment f).2.length) (hasFin f.firstByte)).1
      rw [← hflow] at hrecv
      refine ⟨hw.swnd, ?_⟩
      show y.1.flowctrl.recvOff ≤ s.send.str.send.off
      rw [show y.1.flowctrl.recvOff = _ from hrecv]
      have hle := hw.recvOff
      split
      · exact hle
      · exact Nat.max_le.mpr ⟨hle, by omega⟩
  | read rtt now woken len =>
    obtain ⟨x, hx, rfl⟩ := Option.map_eq_some_iff.mp hs
    obtain ⟨y, hy, rfl⟩ := Option.map_eq_some_iff.mp hx
    refine ⟨hw.swnd, ?_⟩
    show y.1.flowctrl.recvOff ≤ _
    rw [(Stream.read_spec hy).recvOff]
    exact hw.recvOff
  | close rtt now =>
    obtain ⟨x, hx, rfl⟩ := Option.map_eq_some_iff.mp hs
    obtain ⟨y, hy, rfl⟩ := Option.map_eq_some_iff.mp hx
    refine ⟨hw.swnd, ?_⟩
    show y.1.flowctrl.recvOff ≤ _
    rw [(Stream.close_spec hy).flowctrl]
    exact hw.recvOff
  | announce =>
    cases hs
    refine ⟨?_, hw.recvOff⟩
    have hmore : limits cfg { s with announced := s.announced ++ [windowFrame sid s.recv] } =
        limits cfg s ++ [s.recv.str.flowctrl.rwnd] := by
      unfold limits
      rw [List.filterMap_append, List.cons_append]
      rfl
    rw [hmore]
    exact List.mem_append_left _ hw.swnd
  | window i rest =>
    rw [step] at hs
    cases hf : s.announced[i]? with
    | none =>
      rw [hf] at hs
      cases hs
      exact hw
    | some f =>
      have hfmem := List.mem_of_getElem? hf
      obtain ⟨m, hm, rfl⟩ := hi.announced f hfmem
      rw [hf] at hs
      dsimp only at hs
      rw [overWire_window hsid hm] at hs
      obtain ⟨_, hframe, hs⟩ := Option.bind_eq_some_iff.mp hs
      cases hframe
      obtain ⟨x, hx, hs⟩ := Option.bind_eq_some_iff.mp hs
      cases hs
      unfold reopen at hx
      dsimp only [Frame.init] at hx
      rw [if_pos rfl] at hx
      cases hx
      refine ⟨?_, hw.recvOff⟩
      show (s.send.str.flowctrl.updateSwnd m).swnd ∈ limits cfg s
      rw [(StreamSend.updateSwnd_frame _ _).1]
      rcases max_choice s.send.str.flowctrl.swnd m with h | h
      · rw [h]
        exact hw.swnd
      · rw [h]
        exact List.mem_cons_of_mem _ (List.mem_filterMap.mpr ⟨_, hfmem, rfl⟩)

theorem fin_step (hi : Inv cfg sid s) (hf : StreamSend.FinEnd s.send) {e : Event} (hg : Guarded s e)
    (hfg : FinGuarded s e) (hs : step peer sid s e = some s') : StreamSend.FinEnd s'.send := by
  cases e with
  | turn e =>
    obtain ⟨x, hx, rfl⟩ := Option.map_eq_some_iff.mp hs
    exact StreamSend.step_finEnd hi.carried hf hfg hx
  | deliver i rest =>
    rw [step] at hs
    split at hs
    · cases hs
      exact hf
    · obtain ⟨_, _, hs⟩ := Option.bind_eq_some_iff.mp hs
      obtain ⟨_, _, hs⟩ := Option.bind_eq_some_iff.mp hs
      cases hs
      exact hf
  | read rtt now woken len =>
    obtain ⟨x, _, rfl⟩ := Option.map_eq_some_iff.mp hs
    exact hf
  | close rtt now =>
    obtain ⟨x, _, rfl⟩ := Option.map_eq_some_iff.mp hs
    exact hf
  | announce =>
    cases hs
    exact hf
  | window i rest =>
    rw [step] at hs
    split at hs
    · cases hs
      exact hf
    · obtain ⟨g, _, hs⟩ := Option.bind_eq_some_iff.mp hs
      obtain ⟨x, hx, hs⟩ := Option.bind_eq_some_iff.mp hs
      cases hs
      unfold reopen at hx
      split at hx
      · split at hx
        · exact StreamSend.step_finEnd (e := .maxStreamData _) hi.carried hf trivial hx
        · cases hx
          exact hf
      · cases hx
        exact hf

end

/-! ## runs -/

theorem run_transfer {cfg peer : Config} {sid : Nat} (hsid : sid ≤ varintMax)
    (hw : cfg.streamFlowctrlInitialSwnd ≤ varintMax) {es past : List Event}
    (hg : Along (step peer sid) Guarded (start cfg peer) es) (hp : past <+: es) {s : State}
    (h : run (step peer sid) (start cfg peer) past = some s) : Inv cfg sid s :=
  run_reached (fun _ _ _ hi hg hs => step_inv hi hsid hg hs) (start_inv hw) hg hp h

/-- where the `FIN` bit is sent as it should be -/
theorem run_ended {cfg peer : Config} {sid : Nat} (hsid : sid ≤ varintMax)
    (hw : cfg.streamFlowctrlInitialSwnd ≤ varintMax) {es past : List Event}
    (hg : Along (step peer sid) (fun s e => Guarded s e ∧ FinGuarded s e) (start cfg peer) es)
    (hp : past <+: es) {s : State} (h : run (step peer sid) (start cfg peer) past = some s) :
    Inv cfg sid s ∧ StreamSend.FinEnd s.send :=
  run_reached (J := fun s => Inv cfg sid s ∧ StreamSend.FinEnd s.send)
    (fun _ _ _ hi hg hs => ⟨step_inv hi.1 hsid hg.1 hs, fin_step hi.1 hi.2 hg.1 hg.2 hs⟩)
    ⟨start_inv hw, StreamSend.start_finEnd cfg⟩ hg hp h

/-- five bytes in two frames and the end of the stream in a third; the second frame arrives first and
twice, the first one last -/
def shuffled : List Event :=
  [.turn (.write 0 [1, 2, 3, 4, 5]), .turn (.generate .ok 6 false), .turn (.generate .ok 100 false),
    .turn (.woken 1), .turn .close, .turn (.generate .ok 100 false), .deliver 1 [], .deliver 2 [0x01],
    .read 0 1 false 10, .announce, .deliver 1 [], .deliver 0 [], .window 0 [], .read 0 2 false 10]

theorem shuffled_guarded : Along (step serverCfg 4) (fun s e => Guarded s e ∧ FinGuarded s e)
    (start serverCfg serverCfg) shuffled := by decide +kernel

/-- the reader gets the five bytes -/
theorem shuffled_runs : ∃ s, run (step serverCfg 4) (start serverCfg serverCfg) shuffled = some s ∧
    s.got = [some 1, some 2, some 3, some 4, some 5] := by
  have hgot : (run (step serverCfg 4) (start serverCfg serverCfg) shuffled).map State.got =
      some [some 1, some 2, some 3, some 4, some 5] := by decide +kernel
  exact Option.map_eq_some_iff.mp hgot

/-- **In order.**  Whatever the network loses, repeats and reorders, the reader has got the first
bytes that the writer handed over, and every frame of the stream has an outcome. -/
theorem transfer_run (cfg peer : Config) (sid : Nat) (hsid : sid ≤ varintMax)
    (hw : cfg.streamFlowctrlInitialSwnd ≤ varintMax) (es : List Event)
    (hg : Along (step peer sid) Guarded (start cfg peer) es) :
    ∀ past, past <+: es → ∀ s, run (step peer sid) (start cfg peer) past = some s →
      InOrder peer sid s :=
  fun _ hp _ h => (run_transfer hsid hw hg hp h).inOrder hsid

theorem transfer_run_shuffled : ∃ s, run (step serverCfg 4) (start serverCfg serverCfg) shuffled =
    some s ∧ InOrder serverCfg 4 s := by
  obtain ⟨s, hs, _⟩ := shuffled_runs
  exact ⟨s, hs, transfer_run serverCfg serverCfg 4 (by decide) (by decide) shuffled
    (shuffled_guarded.mono _ fun _ _ h => h.1)
    shuffled List.prefix_rfl s hs⟩

/-- **Complete.**  Where the `FIN` bit is sent as it should be: once every frame has arrived, a read
returns all that is left. -/
theorem arrived_run (cfg peer : Config) (sid : Nat) (hsid : sid ≤ varintMax)
    (hw : cfg.streamFlowctrlInitialSwnd ≤ varintMax) (es : List Event)
    (hg : Along (step peer sid) (fun s e => Guarded s e ∧ FinGuarded s e) (start cfg peer) es) :
    ∀ past, past <+: es → ∀ s, run (step peer sid) (start cfg peer) past = some s → Complete s := by
  intro past hp s h
  obtain ⟨hi, hf⟩ := run_ended hsid hw hg hp h
  exact hi.complete hf

theorem arrived_run_shuffled : ∃ s, run (step serverCfg 4) (start serverCfg serverCfg) shuffled =
    some s ∧ Complete s := by
  obtain ⟨s, hs, _⟩ := shuffled_runs
  exact ⟨s, hs, arrived_run serverCfg serverCfg 4 (by decide) (by decide) shuffled shuffled_guarded
    shuffled List.prefix_rfl s hs⟩

/-- **The end.**  Where the `FIN` bit is sent as it should be, the final size of the receiver is that
of the stream, and a read finds it reached only behind the last byte. -/
theorem fin_run (cfg peer : Config) (sid : Nat) (hsid : sid ≤ varintMax)
    (hw : cfg.streamFlowctrlInitialSwnd ≤ varintMax) (es : List Event)
    (hg : Along (step peer sid) (fun s e => Guarded s e ∧ FinGuarded s e) (start cfg peer) es) :
    ∀ past, past <+: es → ∀ s, run (step peer sid) (start cfg peer) past = some s → EndRight s := by
  intro past hp s h
  obtain ⟨hi, hf⟩ := run_ended hsid hw hg hp h
  exact hi.endRight hf

theorem fin_run_shuffled : ∃ s, run (step serverCfg 4) (start serverCfg serverCfg) shuffled =
    some s ∧ EndRight s := by
  obtain ⟨s, hs, _⟩ := shuffled_runs
  exact ⟨s, hs, fin_run serverCfg serverCfg 4 (by decide) (by decide) shuffled shuffled_guarded
    shuffled List.prefix_rfl s hs⟩

/-- **The window.**  Neither what was sent nor what has come in passes every limit that the sender
started with or the receiver has announced. -/
theorem limit_run (cfg peer : Config) (sid : Nat) (hsid : sid ≤ varintMax)
    (hw : cfg.streamFlowctrlInitialSwnd ≤ varintMax) (es : List Event)
    (hg : Along (step peer sid) Guarded (start cfg peer) es) :
    ∀ past, past <+: es → ∀ s, run (step peer sid) (start cfg peer) past = some s → Obeyed cfg s := by
  intro past hp s h
  obtain ⟨hi, hwin⟩ := run_reached (J := fun s => Inv cfg sid s ∧ WindowInv cfg s)
    (fun _ _ _ hi hg hs => ⟨step_inv hi.1 hsid hg hs, window_step hi.1 hi.2 hsid hg hs⟩)
    ⟨start_inv hw, start_window cfg peer⟩ hg hp h
  exact hi.obeyed hwin

theorem limit_run_shuffled : ∃ s, run (step serverCfg 4) (start serverCfg serverCfg) shuffled =
    some s ∧ Obeyed serverCfg s := by
  obtain ⟨s, hs, _⟩ := shuffled_runs
  exact ⟨s, hs, limit_run serverCfg serverCfg 4 (by decide) (by decide) shuffled
    (shuffled_guarded.mono _ fun _ _ h => h.1)
    shuffled List.prefix_rfl s hs⟩

end Transfer
end OpenQuic
