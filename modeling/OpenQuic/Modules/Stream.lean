import Mathlib.Data.List.Sort
import OpenQuic.Format.Tables
import OpenQuic.Modules.Flowctrl
import OpenQuic.Sorter.Impl

/-!
# Streams

The stream module of `modules/stream.c` with the part of the framer (`modules/framer.c`) that it
works on: the stream sets, the sending and the receiving half of a stream, the streams that wait
for their destruction, and the streams whose receive window has grown.

* `SendStream`, `RecvStream`, `Stream`   a stream and its two halves;
* `Framer`                the streams that have something to send, and the control frames;
* `Streams`               the state that the functions of the module share;
* `recvRelationStream`, `sendRelationStream`   the stream that an identifier belongs to, created when
                          it is the peer's and there is none;
* `handleStreamFrame`, `handleMaxStreamData`, `open`, `write`, `read`, `close`, `moduleLoop`,
  `processRwnd`, `appendStreamFrame`           the operations.

What a coroutine does after a wait is an operation of its own here.  The allocation of a stream
succeeds, because the code does not look at its result.

`trace` is not part of the code: it records the calls of the callbacks `init`, `accept_cb`,
`closed_cb` and `destory`, one for each time that the code reaches the place of such a call.
-/

namespace OpenQuic
open Word

/-! ## identifiers -/

def streamIdTransfer (bidi isClient : Bool) (key : Nat) : Nat :=
  add64 ((if bidi then 0 else 2) + if isClient then 0 else 1) (shl64 (sub64 key 1) 2)

def streamIdIsBidi (id : Nat) : Bool := id % 4 < 2

def streamIdIsCli (id : Nat) : Bool := id % 2 = 0

def streamIdSamePrincipal (id : Nat) (cfg : Config) : Bool := streamIdIsCli id == cfg.isCli

/-! ## one stream -/

/-- `first_byte & quic_frame_stream_type_fin` -/
def hasFin (first : UInt8) : Bool := first &&& 0x09 == 0x09

structure SendStream where
  /-- `reader_buf`, `reader_len` bytes of it -/
  readerBuf : List UInt8
  off : Nat
  deadline : Time
  sentFin : Bool
  closed : Bool
  unackedFramesCount : Nat

def SendStream.init : SendStream := ⟨[], 0, 0, false, false, 0⟩

namespace SendStream

def readerLen (s : SendStream) : Nat := s.readerBuf.length

/-- whether a turn of `quic_stream_write_co` ends the write -/
def stops (s : SendStream) (now : Time) : Bool :=
  s.closed || (s.deadline ≠ 0 && s.deadline < now) || s.readerLen = 0

/-- `quic_stream_write_co` up to its wait, and whether it waits -/
def write (s : SendStream) (now : Time) (data : List UInt8) : SendStream × Bool :=
  let s := { s with readerBuf := data }
  if s.stops now then ({ s with readerBuf := [] }, false) else (s, true)

/-- `quic_stream_write_co` after its wait -/
def woken (s : SendStream) (now : Time) : SendStream :=
  if s.stops now then { s with readerBuf := [] } else s

end SendStream

structure RecvStream where
  sorter : Sorter
  finalOff : Nat
  finFlag : Bool
  closed : Bool

def RecvStream.init : RecvStream := ⟨Sorter.init, Sorter.maxSize, false, false⟩

/-- what is left of a sorter whose gaps and clusters are freed -/
def Sorter.destory (s : Sorter) : Sorter := { s with gaps := [], clusters := OrdMap.empty }

/-- the final size as a `FIN` bit gives it -/
def RecvStream.finish (r : RecvStream) (fin : Bool) (tOff : Nat) : RecvStream :=
  if fin then { r with finalOff := tOff, finFlag := true } else r

@[simp] theorem RecvStream.finish_sorter (r : RecvStream) (fin : Bool) (tOff : Nat) :
    (r.finish fin tOff).sorter = r.sorter := by
  unfold RecvStream.finish
  split <;> rfl

@[simp] theorem RecvStream.finish_closed (r : RecvStream) (fin : Bool) (tOff : Nat) :
    (r.finish fin tOff).closed = r.closed := by
  unfold RecvStream.finish
  split <;> rfl

@[simp] theorem RecvStream.finish_finFlag (r : RecvStream) (fin : Bool) (tOff : Nat) :
    (r.finish fin tOff).finFlag = (r.finFlag || fin) := by
  unfold RecvStream.finish
  cases fin
  · exact (Bool.or_false _).symm
  · exact (Bool.or_true _).symm

@[simp] theorem RecvStream.finish_finalOff (r : RecvStream) (fin : Bool) (tOff : Nat) :
    (r.finish fin tOff).finalOff = if fin then tOff else r.finalOff := by
  unfold RecvStream.finish
  split <;> rfl

/-- `quic_recv_stream_close`, less the credit that it gives back -/
def RecvStream.close (r : RecvStream) : RecvStream :=
  if r.closed then r else { r with closed := true, sorter := r.sorter.destory }

structure Stream where
  send : SendStream
  recv : RecvStream
  flowctrl : StreamFlowctrl

/-- `quic_stream_create` -/
def Stream.create (cfg : Config) : Stream := ⟨.init, .init, .init cfg⟩

def Stream.destroable (s : Stream) : Bool :=
  s.recv.closed && s.recv.finFlag && s.send.closed && s.send.sentFin

/-- One turn of `quic_stream_read_co`, with the connection's flow control and whether the stream's
window is to be announced.  `woken` says that the turn follows a wait: the code does not check again
then that the stream is open. -/
def Stream.read (cfg : Config) (rtt : Nat) (now : Time) (woken : Bool) (len : Nat) (str : Stream)
    (conn : ConnFlowctrl) : Option (Stream × ConnFlowctrl × Bool) :=
  if !woken && (str.recv.closed || len = 0
      || (str.recv.finFlag && str.recv.finalOff ≤ str.recv.sorter.readedSize)) then
    some (str, conn, false)
  else
    let r := str.recv.sorter.read len
    let recv := { str.recv with sorter := r.1 }
    if r.2.length = 0 then some ({ str with recv := recv }, conn, false)
    else (str.flowctrl.read cfg rtt now conn r.2.length).map fun x =>
      (⟨str.send, recv, x.1⟩, x.2)

/-- both halves of `quic_stream_close`, with the connection's flow control -/
def Stream.close (cfg : Config) (rtt : Nat) (now : Time) (str : Stream) (conn : ConnFlowctrl) :
    Option (Stream × ConnFlowctrl) :=
  let completed := !str.recv.closed && str.recv.finFlag
  (if completed then str.flowctrl.abandon cfg rtt now conn else some conn).map fun conn =>
    (⟨{ str.send with closed := true }, str.recv.close, str.flowctrl⟩, conn)

/-! ## the state of the module -/

inductive SetName where
  | inuni
  | inbidi
  | outuni
  | outbidi
  deriving DecidableEq, Repr

structure StreamSet where
  streams : Rbt Stream
  nextSid : Nat

structure DestorySid where
  destoryTime : Time
  closedCb : Bool
  deriving DecidableEq

structure Framer where
  activeSet : Rbt Unit
  activeQueue : List Nat
  ctrls : List Frame

inductive Life where
  | created (sid : Nat)
  | accepted (sid : Nat)
  | closed (sid : Nat)
  | destoried (sid : Nat)
  deriving DecidableEq, Repr

structure Streams where
  /-- the sets `inuni`, `inbidi`, `outuni` and `outbidi` -/
  sets : SetName → StreamSet
  rwndUpdated : Rbt Unit
  destorySet : Rbt DestorySid
  acceptCb : Bool
  framer : Framer
  conn : ConnFlowctrl
  trace : List Life

/-- which allocations of an operation succeed, those of streams apart; `rwndRoots` is not one: the
nodes of `rwnd_updated` come to the root of the tree in the order that they have in this list -/
structure StreamAlloc where
  sorter : Sorter.Alloc
  setNode : Bool
  queNode : Bool
  rwndSid : Bool
  destorySid : Bool
  destoryed : Nat → Bool
  ctrl : Nat → Bool
  frame : Bool
  rwndRoots : List Nat

def StreamAlloc.ok : StreamAlloc :=
  ⟨.ok, true, true, true, true, fun _ => true, fun _ => true, true, []⟩

namespace Framer

def init : Framer := ⟨OrdMap.empty, [], []⟩

def ctrl (f : Framer) (frame : Frame) : Framer := { f with ctrls := f.ctrls ++ [frame] }

def isEmpty (f : Framer) : Bool := f.activeQueue.isEmpty && f.ctrls.isEmpty

def addActive (mem : StreamAlloc) (f : Framer) (sid : Nat) : Framer :=
  if (f.activeSet.find sid).isSome || !mem.setNode then f
  else
    let f := { f with activeSet := f.activeSet.insert sid () }
    if mem.queNode then { f with activeQueue := f.activeQueue ++ [sid] } else f

end Framer

namespace Streams

def init (cfg : Config) : Streams where
  sets := fun _ => ⟨OrdMap.empty, 1⟩
  rwndUpdated := OrdMap.empty
  destorySet := OrdMap.empty
  acceptCb := false
  framer := .init
  conn := .init cfg
  trace := []

def streams (st : Streams) (name : SetName) : Rbt Stream := (st.sets name).streams

/-- the same state with other streams in one set -/
def setStreams (st : Streams) (name : SetName) (streams : Rbt Stream) : Streams :=
  { st with sets := fun n => if n = name then { st.sets n with streams := streams } else st.sets n }

def note (st : Streams) (l : List Life) : Streams := { st with trace := st.trace ++ l }

/-- a stream that is there takes a new value -/
def putStream (st : Streams) (name : SetName) (sid : Nat) (str : Stream) : Streams :=
  st.setStreams name ((st.streams name).insert sid str)

/-! ## the stream of an identifier -/

/-- the set of the peer's streams that an identifier belongs to -/
def recvSet (sid : Nat) : SetName := if streamIdIsBidi sid then .inbidi else .inuni

def sendSet (sid : Nat) : SetName := if streamIdIsBidi sid then .outbidi else .outuni

/-- the set that a pass of the module looks an identifier up in -/
def homeSet (cfg : Config) (sid : Nat) : SetName :=
  if streamIdSamePrincipal sid cfg then sendSet sid else recvSet sid

/-- `quic_session_open_recv_stream` -/
def openRecvStream (cfg : Config) (st : Streams) (sid : Nat) : Streams :=
  match (st.streams (recvSet sid)).find sid with
  | some _ => st
  | none => (st.putStream (recvSet sid) sid (Stream.create cfg)).note
      (.created sid :: if st.acceptCb then [.accepted sid] else [])

/-- the set in which the stream is, if there is one -/
def recvRelationStream (cfg : Config) (st : Streams) (sid : Nat) : Option SetName × Streams :=
  if streamIdSamePrincipal sid cfg then
    (if streamIdIsBidi sid ∧ ((st.streams .outbidi).find sid).isSome then some .outbidi else none, st)
  else (some (recvSet sid), openRecvStream cfg st sid)

def sendRelationStream (cfg : Config) (st : Streams) (sid : Nat) : Option SetName × Streams :=
  if streamIdSamePrincipal sid cfg then
    (if ((st.streams (sendSet sid)).find sid).isSome then some (sendSet sid) else none, st)
  else if streamIdIsBidi sid then (some (recvSet sid), openRecvStream cfg st sid)
  else (none, st)

/-! ## frames of the peer -/

/-- `quic_recv_stream_handle_frame`, and whether it signals `handled_chan`.  An error of the sorter
is dropped. -/
def recvStreamHandleFrame (mem : StreamAlloc) (str : Stream) (conn : ConnFlowctrl)
    (firstByte : UInt8) (off : Nat) (data : List UInt8) : Option (Stream × ConnFlowctrl × Bool) :=
  let tOff := add64 off data.length
  let fin := hasFin firstByte
  let newlyFin := fin && !str.recv.finFlag
  let window := str.flowctrl.updateRwnd conn tOff fin
  let recv := str.recv.finish fin tOff
  if recv.closed then some (⟨str.send, recv, window.1⟩, window.2, false)
  else if data.length = 0 then some (⟨str.send, recv, window.1⟩, window.2, newlyFin)
  else
    (recv.sorter.write mem.sorter off data.length fun i => data.getD i 0).map fun x =>
      (⟨str.send, { recv with sorter := x.1 }, window.1⟩, window.2,
        x.2 == .success && recv.sorter.readable != x.1.readable)

/-- `quic_session_handle_stream_frame` -/
def handleStreamFrame (cfg : Config) (mem : StreamAlloc) (st : Streams) (firstByte : UInt8)
    (sid off : Nat) (data : List UInt8) : Option Streams :=
  let x := recvRelationStream cfg st sid
  match x.1 with
  | none => some x.2
  | some name =>
    match (x.2.streams name).find sid with
    | none => none
    | some str => (recvStreamHandleFrame mem str x.2.conn firstByte off data).map fun y =>
        { x.2.putStream name sid y.1 with conn := y.2.1 }

/-- `quic_session_handle_max_stream_data_frame` -/
def handleMaxStreamData (cfg : Config) (mem : StreamAlloc) (st : Streams) (sid maxData : Nat) :
    Option Streams :=
  let x := sendRelationStream cfg st sid
  match x.1 with
  | none => some x.2
  | some name =>
    match (x.2.streams name).find sid with
    | none => none
    | some str =>
      let st := x.2.putStream name sid { str with flowctrl := str.flowctrl.updateSwnd maxData }
      some (if str.send.readerLen ≠ 0 then { st with framer := st.framer.addActive mem sid } else st)

/-! ## the application -/

/-- `quic_stream_open` numbers every stream as a bidirectional one. -/
def «open» (cfg : Config) (st : Streams) (bidi : Bool) : Streams :=
  let name := if bidi then SetName.outbidi else .outuni
  let sid := streamIdTransfer true cfg.isCli (st.sets name).nextSid
  let gone := if ((st.streams name).find sid).isSome then [Life.destoried sid] else []
  let st := st.putStream name sid (Stream.create cfg)
  { st with
    sets := fun n => if n = name then { st.sets n with nextSid := add64 (st.sets n).nextSid 1 }
      else st.sets n
    trace := st.trace ++ gone ++ [.created sid] }

/-- the first turn of a write.  The application holds a pointer to the stream: where there is no
stream there is no call. -/
def write (mem : StreamAlloc) (st : Streams) (name : SetName) (sid : Nat) (now : Time)
    (data : List UInt8) : Streams :=
  match (st.streams name).find sid with
  | none => st
  | some str =>
    let x := str.send.write now data
    let st := st.putStream name sid { str with send := x.1 }
    if x.2 then { st with framer := st.framer.addActive mem sid } else st

def writeWoken (st : Streams) (name : SetName) (sid : Nat) (now : Time) : Streams :=
  match (st.streams name).find sid with
  | none => st
  | some str => st.putStream name sid { str with send := str.send.woken now }

/-- `quic_send_stream_set_deadline` -/
def setDeadline (st : Streams) (name : SetName) (sid : Nat) (deadline : Time) : Streams :=
  match (st.streams name).find sid with
  | none => st
  | some str => st.putStream name sid { str with send := { str.send with deadline := deadline } }

/-- `quic_stream_module_update_rwnd` -/
def updateRwnd (mem : StreamAlloc) (st : Streams) (sid : Nat) : Streams :=
  if (st.rwndUpdated.find sid).isSome || !mem.rwndSid then st
  else { st with rwndUpdated := st.rwndUpdated.insert sid () }

def read (cfg : Config) (mem : StreamAlloc) (st : Streams) (name : SetName) (sid : Nat)
    (rtt : Nat) (now : Time) (woken : Bool) (len : Nat) : Option Streams :=
  match (st.streams name).find sid with
  | none => some st
  | some str => (str.read cfg rtt now woken len st.conn).map fun x =>
      let st := { st.putStream name sid x.1 with conn := x.2.1 }
      if x.2.2 then st.updateRwnd mem sid else st

/-- `quic_stream_destory_push` -/
def destoryPush (mem : StreamAlloc) (st : Streams) (sid : Nat) (now : Time) (closedCb : Bool) :
    Streams :=
  if (st.destorySet.find sid).isSome || !mem.destorySid then st
  else { st with destorySet := st.destorySet.insert sid ⟨now, closedCb⟩ }

/-- `quic_stream_close`; the framer is told when the sending half was open -/
def close (cfg : Config) (mem : StreamAlloc) (st : Streams) (name : SetName) (sid : Nat)
    (rtt : Nat) (now : Time) (closedCb : Bool) : Option Streams :=
  match (st.streams name).find sid with
  | none => some st
  | some str => (str.close cfg rtt now st.conn).map fun x =>
      let framer := if str.send.closed then st.framer else st.framer.addActive mem sid
      { st.putStream name sid x.1 with framer := framer, conn := x.2 }.destoryPush mem sid now closedCb

/-! ## destruction -/

/-- `quic_stream_set_delete` -/
def setDelete (st : Streams) (name : SetName) (sid : Nat) : Streams :=
  match (st.streams name).find sid with
  | none => st
  | some _ => (st.setStreams name ((st.streams name).erase sid)).note [.destoried sid]

/-- whether a pass destroys a stream -/
def expires (cfg : Config) (now : Time) (str : Stream) (d : DestorySid) : Bool :=
  str.destroable ||
    (cfg.streamDestoryTimeout ≠ 0 && now ≤ add64 cfg.streamDestoryTimeout d.destoryTime)

/-- the body of the loop over `destory_set`, with the list of what it destroyed -/
def destoryVisit (cfg : Config) (mem : StreamAlloc) (now : Time) (x : Streams × List Nat)
    (e : Nat × DestorySid) : Streams × List Nat :=
  let name := homeSet cfg e.1
  match (x.1.streams name).find e.1 with
  | none => x
  | some str =>
    if expires cfg now str e.2 then
      let st := if e.2.closedCb then x.1.note [.closed e.1] else x.1
      (st.setDelete name e.1, if mem.destoryed e.1 then e.1 :: x.2 else x.2)
    else x

/-- `quic_stream_module_loop` -/
def moduleLoop (cfg : Config) (mem : StreamAlloc) (st : Streams) (now : Time) : Streams :=
  let x := st.destorySet.entries.foldl (destoryVisit cfg mem now) (st, [])
  { x.1 with destorySet := x.2.foldl (fun s sid => s.erase sid) x.1.destorySet }

/-! ## the sender -/

/-- one turn of `quic_stream_module_process_rwnd` -/
def processRwndVisit (cfg : Config) (mem : StreamAlloc) (st : Streams) (sid : Nat) : Streams :=
  let x := recvRelationStream cfg st sid
  let st := { x.2 with rwndUpdated := x.2.rwndUpdated.erase sid }
  match x.1.bind fun name => (st.streams name).find sid with
  | none => st
  | some str =>
    if mem.ctrl sid then
      { st with framer := st.framer.ctrl (.init 0x11 (.maxStreamData sid str.flowctrl.rwnd)) }
    else st

/-- the keys of `rwnd_updated` as they come to the root, which the balancing of the tree decides: each
order of the keys is the one for some `rwndRoots` -/
def rootsInOrder (mem : StreamAlloc) (st : Streams) : List Nat :=
  (st.rwndUpdated.entries.map Prod.fst).insertionSort fun a b =>
    mem.rwndRoots.idxOf a ≤ mem.rwndRoots.idxOf b

/-- An entry is taken from the root until the tree is empty.  A turn puts none into it. -/
def processRwnd (cfg : Config) (mem : StreamAlloc) (st : Streams) : Streams :=
  (rootsInOrder mem st).foldl (processRwndVisit cfg mem) st

end Streams

/-- `quic_stream_frame_capacity` -/
def streamFrameCapacity (maxBytes sid off : Nat) (fill : Bool) (payloadSize : Nat) : Nat :=
  let headerLen := 1 + varintFormatLen sid + (if off ≠ 0 then varintFormatLen off else 0)
    + (if fill then 0 else varintFormatLen payloadSize)
  if maxBytes ≤ headerLen then 0 else maxBytes - headerLen

/-- what `quic_send_stream_generate` leaves -/
structure Generated where
  frame : Option Frame
  empty : Bool
  stream : Stream
  /-- the limit of a STREAM_DATA_BLOCKED frame -/
  blocked : Option Nat

/-- the payload size of a new frame -/
def Stream.payloadSize (str : Stream) (sid bytes : Nat) (fill : Bool) : Nat :=
  let payloadSize := min str.flowctrl.getSwnd str.send.readerLen
  min payloadSize (streamFrameCapacity bytes sid str.send.off fill payloadSize)

/-- the first byte of a new STREAM frame -/
def streamFirstByte (off : Nat) (fill fin : Bool) : UInt8 :=
  0x08 ||| (if off ≠ 0 then 0x0c else 0) ||| (if fill then 0 else 0x0a) ||| (if fin then 0x09 else 0)

/-- whether a frame of a stream takes the `FIN` bit along: with an empty reader, or with bytes that
are left over -/
def SendStream.takesFin (s : SendStream) (payloadSize : Nat) : Bool :=
  s.closed && !s.sentFin && (s.readerLen = 0 || payloadSize < s.readerLen)

/-- `quic_send_stream_generate` -/
def Stream.generate (mem : StreamAlloc) (str : Stream) (sid bytes : Nat) (fill : Bool) :
    Generated :=
  let payloadSize := str.payloadSize sid bytes fill
  if payloadSize = 0 ∧ !str.send.closed then
    let x := str.flowctrl.newlyBlocked
    ⟨none, false, { str with flowctrl := x.2 }, x.1⟩
  else if !mem.frame then ⟨none, false, str, none⟩
  else
    let fin := str.send.takesFin payloadSize
    { frame := some ⟨streamFirstByte str.send.off fill fin, some sid, false,
        .stream sid str.send.off (str.send.readerBuf.take payloadSize)⟩
      empty := str.send.readerLen = 0 || str.send.readerLen ≤ payloadSize || fin
      stream := { str with
        send := { str.send with
          readerBuf := str.send.readerBuf.drop payloadSize
          off := add64 str.send.off payloadSize
          sentFin := str.send.sentFin || fin
          unackedFramesCount := add32 str.send.unackedFramesCount 1 }
        flowctrl := if str.send.readerLen = 0 then str.flowctrl else str.flowctrl.sent payloadSize }
      blocked := none }

theorem Stream.payloadSize_le (str : Stream) (sid bytes : Nat) (fill : Bool) :
    str.payloadSize sid bytes fill ≤ str.send.readerLen := by
  unfold Stream.payloadSize
  exact (Nat.min_le_left _ _).trans (Nat.min_le_right _ _)

theorem Stream.payloadSize_le_swnd (str : Stream) (sid bytes : Nat) (fill : Bool) :
    str.payloadSize sid bytes fill ≤ str.flowctrl.getSwnd := by
  unfold Stream.payloadSize
  exact (Nat.min_le_left _ _).trans (Nat.min_le_left _ _)

theorem hasFin_streamFirstByte (off : Nat) (fill fin : Bool) :
    hasFin (streamFirstByte off fill fin) = fin := by
  unfold streamFirstByte
  split <;> cases fill <;> cases fin <;> decide

theorem hasOff_streamFirstByte (off : Nat) (fill fin : Bool) :
    hasOff (streamFirstByte off fill fin) = decide (off ≠ 0) := by
  unfold streamFirstByte
  by_cases h : off ≠ 0
  · rw [if_pos h, decide_eq_true h]
    cases fill <;> cases fin <;> decide
  · rw [if_neg h, decide_eq_false h]
    cases fill <;> cases fin <;> decide

namespace Streams

/-- the `remove` label of `quic_framer_append_stream_frame`; no result for a stream that is in the
queue and not in the set -/
def dropActive (f : Framer) (sid : Nat) : Option Framer :=
  (f.activeSet.find sid).map fun _ => { f with activeSet := f.activeSet.erase sid }

/-- `quic_framer_append_stream_frame`.  It has no result where the code takes the head of an empty
queue for a stream. -/
def appendStreamFrame (cfg : Config) (mem : StreamAlloc) (st : Streams) (capa : Nat) (fill : Bool) :
    Option (Nat × Option Frame × Streams) :=
  if st.framer.activeSet.entries.isEmpty then some (0, none, st)
  else
    match st.framer.activeQueue with
    | [] => none
    | sid :: queue =>
      let x := sendRelationStream cfg { st with framer := { st.framer with activeQueue := queue } } sid
      match x.1.bind fun name => ((x.2.streams name).find sid).map fun str => (name, str) with
      | none => (dropActive x.2.framer sid).map fun f => (0, none, { x.2 with framer := f })
      | some (name, str) =>
        let g := str.generate mem sid capa fill
        let st := x.2.putStream name sid g.stream
        let framer := match g.blocked with
          | some limit => if mem.ctrl sid then st.framer.ctrl (.init 0x15 (.streamDataBlocked sid limit))
              else st.framer
          | none => st.framer
        match g.frame with
        | none => some (0, none,
            { st with framer := { framer with activeQueue := framer.activeQueue ++ [sid] } })
        | some frame =>
          let frame := { frame with onLost := true }
          if g.empty then (dropActive framer sid).map fun f =>
            (frameSize frame, some frame, { st with framer := f })
          else some (frameSize frame, some frame,
            { st with framer := { framer with activeQueue := framer.activeQueue ++ [sid] } })

end Streams

end OpenQuic
