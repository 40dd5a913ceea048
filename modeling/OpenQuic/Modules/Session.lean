import OpenQuic.Format.TransportParameter
import OpenQuic.Modules.AckReceived
import OpenQuic.Modules.ConnidGen
import OpenQuic.Modules.Recver
import OpenQuic.Modules.StreamFrames

/-!
# The session behind the receiver

The frame handlers of `conf/frame.conf` on the modules that they work on, and the handshake
(`quic_sealer_set_level`, `quic_sealer_handshake_process` of `modules/sealer.h`, the CRYPTO and
HANDSHAKE_DONE handlers of `modules/sealer.c`).

The TLS library is not part of the repository: it is a state with three functions, and what its
callbacks write (the keys, `r_level`, `w_level`, the write sorters) is in that state.

* `Tls`            the library;
* `Session`        the modules;
* `Outcomes`       what the outside answers while a frame is handled; `Env` has them for every frame;
* `setLevel`, `handshakeProcess`, `setTransportParameter`   the handshake;
* `handleCrypto`, `handleAck`, ...   the handlers;
* `handleFrame`    the table, and `handlers` is what the receiver is given.

A handler has no result where the behaviour of the code is undefined, or where its loop does not end.
-/

namespace OpenQuic
open Word

/-- `enum ssl_encryption_level_t` -/
inductive EncLevel where
  | initial
  | earlyData
  | handshake
  | application
  deriving DecidableEq, Repr

/-- `SSL_provide_quic_data`, `SSL_do_handshake` and `SSL_get_peer_quic_transport_params` -/
structure Tls (τ : Type) where
  provideQuicData : List UInt8 → τ → τ
  doHandshake : τ → Int × τ
  peerTransportParams : τ → List UInt8

/-- the two read sorters of the sealer module -/
inductive CryptoSorter where
  | initial
  | handshake
  deriving DecidableEq, Repr

/-- The modules of a session; `τ` is the state of the TLS library, and `ρ` what the callbacks of the
connection IDs work on. -/
structure Session (τ ρ : Type) where
  streams : Streams
  gen : ConnidGen
  src : ConnId
  dst : ConnBuf
  nextBlock : Nat
  freed : List Nat
  table : ρ
  disableMigrate : Bool
  /-- `mod_chan.closed` -/
  modClosed : Bool
  quicClosed : Bool
  remoteClosed : Bool
  level : EncLevel
  handshakeDoneCb : Bool
  rSorter : CryptoSorter → Sorter
  transportParameterProcessed : Bool
  tls : τ
  ackGens : Space → AckGenerator
  rtx : Space → Retransmission
  cong : Congestion
  loopDeadline : Time
  /-- the calls of `handshake_done_cb`, a record that is not part of the code -/
  handshakeDones : Nat
  /-- the frames that were handled, which number the `Outcomes` -/
  handled : Nat

/-- Allocations, random draws and the clock.  The functions that take a number are asked for one
connection ID or one TLS message each. -/
structure Outcomes where
  stream : StreamAlloc
  connid : Nat → ConnidAlloc
  draws : Nat → List Connids.Draw
  crypto : Sorter.Alloc
  fragment : Nat → Bool
  params : Nat → Bool
  acked : Nat → Nat → Bool
  lost : Nat → Bool
  range : Bool
  clock : Time

/-- what a session does not change -/
structure Env (τ ρ : Type) where
  cfg : Config
  cbrt : Nat → Nat
  tls : Tls τ
  newConnid : Option (Connids.NewConnid ρ)
  retireConnid : Option (ConnId → ρ → ρ)
  outcomes : Nat → Outcomes

namespace Session

variable {τ ρ : Type} (env : Env τ ρ)

/-- a session whose modules have started -/
def start (connidLen : Nat) (src : ConnId) (dst : List UInt8) (handshakeDoneCb : Bool) (tls : τ)
    (table : ρ) : Session τ ρ :=
  let c := (Connids.create connidLen src dst).start .ok
  { streams := { Streams.init env.cfg with framer := c.1.framer }
    gen := c.1.gen
    src := c.1.src
    dst := c.1.dst
    nextBlock := c.1.nextBlock
    freed := c.1.freed
    table := table
    disableMigrate := env.cfg.disableMigrate
    modClosed := false
    quicClosed := false
    remoteClosed := false
    level := .initial
    handshakeDoneCb := handshakeDoneCb
    rSorter := fun _ => Sorter.init
    transportParameterProcessed := false
    tls := tls
    ackGens := fun _ => AckGenerator.init
    rtx := fun _ => Retransmission.init
    cong := Congestion.init env.cfg
    loopDeadline := 0
    handshakeDones := 0
    handled := 0 }

/-! ## parts -/

/-- the part that the connection-ID module works on -/
def connids (s : Session τ ρ) : Connids :=
  ⟨s.gen, s.src, s.dst, s.streams.framer, s.nextBlock, s.freed⟩

def setConnids (s : Session τ ρ) (c : Connids) : Session τ ρ :=
  { s with
    streams := { s.streams with framer := c.framer }
    gen := c.gen
    src := c.src
    dst := c.dst
    nextBlock := c.nextBlock
    freed := c.freed }

def ctrl (s : Session τ ρ) (f : Frame) : Session τ ρ :=
  { s with streams := { s.streams with framer := s.streams.framer.ctrl f } }

def setSorter (s : Session τ ρ) (c : CryptoSorter) (sorter : Sorter) : Session τ ρ :=
  { s with rSorter := Function.update s.rSorter c sorter }

/-! ## the handshake -/

/-- the ACK generator and the retransmission module of a space are dropped -/
def dropSpace (s : Session τ ρ) (sp : Space) : Session τ ρ :=
  { s with
    ackGens := Function.update s.ackGens sp (s.ackGens sp).drop
    rtx := Function.update s.rtx sp (s.rtx sp).drop }

/-- `quic_sealer_set_level` -/
def setLevel (s : Session τ ρ) (level : EncLevel) : Session τ ρ :=
  let s := match level with
    | .handshake => s.dropSpace .initial
    | .application =>
      { s.dropSpace .handshake with
        handshakeDones := s.handshakeDones + if s.handshakeDoneCb then 1 else 0 }
    | _ => s
  { s with level := level }

def frameHandshakeDoneType : UInt8 := 0x1e

/-- `quic_sealer_handshake_process`.  The code does not look at the allocation of the frame. -/
def handshakeProcess (s : Session τ ρ) : Session τ ρ :=
  let x := env.tls.doHandshake s.tls
  let s := { s with tls := x.2 }
  if 0 ≤ x.1 then
    if !env.cfg.isCli then
      (s.setLevel .application).ctrl (.init frameHandshakeDoneType .handshakeDone)
    else s
  else s

/-- the loop of `quic_session_set_transport_parameter`: `n` more IDs, after `i` of them -/
def issueSrcs (o : Outcomes) : (n i : Nat) → Session τ ρ → Option (Session τ ρ)
  | 0, _, s => some s
  | n + 1, i, s =>
    (Connids.issueSrc env.newConnid (o.connid i) (o.draws i) s.connids s.table).bind fun x =>
      issueSrcs o n (i + 1) { s.setConnids x.1 with table := x.2.1 }

/-- `quic_session_set_transport_parameter` -/
def setTransportParameter (o : Outcomes) (p : TransportParameter) (s : Session τ ρ) :
    Option (Session τ ρ) :=
  (issueSrcs env o p.activeConnid 0 s).map fun s =>
    if p.disableMigration then { s with disableMigrate := true } else s

/-- `quic_sealer_process_peer_transport_parameters` -/
def processPeerTransportParameters (o : Outcomes) (s : Session τ ρ) : Option (Session τ ρ) :=
  let parameters := env.tls.peerTransportParams s.tls
  let s := { s with transportParameterProcessed := !parameters.isEmpty }
  if parameters.isEmpty then some s
  else (TransportParameter.parse o.params parameters).bind fun p => setTransportParameter env o p s

/-! ## CRYPTO frames -/

/-- the sorter of a packet type -/
def cryptoSorter (packetType : UInt8) : Option CryptoSorter :=
  if packetType &&& 0xf0 = packetInitialType then some .initial
  else if packetType &&& 0xf0 = packetHandshakeType then some .handshake
  else none

/-- the length of a TLS message, from its first four bytes -/
def fragmentSize (head : List UInt8) : Nat :=
  65536 * (head.getD 1 0).toNat + 256 * (head.getD 2 0).toNat + (head.getD 3 0).toNat + 4

/-- what the loop finds in the sorter: no whole message, one that it cannot allocate, or a message -/
inductive Fragment where
  | short
  | refused
  | whole (data : List UInt8) (sorter : Sorter)

/-- the first half of a turn; no result for a message with bytes that were never written -/
def nextFragment (mem : Bool) (sorter : Sorter) : Option Fragment :=
  if sorter.readable < 4 then some .short
  else
    ((sorter.peek 4).2.mapM id).bind fun head =>
      if sorter.readable < fragmentSize head then some .short
      else if !mem then some .refused
      else
        let x := sorter.read (fragmentSize head)
        (x.2.mapM id).bind fun data =>
          if data.length = fragmentSize head then some (.whole data x.1) else none

/-- the second half: the TLS library is given the message -/
def giveFragment (o : Outcomes) (data : List UInt8) (s : Session τ ρ) : Option (Session τ ρ) :=
  let s := handshakeProcess env { s with tls := env.tls.provideQuicData data s.tls }
  if s.transportParameterProcessed then some s else processPeerTransportParameters env o s

/-- the loop over the messages, from the `i`-th on; no result where it does not end within the fuel -/
def cryptoLoop (o : Outcomes) (c : CryptoSorter) : (fuel i : Nat) → Session τ ρ →
    Option (Session τ ρ × Err)
  | 0, _, _ => none
  | fuel + 1, i, s =>
    (nextFragment (o.fragment i) (s.rSorter c)).bind fun
      | .short => some (s, .success)
      | .refused => some (s, .internalError)
      | .whole data sorter =>
        (giveFragment env o data (s.setSorter c sorter)).bind (cryptoLoop o c fuel (i + 1))

/-- the sorter with the data of a frame; what `quic_sorter_write` returns is not read -/
def writeCrypto (o : Outcomes) (c : CryptoSorter) (off : Nat) (data : List UInt8)
    (s : Session τ ρ) : Option (Session τ ρ) :=
  ((s.rSorter c).write o.crypto off data.length fun i => data.getD i 0).map fun x =>
    s.setSorter c x.1

/-- `quic_session_handle_crypto_frame`; a message takes four bytes, so what is readable is fuel
enough -/
def handleCrypto (o : Outcomes) (packetType : UInt8) (off : Nat) (data : List UInt8)
    (s : Session τ ρ) : Option (Session τ ρ × Err) :=
  match cryptoSorter packetType with
  | none => some (s, .internalError)
  | some c => (writeCrypto o c off data s).bind fun s =>
      cryptoLoop env o c ((s.rSorter c).readable + 1) 0 s

/-! ## the other handlers -/

/-- the retransmission module of a packet type -/
def ackSpace (packetType : UInt8) : Option Space :=
  if packetType = packetInitialType then some .initial
  else if packetType = packetHandshakeType then some .handshake
  else if packetType = packetShortType then some .app
  else none

/-- `quic_session_handle_ack_frame` -/
def handleAck (o : Outcomes) (a : AckFrame) (s : Session τ ρ) : Option (Session τ ρ × Err) :=
  match ackSpace a.packetType with
  | none => some (s, .internalError)
  | some sp =>
    (Recovery.handleAckFrame env.cfg env.cbrt o.acked o.lost ⟨s.rtx sp, s.cong, s.loopDeadline⟩
        (sp = .app) a o.clock).bind fun x =>
      (StreamFrames.settle env.cfg s.streams (x.2.filterMap StreamFrames.ackedSid)).map fun streams =>
        ({ s with
          streams := streams
          rtx := Function.update s.rtx sp x.1.rtx
          cong := x.1.cong
          loopDeadline := x.1.loopDeadline }, .success)

/-- `quic_session_handle_connection_close_frame` -/
def handleConnectionClose (firstByte : UInt8) (s : Session τ ρ) : Session τ ρ :=
  if s.modClosed then s
  else { s with modClosed := true, quicClosed := firstByte == 0x1c, remoteClosed := true }

/-- `quic_session_handle_handshake_done_frame` -/
def handleHandshakeDone (s : Session τ ρ) : Session τ ρ × Err :=
  if !env.cfg.isCli then (s, .internalError) else (s.setLevel .application, .success)

/-- `quic_session_handle_retire_connection_id_frame` -/
def handleRetireConnectionId (o : Outcomes) (seq : Nat) (s : Session τ ρ) :
    Option (Session τ ρ × Err) :=
  (Connids.retireSrc env.newConnid env.retireConnid (o.connid 0) (o.draws 0) seq s.connids
    s.table).map fun x => ({ s.setConnids x.1 with table := x.2.1 }, x.2.2)

/-- `quic_session_handler`, for a frame whose row has a handler -/
def handleFrame (f : Frame) (s : Session τ ρ) : Option (Session τ ρ × Err) :=
  let o := env.outcomes s.handled
  match f.body with
  | .ack a => handleAck env o a s
  | .crypto packetType off data => handleCrypto env o packetType off data s
  | .stream sid off data =>
    (s.streams.handleStreamFrame env.cfg o.stream f.firstByte sid off data).map fun streams =>
      ({ s with streams := streams }, .success)
  | .maxStreamData sid maxData =>
    (s.streams.handleMaxStreamData env.cfg o.stream sid maxData).map fun streams =>
      ({ s with streams := streams }, .success)
  | .newConnectionId seq retire conn _ =>
    let x := s.connids.handleNewConnectionId (o.connid 0) seq retire conn.1
    some (s.setConnids x.1, x.2)
  | .retireConnectionId seq => handleRetireConnectionId env o seq s
  | .connectionClose _ _ _ => some (s.handleConnectionClose f.firstByte, .success)
  | .handshakeDone => some (handleHandshakeDone env s)
  | _ => some (s, .success)

/-! ## what the receiver is given -/

/-- The session as the receiver has it: there is none where the code is undefined.  `session->dst` is
a field of the receiver's state. -/
abbrev Received (τ ρ : Type) := Recver.State (Option (Session τ ρ))

def ofReceived (st : Received τ ρ) : Option (Session τ ρ) :=
  st.rest.map fun s => { s with dst := { s.dst with bytes := st.dst } }

def handle (f : Frame) (st : Received τ ρ) : Received τ ρ × Err :=
  match ofReceived st with
  | none => (st, .success)
  | some s =>
    match handleFrame env f s with
    | none => ({ st with rest := none }, .success)
    | some x =>
      ({ st with dst := x.1.dst.bytes, rest := some { x.1 with handled := x.1.handled + 1 } }, x.2)

def received (sp : Space) (num : Nat) (recvTime : Time) (shouldAck : Bool) (st : Received τ ρ) :
    Received τ ρ :=
  { st with rest := st.rest.bind fun s =>
      ((s.ackGens sp).received (env.outcomes s.handled).range num recvTime shouldAck).map fun g =>
        { s with ackGens := Function.update s.ackGens sp g } }

def handlers : Recver.Handlers (Option (Session τ ρ)) := ⟨handle env, received env⟩

end Session

end OpenQuic
