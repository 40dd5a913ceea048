import OpenQuic.Format.Header
import OpenQuic.Modules.ConnidGen

/-!
# The server

`server.c`: the table that takes a connection ID to its session, the callback for received packets,
and the two callbacks through which a session registers and removes its IDs.

A session is created by an Initial packet; its coroutine starts the modules, handles what its
receiver has, and ends with the close procedure.  `live` are the sessions whose coroutine has not
ended; a packet for another one is pushed to a module that is gone, which has no result.

* `Server`                   the table and the sessions;
* `newConnidCb`, `retireConnidCb`   the callbacks of the connection-ID module;
* `recvCb`                   `quic_server_transmission_recv_cb`;
* `Server.step`              one packet, or one operation of one session.
-/

namespace OpenQuic

/-- a session; `queued` are the packets that were pushed to its receiver -/
structure Conn where
  ids : Connids
  started : Bool
  queued : List (List UInt8)

structure Server where
  connidLen : Nat
  /-- the session of a connection ID, `quic_session_store_t` -/
  sessions : OrdMap ConnId Nat
  live : Rbt Conn
  next : Nat

/-- which allocations of the receive callback succeed -/
structure RecvAlloc where
  session : Bool
  stack : Bool

def RecvAlloc.ok : RecvAlloc := ⟨true, true⟩

/-- `quic_server_new_connid_cb` -/
def newConnidCb (session : Nat) : Connids.NewConnid (OrdMap ConnId Nat) := fun node connid t =>
  if (t.find connid).isSome then (false, t)
  else if node then (true, t.insert connid session)
  else (false, t)

/-- `quic_server_retire_connid_cb`; the session that calls it is not looked at -/
def retireConnidCb (connid : ConnId) (t : OrdMap ConnId Nat) : OrdMap ConnId Nat :=
  match t.find connid with
  | none => t
  | some _ => t.erase connid

namespace Server

/-- `quic_server_init`, where `rand` is 0 -/
def init : Server := ⟨8 + 0 % 11, OrdMap.empty, OrdMap.empty, 0⟩

/-- the connection ID that a packet is addressed to -/
def target (connidLen : Nat) (p : List UInt8) : Option ConnId := do
  let first ← p[0]?
  let dst ← if isLong first then longHeaderDstConn p else shortHeaderDstConn p connidLen
  return ⟨dst⟩

def push (s : Server) (a : Nat) (p : List UInt8) : Option Server :=
  (s.live.find a).map fun c =>
    { s with live := s.live.insert a { c with queued := c.queued ++ [p] } }

/-- `quic_server_transmission_recv_cb` -/
def recvCb (mem : RecvAlloc) (p : List UInt8) (s : Server) : Option Server := do
  let first ← p[0]?
  if packetType first = packetInitialType then
    let cliDst ← longHeaderDstConn p
    let cliSrc ← longHeaderSrcConn p
    -- the session is not checked for `NULL`
    if !mem.session then none
    else if !mem.stack then some s
    else
      some { s with
        live := s.live.insert s.next ⟨Connids.create s.connidLen ⟨cliDst⟩ cliSrc, false, [p]⟩
        next := s.next + 1 }
  else
    let dst ← target s.connidLen p
    match s.sessions.find dst with
    | none => some s
    | some a => s.push a p

/-- what an operation of session `a` leaves of it and of the table -/
def put (s : Server) (a : Nat) (c : Conn) (ids : Connids) (t : OrdMap ConnId Nat) : Server :=
  { s with sessions := t, live := s.live.insert a { c with ids := ids } }

inductive Event where
  | recv (mem : RecvAlloc) (p : List UInt8)
  | start (mem : ConnidAlloc) (a : Nat)
  | issue (mem : ConnidAlloc) (ds : List Connids.Draw) (a : Nat)
  | retire (mem : ConnidAlloc) (ds : List Connids.Draw) (a seq : Nat)
  | close (a : Nat)

/-- an operation of a session whose modules were started -/
def running (s : Server) (a : Nat) : Option Conn := (s.live.find a).filter Conn.started

def step (s : Server) : Event → Option Server
  | .recv mem p => s.recvCb mem p
  | .start mem a =>
    ((s.live.find a).filter fun c => !c.started).map fun c =>
      { s with live := s.live.insert a { c with ids := (c.ids.start mem).1, started := true } }
  | .issue mem ds a => do
    let c ← s.running a
    let x ← c.ids.issueSrc (some (newConnidCb a)) mem ds s.sessions
    return s.put a c x.1 x.2.1
  | .retire mem ds a seq => do
    let c ← s.running a
    let x ← c.ids.retireSrc (some (newConnidCb a)) (some retireConnidCb) mem ds seq s.sessions
    return s.put a c x.1 x.2.1
  -- `quic_session_close_procedure`
  | .close a =>
    (s.running a).map fun c =>
      { s with
        sessions := c.ids.retireAll (some retireConnidCb) s.sessions
        live := s.live.erase a }

end Server
end OpenQuic
