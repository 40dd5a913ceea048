import Mathlib.Data.Prod.Lex
import Mathlib.Data.List.Lex
import OpenQuic.Modules.Stream

/-!
# The connection-ID module

`modules/connid_gen.c`: the IDs that a session has given to its peer (`srcs`), the ones that it got
from the peer (`dsts`), and the one of these that it sends to (`session->dst`).

`session->dst` is not a copy: it points into the block of a stored ID.  So the IDs of the peer are
kept with the block that holds them, and `freed` are the blocks of these that were given back.

* `ConnId`        a connection ID as a key of the server's table;
* `Connids`       the state of the module, and what it writes of the session and the framer;
* `Connids.start`, `issueSrc`, `retireSrc`, `retireAll`   the IDs of the session itself; the two
                  callbacks work on a state of their own, that of the server;
* `handleNewConnectionId`   the frame that brings an ID of the peer.
-/

namespace OpenQuic
open Word

def frameNewConnectionIdType : UInt8 := 0x18
def frameRetireConnectionIdType : UInt8 := 0x19

/-! ## connection IDs -/

structure ConnId where
  bytes : List UInt8
  deriving DecidableEq, Repr

namespace ConnId

/-- the order of `quic_rbt_string_cmp_cb`: by length, then by `memcmp` -/
def rank (c : ConnId) : Nat ×ₗ List Nat := toLex (c.bytes.length, c.bytes.map UInt8.toNat)

theorem rank_injective : Function.Injective rank := by
  rintro ⟨b⟩ ⟨c⟩ h
  have hm : b.map UInt8.toNat = c.map UInt8.toNat := congrArg Prod.snd (toLex.injective h)
  exact congrArg mk (List.map_injective_iff.mpr (fun _ _ => UInt8.toNat_inj.mp) hm)

instance linearOrder : LinearOrder ConnId := LinearOrder.lift' rank rank_injective

end ConnId

/-- an ID in a `quic_buf_t`; the block is that of `buf`, if it is not `NULL` -/
structure ConnBuf where
  block : Option Nat
  bytes : List UInt8
  deriving DecidableEq, Repr

/-- `quic_buf_init` -/
def ConnBuf.init : ConnBuf := ⟨none, []⟩

/-! ## the state -/

structure ConnidGen where
  connidLen : Nat
  srcHseq : Nat
  dstHretire : Nat
  srcs : Rbt ConnId
  dsts : Rbt ConnBuf
  dstActive : Nat

/-- `quic_connid_gen_module_init` -/
def ConnidGen.init (connidLen : Nat) : ConnidGen := ⟨connidLen, 0, 0, OrdMap.empty, OrdMap.empty, 0⟩

structure Connids where
  gen : ConnidGen
  /-- `session->src` and `session->dst` -/
  src : ConnId
  dst : ConnBuf
  framer : Framer
  nextBlock : Nat
  freed : List Nat

/-- which allocations succeed; `token` is what the block of a frame holds where its token is -/
structure ConnidAlloc where
  srcNode : Bool
  dstNode : Bool
  dstBuf : Bool
  srcBuf : Bool
  gened : Bool
  frame : Bool
  updateFrame : Bool
  retireFrame : Nat → Bool
  token : ByteVec 16

def ConnidAlloc.ok : ConnidAlloc where
  srcNode := true
  dstNode := true
  dstBuf := true
  srcBuf := true
  gened := true
  frame := true
  updateFrame := true
  retireFrame := fun _ => true
  token := ⟨List.replicate 16 0, rfl⟩

def retireConnectionIdFrame (seq : Nat) : Frame :=
  Frame.init frameRetireConnectionIdType (.retireConnectionId seq)

namespace Connids

/-- a session before its modules start: `dst` is in a block of its own -/
def create (connidLen : Nat) (src : ConnId) (dst : List UInt8) : Connids where
  gen := ConnidGen.init connidLen
  src := src
  dst := ⟨some 0, dst⟩
  framer := Framer.init
  nextBlock := 1
  freed := []

def ctrl (s : Connids) (f : Frame) : Connids := { s with framer := s.framer.ctrl f }

/-- the entry of an ID of the peer and its block -/
def removeDst (s : Connids) (seq : Nat) (c : ConnBuf) : Connids :=
  { s with
    gen := { s.gen with dsts := s.gen.dsts.erase seq }
    freed := s.freed ++ c.block.toList }

/-- `quic_connid_gen_module_start` -/
def start (mem : ConnidAlloc) (s : Connids) : Connids × Err :=
  if !mem.srcNode then (s, .internalError)
  else
    let s := { s with gen := { s.gen with srcs := s.gen.srcs.insert 0 s.src } }
    if !mem.dstNode then (s, .internalError)
    else ({ s with gen := { s.gen with dsts := s.gen.dsts.insert 0 s.dst } }, .success)

/-! ## the IDs of the peer -/

/-- the loop that retires the IDs up to `retire`, least first -/
def retireDsts (mem : ConnidAlloc) (retire : Nat) : Nat → Connids → Connids × Err
  | 0, s => (s, .success)
  | fuel + 1, s =>
    match s.gen.dsts.least with
    | none => (s, .success)
    | some (key, c) =>
      if key ≤ retire then
        if mem.retireFrame key then
          retireDsts mem retire fuel ((s.ctrl (retireConnectionIdFrame key)).removeDst key c)
        else (s, .internalError)
      else (s, .success)

def insertDst (mem : ConnidAlloc) (s : Connids) (seq : Nat) (conn : List UInt8) : Connids × Err :=
  if (s.gen.dsts.find seq).isNone then
    if mem.dstNode && mem.dstBuf then
      ({ s with
        gen := { s.gen with dsts := s.gen.dsts.insert seq ⟨some s.nextBlock, conn⟩ }
        nextBlock := s.nextBlock + 1 }, .success)
    else (s, .internalError)
  else (s, .success)

/-- `quic_connid_gen_update_dst` -/
def updateDst (mem : ConnidAlloc) (s : Connids) : Connids × Err :=
  if !mem.updateFrame then (s, .internalError)
  else
    let s := s.ctrl (retireConnectionIdFrame s.gen.dstActive)
    let s :=
      if s.gen.dstHretire < s.gen.dstActive then
        { s with gen := { s.gen with dstHretire := s.gen.dstActive } }
      else s
    let s :=
      match s.gen.dsts.find s.gen.dstActive with
      | some c => { s.removeDst s.gen.dstActive c with dst := ConnBuf.init }
      | none => s
    match s.gen.dsts.least with
    | none => (s, .internalError)
    | some (key, c) => ({ s with gen := { s.gen with dstActive := key }, dst := c }, .success)

/-- `quic_session_handle_new_connection_id_frame` -/
def handleNewConnectionId (mem : ConnidAlloc) (s : Connids) (seq retire : Nat)
    (conn : List UInt8) : Connids × Err :=
  if seq < s.gen.dstHretire then
    if mem.retireFrame seq then (s.ctrl (retireConnectionIdFrame seq), .success)
    else (s, .internalError)
  else
    let retired : Connids × Err :=
      if s.gen.dstHretire < retire then
        match retireDsts mem retire s.gen.dsts.entries.length s with
        | (s, .success) => ({ s with gen := { s.gen with dstHretire := retire } }, .success)
        | x => x
      else (s, .success)
    match retired with
    | (s, .success) =>
      if seq = s.gen.dstActive then (s, .success)
      else
        match s.insertDst mem seq conn with
        | (s, .success) =>
          -- what `quic_connid_gen_update_dst` returns is not read
          if s.gen.dstActive ≤ retire then ((s.updateDst mem).1, .success) else (s, .success)
        | x => x
    | x => x

/-! ## the IDs of the session -/

/-- the callback that registers an ID, unless it is taken or its node cannot be allocated -/
abbrev NewConnid (τ : Type) := Bool → ConnId → τ → Bool × τ

section
variable {τ : Type} (newConnid : Option (NewConnid τ)) (retireConnid : Option (ConnId → τ → τ))

/-- what `RAND_bytes` writes to a buffer, and whether the node for it can be allocated -/
structure Draw where
  byte : Nat → UInt8
  node : Bool

/-- the loop that draws IDs until one is taken; it does not end with the draws that are given
where there is no result -/
def drawConnid (connidLen : Nat) : List Draw → τ → Option (ConnId × τ)
  | [], _ => none
  | d :: ds, t =>
    let connid : ConnId := ⟨(List.range connidLen).map d.byte⟩
    match newConnid with
    | none => some (connid, t)
    | some f =>
      match f d.node connid t with
      | (true, t) => some (connid, t)
      | (false, t) => drawConnid connidLen ds t

/-- the frame that tells the peer of an ID -/
def newConnectionIdFrame (token : ByteVec 16) (seq : Nat)
    (connid : { l : List UInt8 // l.length ≤ 20 }) : Frame :=
  Frame.init frameNewConnectionIdType (.newConnectionId seq 0 connid token)

/-- `quic_connid_gen_issue_src` -/
def issueSrc (mem : ConnidAlloc) (ds : List Draw) (s : Connids) (t : τ) :
    Option (Connids × τ × Err) :=
  if s.gen.connidLen = 0 ∨ 20 < s.gen.connidLen then some (s, t, .internalError)
  else if !mem.srcBuf then none
  else
    (drawConnid newConnid s.gen.connidLen ds t).map fun x =>
      if !mem.gened then (s, x.2, .internalError)
      else
        let key := add64 s.gen.srcHseq 1
        let s := { s with gen := { s.gen with srcHseq := key, srcs := s.gen.srcs.insert key x.1 } }
        if !mem.frame then (s, x.2, .internalError)
        else
          -- the ID has `connidLen` bytes
          (s.ctrl (newConnectionIdFrame mem.token key
            ⟨x.1.bytes.take 20, List.length_take_le 20 x.1.bytes⟩), x.2, .success)

/-- `quic_connid_gen_retire_src`.  The ID with the number 0 has the buffer of `session->src`, which
keeps pointing to it when it is freed here; only the blocks of the IDs of the peer are in `freed`. -/
def retireSrc (mem : ConnidAlloc) (ds : List Draw) (seq : Nat) (s : Connids) (t : τ) :
    Option (Connids × τ × Err) :=
  if s.gen.srcHseq < seq then some (s, t, .notImplemented)
  else
    match s.gen.srcs.find seq with
    | none => some (s, t, .success)
    | some connid =>
      let t := match retireConnid with
        | none => t
        | some f => f connid t
      let s := { s with gen := { s.gen with srcs := s.gen.srcs.erase seq } }
      if seq = 0 then some (s, t, .success)
      else (issueSrc newConnid mem ds s t).map fun x => (x.1, x.2.1, .success)

/-- `quic_connid_gen_retire_all` -/
def retireAll (s : Connids) (t : τ) : τ :=
  match retireConnid with
  | none => t
  | some f => s.gen.srcs.entries.foldl (fun t e => f e.2 t) t

end

end Connids
end OpenQuic
