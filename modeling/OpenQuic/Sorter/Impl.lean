import OpenQuic.Base

/-!
# The sorter

A sorter puts the fragments of a byte stream in order (`sorter.h`, `sorter.c`).  It keeps

* `gaps`        the ranges of offsets that no fragment has covered yet, as a linked list;
* `clusters`    the bytes, in blocks of 4096 offsets;
* `availSize`   the offset of the first gap;
* `readedSize`  the offset of the next byte to read.

`write` finds the gaps that a fragment touches, cuts them, and copies the bytes; `read` and `peek`
copy bytes out.  A byte of a cluster is `none` until something is copied over it: `malloc` does
not clear memory.
-/

namespace OpenQuic
open Word

structure Gap where
  off : Nat
  len : Nat
  deriving DecidableEq, Repr

abbrev Cluster := Nat → Option UInt8

structure Sorter where
  gaps : List Gap
  clusters : Rbt Cluster
  availSize : Nat
  readedSize : Nat

namespace Sorter

def clusterSize : Nat := 4096

/-- `QUIC_SORTER_MAX_SIZE` -/
def maxSize : Nat := 2 ^ 63 - 1

def gapStart (g : Gap) : Nat := g.off
def gapEnd (g : Gap) : Nat := sub64 (add64 g.off g.len) 1

/-- which calls of `malloc` succeed: the one for a gap, and the one for the cluster of a key -/
structure Alloc where
  gap : Bool
  cluster : Nat → Bool

def Alloc.ok : Alloc := ⟨true, fun _ => true⟩

def init : Sorter := ⟨[⟨0, maxSize⟩], OrdMap.empty, 0, 0⟩

/-! ## the gap list -/

/-- how the search for the first touched gap ends: before a gap behind the fragment, at a gap that
the fragment touches, or at the head of the list -/
inductive Scan where
  | covered
  | found (pre : List Gap) (startGap : Gap) (post : List Gap)
  | head
  deriving DecidableEq

def scanStart (start fin : Nat) (pre : List Gap) : List Gap → Scan
  | [] => .head
  | g :: post =>
    if fin < gapStart g then .covered
    else if start ≤ gapEnd g ∧ gapStart g ≤ fin then .found pre g post
    else scanStart start fin (pre ++ [g]) post

/-- The walk from `start_gap` to `end_gap`, which is `none` while it is `start_gap` itself; the
gaps in between are removed on the way.  The walk has no result when it runs into the head of the
list, which is no gap. -/
def scanEnd (fin : Nat) (startGap : Gap) (endGap : Option Gap) :
    List Gap → Option (Option Gap × List Gap)
  | [] => if gapEnd (endGap.getD startGap) < fin then none else some (endGap, [])
  | next :: post =>
    if gapEnd (endGap.getD startGap) < fin then
      if fin < gapStart next then some (endGap, next :: post)
      else scanEnd fin startGap (some next) post
    else some (endGap, next :: post)

/-- `start_gap->len = start - 1 - quic_sorter_gap_start(start_gap) + 1` -/
def shorten (g : Gap) (start : Nat) : Gap := ⟨g.off, add64 (sub64 (sub64 start 1) g.off) 1⟩

/-- What becomes of `start_gap` and `end_gap`; `none` when the new gap cannot be allocated.  When
both are one gap and the fragment fills it, the code frees it and then reads its end once more.
Whatever it loads there, it could only write to the freed block: the list is as here. -/
def cut (mem : Alloc) (startGap : Gap) (endGap : Option Gap) (start fin : Nat) :
    Option (List Gap) :=
  let last := endGap.getD startGap
  if start = gapStart startGap then
    let first := if gapEnd startGap ≤ fin then [] else [startGap]
    let trimmed : Gap := ⟨add64 fin 1, sub64 (gapEnd last) fin⟩
    match endGap with
    | none => some (if fin < gapEnd last then [trimmed] else first)
    | some g => some (first ++ [if fin < gapEnd last then trimmed else g])
  else if fin = gapEnd last then
    some (shorten startGap start :: endGap.toList)
  else match endGap with
    | none =>
      let off := add64 fin 1
      let gap : Gap := ⟨off, add64 (sub64 (gapEnd startGap) off) 1⟩
      if mem.gap then some [shorten startGap start, gap] else none
    -- `end_gap` gets a new start, and keeps its length
    | some g => some [shorten startGap start, { g with off := add64 fin 1 }]

/-! ## the clusters -/

/-- `memcpy(cluster->data + off, data, len)` -/
def copyIn (c : Cluster) (off len : Nat) (data : Nat → UInt8) : Cluster :=
  fun i => if off ≤ i ∧ i < off + len then some (data (i - off)) else c i

/-- `fuel` bounds the number of clusters: `len` is always enough, see `writeCluster_spec` -/
def writeCluster (mem : Alloc) : Nat → Rbt Cluster → Nat → Nat → (Nat → UInt8) →
    Rbt Cluster × Err
  | 0, cs, _, _, _ => (cs, .success)
  | fuel + 1, cs, off, len, data =>
    if len = 0 then (cs, .success)
    else
      let key := off / clusterSize
      let clusterOff := off % clusterSize
      let clusterLen := min len (clusterSize - clusterOff)
      let next (c : Cluster) := writeCluster mem fuel
        (cs.insert key (copyIn c clusterOff clusterLen data))
        (add64 off clusterLen) (len - clusterLen) fun i => data (i + clusterLen)
      match cs.find key with
      | some c => next c
      | none => if mem.cluster key then next fun _ => none else (cs, .internalError)

/-- the bytes copied to the reader, whose number the code returns, and the clusters that stay -/
def readCluster (consume : Bool) : Nat → Rbt Cluster → Nat → Nat →
    Rbt Cluster × List (Option UInt8)
  | 0, cs, _, _ => (cs, [])
  | fuel + 1, cs, off, len =>
    if len = 0 then (cs, [])
    else
      let key := off / clusterSize
      let clusterOff := off % clusterSize
      let clusterLen := min len (clusterSize - clusterOff)
      match cs.find key with
      | none => (cs, [])
      | some c =>
        let off' := add64 off clusterLen
        let cs' := if consume ∧ key ≠ off' / clusterSize then cs.erase key else cs
        let (cs'', bytes) := readCluster consume fuel cs' off' (len - clusterLen)
        (cs'', (List.range clusterLen).map (fun i => c (clusterOff + i)) ++ bytes)

/-! ## the operations -/

/-- `none` where the code takes the head of the gap list for a gap -/
def write (mem : Alloc) (s : Sorter) (off len : Nat) (data : Nat → UInt8) :
    Option (Sorter × Err) :=
  if len = 0 then some (s, .success)
  else
    let fin := sub64 (add64 off len) 1
    match scanStart off fin [] s.gaps with
    | .covered => some (s, .success)
    | .head => none
    | .found pre startGap post =>
      let start := max off (gapStart startGap)
      match scanEnd fin startGap none post with
      | none => none
      | some (endGap, post) =>
        let fin := min fin (gapEnd (endGap.getD startGap))
        match cut mem startGap endGap start fin with
        | none => some ({ s with gaps := pre ++ [startGap] ++ endGap.toList ++ post },
            .internalError)
        | some gs =>
          match pre ++ gs ++ post with
          | [] => none
          | first :: rest =>
            let n := add64 (sub64 fin start) 1
            let (cs, err) := writeCluster mem n s.clusters start n fun i => data (i + (start - off))
            some ({ s with gaps := first :: rest, availSize := first.off, clusters := cs }, err)

def append (mem : Alloc) (s : Sorter) (len : Nat) (data : Nat → UInt8) : Option (Sorter × Err) :=
  write mem s s.availSize len data

def readable (s : Sorter) : Nat := sub64 s.availSize s.readedSize

def empty (s : Sorter) : Bool := readable s = 0

/-- the bytes that a read returns, in order -/
def read (s : Sorter) (len : Nat) : Sorter × List (Option UInt8) :=
  let n := min len (readable s)
  let (cs, bytes) := readCluster true n s.clusters s.readedSize n
  ({ s with clusters := cs, readedSize := add64 s.readedSize bytes.length }, bytes)

def peek (s : Sorter) (len : Nat) : Sorter × List (Option UInt8) :=
  let n := min len (readable s)
  let (cs, bytes) := readCluster false n s.clusters s.readedSize n
  ({ s with clusters := cs }, bytes)

end Sorter

end OpenQuic
