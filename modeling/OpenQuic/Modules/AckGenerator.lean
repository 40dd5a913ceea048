import OpenQuic.Base
import OpenQuic.Format.Tables

/-!
# The ACK generator

The ranges of received packet numbers of `modules/ack_generator.c`, kept in ascending order, and
the ACK frame that is made of them.

* `mem` says whether `malloc` succeeds;
* an insertion that merges a range into the one before it goes on with the freed range: no result;
* a frame for an empty list, or for a count that is not the length of the list, has fields that
  were never written or entries behind its allocation: no result.
-/

namespace OpenQuic
open Word

/-- `quic_ack_generator_range_t` -/
structure AckGenRange where
  start : Nat
  stop : Nat
  deriving DecidableEq, Repr

structure AckGenerator where
  ranges : List AckGenRange
  /-- `uint32_t` -/
  rangesCount : Nat
  ignoreThrehold : Nat
  lgObtime : Time
  lgObnum : Nat
  shouldSend : Bool
  dropped : Bool
  alarm : Time

namespace AckGenerator

def init : AckGenerator := ⟨[], 0, 0, 0, 0, false, false, 0⟩

/-! ## received numbers -/

/-- the range that grows by `num` at one of its ends -/
def extend (num : Nat) (r : AckGenRange) : Option AckGenRange :=
  if add64 r.stop 1 = num then some { r with stop := add64 r.stop 1 }
  else if sub64 r.start 1 = num then some { r with start := sub64 r.start 1 }
  else none

/-- a range that has grown and the one behind it, and how many ranges that makes less -/
def mergeNext (r : AckGenRange) : List AckGenRange → List AckGenRange × Nat
  | [] => ([r], 0)
  | n :: ns => if sub64 n.start 1 = r.stop then ({ n with start := r.start } :: ns, 1)
      else (r :: n :: ns, 0)

/-- whether the number is new, the list and its count; `prev` is the range before the list -/
def insertRanges (mem : Bool) (num : Nat) (count : Nat) :
    (prev : Option AckGenRange) → List AckGenRange → Option (Bool × List AckGenRange × Nat)
  | _, [] => if mem then some (true, [⟨num, num⟩], add32 count 1) else some (false, [], count)
  | prev, r :: rs =>
    if r.start ≤ num ∧ num ≤ r.stop then some (false, r :: rs, count)
    else
      match extend num r with
      | some r' =>
        if prev.any fun p => add64 p.stop 1 = r'.start then none
        else some (true, (mergeNext r' rs).1, sub32 count (mergeNext r' rs).2)
      | none =>
        if num < r.start then
          if mem then some (true, ⟨num, num⟩ :: r :: rs, add32 count 1)
          else some (false, r :: rs, count)
        else (insertRanges mem num count (some r) rs).map fun x => (x.1, r :: x.2.1, x.2.2)

/-- the walk stops at the first range that begins behind the number or holds it -/
def lostWalk (num : Nat) : List AckGenRange → Bool
  | [] => false
  | r :: rs => if num < r.start then true else if num ≤ r.stop then false else lostWalk num rs

/-- on an empty list the code compares with a field of the module, but the walk is empty too -/
def checkIsLost (g : AckGenerator) (num : Nat) : Bool :=
  match g.ranges.getLast? with
  | none => false
  | some r => if num ≤ g.ignoreThrehold ∨ r.start ≤ num then false else lostWalk num g.ranges

def received (g : AckGenerator) (mem : Bool) (num : Nat) (recvTime : Time) (shouldAck : Bool) :
    Option AckGenerator :=
  if num < g.ignoreThrehold ∨ g.dropped then some g
  else
    let lost := checkIsLost g num
    let g := if g.lgObnum ≤ num then { g with lgObnum := num, lgObtime := recvTime } else g
    (insertRanges mem num g.rangesCount none g.ranges).map fun x =>
      { g with
        ranges := x.2.1
        rangesCount := x.2.2
        shouldSend := g.shouldSend || (x.1 && shouldAck) || (lost && shouldAck) }

/-! ## the threshold -/

/-- the ranges that `quic_ack_generator_ignore` leaves -/
def ignoreWalk (threhold : Nat) : List AckGenRange → List AckGenRange
  | [] => []
  | r :: rs =>
    if threhold ≤ r.start then r :: rs
    else if r.stop < threhold then ignoreWalk threhold rs
    else { r with start := threhold } :: rs

/-- The code does not take the ranges that it frees out of `ranges_count`. -/
def ignore (g : AckGenerator) : AckGenerator :=
  { g with ranges := ignoreWalk g.ignoreThrehold g.ranges }

def setIgnoreThrehold (g : AckGenerator) (num : Nat) : AckGenerator :=
  if num ≤ g.ignoreThrehold then g else ignore { g with ignoreThrehold := num }

/-! ## the frame -/

/-- the additional ranges below `smallest`, from the list in descending order -/
def addRanges : (smallest : Nat) → List AckGenRange → List AckRange
  | _, [] => []
  | smallest, r :: rs =>
    ⟨sub64 (sub64 smallest r.stop) 2, sub64 r.stop r.start⟩ :: addRanges r.start rs

/-- `packet_type` and `recv_time` are not written by the code -/
def makeFrame (g : AckGenerator) (now : Time) (top : AckGenRange) (below : List AckGenRange) :
    AckFrame where
  packetType := 0
  recvTime := 0
  largestAck := top.stop
  delay := sub64 now g.lgObtime
  firstRange := sub64 top.stop top.start
  ect0 := 0
  ect1 := 0
  ectCe := 0
  count := sub32 g.rangesCount 1
  ranges := addRanges top.start below

def generate (g : AckGenerator) (mem : Bool) (now : Time) :
    Option (Option AckFrame × AckGenerator) :=
  if g.dropped then some (none, g)
  else if !g.shouldSend && (g.alarm == 0 || decide (now < g.alarm)) then some (none, g)
  else if !mem then some (none, g)
  else
    match g.ranges.reverse with
    | [] => none
    | top :: below =>
      if g.rangesCount = g.ranges.length then
        some (some (makeFrame g now top below), { g with alarm := 0, shouldSend := false })
      else none

def frameAckType : UInt8 := 0x02

/-- the length, the frames of the packet, `largest_ack` and the module -/
def appendAckFrame (g : AckGenerator) (mem : Bool) (now : Time) (frames : List Frame)
    (largestAck : Nat) : Option (Nat × List Frame × Nat × AckGenerator) :=
  (generate g mem now).map fun x =>
    match x.1 with
    | none => (0, frames, largestAck, x.2)
    | some a =>
      (frameSize (Frame.init frameAckType (.ack a)), frames ++ [Frame.init frameAckType (.ack a)],
        a.largestAck, x.2)

def drop (g : AckGenerator) : AckGenerator := { g with ranges := [], rangesCount := 0, dropped := true }

/-- `quic_ack_generator_should_send` -/
def ackShouldSend (g : AckGenerator) : Bool := !g.dropped && g.shouldSend

end AckGenerator

end OpenQuic
