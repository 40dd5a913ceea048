import OpenQuic.Format.RoundTrip
import OpenQuic.Modules.Recver

/-!
# The receive loop over frames

`quic_recver_process_packet_payload` reads the frames of a packet from bytes.  Where the bytes are
those that the sender formats the frames of a packet to, the loop is one over frames.

* `arrived`                 a frame as it is parsed: the fields that are carried;
* `processFrames`           the loop over a list of frames;
* `processPayload_frames`   the loop over their bytes is the same.
-/

namespace OpenQuic
namespace Recver

variable {σ : Type}

def arrived (f : Frame) : Frame := Frame.init f.firstByte f.carried.2

def processFrames (h : Handlers σ) (type : UInt8) (num : Nat) (ag : Option Space) (recvTime : Time) :
    (shouldAck : Bool) → List Frame → State σ → List Call → Done σ
  | shouldAck, [], st, calls => finishPayload h ⟨type, num, 0, 0⟩ ag recvTime shouldAck st calls
  | shouldAck, f :: fs, st, calls =>
    let f := stamp type recvTime f
    let shouldAck := shouldAck || !isAckType f.firstByte
    if !sessionHandler f.firstByte.toNat then
      processFrames h type num ag recvTime shouldAck fs st calls
    else
      let x := h.handle f st
      let calls := calls ++ [.handed f]
      if x.2 ≠ .success then ⟨x.1, calls, some x.2⟩
      else
        let eliciting := f.firstByte ≠ 0x02 ∧ f.firstByte = 0x03
        let st := { x.1 with currAckEliciting := x.1.currAckEliciting || eliciting }
        processFrames h type num ag recvTime shouldAck fs st calls

/-- the end of a payload needs the packet number only -/
theorem finishPayload_num (h : Handlers σ) (p : Payload) (ag : Option Space) (recvTime : Time)
    (shouldAck : Bool) (st : State σ) (calls : List Call) :
    finishPayload h p ag recvTime shouldAck st calls =
      finishPayload h ⟨p.type, p.pNum, 0, 0⟩ ag recvTime shouldAck st calls := by
  cases ag with
  | none => rfl
  | some sp => rfl

/-- the first frame of a payload is parsed -/
theorem frameParse_arrived {f : Frame} (h : f.WellStored) (hs : f.Sound) (rest : List UInt8)
    (hrest : f.Unbounded → rest = []) : ∃ bs, frameBytes f = f.firstByte :: bs ∧
      frameParse memOk (f.firstByte :: (bs ++ rest)) = .ok (arrived f, rest) := by
  obtain ⟨chunks, h1, _, h3⟩ := frame_codec rest h hs.1 hs.2 hrest
  refine ⟨chunks.flatten, ?_, h3⟩
  rw [frameBytes, h1]
  rfl

/-- **The loop.**  The induction is on the frames; each takes a byte at least, so the fuel lasts. -/
theorem processPayload_frames (h : Handlers σ) (p : Payload) (ag : Option Space) (recvTime : Time)
    {fs : List Frame} (hstored : ∀ f ∈ fs, f.WellStored) (hsound : ∀ f ∈ fs, f.Sound)
    (hpacked : Packed fs) {fuel : Nat} (hfuel : (bytesAll fs).length ≤ fuel) (shouldAck : Bool)
    (behind : List UInt8) (st : State σ) (calls : List Call) :
    processPayload h memOk p ag recvTime fuel shouldAck (.before (bytesAll fs) behind) st calls =
      processFrames h p.type p.pNum ag recvTime shouldAck (fs.map arrived) st calls := by
  induction fs generalizing fuel shouldAck st calls with
  | nil =>
    refine (processPayload_nil h memOk p ag recvTime fuel shouldAck behind st calls).trans ?_
    exact finishPayload_num h p ag recvTime shouldAck st calls
  | cons f fs ih =>
    obtain ⟨hf, hfs⟩ := List.forall_mem_cons.mp hstored
    obtain ⟨hsf, hsfs⟩ := List.forall_mem_cons.mp hsound
    have hrest : f.Unbounded → bytesAll fs = [] := fun hu => by
      rw [hpacked.1 hu]
      rfl
    obtain ⟨bs, hb, hparse⟩ := frameParse_arrived hf hsf (bytesAll fs) hrest
    have hall : bytesAll (f :: fs) = f.firstByte :: (bs ++ bytesAll fs) := by
      show frameBytes f ++ bytesAll fs = _
      rw [hb, List.cons_append]
    rw [hall, List.length_cons, List.length_append] at hfuel
    obtain ⟨k, rfl⟩ : ∃ k, fuel = k + 1 := ⟨fuel - 1, by omega⟩
    have ih := fun shouldAck st calls => @ih hfs hsfs hpacked.2 k (by omega) shouldAck st calls
    have hleft : (Unread.before (f.firstByte :: (bs ++ bytesAll fs)) behind).left ≠ 0 := fun hno =>
      List.cons_ne_nil _ _ ((Unread.before_left _ _).mp hno)
    rw [hall, List.map_cons, processPayload, processFrames, if_neg hleft,
      Unread.parse_before memOk (List.cons_ne_nil _ _), hparse]
    dsimp only [Except.map]
    split
    · exact ih _ st calls
    · split
      · rfl
      · exact ih _ _ _

end Recver
end OpenQuic
