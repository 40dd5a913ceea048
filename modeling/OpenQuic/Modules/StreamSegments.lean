import OpenQuic.Format.RoundTrip
import OpenQuic.Modules.StreamFits
import OpenQuic.Modules.StreamSend

/-!
# The frames of a send stream on the wire

What the peer can rely on of the frames that a send stream has made.

* `Consecutive.same`, `Consecutive.payload_at`   segments in a row: one that shares an offset with
                        another is where the other is, and each holds its part of the whole;
* `step_frames`         frames are only ever added, each in the form that `quic_send_stream_generate`
                        gives it;
* `frame_arrives`       the bytes of a frame are parsed to its type byte and its fields;
* `FinEnd`              a frame with the `FIN` bit ends where the stream ends;
* `step_finEnd`         guarded steps keep that.
-/

namespace OpenQuic
namespace StreamSend
open Word

/-! ## segments in a row -/

section
variable {off fin : Nat} {xs : List (Nat × List UInt8)} {x y : Nat × List UInt8}

theorem Consecutive.le (h : Consecutive off xs fin) : off ≤ fin := by
  induction xs generalizing off with
  | nil => exact Nat.le_of_eq h
  | cons z xs ih => exact (Nat.le_add_right _ _).trans (ih h.2)

theorem Consecutive.inside (h : Consecutive off xs fin) (hx : x ∈ xs) :
    off ≤ x.1 ∧ x.1 + x.2.length ≤ fin := by
  induction xs generalizing off with
  | nil => cases hx
  | cons z xs ih =>
    obtain ⟨h1, h2⟩ := h
    rcases List.mem_cons.mp hx with rfl | hx
    · have := h2.le
      omega
    · obtain ⟨h3, h4⟩ := ih h2 hx
      omega

/-- two segments that share an offset start at the same one and are equally long -/
theorem Consecutive.same (h : Consecutive off xs fin) (hx : x ∈ xs) (hy : y ∈ xs) {i : Nat}
    (hxi : x.1 ≤ i ∧ i < x.1 + x.2.length) (hyi : y.1 ≤ i ∧ i < y.1 + y.2.length) : x = y := by
  induction xs generalizing off with
  | nil => cases hx
  | cons z xs ih =>
    obtain ⟨h1, h2⟩ := h
    rcases List.mem_cons.mp hx with rfl | hx' <;> rcases List.mem_cons.mp hy with rfl | hy'
    · rfl
    · have := (h2.inside hy').1
      omega
    · have := (h2.inside hx').1
      omega
    · exact ih h2 hx' hy'

/-- the bytes of a segment are those of the whole at its offset -/
theorem Consecutive.payload_at (h : Consecutive off xs fin) (hx : x ∈ xs) {i : Nat}
    (hi : i < x.2.length) :
    ((xs.map Prod.snd).flatten)[x.1 + i - off]? = x.2[i]? := by
  induction xs generalizing off with
  | nil => cases hx
  | cons z xs ih =>
    obtain ⟨h1, h2⟩ := h
    rw [List.map_cons, List.flatten_cons]
    rcases List.mem_cons.mp hx with rfl | hx
    · rw [List.getElem?_append_left (by omega), h1, Nat.add_sub_cancel_left]
    · have hin := (h2.inside hx).1
      rw [List.getElem?_append_right (by omega), ← ih h2 hx]
      congr 1
      omega

/-- every offset lies in a segment -/
theorem Consecutive.covers (h : Consecutive off xs fin) {i : Nat} (h1 : off ≤ i) (h2 : i < fin) :
    ∃ x ∈ xs, x.1 ≤ i ∧ i < x.1 + x.2.length := by
  induction xs generalizing off with
  | nil =>
    have hend : off = fin := h
    omega
  | cons z xs ih =>
    obtain ⟨hz, hrest⟩ := h
    rcases Nat.lt_or_ge i (off + z.2.length) with hlt | hge
    · exact ⟨z, List.mem_cons_self, by omega, by omega⟩
    · obtain ⟨x, hx, hin⟩ := ih hrest hge
      exact ⟨x, List.mem_cons_of_mem _ hx, hin⟩

theorem Consecutive.total (h : Consecutive off xs fin) :
    off + (xs.map Prod.snd).flatten.length = fin := by
  induction xs generalizing off with
  | nil => exact h
  | cons z xs ih =>
    rw [List.map_cons, List.flatten_cons, List.length_append, ← Nat.add_assoc]
    exact ih h.2

end

/-! ## the form of a frame -/

/-- a frame as `quic_send_stream_generate` makes it -/
def Shaped (sid : Nat) (f : Frame) : Prop :=
  ∃ off fill fin data,
    f = ⟨streamFirstByte off fill fin, some sid, false, .stream sid off data⟩

theorem Shaped.body {sid : Nat} {f : Frame} (h : Shaped sid f) :
    f.body = .stream sid (segment f).1 (segment f).2 := by
  obtain ⟨off, fill, fin, data, rfl⟩ := h
  rfl

/-- A step adds a frame or none. -/
theorem step_frames {sid : Nat} {s s' : State} {e : Event} (h : step sid s e = some s') :
    ∃ fs, frames s' = frames s ++ fs ∧ ∀ f ∈ fs, Shaped sid f := by
  have hsame : ∀ s', frames s' = frames s → ∃ fs, frames s' = frames s ++ fs ∧
      ∀ f ∈ fs, Shaped sid f := fun s' heq => ⟨[], by rw [heq, List.append_nil], List.forall_mem_nil _⟩
  cases e with
  | generate mem bytes fill =>
    cases h
    refine ⟨_, frames_results s _, fun f hf => ?_⟩
    rw [Option.mem_toList] at hf
    rcases generate_cases mem s.str sid bytes fill with ⟨hnone, _⟩ | ⟨_, hm⟩
    · rw [hnone] at hf
      cases hf
    · rw [hm.frame] at hf
      cases hf
      exact ⟨_, _, _, _, rfl⟩
  | woken now =>
    rw [step] at h
    split at h
    · cases h
      exact hsame _ rfl
    · cases h
      exact hsame _ rfl
  | write now data =>
    cases h
    exact hsame _ rfl
  | close =>
    cases h
    exact hsame _ rfl
  | setDeadline deadline =>
    cases h
    exact hsame _ rfl
  | maxStreamData maxData =>
    cases h
    exact hsame _ rfl

/-- the bytes handed over so far stay the first ones -/
theorem step_consumed {cfg : Config} {sid : Nat} {s s' : State} {e : Event} (hi : CarriedInv cfg s)
    (ho : OneByOne s e) (h : step sid s e = some s') : consumed s <+: consumed s' := by
  obtain ⟨fs, hfs, _⟩ := step_frames h
  rw [← hi.payload, ← (step_carried hi ho h).payload, hfs, List.map_append, List.flatten_append]
  exact List.prefix_append _ _

/-! ## a frame on the wire -/

theorem streamFirstByte_type (sid off : Nat) (data : List UInt8) (fill fin : Bool) :
    (streamFirstByte off fill fin).toNat ∈ (Body.stream sid off data).types := by
  show _ ∈ [0x08, 0x09, 0x0a, 0x0b, 0x0c, 0x0d, 0x0e, 0x0f]
  unfold streamFirstByte
  split <;> cases fill <;> cases fin <;> decide

theorem Shaped.wellStored {sid : Nat} {f : Frame} (h : Shaped sid f) (hs : sid ≤ varintMax)
    (hend : (segment f).1 + (segment f).2.length ≤ varintMax) : f.WellStored := by
  obtain ⟨off, fill, fin, data, rfl⟩ := h
  replace hend : off + data.length ≤ varintMax := hend
  refine ⟨streamFirstByte_type sid off data fill fin, ⟨hs, by omega, by omega⟩, fun hoff => ?_⟩
  dsimp only at hoff
  rw [hasOff_streamFirstByte] at hoff
  exact not_not.mp (of_decide_eq_false hoff)

/-- A frame is parsed to its type byte and its fields, and what follows it is left. -/
theorem frame_arrives {sid : Nat} {f : Frame} (h : Shaped sid f) (hs : sid ≤ varintMax)
    (hend : (segment f).1 + (segment f).2.length ≤ varintMax) {rest : List UInt8}
    (hrest : f.Unbounded → rest = []) :
    frameParse memOk (frameBytes f ++ rest) = .ok (.init f.firstByte f.body, rest) := by
  have hw := h.wellStored hs hend
  have hmis : ¬ f.Misrouted := by
    obtain ⟨off, fill, fin, data, rfl⟩ := h
    unfold Frame.Misrouted streamFirstByte
    dsimp only
    split <;> cases fill <;> cases fin <;> decide
  have hreason : ¬ f.GivesReason := by
    obtain ⟨off, fill, fin, data, rfl⟩ := h
    exact id
  obtain ⟨chunks, h1, _, h3⟩ := frame_codec rest hw hmis hreason hrest
  have hbytes : frameBytes f = f.firstByte :: chunks.flatten := by
    rw [frameBytes, h1]
    rfl
  have hcarried : f.carried.2 = f.body := by
    obtain ⟨off, fill, fin, data, rfl⟩ := h
    rfl
  rw [hbytes, List.cons_append, h3, hcarried]

/-! ## the end of the stream -/

/-- a frame with the `FIN` bit is the end: the stream is closed, nothing waits to be sent, and the
frame ends where the stream does -/
def FinEnd (s : State) : Prop :=
  ∀ f ∈ frames s, hasFin f.firstByte = true →
    s.str.send.closed = true ∧ s.str.send.sentFin = true ∧ s.str.send.readerLen = 0 ∧
      (segment f).1 + (segment f).2.length = s.str.send.off

theorem start_finEnd (cfg : Config) : FinEnd (start cfg) := List.forall_mem_nil _

theorem write_closed {send : SendStream} (h : send.closed = true) (now : Time) (data : List UInt8) :
    send.write now data = ({ send with readerBuf := [] }, false) := by
  unfold SendStream.write
  refine if_pos ?_
  rw [SendStream.stops, h]
  rfl

theorem generate_finEnd {cfg : Config} {sid : Nat} {s s' : State} (hi : CarriedInv cfg s)
    (h : FinEnd s) {mem : StreamAlloc} {bytes : Nat} {fill : Bool}
    (hg : FinGuarded s (.generate mem bytes fill))
    (hs : step sid s (.generate mem bytes fill) = some s') : FinEnd s' := by
  cases hs
  intro f hf hfin
  rw [frames_results] at hf
  show (s.str.generate mem sid bytes fill).stream.send.closed = true ∧
    (s.str.generate mem sid bytes fill).stream.send.sentFin = true ∧
    (s.str.generate mem sid bytes fill).stream.send.readerLen = 0 ∧
    _ = (s.str.generate mem sid bytes fill).stream.send.off
  have hle := s.str.payloadSize_le sid bytes fill
  have hword : s.str.send.off < 2 ^ 64 := by
    have h1 := hi.counters
    have h2 := hi.window
    have h3 := hi.word
    omega
  rcases generate_cases mem s.str sid bytes fill with ⟨hnone, _, hsend, _⟩ | ⟨hmem, hm⟩
  · rw [hnone, Option.toList_none, List.append_nil] at hf
    rw [hsend]
    exact h f hf hfin
  · -- a frame of a stream that has nothing to send is empty
    have hempty : s.str.send.readerLen = 0 →
        (s.str.generate mem sid bytes fill).stream.send.readerLen = 0 ∧
        (s.str.generate mem sid bytes fill).stream.send.off = s.str.send.off ∧
        s.str.send.readerBuf.take (s.str.payloadSize sid bytes fill) = [] := by
      intro h0
      have hn : s.str.payloadSize sid bytes fill = 0 := by omega
      refine ⟨?_, ?_, by rw [hn, List.take_zero]⟩
      · rw [SendStream.readerLen, hm.reader, hn, List.drop_zero]
        exact h0
      · rw [hm.off, hn]
        exact add64_of_lt (by omega)
    rw [hm.frame, Option.toList_some] at hf
    rw [hm.closed, hm.sentFin]
    rcases List.mem_append.mp hf with hf | hf
    · obtain ⟨hc, hsent, hr, hend⟩ := h f hf hfin
      obtain ⟨h1, h2, _⟩ := hempty hr
      refine ⟨hc, ?_, h1, hend.trans h2.symm⟩
      rw [hsent]
      rfl
    · rw [List.mem_singleton.mp hf] at hfin ⊢
      dsimp only at hfin
      rw [hasFin_streamFirstByte] at hfin
      have htakes := hfin
      rw [SendStream.takesFin, Bool.and_eq_true, Bool.and_eq_true, Bool.not_eq_true'] at hfin
      obtain ⟨⟨hc, hsent⟩, _⟩ := hfin
      have hr := (hg hc hsent).resolve_right (by simp [hmem])
      obtain ⟨h1, h2, h3⟩ := hempty hr
      refine ⟨hc, ?_, h1, ?_⟩
      · rw [htakes, Bool.or_true]
      · rw [h2]
        show s.str.send.off + (s.str.send.readerBuf.take _).length = _
        rw [h3]
        rfl

theorem step_finEnd {cfg : Config} {sid : Nat} {s s' : State} {e : Event} (hi : CarriedInv cfg s)
    (h : FinEnd s) (hg : FinGuarded s e) (hs : step sid s e = some s') : FinEnd s' := by
  cases e with
  | generate mem bytes fill => exact generate_finEnd hi h hg hs
  | write now data =>
    cases hs
    intro f hf hfin
    obtain ⟨hc, hsent, _, hend⟩ := h f hf hfin
    dsimp only
    rw [write_closed hc]
    exact ⟨hc, hsent, rfl, hend⟩
  | woken now =>
    rw [step] at hs
    split at hs
    · cases hs
      exact h
    · cases hs
      intro f hf hfin
      obtain ⟨hc, hsent, hr, hend⟩ := h f hf hfin
      dsimp only
      unfold SendStream.woken
      split
      · exact ⟨hc, hsent, rfl, hend⟩
      · exact ⟨hc, hsent, hr, hend⟩
  | close =>
    cases hs
    intro f hf hfin
    obtain ⟨_, hrest⟩ := h f hf hfin
    exact ⟨rfl, hrest⟩
  | setDeadline deadline =>
    cases hs
    exact h
  | maxStreamData maxData =>
    cases hs
    exact h

end StreamSend
end OpenQuic
