import OpenQuic.Format.Codec

/-!
# Round trip of a packet payload

The frames of a packet are formatted one after another into a buffer of their total size, and the
receive loop parses what is in the buffer.

* `bytesAll`            the payload of a list of frames;
* `formatFrames_sized`  formatting fills the buffer exactly when the sizers are right;
* `parseFrames_iff`     the receive loop gives the frames back exactly when every frame has a row
                        that is right for it;
* `roundTrip_iff`       **the round trip holds exactly for the lists without a frame of type `0x15`,
                        `0x16` or `0x17` and without a connection close that gives a reason.**
-/

namespace OpenQuic

/-! ## formatting -/

theorem Buf.puts_append (chunks : List (List UInt8)) (w : List UInt8) (k : Nat) :
    Buf.puts ⟨w, chunks.flatten.length + k⟩ chunks = (⟨w ++ chunks.flatten, k⟩, .success) := by
  induction chunks generalizing w with
  | nil =>
    rw [List.flatten_nil, List.length_nil, Nat.zero_add, List.append_nil]
    rfl
  | cons c cs ih =>
    rw [List.flatten_cons, List.length_append, Nat.add_assoc, Buf.puts, Buf.put,
      if_neg (by dsimp only; omega)]
    dsimp only
    rw [Nat.add_sub_cancel_left, ih, List.append_assoc]

/-- the bytes that the formatter of a frame writes -/
def frameBytes (f : Frame) : List UInt8 := ((frameChunks f).getD []).flatten

def bytesAll (fs : List Frame) : List UInt8 := fs.flatMap frameBytes

theorem Frame.Sized.bytes {f : Frame} (h : f.Sized) :
    frameSizeOf f = some (frameBytes f).length ∧
      ∀ w k, frameFormat ⟨w, (frameBytes f).length + k⟩ f = some (⟨w ++ frameBytes f, k⟩, .success) := by
  obtain ⟨chunks, h1, h2⟩ := h
  have hb : frameBytes f = ([f.firstByte] :: chunks).flatten := by
    rw [frameBytes, h1, Option.getD_some]
  have hlen : (frameBytes f).length = 1 + chunks.flatten.length := by
    rw [hb, List.flatten_cons, List.length_append, List.length_singleton]
  refine ⟨by rw [h2, hlen], fun w k => ?_⟩
  rw [frameChunks, Option.bind_eq_some_iff] at h1
  obtain ⟨format, hf, h1⟩ := h1
  rw [frameFormat, hf]
  dsimp only
  rw [h1, Option.map_some, hb, Buf.puts_append]

/-- the buffer of the total size is filled exactly, and no formatter fails -/
theorem formatFrames_sized (fs : List Frame) (h : ∀ f ∈ fs, f.Sized) (w : List UInt8) (k : Nat) :
    framesSize fs = some (bytesAll fs).length ∧
      formatFrames ⟨w, (bytesAll fs).length + k⟩ fs =
        some (⟨w ++ bytesAll fs, k⟩, fs.map fun _ => .success) := by
  induction fs generalizing w with
  | nil => exact ⟨rfl, by simp [formatFrames, bytesAll]⟩
  | cons f fs ih =>
    obtain ⟨h1, h2⟩ := (h f List.mem_cons_self).bytes
    obtain ⟨h3, h4⟩ := ih (fun g hg => h g (List.mem_cons_of_mem _ hg)) (w ++ frameBytes f)
    have hb : bytesAll (f :: fs) = frameBytes f ++ bytesAll fs := List.flatMap_cons
    constructor
    · rw [framesSize, h1, h3, hb, List.length_append]
      rfl
    · rw [formatFrames, hb, List.length_append, Nat.add_assoc, h2, Option.bind_eq_bind,
        Option.bind_some]
      dsimp only
      rw [h4, Option.bind_eq_bind, Option.bind_some, List.append_assoc]
      rfl

theorem framesSize_none {fs : List Frame} {f : Frame} (hf : f ∈ fs) (h : frameSizeOf f = none) :
    framesSize fs = none := by
  induction fs with
  | nil => cases hf
  | cons g fs ih =>
    rw [framesSize]
    rcases List.mem_cons.mp hf with rfl | hf
    · rw [h]
      rfl
    · rw [ih hf]
      cases frameSizeOf g <;> rfl

/-! ## parsing -/

theorem carried_init (f : Frame) : (Frame.init f.firstByte f.carried.2).carried = f.carried := by
  obtain ⟨fb, oa, ol, body⟩ := f
  cases body with
  | ack a => by_cases h : fb = 0x03 <;> simp [Frame.carried, Frame.init, h]
  | connectionClose err type data =>
    by_cases h : fb = 0x1c <;> simp [Frame.carried, Frame.init, h]
  | _ => rfl

theorem parseFrames_cons (fuel : Nat) (b : UInt8) (bs : List UInt8) :
    parseFrames memOk (fuel + 1) (b :: bs) = frameParse memOk (b :: bs) >>= fun r =>
      parseFrames memOk fuel r.2 >>= fun fs => pure (r.1 :: fs) := rfl

/-- the frames of a packet: only the last one may extend to its end -/
def Packed : List Frame → Prop
  | [] => True
  | f :: fs => (f.Unbounded → fs = []) ∧ Packed fs

/-- the frames that the tables carry over -/
def Frame.Sound (f : Frame) : Prop := ¬ f.Misrouted ∧ ¬ f.GivesReason

/-- how the first frame of a payload is parsed -/
theorem parse_first {f : Frame} (h : f.WellStored) (hs : f.Sized) (rest : List UInt8)
    (hrest : f.Unbounded → rest = []) :
    ∃ bs, frameBytes f = f.firstByte :: bs ∧
      ((f.Sound ∧ frameParse memOk (f.firstByte :: (bs ++ rest)) =
          .ok (Frame.init f.firstByte f.carried.2, rest)) ∨
        (¬ f.Sound ∧ ∀ g r, frameParse memOk (f.firstByte :: (bs ++ rest)) = .ok (g, r) →
          g.carried ≠ f.carried)) := by
  by_cases hsound : f.Sound
  · obtain ⟨chunks, h1, h2, h3⟩ := frame_codec rest h hsound.1 hsound.2 hrest
    refine ⟨chunks.flatten, ?_, Or.inl ⟨hsound, h3⟩⟩
    rw [frameBytes, h1]
    rfl
  · obtain ⟨fb, oa, ol, body⟩ := f
    have hmem := h.type
    have hfit := h.fields
    dsimp only at hmem hfit
    by_cases hm : fb.toNat ∈ [0x15, 0x16, 0x17]
    · -- the struct of type `0x15`; types `0x16` and `0x17` have no size
      have h15 : fb.toNat = 0x15 := by
        simp only [List.mem_cons, List.not_mem_nil, or_false] at hm
        rcases hm with hm | hm
        · exact hm
        · obtain ⟨_, _, hsz⟩ := hs
          rw [streamsBlocked_unsized h hm] at hsz
          cases hsz
      cases body with
      | streamDataBlocked sid maxData =>
        obtain ⟨chunks, h1, _, h3⟩ :=
          streamDataBlocked_codec oa ol maxData rest h15 hfit.1
        refine ⟨chunks.flatten, ?_, Or.inr ⟨hsound, fun g r hg => ?_⟩⟩
        · rw [frameBytes, h1]
          rfl
        · rw [h3] at hg
          cases hg
          simp [Frame.carried, Frame.init]
      | _ =>
        rw [h15] at hmem
        exact absurd hmem (by simp [Body.types])
    · -- a connection close with a reason
      have hr : (Frame.mk fb oa ol body).GivesReason := by
        by_contra hr
        exact hsound ⟨hm, hr⟩
      cases body with
      | connectionClose err type data =>
        simp only [Body.types, List.mem_cons, List.not_mem_nil, or_false] at hmem
        obtain ⟨chunks, h1, _, h3⟩ := reason_codec oa ol rest hmem hr
          hfit.1 hfit.2.1 hfit.2.2
        refine ⟨chunks.flatten, ?_, Or.inr ⟨hsound, fun g r hg => ?_⟩⟩
        · rw [frameBytes, h1]
          rfl
        · rw [h3] at hg
          cases hg
      | _ => exact False.elim hr

/-- **The receive loop** over the bytes of a list of frames gives the frames back exactly when the
tables are right for every one of them. -/
theorem parseFrames_iff (fs : List Frame) (h : ∀ f ∈ fs, f.WellStored) (hs : ∀ f ∈ fs, f.Sized)
    (hp : Packed fs) (fuel : Nat) (hfuel : (bytesAll fs).length ≤ fuel) :
    (∃ out, parseFrames memOk fuel (bytesAll fs) = .ok out ∧
      out.map Frame.carried = fs.map Frame.carried) ↔ ∀ f ∈ fs, f.Sound := by
  induction fs generalizing fuel with
  | nil =>
    have hnil : parseFrames memOk fuel (bytesAll []) = .ok [] := by
      show parseFrames memOk fuel [] = _
      rw [parseFrames]
    exact ⟨fun _ f hf => absurd hf List.not_mem_nil, fun _ => ⟨[], hnil, rfl⟩⟩
  | cons f fs ih =>
    have hrest : f.Unbounded → bytesAll fs = [] := fun hu => by
      rw [hp.1 hu]
      rfl
    obtain ⟨bs, hb, hfirst⟩ :=
      parse_first (h f List.mem_cons_self) (hs f List.mem_cons_self) (bytesAll fs) hrest
    have hall : bytesAll (f :: fs) = f.firstByte :: (bs ++ bytesAll fs) := by
      show frameBytes f ++ bytesAll fs = _
      rw [hb, List.cons_append]
    rw [hall, List.length_cons, List.length_append] at hfuel
    obtain ⟨fuel, rfl⟩ : ∃ k, fuel = k + 1 := ⟨fuel - 1, by omega⟩
    rw [hall, parseFrames_cons, List.forall_mem_cons]
    rcases hfirst with ⟨hsound, hparse⟩ | ⟨hsound, hparse⟩
    · rw [hparse, bind_ok]
      dsimp only
      have ih := ih (fun g hg => h g (List.mem_cons_of_mem _ hg))
        (fun g hg => hs g (List.mem_cons_of_mem _ hg)) hp.2 fuel (by omega)
      constructor
      · rintro ⟨out, ho, hc⟩
        refine ⟨hsound, ih.mp ?_⟩
        cases hpf : parseFrames memOk fuel (bytesAll fs) with
        | error e =>
          rw [hpf] at ho
          cases ho
        | ok out' =>
          rw [hpf] at ho
          cases ho
          exact ⟨out', rfl, (List.cons.inj hc).2⟩
      · rintro ⟨_, hfs⟩
        obtain ⟨out, ho, hc⟩ := ih.mpr hfs
        refine ⟨Frame.init f.firstByte f.carried.2 :: out, ?_, ?_⟩
        · rw [ho]
          rfl
        · rw [List.map_cons, List.map_cons, carried_init, hc]
    · refine ⟨fun ⟨out, ho, hc⟩ => ?_, fun ⟨hcontra, _⟩ => absurd hcontra hsound⟩
      cases hpf : frameParse memOk (f.firstByte :: (bs ++ bytesAll fs)) with
      | error e =>
        rw [hpf] at ho
        cases ho
      | ok r =>
        obtain ⟨g, r⟩ := r
        rw [hpf, bind_ok] at ho
        dsimp only at ho
        cases hrec : parseFrames memOk fuel r with
        | error e =>
          rw [hrec] at ho
          cases ho
        | ok out' =>
          rw [hrec] at ho
          cases ho
          exact absurd (List.cons.inj hc).1 (hparse g r hpf)

/-! ## the round trip -/

/-- every frame is formatted with success into a buffer of the total size, the buffer is full
then, and the receive loop gives the carried fields of every frame back -/
def RoundTrip (fs : List Frame) : Prop :=
  ∃ n b out, framesSize fs = some n ∧
    formatFrames ⟨[], n⟩ fs = some (b, fs.map fun _ => .success) ∧ b.room = 0 ∧
    parseFrames memOk b.written.length b.written = .ok out ∧
    out.map Frame.carried = fs.map Frame.carried

theorem sized_of {f : Frame} (h : f.WellStored)
    (ht : ¬ (f.firstByte.toNat = 0x16 ∨ f.firstByte.toNat = 0x17)) : f.Sized := by
  by_cases hm : f.Misrouted
  · have h15 : f.firstByte.toNat = 0x15 := by
      simp only [Frame.Misrouted, List.mem_cons, List.not_mem_nil, or_false] at hm
      exact hm.resolve_right ht
    obtain ⟨fb, oa, ol, body⟩ := f
    have hmem := h.type
    have hfit := h.fields
    cases body with
    | streamDataBlocked sid maxData =>
      obtain ⟨chunks, h1, h2, _⟩ :=
        streamDataBlocked_codec oa ol maxData [] h15 hfit.1
      exact ⟨chunks, h1, h2⟩
    | _ =>
      rw [h15] at hmem
      exact absurd hmem (by simp [Body.types])
  · by_cases hr : f.GivesReason
    · obtain ⟨fb, oa, ol, body⟩ := f
      have hmem := h.type
      have hfit := h.fields
      cases body with
      | connectionClose err type data =>
        simp only [Body.types, List.mem_cons, List.not_mem_nil, or_false] at hmem
        obtain ⟨chunks, h1, h2, _⟩ := reason_codec oa ol [] hmem hr
          hfit.1 hfit.2.1 hfit.2.2
        exact ⟨chunks, h1, h2⟩
      | _ => exact False.elim hr
    · obtain ⟨chunks, h1, h2, _⟩ := frame_codec [] h hm hr fun _ => rfl
      exact ⟨chunks, h1, h2⟩

/-- **The round trip** of a payload holds exactly when no frame has type `0x15`, `0x16` or `0x17`
and no connection close gives a reason. -/
theorem roundTrip_iff (fs : List Frame) (h : ∀ f ∈ fs, f.WellStored) (hp : Packed fs) :
    RoundTrip fs ↔ ∀ f ∈ fs, ¬ f.Misrouted ∧ ¬ f.GivesReason := by
  by_cases hall : ∀ f ∈ fs, ¬ (f.firstByte.toNat = 0x16 ∨ f.firstByte.toNat = 0x17)
  · have hs : ∀ f ∈ fs, f.Sized := fun f hf => sized_of (h f hf) (hall f hf)
    obtain ⟨hsize, hformat⟩ := formatFrames_sized fs hs [] 0
    rw [Nat.add_zero, List.nil_append] at hformat
    refine Iff.trans ?_ (parseFrames_iff fs h hs hp _ (le_refl _))
    constructor
    · rintro ⟨n, b, out, h1, h2, _, h4, h5⟩
      rw [hsize] at h1
      cases h1
      rw [hformat] at h2
      cases h2
      exact ⟨out, h4, h5⟩
    · rintro ⟨out, h4, h5⟩
      exact ⟨_, _, out, hsize, hformat, rfl, h4, h5⟩
  · rw [not_forall] at hall
    obtain ⟨f, hall⟩ := hall
    rw [Classical.not_imp, not_not] at hall
    obtain ⟨hf, ht⟩ := hall
    constructor
    · rintro ⟨n, b, out, h1, _⟩
      rw [framesSize_none hf (streamsBlocked_unsized (h f hf) ht)] at h1
      cases h1
    · intro hgood
      refine absurd ?_ (hgood f hf).1
      simp only [Frame.Misrouted, List.mem_cons, List.not_mem_nil, or_false]
      exact Or.inr ht

/-- an acknowledgement with one range, and a STREAM frame that extends to the end -/
theorem roundTrip_two :
    RoundTrip [Frame.init 0x02 (.ack ⟨0, 0, 10, 300, 1, 0, 0, 0, 1, [⟨2, 0⟩]⟩),
        Frame.init 0x0c (.stream 4 70000 [1, 2, 3])] ↔
      ∀ f ∈ [Frame.init 0x02 (.ack ⟨0, 0, 10, 300, 1, 0, 0, 0, 1, [⟨2, 0⟩]⟩),
        Frame.init 0x0c (.stream 4 70000 [1, 2, 3])], ¬ f.Misrouted ∧ ¬ f.GivesReason :=
  roundTrip_iff _ (by
    intro f hf
    simp only [List.mem_cons, List.not_mem_nil, or_false] at hf
    rcases hf with rfl | rfl
    · exact ⟨by decide, by simp [Frame.init, Body.FieldsFit, varintMax], trivial⟩
    · exact ⟨by decide, by simp [Frame.init, Body.FieldsFit, varintMax],
        fun h => absurd h (by decide)⟩)
    ⟨False.elim, fun _ => rfl, trivial⟩

/-- a STREAM_DATA_BLOCKED frame loses its limit -/
theorem not_roundTrip :
    ¬ ∀ fs : List Frame, (∀ f ∈ fs, f.WellStored) → Packed fs → RoundTrip fs := by
  intro h
  have hf : ∀ f ∈ [Frame.init 0x15 (.streamDataBlocked 4 1000)], f.WellStored := by
    intro f hf
    rw [List.mem_singleton.mp hf]
    exact ⟨by decide, by simp [Frame.init, Body.FieldsFit, varintMax], trivial⟩
  obtain ⟨n, b, out, h1, h2, _, h4, h5⟩ := h _ hf ⟨False.elim, trivial⟩
  have hn : framesSize [Frame.init 0x15 (.streamDataBlocked 4 1000)] = some 2 := by decide
  rw [hn] at h1
  cases h1
  have hb : formatFrames ⟨[], 2⟩ [Frame.init 0x15 (.streamDataBlocked 4 1000)] =
      some (⟨[0x15, 4], 0⟩, [.success]) := by decide
  rw [hb] at h2
  cases h2
  have hout : parseFrames memOk 2 [0x15, 4] = .ok [Frame.init 0x15 (.dataBlocked 4)] := by rfl
  change parseFrames memOk 2 [0x15, 4] = .ok out at h4
  rw [hout] at h4
  cases h4
  exact absurd h5 (by decide)

end OpenQuic
