import OpenQuic.Format.RoundTrip

/-!
# The three functions of each frame

The parser, the formatter and the sizer of a struct, for every frame, every buffer and whatever
follows the frame.

* `Buf.puts_iff`        the puts of a formatter succeed exactly when there is room for all of them;
* `Agrees`              what the three functions of a frame are for;
* `overflow_faults`     a frame that overflows is written as it should be, and its parser writes
                        behind its allocation;
* `agrees_iff`          the three functions agree on a frame exactly when it does not overflow.
-/

namespace OpenQuic

/-! ## puts -/

theorem Buf.puts_iff (b : Buf) (chunks : List (List UInt8)) :
    (b.puts chunks).2 = .success ↔ chunks.flatten.length ≤ b.room := by
  induction chunks generalizing b with
  | nil => exact iff_of_true rfl (Nat.zero_le _)
  | cons c cs ih =>
    rw [List.flatten_cons, List.length_append, Buf.puts, Buf.put]
    by_cases hc : b.room < c.length
    · rw [if_pos hc]
      refine iff_of_false (fun h => ?_) (by omega)
      cases h
    · rw [if_neg hc]
      dsimp only
      rw [ih]
      dsimp only
      omega

theorem Buf.puts_room {b : Buf} {chunks : List (List UInt8)} (h : chunks.flatten.length ≤ b.room) :
    b.puts chunks =
      (⟨b.written ++ chunks.flatten, b.room - chunks.flatten.length⟩, .success) := by
  obtain ⟨w, room⟩ := b
  obtain ⟨k, rfl⟩ := Nat.exists_eq_add_of_le h
  rw [Nat.add_sub_cancel_left]
  exact Buf.puts_append chunks w k

/-! ## the three functions -/

/-- The formatter succeeds exactly when there is room for the size of the frame, it takes that much,
and the parser gets the fields back that are on the wire and stops behind the frame. -/
def Agrees (t : Triple) (f : Frame) (rest : List UInt8) : Prop :=
  ∃ n chunks, t.size f = some n ∧ t.format f = some chunks ∧
    ∀ b : Buf, ((b.puts chunks).2 = .success ↔ n ≤ b.room) ∧
      (n ≤ b.room → ∃ bytes g, b.puts chunks = (⟨b.written ++ bytes, b.room - n⟩, .success) ∧
        bytes.length = n ∧ t.parse memOk (bytes ++ rest) = .ok (g, rest) ∧ g.carried = f.carried)

theorem agrees_of_codec {t : Triple} {f : Frame} {rest : List UInt8}
    (h : Codec t.parse t.format t.size f rest) : Agrees t f rest := by
  obtain ⟨chunks, hf, hs, hp⟩ := h
  have hlen : ([f.firstByte] :: chunks).flatten.length = 1 + chunks.flatten.length := by
    rw [List.flatten_cons, List.length_append, List.length_singleton]
  refine ⟨_, _, hs, hf, fun b => ⟨?_, fun hroom => ?_⟩⟩
  · rw [Buf.puts_iff, hlen]
  · rw [← hlen] at hroom ⊢
    exact ⟨_, _, Buf.puts_room hroom, rfl, hp, carried_init f⟩

/-- a frame that overflows: its formatter and its sizer are right, its parser is not -/
theorem overflow_faults {f : Frame} (rest : List UInt8) (h : f.WellStored) (hover : f.Overflows) :
    ∃ chunks, f.body.triple.format f = some ([f.firstByte] :: chunks) ∧
      f.body.triple.size f = some (1 + chunks.flatten.length) ∧
      f.body.triple.parse memOk (f.firstByte :: (chunks.flatten ++ rest)) = .error .fault := by
  obtain ⟨fb, oa, ol, body⟩ := f
  obtain ⟨ht, hfit, _⟩ := h
  cases body with
  | streamDataBlocked sid maxData =>
    refine ⟨[varintFormatR sid, varintFormatR maxData], rfl, ?_, ?_⟩
    · show some _ = some _
      simp only [List.flatten_cons, List.flatten_nil, List.append_nil, List.length_append,
        varintFormatR_length, ← Nat.add_assoc]
    · show streamDataBlockedParse memOk _ = _
      simp only [streamDataBlockedParse, parse2, readByte, bind_ok, List.flatten_cons,
        List.flatten_nil, List.append_nil, List.append_assoc, readVarint_format hfit.1,
        readVarint_format hfit.2, alloc_memOk]
      rfl
  | connectionClose err type data =>
    simp only [Body.types, List.mem_cons, List.not_mem_nil, or_false] at ht
    obtain ⟨chunks, hf, hs, hp⟩ :=
      reason_codec oa ol rest ht hover hfit.1 hfit.2.1 hfit.2.2
    have hmem : (Frame.mk fb oa ol (.connectionClose err type data)).firstByte.toNat ∈
        (Body.connectionClose err type data).types := by
      simp only [Body.types, List.mem_cons, List.not_mem_nil, or_false]
      exact ht
    obtain ⟨hrow1, hrow2, hrow3⟩ := row_triple hmem fun hno => by
      simp only [Frame.Misrouted, List.mem_cons, List.not_mem_nil, or_false] at hno
      omega
    refine ⟨chunks, ?_, ?_, ?_⟩
    · rwa [frameChunks, hrow2, Option.bind_some] at hf
    · rwa [frameSizeOf, hrow3] at hs
    · rwa [frameParse, hrow1] at hp
  | _ => exact False.elim hover

/-- **The three functions agree on a frame exactly when it does not overflow.** -/
theorem agrees_iff {f : Frame} (rest : List UInt8) (h : f.WellStored)
    (hrest : f.Unbounded → rest = []) : Agrees f.body.triple f rest ↔ ¬ f.Overflows := by
  constructor
  · rintro ⟨n, chunks, hs, hf, hb⟩ hover
    obtain ⟨chunks', hf', hs', hp⟩ := overflow_faults rest h hover
    obtain rfl := Option.some.inj (hs'.symm.trans hs)
    obtain rfl := Option.some.inj (hf'.symm.trans hf)
    have hlen : ([f.firstByte] :: chunks').flatten.length = 1 + chunks'.flatten.length := by
      rw [List.flatten_cons, List.length_append, List.length_singleton]
    obtain ⟨bytes, g, hputs, _, hparse, _⟩ := (hb ⟨[], 1 + chunks'.flatten.length⟩).2 (Nat.le_refl _)
    rw [Buf.puts_room (by rw [hlen])] at hputs
    have hbytes : ([f.firstByte] :: chunks').flatten = bytes :=
      congrArg (fun x => x.1.written) hputs
    rw [← hbytes] at hparse
    cases hp.symm.trans hparse
  · exact fun hover => agrees_of_codec (triple_codec rest h hover hrest)

/-- a STREAM frame with an offset and a length, and a byte behind it -/
theorem agrees_iff_stream :
    Agrees (Body.stream 4 70000 [1, 2, 3]).triple (Frame.init 0x0e (.stream 4 70000 [1, 2, 3])) [1] ↔
      ¬ (Frame.init 0x0e (.stream 4 70000 [1, 2, 3])).Overflows := by
  have hstored : (Frame.init 0x0e (.stream 4 70000 [1, 2, 3])).WellStored :=
    ⟨by decide, by simp [Frame.init, Body.FieldsFit, varintMax], fun h => absurd h (by decide)⟩
  have hbounded : ¬ (Frame.init 0x0e (.stream 4 70000 [1, 2, 3])).Unbounded := fun h =>
    absurd (show hasLen 0x0e = false from h) (by decide)
  exact agrees_iff [1] hstored fun h => absurd h hbounded

/-- STREAM_DATA_BLOCKED is parsed into an allocation for one integer. -/
theorem not_agrees :
    ¬ ∀ (f : Frame) (rest : List UInt8), f.WellStored → (f.Unbounded → rest = []) →
      Agrees f.body.triple f rest := by
  intro h
  obtain ⟨n, chunks, hs, hf, hb⟩ := h (Frame.init 0x15 (.streamDataBlocked 4 1000)) []
    ⟨by decide, by simp [Frame.init, Body.FieldsFit, varintMax], trivial⟩ False.elim
  have hn : streamDataBlockedSize (Frame.init 0x15 (.streamDataBlocked 4 1000)) = some 4 := by decide
  have hc : streamDataBlockedFormat (Frame.init 0x15 (.streamDataBlocked 4 1000)) =
      some [[0x15], [4], [0x43, 0xe8]] := by decide
  obtain rfl := Option.some.inj (hn.symm.trans hs)
  obtain rfl := Option.some.inj (hc.symm.trans hf)
  obtain ⟨bytes, g, hputs, _, hparse, _⟩ := (hb ⟨[], 4⟩).2 (by decide)
  have hbytes : [0x15, 4, 0x43, 0xe8] = bytes := congrArg (fun x => x.1.written) hputs
  rw [← hbytes] at hparse
  have hfault : streamDataBlockedParse memOk [0x15, 4, 0x43, 0xe8] = .error .fault := rfl
  cases hfault.symm.trans hparse

end OpenQuic
