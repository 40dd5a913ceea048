import OpenQuic.Modules.Stream

/-!
# The size of a STREAM frame

`quic_send_stream_generate` is given a capacity and chooses the data of a frame by an estimate of its
header.  The sizer of the frame computes the header on its own.

* `streamFrameLen`     the size of a STREAM frame, with and without the length field;
* `payloadSize_fits_iff`   when a frame with data fits;
* `Roomy`              what a stream and a capacity must be like;
* `generate_fits_iff`   **a call makes no frame above its capacity if and only if they are.**
-/

namespace OpenQuic

/-! ## the size of a frame -/

/-- what is in front of the length and the data -/
def streamHeaderLen (sid off : Nat) : Nat :=
  1 + varintFormatLen sid + (if off ≠ 0 then varintFormatLen off else 0)

/-- the size of a STREAM frame with `n` bytes of data; with `fill` it has no length -/
def streamFrameLen (sid off : Nat) (fill : Bool) (n : Nat) : Nat :=
  streamHeaderLen sid off + (if fill then 0 else varintFormatLen n) + n

theorem hasLen_streamFirstByte (off : Nat) (fill fin : Bool) :
    hasLen (streamFirstByte off fill fin) = !fill := by
  unfold streamFirstByte
  by_cases h : off ≠ 0
  · rw [if_pos h]
    cases fill <;> cases fin <;> decide
  · rw [if_neg h]
    cases fill <;> cases fin <;> decide

theorem sizer_streamFirstByte (off : Nat) (fill fin : Bool) :
    sizer (streamFirstByte off fill fin).toNat = some streamSize := by
  unfold streamFirstByte
  by_cases h : off ≠ 0
  · rw [if_pos h]
    cases fill <;> cases fin <;> rfl
  · rw [if_neg h]
    cases fill <;> cases fin <;> rfl

theorem streamFrame_size (sid off : Nat) (fill fin : Bool) (onAcked : Option Nat) (onLost : Bool)
    (data : List UInt8) :
    frameSize ⟨streamFirstByte off fill fin, onAcked, onLost, .stream sid off data⟩ =
      streamFrameLen sid off fill data.length := by
  unfold frameSize frameSizeOf
  simp only [sizer_streamFirstByte, streamSize, hasLen_streamFirstByte, hasOff_streamFirstByte,
    Option.getD_some, decide_eq_true_eq]
  cases fill <;> rfl

section
variable {mem : StreamAlloc} {str : Stream} {sid bytes : Nat} {fill : Bool}

/-- a frame that a stream makes has the size of its data behind the header -/
theorem generate_size {f : Frame} (h : (str.generate mem sid bytes fill).frame = some f)
    (onLost : Bool) : frameSize { f with onLost := onLost } =
      streamFrameLen sid str.send.off fill (str.payloadSize sid bytes fill) := by
  have hlen : (str.send.readerBuf.take (str.payloadSize sid bytes fill)).length =
      str.payloadSize sid bytes fill := by
    rw [List.length_take]
    exact Nat.min_eq_left (str.payloadSize_le sid bytes fill)
  unfold Stream.generate at h
  dsimp only at h
  split at h
  · cases h
  · split at h
    · cases h
    · rw [← Option.some.inj h]
      dsimp only
      rw [streamFrame_size, hlen]

/-- when a stream makes a frame -/
theorem generate_isSome : (str.generate mem sid bytes fill).frame.isSome = true ↔
    mem.frame = true ∧ (str.payloadSize sid bytes fill = 0 → str.send.closed = true) := by
  unfold Stream.generate
  dsimp only
  split
  · rename_i hno
    obtain ⟨hzero, hopen⟩ := hno
    rw [Bool.not_eq_true'] at hopen
    refine iff_of_false Bool.false_ne_true fun hyes => ?_
    rw [hyes.2 hzero] at hopen
    cases hopen
  · rename_i hyes
    split
    · rename_i hmem
      rw [Bool.not_eq_true'] at hmem
      refine iff_of_false Bool.false_ne_true fun hyes => ?_
      rw [hyes.1] at hmem
      cases hmem
    · rename_i hmem
      rw [Bool.not_eq_true', Bool.not_eq_false] at hmem
      refine iff_of_true rfl ⟨hmem, fun hzero => ?_⟩
      by_contra hopen
      exact hyes ⟨hzero, by rw [Bool.eq_false_of_not_eq_true hopen]; rfl⟩

/-! ## the data of a frame -/

/-- the data that a frame could carry if its capacity were no matter -/
def Stream.pending (str : Stream) : Nat := min str.flowctrl.getSwnd str.send.readerLen

/-- the header that the estimate keeps free -/
theorem payloadSize_eq : str.payloadSize sid bytes fill =
    min str.pending (bytes - (streamHeaderLen sid str.send.off +
      if fill then 0 else varintFormatLen str.pending)) := by
  have hcapa : streamFrameCapacity bytes sid str.send.off fill str.pending =
      bytes - (streamHeaderLen sid str.send.off +
        if fill then 0 else varintFormatLen str.pending) := by
    unfold streamFrameCapacity streamHeaderLen
    dsimp only
    generalize 1 + varintFormatLen sid + _ + _ = header
    split
    · rename_i hle
      exact (Nat.sub_eq_zero_of_le hle).symm
    · rfl
  rw [← hcapa]
  rfl

theorem varintFormatLen_wide {v : Nat} (h : varintMax < v) : varintFormatLen v = 0 := by
  unfold varintMax at h
  unfold varintFormatLen
  split_ifs <;> omega

/-- a frame without data: nothing is pending, or there is no room behind the header -/
theorem payloadSize_eq_zero_iff : str.payloadSize sid bytes fill = 0 ↔
    str.pending = 0 ∨ bytes ≤ streamHeaderLen sid str.send.off +
      if fill then 0 else varintFormatLen str.pending := by
  rw [payloadSize_eq]
  omega

/-- a frame without data has no use for the length of what is pending -/
theorem pending_of_no_data (h : str.payloadSize sid bytes fill = 0) :
    fill = true ∨ str.pending ≤ varintMax ∨ bytes ≤ streamHeaderLen sid str.send.off := by
  by_contra hall
  simp only [not_or] at hall
  obtain ⟨hfill, hwide, hhead⟩ := hall
  have hzero := payloadSize_eq_zero_iff.mp h
  rw [if_neg hfill, varintFormatLen_wide (by omega)] at hzero
  omega

/-- The data are chosen so that the frame fits, unless more is pending than a varint can tell: then
no room is kept for the length. -/
theorem payloadSize_fits_iff (hn : str.payloadSize sid bytes fill ≠ 0) :
    streamFrameLen sid str.send.off fill (str.payloadSize sid bytes fill) ≤ bytes ↔
      fill = true ∨ str.pending ≤ varintMax ∨ streamHeaderLen sid str.send.off + varintMax < bytes := by
  rw [payloadSize_eq] at hn ⊢
  unfold streamFrameLen
  generalize streamHeaderLen sid str.send.off = header at hn ⊢
  generalize str.pending = pending at hn ⊢
  cases fill with
  | true =>
    rw [if_pos rfl] at hn ⊢
    rw [if_pos rfl]
    exact iff_of_true (by omega) (Or.inl rfl)
  | false =>
    rw [if_neg Bool.false_ne_true] at hn ⊢
    rw [if_neg Bool.false_ne_true]
    rcases Nat.lt_or_ge varintMax pending with hwide | hmax
    · rw [varintFormatLen_wide hwide, Nat.add_zero] at hn ⊢
      by_cases hroom : header + varintMax < bytes
      · -- the data are more than a varint can tell, too
        rw [varintFormatLen_wide (v := min pending (bytes - header)) (by omega)]
        exact iff_of_true (by omega) (Or.inr (Or.inr hroom))
      · have hpos := varintFormatLen_pos (v := min pending (bytes - header)) (by omega)
        refine iff_of_false (by omega) ?_
        rintro (h | h | h)
        · cases h
        · omega
        · exact hroom h
    · have hmono := varintFormatLen_mono
        (Nat.min_le_left pending (bytes - (header + varintFormatLen pending))) hmax
      exact iff_of_true (by omega) (Or.inr (Or.inl hmax))

end

/-! ## a call -/

/-- A closed stream needs room for a frame without data, since it makes one whatever the capacity is.
What is pending needs a length that a varint can tell, where the frame has one and data. -/
structure Roomy (str : Stream) (sid bytes : Nat) (fill : Bool) : Prop where
  closed : str.send.closed = true →
    streamHeaderLen sid str.send.off + (if fill then 0 else 1) ≤ bytes
  pending : fill = true ∨ str.pending ≤ varintMax ∨ bytes ≤ streamHeaderLen sid str.send.off ∨
    streamHeaderLen sid str.send.off + varintMax < bytes

/-- **The capacity.**  A call of `quic_send_stream_generate` that has memory for a frame makes none
above its capacity if and only if the stream and the capacity are `Roomy`. -/
theorem generate_fits_iff (mem : StreamAlloc) (str : Stream) (sid bytes : Nat) (fill : Bool) :
    (∀ f, (str.generate mem sid bytes fill).frame = some f → frameSize f ≤ bytes) ↔
      (mem.frame = true → Roomy str sid bytes fill) := by
  have hlater : ∀ {a b c d : Prop}, a ∨ b ∨ c → a ∨ b ∨ c ∨ d :=
    Or.imp_right (Or.imp_right Or.inl)
  have hsome : (str.generate mem sid bytes fill).frame.isSome = true ↔ _ := generate_isSome
  cases hg : (str.generate mem sid bytes fill).frame with
  | none =>
    rw [hg] at hsome
    refine iff_of_true (fun f hf => by cases hf) fun hmem => ?_
    have hno : ¬ (str.payloadSize sid bytes fill = 0 → str.send.closed = true) :=
      fun hyes => Bool.false_ne_true (hsome.mpr ⟨hmem, hyes⟩)
    rw [Classical.not_imp] at hno
    exact ⟨fun hc => absurd hc hno.2, hlater (pending_of_no_data hno.1)⟩
  | some f =>
    have hsize : frameSize f = _ := generate_size hg f.onLost
    rw [hg] at hsome
    obtain ⟨hmem, hclosed⟩ := hsome.mp rfl
    have hfits : (∀ f', some f = some f' → frameSize f' ≤ bytes) ↔
        streamFrameLen sid str.send.off fill (str.payloadSize sid bytes fill) ≤ bytes := by
      rw [← hsize]
      exact ⟨fun h => h f rfl, fun h f' hf' => Option.some.inj hf' ▸ h⟩
    rw [hfits]
    by_cases hn : str.payloadSize sid bytes fill = 0
    · rw [hn]
      exact ⟨fun hle _ => ⟨fun _ => hle, hlater (pending_of_no_data hn)⟩,
        fun h => (h hmem).closed (hclosed hn)⟩
    · rw [payloadSize_fits_iff hn]
      have hroom : streamHeaderLen sid str.send.off + (if fill then 0 else 1) ≤ bytes ∧
          ¬ bytes ≤ streamHeaderLen sid str.send.off := by
        rw [payloadSize_eq_zero_iff] at hn
        cases fill with
        | true =>
          rw [if_pos rfl] at hn ⊢
          omega
        | false =>
          rw [if_neg Bool.false_ne_true] at hn ⊢
          omega
      constructor
      · rintro h _
        refine ⟨fun _ => hroom.1, ?_⟩
        rcases h with h | h | h
        · exact Or.inl h
        · exact Or.inr (Or.inl h)
        · exact Or.inr (Or.inr (Or.inr h))
      · intro h
        rcases (h hmem).pending with h | h | h | h
        · exact Or.inl h
        · exact Or.inr (Or.inl h)
        · exact absurd h hroom.2
        · exact Or.inr (Or.inr h)

/-- a closed stream without data, and no capacity at all -/
theorem not_generate_fits : ¬ ∀ (mem : StreamAlloc) (str : Stream) (sid bytes : Nat) (fill : Bool)
    (f : Frame), (str.generate mem sid bytes fill).frame = some f → frameSize f ≤ bytes := by
  intro h
  let str : Stream := Stream.create serverCfg
  let closed : Stream := { str with send := { str.send with closed := true } }
  have hmade : (closed.generate .ok 4 0 false).frame.isSome = true :=
    generate_isSome.mpr ⟨rfl, fun _ => rfl⟩
  obtain ⟨f, hf⟩ := Option.isSome_iff_exists.mp hmade
  have hle := h .ok closed 4 0 false f hf
  have hsize : frameSize f = _ := generate_size hf f.onLost
  unfold streamFrameLen streamHeaderLen at hsize
  omega

end OpenQuic
