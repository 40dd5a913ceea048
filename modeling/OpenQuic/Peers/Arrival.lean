import OpenQuic.Modules.CryptoOut
import OpenQuic.Modules.StreamSegments
import OpenQuic.Sorter.Covered
import OpenQuic.Sorter.Pieces

/-!
# The arrival of a piece

A frame with a piece of a stream reaches the sorter of the peer.

* `overWire`             a frame is formatted by one peer and parsed by the other;
* `Sorter.write_congr`   a write reads the bytes that it is given only;
* `Drawn`                the writes of the sorter are segments of one row;
* `piece_arrives`        a piece of the stream is taken, whatever arrived before it;
* `PiecesInv.complete`   once every byte has arrived, a read returns all that is left.
-/

namespace OpenQuic
open Word Spans

/-- the frame that the peer makes of the bytes of `f` in front of `rest` -/
def overWire (f : Frame) (rest : List UInt8) : Option Frame :=
  match frameParse memOk (frameBytes f ++ rest) with
  | .ok (g, _) => some g
  | .error _ => none

namespace Sorter

/-- the walk over the touched gaps ends at a gap that reaches at least as far as the first -/
theorem scan_reach {s : Sorter} (hs : GapsOk s.gaps) {off fin : Nat} {g : Gap} {e : Option Gap}
    {pre post post' : List Gap} (hstart : scanStart off fin [] s.gaps = .found pre g post)
    (hend : scanEnd fin g none post = some (e, post')) (hfin : off ≤ fin) :
    max off (gapStart g) ≤ min fin (gapEnd (e.getD g)) := by
  obtain ⟨_, _, _, hfit, hlast⟩ := scan_gaps hs hstart hend
  have hreach := scanStart_reaches hstart
  have hbefore := (scanStart_split hstart).2
  have hown : gapStart g ≤ gapEnd g := by
    have hpos := hfit.1
    rw [gapEnd_fits hfit, gapStart]
    omega
  have hfar : gapEnd g ≤ gapEnd (e.getD g) := by
    cases e with
    | none => exact le_refl _
    | some l => exact (hlast l rfl).2.le
  omega

/-- A write reads the bytes that it is given only. -/
theorem write_congr {s : Sorter} (hs : GapsOk s.gaps) (mem : Alloc) {off len : Nat}
    (hend : off + len < maxSize) {data data' : Nat → UInt8} (h : ∀ i < len, data i = data' i) :
    write mem s off len data = write mem s off len data' := by
  have hmax := maxSize_lt
  rw [write_eq_writeAt, write_eq_writeAt]
  by_cases hlen : len = 0
  · rw [if_pos hlen, if_pos hlen]
  rw [if_neg hlen, if_neg hlen, sub64_add64_one hlen (by omega)]
  cases hsc : scanStart off (off + len - 1) [] s.gaps with
  | covered => rfl
  | head => rfl
  | found pre g post =>
    unfold writeAt
    dsimp only
    cases hsp : scanEnd (off + len - 1) g none post with
    | none => rfl
    | some x =>
      obtain ⟨e, post'⟩ := x
      have hle := scan_reach hs hsc hsp (by omega)
      dsimp only
      generalize hstart : max off (gapStart g) = start at hle ⊢
      generalize hlast : min (off + len - 1) (gapEnd (e.getD g)) = last at hle ⊢
      have hn : add64 (sub64 last start) 1 = last - start + 1 := by
        rw [sub64_of_le hle (by omega), add64_of_lt (by omega)]
      rw [hn, CryptoOut.writeCluster_congr mem _ s.clusters start (last - start + 1)
        fun i hi => h (i + (start - off)) (by omega)]

end Sorter

namespace Delivery

/-! ## segments -/

/-- The writes of a sorter are segments of a row, and those with data of every one that has arrived
are among them. -/
structure Drawn (xs : List (Nat × List UInt8)) (arrived : List Nat) (ops : List SortOp) : Prop where
  drawn : ∀ op ∈ ops, ∃ x ∈ xs, op = .write x.1 x.2.length
  every : ∀ i ∈ arrived, ∃ x, xs[i]? = some x ∧ (x.2 ≠ [] → SortOp.write x.1 x.2.length ∈ ops)

section
variable {xs ys : List (Nat × List UInt8)} {arrived : List Nat} {ops : List SortOp} {fin : Nat}

theorem drawn_nil (xs : List (Nat × List UInt8)) : Drawn xs [] [] :=
  ⟨List.forall_mem_nil _, List.forall_mem_nil _⟩

theorem Drawn.whole (h : Drawn xs arrived ops) (hcons : StreamSend.Consecutive 0 xs fin)
    {x : Nat × List UInt8} (hx : x ∈ xs) : Whole ops x.1 x.2.length := by
  intro op ho i j hi1 hi2 hj1 hj2 hc
  obtain ⟨y, hy, rfl⟩ := h.drawn op ho
  have heq := hcons.same hx hy ⟨hi1, hi2⟩ hc
  exact heq ▸ ⟨hj1, hj2⟩

theorem Drawn.grow (h : Drawn xs arrived ops) : Drawn (xs ++ ys) arrived ops := by
  refine ⟨fun op ho => ?_, fun i hi => ?_⟩
  · obtain ⟨x, hx, heq⟩ := h.drawn op ho
    exact ⟨x, List.mem_append_left _ hx, heq⟩
  · obtain ⟨x, hx, hmem⟩ := h.every i hi
    refine ⟨x, ?_, hmem⟩
    rw [List.getElem?_append_left (List.getElem?_eq_some_iff.mp hx).1]
    exact hx

theorem Drawn.below (h : Drawn xs arrived ops) (hcons : StreamSend.Consecutive 0 xs fin) :
    ∀ op ∈ ops, ∀ i, op.Covers i → i < fin := by
  intro op ho i hc
  obtain ⟨x, hx, rfl⟩ := h.drawn op ho
  exact hc.2.trans_le (hcons.inside hx).2

/-- an empty segment writes nothing -/
theorem Drawn.idle (h : Drawn xs arrived ops) {i : Nat} {x : Nat × List UInt8}
    (hx : xs[i]? = some x) (hne : x.2 = []) : Drawn xs (arrived ++ [i]) ops := by
  refine ⟨h.drawn, fun j hj => ?_⟩
  rcases List.mem_append.mp hj with hj | hj
  · exact h.every j hj
  · rw [List.mem_singleton.mp hj]
    exact ⟨x, hx, fun h => absurd hne h⟩

/-- a segment arrives -/
theorem Drawn.arrive (h : Drawn xs arrived ops) {i : Nat} {x : Nat × List UInt8}
    (hx : xs[i]? = some x) : Drawn xs (arrived ++ [i]) (ops ++ [.write x.1 x.2.length]) := by
  refine ⟨fun op hop => ?_, fun j hj => ?_⟩
  · rcases List.mem_append.mp hop with hop | hop
    · exact h.drawn op hop
    · exact ⟨x, List.mem_of_getElem? hx, List.mem_singleton.mp hop⟩
  · rcases List.mem_append.mp hj with hj | hj
    · obtain ⟨y, hy, hmem⟩ := h.every j hj
      exact ⟨y, hy, fun hne => List.mem_append_left _ (hmem hne)⟩
    · rw [List.mem_singleton.mp hj]
      exact ⟨x, hx, fun _ => List.mem_append_right _ (List.mem_singleton_self _)⟩

/-- once every segment has arrived, every offset is covered -/
theorem Drawn.all_covered (h : Drawn xs arrived ops) (hcons : StreamSend.Consecutive 0 xs fin)
    (hall : ∀ i < xs.length, i ∈ arrived) : ∀ x < fin, ∃ op ∈ ops, op.Covers x := by
  intro x hx
  obtain ⟨y, hy, h1, h2⟩ := hcons.covers (Nat.zero_le x) hx
  obtain ⟨i, hlt, hi⟩ := List.mem_iff_getElem.mp hy
  obtain ⟨z, hz, hops⟩ := h.every i (hall i hlt)
  rw [List.getElem?_eq_getElem hlt, hi, Option.some_inj] at hz
  subst hz
  refine ⟨_, hops fun hnil => ?_, h1, h2⟩
  rw [hnil, List.length_nil] at h2
  omega

end

/-! ## pieces -/

section
variable {S : Nat → UInt8} {ops : List SortOp} {s : Sorter} {got : List (Option UInt8)}

/-- A piece of the stream is taken. -/
theorem piece_arrives (h : PiecesInv S ops ⟨s, got⟩) {off : Nat} {data : List UInt8}
    (hf : (SortOp.write off data.length).Fits) (hw : Whole ops off data.length)
    (hdata : ∀ i < data.length, data.getD i 0 = S (off + i)) :
    ∃ x, s.write .ok off data.length (fun i => data.getD i 0) = some x ∧
      PiecesInv S (ops ++ [.write off data.length]) ⟨x.1, got⟩ := by
  have hend : off + data.length < Sorter.maxSize :=
    Sorter.Fragment_end (f := ⟨off, data.length, fun _ => 0⟩) hf
  obtain ⟨d', hd', hinv⟩ := piece_delivers h hf hw
  obtain ⟨x, hx, hxd⟩ := Option.map_eq_some_iff.mp hd'
  refine ⟨x, ?_, ?_⟩
  · rw [Sorter.write_congr h.ordered.gaps .ok hend hdata]
    exact hx
  · rw [← hxd] at hinv
    exact hinv

/-- what was returned is what the stream begins with -/
theorem PiecesInv.returned_eq {out : List UInt8} (h : PiecesInv (CryptoOut.streamOf out) ops ⟨s, got⟩)
    (hle : s.readedSize ≤ out.length) : got = (out.take s.readedSize).map some := by
  rw [show got = bytesOf (CryptoOut.streamOf out) 0 s.readedSize from h.returned]
  have hrange : (List.range s.readedSize).map (fun i => CryptoOut.streamOf out (0 + i)) =
      (out.drop 0).take s.readedSize := CryptoOut.streamOf_range (by omega)
  rw [List.drop_zero] at hrange
  rw [← hrange, List.map_map]
  rfl

/-- nothing beyond what was written has arrived -/
theorem PiecesInv.avail_le {n : Nat} (h : PiecesInv S ops ⟨s, got⟩)
    (hops : ∀ op ∈ ops, ∀ x, op.Covers x → x < n) : s.availSize ≤ n := by
  by_contra hlt
  have hlt : n < s.availSize := Nat.lt_of_not_le hlt
  obtain ⟨op, ho, hc⟩ := h.covered n (hlt.trans h.avail_lt) (h.present hlt)
  exact Nat.lt_irrefl n (hops op ho n hc)

/-- Once every byte has arrived, the reader can have all of them. -/
theorem PiecesInv.complete {out : List UInt8} (h : PiecesInv (CryptoOut.streamOf out) ops ⟨s, got⟩)
    (hops : ∀ op ∈ ops, ∀ x, op.Covers x → x < out.length)
    (hall : ∀ x < out.length, ∃ op ∈ ops, op.Covers x) {len : Nat}
    (hlen : out.length - s.readedSize ≤ len) :
    s.availSize = out.length ∧ got ++ (s.read len).2 = out.map some := by
  have hle := h.avail_le hops
  have heq : s.availSize = out.length := by
    refine Nat.le_antisymm hle (Nat.le_of_not_lt fun hlt => ?_)
    obtain ⟨op, ho, hc⟩ := hall _ hlt
    exact h.exact op ho _ hc h.ordered.least.1
  have hread : s.readedSize ≤ s.availSize := h.readed_le
  have hbytes : (s.read len).2 =
      bytesOf (CryptoOut.streamOf out) s.readedSize (min len (s.availSize - s.readedSize)) :=
    h.read_eq len
  rw [Nat.min_eq_right (by omega)] at hbytes
  refine ⟨heq, ?_⟩
  rw [hbytes, show got = bytesOf (CryptoOut.streamOf out) 0 s.readedSize from h.returned,
    bytesOf_append, Nat.add_sub_cancel' hread, heq]
  have hrange : (List.range out.length).map (fun i => CryptoOut.streamOf out (0 + i)) =
      (out.drop 0).take out.length := CryptoOut.streamOf_range (by omega)
  rw [List.drop_zero, List.take_length] at hrange
  conv_rhs => rw [← hrange, List.map_map]
  rfl

end

end Delivery

end OpenQuic
