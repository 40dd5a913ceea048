import OpenQuic.Sorter.Delivery

/-!
# Delivery of a stream in pieces

A stream is cut into pieces once, and each piece is written any number of times, in any order.  Then
no write meets the gap list in the way that spoils it: a piece is missing as a whole or not at all,
so it touches one gap at most.

* `Whole`            the writes so far hold all of a range or nothing of it;
* `PiecesInv`        what is held is exactly what was written;
* `piece_delivers`   **a piece is always taken as it should be**;
* `DeliveryInv.congr`   the stream may change where nothing was written.
-/

namespace OpenQuic
open Word Spans Runs

namespace Delivery

section
variable {S S' : Nat → UInt8} {ops : List SortOp} {d : Delivery} {off len : Nat}

def Whole (ops : List SortOp) (off len : Nat) : Prop :=
  ∀ op ∈ ops, ∀ x y, off ≤ x → x < off + len → off ≤ y → y < off + len → op.Covers x → op.Covers y

structure PiecesInv (S : Nat → UInt8) (ops : List SortOp) (d : Delivery) : Prop
    extends DeliveryInv S ops d where
  exact : ∀ op ∈ ops, ∀ x, op.Covers x → x ∉ cover (spans d.sorter.gaps)

theorem start_pieces : PiecesInv S [] start := ⟨start_delivers, List.forall_mem_nil _⟩

/-- a piece is missing as a whole or not at all -/
theorem PiecesInv.missing_whole (h : PiecesInv S ops d) (hw : Whole ops off len)
    (hend : off + len < Sorter.maxSize) {x y : Nat} (hx1 : off ≤ x) (hx2 : x < off + len)
    (hy1 : off ≤ y) (hy2 : y < off + len) (hx : x ∈ cover (spans d.sorter.gaps)) :
    y ∈ cover (spans d.sorter.gaps) := by
  by_contra hno
  obtain ⟨op, ho, hc⟩ := h.covered y (by omega) hno
  exact h.exact op ho x (hw op ho y x hy1 hy2 hx1 hx2 hc) hx

theorem PiecesInv.clean (h : PiecesInv S ops d) (hw : Whole ops off len)
    (hend : off + len < Sorter.maxSize) :
    Sorter.Clean off (off + len) (Sorter.touched d.sorter.gaps off (off + len)) := by
  obtain ⟨pre, ts, post, hp⟩ := Sorter.parts_exist h.ordered.gaps off (off + len)
  rw [Sorter.touched_parts hp]
  have hsep := h.ordered.gaps.sep
  have hone : (spans ts).length ≤ 1 := by
    rw [hp.eq, spans_append, spans_append] at hsep
    refine hsep.meets_one (List.forall_mem_map.mpr hp.touched) fun x y hx1 hx2 hy1 hy2 hx => ?_
    rw [← spans_append, ← spans_append, ← hp.eq] at hx ⊢
    exact h.missing_whole hw hend hx1 hx2 hy1 hy2 hx
  match ts, hone with
  | [], _ => trivial
  | [_], _ => exact Or.inl rfl

/-- A piece is always taken, and what is held is what was written then. -/
theorem piece_delivers (h : PiecesInv S ops d) (hf : (SortOp.write off len).Fits)
    (hw : Whole ops off len) :
    ∃ d', SortOp.step S d (.write off len) = some d' ∧ PiecesInv S (ops ++ [.write off len]) d' := by
  have hend : off + len < Sorter.maxSize := Sorter.Fragment_end (f := ⟨off, len, fun _ => 0⟩) hf
  have hclean := h.clean hw hend
  obtain ⟨d', hd', hinv, _⟩ := write_delivers h.toDeliveryInv hf hclean.safe
  refine ⟨d', hd', hinv, ?_⟩
  -- the gaps are the old ones less the piece
  have hgaps : cover (spans d'.sorter.gaps) =
      cover (spans d.sorter.gaps) \ Set.Ico off (off + len) := by
    rcases Nat.eq_zero_or_pos len with rfl | hpos
    · rw [SortOp.step, Sorter.write_zero, Option.map_some] at hd'
      cases hd'
      rw [Nat.add_zero, Set.Ico_self, Set.sdiff_empty]
    · obtain ⟨s', start, n, hwr, he, _⟩ :=
        Sorter.write_safe (fun i => S (off + i)) hpos hend h.ordered hclean.safe
      rw [SortOp.step, he, Option.map_some] at hd'
      cases hd'
      rw [hwr.clean hclean, carve_cover]
  intro op ho x hc
  rw [hgaps]
  rcases List.mem_append.mp ho with ho | ho
  · exact fun hx => h.exact op ho x hc hx.1
  · rw [List.mem_singleton.mp ho] at hc
    exact fun hx => hx.2 hc

theorem read_pieces (h : PiecesInv S ops d) (len : Nat) :
    PiecesInv S ops ⟨(d.sorter.read len).1, d.returned ++ (d.sorter.read len).2⟩ := by
  obtain ⟨d', hd', hinv, _⟩ := read_delivers h.toDeliveryInv len
  cases hd'
  refine ⟨⟨hinv.ordered, hinv.readed_le, hinv.held, fun x hx hno => ?_, hinv.returned⟩, h.exact⟩
  exact h.covered x hx hno

/-- Bytes that were not written may be any. -/
theorem DeliveryInv.congr (h : DeliveryInv S ops d)
    (heq : ∀ op ∈ ops, ∀ x, op.Covers x → S x = S' x) : DeliveryInv S' ops d := by
  have hsame : ∀ x < Sorter.maxSize, x ∉ cover (spans d.sorter.gaps) → S x = S' x :=
    fun x hx hno =>
      have ⟨op, ho, hc⟩ := h.covered x hx hno
      heq op ho x hc
  refine ⟨h.ordered, h.readed_le, fun x h1 h2 hno => ?_, h.covered, ?_⟩
  · rw [h.held x h1 h2 hno, hsame x h2 hno]
  · rw [h.returned]
    refine List.map_congr_left fun i hi => ?_
    have hlt := (List.mem_range.mp hi).trans_le h.readed_le
    rw [Nat.zero_add, hsame i (hlt.trans h.avail_lt) (h.present hlt)]

theorem PiecesInv.congr (h : PiecesInv S ops d)
    (heq : ∀ op ∈ ops, ∀ x, op.Covers x → S x = S' x) : PiecesInv S' ops d :=
  ⟨h.toDeliveryInv.congr heq, h.exact⟩

end

end Delivery

end OpenQuic
