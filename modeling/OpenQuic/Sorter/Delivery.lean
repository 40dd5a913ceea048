import OpenQuic.Sorter.Coverage

/-!
# Delivery of a byte stream through the sorter

Writes, reads and peeks in any order on one sorter, where every write carries bytes of one stream
`S` at their offsets.  `Delivered` says what the reader may rely on.

* `writeCluster_spec`, `readCluster_spec`   the cluster map is a byte memory;
* `DeliveryInv`       the gap list, the clusters and the two counters in step: every byte that is
                      not missing and not read yet is held;
* `step_delivers`     one operation keeps the invariant, and does not move `availSize` back;
* `run_delivers`      **every run whose writes are safe delivers the stream.**
-/

namespace OpenQuic
open Word Spans Runs

namespace Sorter

/-! ## the clusters as a memory -/

/-- the byte at an offset of the stream -/
def byteAt (cs : Rbt Cluster) (x : Nat) : Option UInt8 :=
  (cs.find (x / clusterSize)).bind fun c => c (x % clusterSize)

theorem byteAt_copyIn (cs : Rbt Cluster) (off n : Nat) (data : Nat → UInt8)
    (hn : n ≤ clusterSize - off % clusterSize) {c : Cluster}
    (hc : cs.find (off / clusterSize) = some c ∨
      (cs.find (off / clusterSize) = none ∧ c = fun _ => none)) (x : Nat) :
    byteAt (cs.insert (off / clusterSize) (copyIn c (off % clusterSize) n data)) x =
      if off ≤ x ∧ x < off + n then some (data (x - off)) else byteAt cs x := by
  unfold byteAt
  unfold clusterSize at *
  by_cases hx : x / 4096 = off / 4096
  · rw [hx, OrdMap.find_insert_self, Option.bind_some]
    have hc' : (cs.find (off / 4096)).bind (fun c => c (x % 4096)) = c (x % 4096) := by
      rcases hc with hc | ⟨hc, rfl⟩ <;> rw [hc] <;> rfl
    rw [hc', copyIn]
    by_cases hin : off ≤ x ∧ x < off + n
    · rw [if_pos (by omega), if_pos hin, show x % 4096 - off % 4096 = x - off by omega]
    · rw [if_neg (by omega), if_neg hin]
  · rw [OrdMap.find_insert_of_ne _ _ hx, if_neg (by omega)]

theorem writeCluster_spec (fuel : Nat) (cs : Rbt Cluster) (off len : Nat) (data : Nat → UInt8)
    (hfuel : len ≤ fuel) (hend : off + len < 2 ^ 64) :
    (writeCluster Alloc.ok fuel cs off len data).2 = .success ∧
      ∀ x, byteAt (writeCluster Alloc.ok fuel cs off len data).1 x =
        if off ≤ x ∧ x < off + len then some (data (x - off)) else byteAt cs x := by
  induction fuel generalizing cs off len data with
  | zero =>
    refine ⟨rfl, fun x => ?_⟩
    rw [if_neg (by omega)]
    rfl
  | succ fuel ih =>
    rw [writeCluster]
    by_cases h0 : len = 0
    · rw [if_pos h0]
      refine ⟨rfl, fun x => ?_⟩
      rw [if_neg (by omega)]
    · rw [if_neg h0]
      have hpos : off % clusterSize < clusterSize := Nat.mod_lt _ (by decide)
      dsimp only
      generalize hn : min len (clusterSize - off % clusterSize) = n
      rw [add64_of_lt (show off + n < 2 ^ 64 by omega)]
      -- the clusters after the first copy, whichever cluster it went to
      have hnext : ∀ c, (cs.find (off / clusterSize) = some c ∨
            (cs.find (off / clusterSize) = none ∧ c = fun _ => none)) →
          (writeCluster Alloc.ok fuel
            (cs.insert (off / clusterSize) (copyIn c (off % clusterSize) n data))
            (off + n) (len - n) fun i => data (i + n)).2 = .success ∧
          ∀ x, byteAt (writeCluster Alloc.ok fuel
            (cs.insert (off / clusterSize) (copyIn c (off % clusterSize) n data))
            (off + n) (len - n) fun i => data (i + n)).1 x =
            if off ≤ x ∧ x < off + len then some (data (x - off)) else byteAt cs x := by
        intro c hc
        obtain ⟨h1, h2⟩ := ih
          (cs.insert (off / clusterSize) (copyIn c (off % clusterSize) n data))
          (off + n) (len - n) (fun i => data (i + n)) (by omega) (by omega)
        refine ⟨h1, fun x => ?_⟩
        rw [h2 x, byteAt_copyIn cs off n data (by omega) hc]
        by_cases hx : off + n ≤ x ∧ x < off + n + (len - n)
        · rw [if_pos hx, if_pos (by omega), show x - (off + n) + n = x - off by omega]
        · rw [if_neg hx]
          by_cases hx' : off ≤ x ∧ x < off + n
          · rw [if_pos hx', if_pos (by omega)]
          · rw [if_neg hx', if_neg (by omega)]
      cases hfind : cs.find (off / clusterSize) with
      | some c => exact hnext c (Or.inl hfind)
      | none => exact hnext (fun _ => none) (Or.inr ⟨hfind, rfl⟩)

theorem byteAt_erase (cs : Rbt Cluster) {k x : Nat} (h : k < x / clusterSize) :
    byteAt (cs.erase k) x = byteAt cs x := by
  unfold byteAt
  rw [OrdMap.find_erase_of_ne _ h.ne']

theorem readCluster_spec (consume : Bool) (S : Nat → UInt8) (fuel : Nat) (cs : Rbt Cluster)
    (off len : Nat) (hfuel : len ≤ fuel) (hend : off + len < 2 ^ 64)
    (h : ∀ x, off ≤ x → x < off + len → byteAt cs x = some (S x)) :
    (readCluster consume fuel cs off len).2 = (List.range len).map (fun i => some (S (off + i))) ∧
      (∀ x, off + len ≤ x → byteAt (readCluster consume fuel cs off len).1 x = byteAt cs x) ∧
      (consume = false → (readCluster consume fuel cs off len).1 = cs) := by
  induction fuel generalizing cs off len with
  | zero =>
    obtain rfl : len = 0 := by omega
    exact ⟨rfl, fun _ _ => rfl, fun _ => rfl⟩
  | succ fuel ih =>
    rw [readCluster]
    by_cases h0 : len = 0
    · subst h0
      rw [if_pos rfl]
      exact ⟨rfl, fun _ _ => rfl, fun _ => rfl⟩
    · rw [if_neg h0]
      have hpos : off % clusterSize < clusterSize := Nat.mod_lt _ (by decide)
      dsimp only
      generalize hn : min len (clusterSize - off % clusterSize) = n
      rw [add64_of_lt (show off + n < 2 ^ 64 by omega)]
      have hoff := h off (le_refl _) (by omega)
      unfold byteAt at hoff
      cases hfind : cs.find (off / clusterSize) with
      | none => simp [hfind] at hoff
      | some c =>
        dsimp only
        generalize hcs : (if consume = true ∧ off / clusterSize ≠ (off + n) / clusterSize
          then cs.erase (off / clusterSize) else cs) = cs'
        -- an erased cluster ends where the read has got to
        have hkeep : ∀ x, off + n ≤ x → byteAt cs' x = byteAt cs x := by
          intro x hx
          rw [← hcs]
          split
          · rename_i hc
            have hlt : off / clusterSize < x / clusterSize := by
              have := hc.2
              unfold clusterSize at *
              omega
            exact byteAt_erase cs hlt
          · rfl
        obtain ⟨h1, h2, h3⟩ := ih cs' (off + n) (len - n) (by omega) (by omega)
          fun x hx1 hx2 => by rw [hkeep x hx1, h x (by omega) (by omega)]
        have hfirst : (List.range n).map (fun i => c (off % clusterSize + i)) =
            (List.range n).map fun i => some (S (off + i)) := by
          refine List.map_congr_left fun i hi => ?_
          have hi := List.mem_range.mp hi
          have hb := h (off + i) (by omega) (by omega)
          unfold byteAt at hb
          unfold clusterSize at *
          rw [show (off + i) / 4096 = off / 4096 by omega, hfind, Option.bind_some,
            show (off + i) % 4096 = off % 4096 + i by omega] at hb
          exact hb
        refine ⟨?_, fun x hx => ?_, fun hc => ?_⟩
        · rw [h1, hfirst, show len = n + (len - n) by omega, List.range_add, List.map_append,
            List.map_map, Nat.add_sub_cancel_left]
          refine congrArg _ (List.map_congr_left fun i _ => ?_)
          simp only [Function.comp_apply, Nat.add_assoc]
        · rw [h2 x (by omega), hkeep x (by omega)]
        · rw [h3 hc, ← hcs, if_neg (by simp [hc])]

end Sorter

/-! ## operations on one stream -/

/-- an operation of the owner of a sorter; a write carries the bytes of the stream -/
inductive SortOp where
  | write (off len : Nat)
  | read (len : Nat)
  | peek (len : Nat)

/-- a sorter, and what the reads have returned so far -/
structure Delivery where
  sorter : Sorter
  returned : List (Option UInt8)

namespace SortOp

def Covers : SortOp → Nat → Prop
  | write off len, x => off ≤ x ∧ x < off + len
  | _, _ => False

def Fits : SortOp → Prop
  | write off len => off ≤ 2 ^ 62 - 1 ∧ len ≤ 2 ^ 62 - 1
  | _ => True

def step (S : Nat → UInt8) (d : Delivery) : SortOp → Option Delivery
  | write off len =>
    (d.sorter.write Sorter.Alloc.ok off len fun i => S (off + i)).map fun r => { d with sorter := r.1 }
  | read len =>
    let (s, bytes) := d.sorter.read len
    some ⟨s, d.returned ++ bytes⟩
  | peek len => some { d with sorter := (d.sorter.peek len).1 }

/-- a write that does not start inside the first of several touched gaps and end inside the last -/
def SafeIn (d : Delivery) : SortOp → Prop
  | write off len => Sorter.Safe off (off + len) (Sorter.touched d.sorter.gaps off (off + len))
  | _ => True

instance : (op : SortOp) → Decidable op.Fits
  | write _ _ => inferInstanceAs (Decidable (_ ∧ _))
  | read _ => isTrue trivial
  | peek _ => isTrue trivial

instance (d : Delivery) : (op : SortOp) → Decidable (op.SafeIn d)
  | write _ _ => inferInstanceAs (Decidable (Sorter.Safe _ _ _))
  | read _ => isTrue trivial
  | peek _ => isTrue trivial

end SortOp

namespace Delivery

def start : Delivery := ⟨Sorter.init, []⟩

/-- the next `n` bytes of the stream at an offset -/
def bytesOf (S : Nat → UInt8) (off n : Nat) : List (Option UInt8) :=
  (List.range n).map fun i => some (S (off + i))

theorem bytesOf_append (S : Nat → UInt8) (a n : Nat) :
    bytesOf S 0 a ++ bytesOf S a n = bytesOf S 0 (a + n) := by
  unfold bytesOf
  rw [List.range_add, List.map_append, List.map_map]
  refine congrArg _ (List.map_congr_left fun i _ => ?_)
  simp only [Function.comp_apply, Nat.zero_add]

/-- what the reader of the stream may rely on -/
structure Delivered (S : Nat → UInt8) (ops : List SortOp) (d : Delivery) : Prop where
  readed_le : d.sorter.readedSize ≤ d.sorter.availSize
  written : ∀ x < d.sorter.availSize, ∃ op ∈ ops, op.Covers x
  returned : d.returned = bytesOf S 0 d.sorter.readedSize
  next_read : ∀ len, (d.sorter.read len).2 =
    bytesOf S d.sorter.readedSize (min len (d.sorter.availSize - d.sorter.readedSize))
  next_peek : ∀ len, d.sorter.peek len = (d.sorter,
    bytesOf S d.sorter.readedSize (min len (d.sorter.availSize - d.sorter.readedSize)))

/-- the gap list, the clusters and the counters in step -/
structure DeliveryInv (S : Nat → UInt8) (ops : List SortOp) (d : Delivery) : Prop where
  ordered : d.sorter.Ordered
  readed_le : d.sorter.readedSize ≤ d.sorter.availSize
  held : ∀ x, d.sorter.readedSize ≤ x → x < Sorter.maxSize → x ∉ cover (spans d.sorter.gaps) →
    Sorter.byteAt d.sorter.clusters x = some (S x)
  covered : ∀ x < Sorter.maxSize, x ∉ cover (spans d.sorter.gaps) → ∃ op ∈ ops, op.Covers x
  returned : d.returned = bytesOf S 0 d.sorter.readedSize

section
variable {S : Nat → UInt8} {ops : List SortOp} {d : Delivery}

theorem DeliveryInv.avail_lt (h : DeliveryInv S ops d) : d.sorter.availSize < Sorter.maxSize :=
  h.ordered.avail_lt

theorem DeliveryInv.present (h : DeliveryInv S ops d) {x : Nat} (hx : x < d.sorter.availSize) :
    x ∉ cover (spans d.sorter.gaps) := fun hm =>
  absurd (h.ordered.least.2 hm) (not_le.mpr hx)

theorem DeliveryInv.readable_eq (h : DeliveryInv S ops d) :
    d.sorter.readable = d.sorter.availSize - d.sorter.readedSize := by
  have h1 := h.avail_lt
  have h2 := Sorter.maxSize_lt
  rw [Sorter.readable, sub64_of_le h.readed_le (by omega)]

/-- the bytes up to `availSize` are held, so a read or a peek returns them -/
theorem DeliveryInv.readCluster (h : DeliveryInv S ops d) (consume : Bool) (len : Nat) :
    (Sorter.readCluster consume (min len d.sorter.readable) d.sorter.clusters d.sorter.readedSize
        (min len d.sorter.readable)).2 =
      bytesOf S d.sorter.readedSize (min len (d.sorter.availSize - d.sorter.readedSize)) ∧
    (∀ x, d.sorter.readedSize + min len (d.sorter.availSize - d.sorter.readedSize) ≤ x →
      Sorter.byteAt (Sorter.readCluster consume (min len d.sorter.readable) d.sorter.clusters
        d.sorter.readedSize (min len d.sorter.readable)).1 x
        = Sorter.byteAt d.sorter.clusters x) ∧
    (consume = false → (Sorter.readCluster consume (min len d.sorter.readable) d.sorter.clusters
      d.sorter.readedSize (min len d.sorter.readable)).1 = d.sorter.clusters) := by
  have h1 := h.avail_lt
  have h2 := Sorter.maxSize_lt
  have h3 := h.readed_le
  rw [h.readable_eq]
  refine Sorter.readCluster_spec consume S _ _ _ _ (le_refl _) (by omega) fun x hx1 hx2 => ?_
  exact h.held x hx1 (by omega) (h.present (by omega))

theorem DeliveryInv.read_eq (h : DeliveryInv S ops d) (len : Nat) :
    (d.sorter.read len).2 =
      bytesOf S d.sorter.readedSize (min len (d.sorter.availSize - d.sorter.readedSize)) :=
  (h.readCluster true len).1

theorem DeliveryInv.peek_eq (h : DeliveryInv S ops d) (len : Nat) :
    d.sorter.peek len = (d.sorter,
      bytesOf S d.sorter.readedSize (min len (d.sorter.availSize - d.sorter.readedSize))) := by
  obtain ⟨h1, _, h2⟩ := h.readCluster false len
  unfold Sorter.peek
  dsimp only
  rw [h1, h2 rfl]

theorem DeliveryInv.delivered (h : DeliveryInv S ops d) : Delivered S ops d :=
  ⟨h.readed_le, fun x hx => h.covered x (hx.trans h.avail_lt) (h.present hx), h.returned,
    h.read_eq, h.peek_eq⟩

theorem start_delivers : DeliveryInv S [] start := by
  have hinit := Sorter.exact_init
  refine ⟨hinit.ordered, le_refl _, fun x _ hx hno => ?_, fun x hx hno => ?_, rfl⟩
  · exact absurd (hinit.gaps ▸ ⟨hx, by simp⟩) hno
  · exact absurd (hinit.gaps ▸ ⟨hx, by simp⟩) hno

/-! ## one operation -/

theorem write_delivers (h : DeliveryInv S ops d) {off len : Nat} (hf : (SortOp.write off len).Fits)
    (hs : (SortOp.write off len).SafeIn d) :
    ∃ d', SortOp.step S d (.write off len) = some d' ∧
      DeliveryInv S (ops ++ [.write off len]) d' ∧ d.sorter.availSize ≤ d'.sorter.availSize := by
  have hmono : ∀ x, (∃ op ∈ ops, op.Covers x) → ∃ op ∈ ops ++ [.write off len], op.Covers x :=
    fun x ⟨op, ho, hc⟩ => ⟨op, List.mem_append_left _ ho, hc⟩
  rcases Nat.eq_zero_or_pos len with rfl | hpos
  · refine ⟨d, ?_, ⟨h.ordered, h.readed_le, h.held, fun x hx hno => hmono x (h.covered x hx hno),
      h.returned⟩, le_refl _⟩
    rw [SortOp.step, Sorter.write_zero, Option.map_some]
  · have hend : off + len < Sorter.maxSize :=
      Sorter.Fragment_end (f := ⟨off, len, fun _ => 0⟩) hf
    have hm := Sorter.maxSize_lt
    obtain ⟨s', start, n, hw, he, hcs⟩ :=
      Sorter.write_safe (fun i => S (off + i)) hpos hend h.ordered hs
    have hspec := Sorter.writeCluster_spec n d.sorter.clusters start n
      (fun i => S (off + (i + (start - off)))) (le_refl _)
      (by have := hw.upper; omega)
    have havail : d.sorter.availSize ≤ s'.availSize :=
      h.ordered.least.2 (hw.shrinks hw.ordered.least.1)
    have hlow := hw.lower
    refine ⟨{ d with sorter := s' }, ?_, ⟨hw.ordered, ?_, fun x hx1 hx2 hno => ?_,
      fun x hx hno => ?_, ?_⟩, havail⟩
    · rw [SortOp.step, he, Option.map_some]
    · show s'.readedSize ≤ s'.availSize
      rw [hw.readed]
      exact h.readed_le.trans havail
    · show Sorter.byteAt s'.clusters x = _
      replace hx1 : d.sorter.readedSize ≤ x := hw.readed ▸ hx1
      rw [hcs, hspec.2 x]
      split
      · rename_i hin
        rw [show off + (x - start + (start - off)) = x by omega]
      · rename_i hout
        -- a byte that was not copied was there before
        refine h.held x hx1 hx2 fun hmem => ?_
        rcases lt_or_ge x off with hlt | hge
        · exact hno (hw.keeps x hmem (Or.inl hlt))
        · rcases lt_or_ge x (off + len) with hlt | hge'
          · exact hout (hw.copies x hmem hge hlt)
          · exact hno (hw.keeps x hmem (Or.inr hge'))
    · by_cases hin : off ≤ x ∧ x < off + len
      · exact ⟨.write off len, by simp, hin⟩
      · exact hmono x (h.covered x hx fun hmem => hno (hw.keeps x hmem (by omega)))
    · show d.returned = bytesOf S 0 s'.readedSize
      rw [hw.readed]
      exact h.returned

theorem read_delivers (h : DeliveryInv S ops d) (len : Nat) :
    ∃ d', SortOp.step S d (.read len) = some d' ∧
      DeliveryInv S (ops ++ [.read len]) d' ∧ d.sorter.availSize ≤ d'.sorter.availSize := by
  obtain ⟨h1, h2, _⟩ := h.readCluster true len
  have hlt := h.avail_lt
  have hm := Sorter.maxSize_lt
  have hle := h.readed_le
  have hread : (d.sorter.read len).1.readedSize =
      d.sorter.readedSize + min len (d.sorter.availSize - d.sorter.readedSize) := by
    unfold Sorter.read
    dsimp only
    rw [h1, bytesOf, List.length_map, List.length_range, add64_of_lt (by omega)]
  refine ⟨_, rfl, ⟨⟨h.ordered.gaps, h.ordered.avail⟩, ?_, fun x hx1 hx2 hno => ?_, fun x hx hno => ?_, ?_⟩, le_refl _⟩
  · show (d.sorter.read len).1.readedSize ≤ d.sorter.availSize
    omega
  · replace hx1 : (d.sorter.read len).1.readedSize ≤ x := hx1
    show Sorter.byteAt (Sorter.readCluster true _ _ _ _).1 x = _
    rw [h2 x (by omega)]
    exact h.held x (by omega) hx2 hno
  · obtain ⟨op, ho, hc⟩ := h.covered x hx hno
    exact ⟨op, List.mem_append_left _ ho, hc⟩
  · show d.returned ++ (d.sorter.read len).2 = bytesOf S 0 (d.sorter.read len).1.readedSize
    rw [h.returned, h.read_eq, bytesOf_append, hread]

theorem peek_delivers (h : DeliveryInv S ops d) (len : Nat) :
    ∃ d', SortOp.step S d (.peek len) = some d' ∧
      DeliveryInv S (ops ++ [.peek len]) d' ∧ d.sorter.availSize ≤ d'.sorter.availSize := by
  refine ⟨d, ?_, ⟨h.ordered, h.readed_le, h.held, fun x hx hno => ?_, h.returned⟩, le_refl _⟩
  · rw [SortOp.step, h.peek_eq]
  · obtain ⟨op, ho, hc⟩ := h.covered x hx hno
    exact ⟨op, List.mem_append_left _ ho, hc⟩

/-- One operation keeps the invariant, and `availSize` does not move back. -/
theorem step_delivers (h : DeliveryInv S ops d) (op : SortOp) (hf : op.Fits) (hs : op.SafeIn d) :
    ∃ d', SortOp.step S d op = some d' ∧ DeliveryInv S (ops ++ [op]) d' ∧
      d.sorter.availSize ≤ d'.sorter.availSize := by
  cases op with
  | write off len => exact write_delivers h hf hs
  | read len => exact read_delivers h len
  | peek len => exact peek_delivers h len

end

/-! ## runs -/

theorem run_inv_delivers (S : Nat → UInt8) (ops : List SortOp) (hfit : ∀ op ∈ ops, op.Fits)
    (hsafe : Along (SortOp.step S) SortOp.SafeIn start ops) :
    ∃ d, run (SortOp.step S) start ops = some d ∧ DeliveryInv S ops d :=
  run_inv start_delivers
    (fun _ _ op hi hg =>
      let ⟨d', h1, h2, _⟩ := step_delivers hi op hg.1 hg.2
      ⟨d', h1, h2⟩) ops (hsafe.and_mem _ hfit)

/-- every state of a run is as the reader expects, and no step moves `availSize` back -/
def Delivers (S : Nat → UInt8) (ops : List SortOp) : Prop :=
  (∀ past, past <+: ops → ∃ d, run (SortOp.step S) start past = some d ∧ Delivered S past d) ∧
  (∀ past op, past ++ [op] <+: ops → ∃ d d', run (SortOp.step S) start past = some d ∧
    run (SortOp.step S) start (past ++ [op]) = some d' ∧
    d.sorter.availSize ≤ d'.sorter.availSize)

/-- **A run whose writes are safe delivers the stream.** -/
theorem run_delivers (S : Nat → UInt8) (ops : List SortOp) (hfit : ∀ op ∈ ops, op.Fits)
    (hsafe : Along (SortOp.step S) SortOp.SafeIn start ops) : Delivers S ops := by
  constructor
  · rintro past ⟨fut, rfl⟩
    obtain ⟨d, hd, hi⟩ := run_inv_delivers S past
      (fun op ho => hfit op (List.mem_append_left _ ho)) (hsafe.append_left _)
    exact ⟨d, hd, hi.delivered⟩
  · rintro past op ⟨fut, rfl⟩
    have hs := hsafe.append_left (SortOp.step S)
    obtain ⟨d, hd, hi⟩ := run_inv_delivers S past
      (fun op ho => hfit op (by simp [ho])) (hs.append_left _)
    obtain ⟨d', h1, _, h2⟩ := step_delivers hi op (hfit op (by simp)) (hs.last _ hd)
    exact ⟨d, d', hd, (run_concat _ hd op).trans h1, h2⟩

/-- two fragments out of order, a third one over both holes, and reads in between -/
theorem run_delivers_six : Delivers UInt8.ofNat
    [.write 5 5, .write 15 5, .read 3, .write 0 12, .peek 4, .read 100] :=
  run_delivers UInt8.ofNat _ (by decide) (by decide)

/-- A fragment from inside one hole to inside the next moves the start of the second hole and not
its end; when the list ahead of it is filled, the first gap lies behind bytes that have been read. -/
theorem run_not_delivers :
    ¬ ∀ (S : Nat → UInt8) (ops : List SortOp), (∀ op ∈ ops, op.Fits) → Delivers S ops := by
  intro h
  obtain ⟨d, hd, hdel⟩ := (h (fun _ => 0) [.write 5 5, .write 15 1, .write 2 12, .write 14 4,
    .write 0 2, .read 18, .write 18 1] (by decide)).1 _ (List.prefix_refl _)
  have hcounters : (run (SortOp.step fun _ => 0) start [.write 5 5, .write 15 1, .write 2 12,
      .write 14 4, .write 0 2, .read 18, .write 18 1]).map
        (fun d => (d.sorter.readedSize, d.sorter.availSize)) = some (18, 16) := by decide
  rw [hd, Option.map_some, Option.some_inj, Prod.mk.injEq] at hcounters
  have hle := hdel.readed_le
  omega

end Delivery

end OpenQuic
