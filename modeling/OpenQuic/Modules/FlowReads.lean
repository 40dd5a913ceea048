import OpenQuic.Modules.FlowBooks

/-!
# Reads within the receive credit

The books of the receive credit ask of a read that it stays within what the flow control has counted
(`FlowBooks.ReadOk`).  Where the frames that an open stream stores come in order and end within its
final size, every read does.

* `InOrder`        what is asked of a frame with data for an open stream;
* `Stored`         the sorter of an open stream, and the two offsets of its flow control;
* `take_stored`, `frame_stored`   what a read and a frame keep of it;
* `guarded_run`    along runs of such frames the reads need no condition of their own.
-/

namespace OpenQuic
namespace FlowReads
open Word Spans Streams Store StreamMoves
open StreamLife (Event OnWire)
open FlowBooks (State FrameOk ReadOk)
open Sorter (Ordered maxSize touched Safe)

/-! ## one stream -/

/-- the data are within the final size, and the gaps that they touch are cut as they should be -/
def InOrder (mem : StreamAlloc) (str : Stream) (off len : Nat) : Prop :=
  str.recv.closed = true ∨ len = 0 ∨
    (mem.sorter = .ok ∧ Safe off (off + len) (touched str.recv.sorter.gaps off (off + len)) ∧
      (str.flowctrl.finFlag = true → off + len ≤ str.flowctrl.recvOff))

/-- Nothing from `recvOff` on has arrived, and no more was read than has arrived without a gap. -/
structure Stored (str : Stream) : Prop where
  ordered : Ordered str.recv.sorter
  missing : ∀ x, str.flowctrl.recvOff ≤ x → x < maxSize → x ∈ cover (spans str.recv.sorter.gaps)
  readed_le : str.recv.sorter.readedSize ≤ str.recv.sorter.availSize
  readOff_le : str.flowctrl.readOff ≤ str.recv.sorter.readedSize

section
variable {str str' : Stream}

theorem Stored.avail_le (h : Stored str) : str.recv.sorter.availSize ≤ str.flowctrl.recvOff := by
  rcases Nat.lt_or_ge str.flowctrl.recvOff maxSize with hlt | hge
  · exact h.ordered.least.2 (h.missing _ (Nat.le_refl _) hlt)
  · exact h.ordered.avail_lt.le.trans hge

theorem Stored.readable_eq (h : Stored str) :
    str.recv.sorter.readable = str.recv.sorter.availSize - str.recv.sorter.readedSize := by
  have h1 := h.ordered.avail_lt
  have h2 := Sorter.maxSize_lt
  rw [Sorter.readable, sub64_of_le h.readed_le (by omega)]

theorem create_stored (cfg : Config) : Stored (Stream.create cfg) :=
  ⟨Sorter.ordered_init,
    fun x _ hx => mem_cover_spans.mpr
      ⟨⟨0, maxSize⟩, List.mem_singleton_self _, Nat.zero_le _, by simpa using hx⟩,
    Nat.le_refl _, Nat.le_refl _⟩

theorem readOk_of_stored (h : str.recv.closed = false → Stored str) (woken : Bool) (len : Nat) :
    ReadOk str woken len := by
  cases hc : str.recv.closed with
  | true => exact Or.inl hc
  | false =>
    have hs := h hc
    have h1 := hs.avail_le
    have h2 := hs.readed_le
    have h3 := hs.readOff_le
    refine Or.inr (Or.inr ?_)
    rw [hs.readable_eq]
    omega

/-- nothing is stored or taken -/
theorem Stored.keep (h : Stored str) (hs : str'.recv.sorter = str.recv.sorter)
    (hrecv : str.flowctrl.recvOff ≤ str'.flowctrl.recvOff)
    (hread : str'.flowctrl.readOff = str.flowctrl.readOff) : Stored str' := by
  refine ⟨?_, fun x hx => ?_, ?_, ?_⟩ <;> rw [hs]
  · exact h.ordered
  · exact h.missing x (hrecv.trans hx)
  · exact h.readed_le
  · rw [hread]
    exact h.readOff_le

/-- what is taken is counted at most -/
theorem take_stored (h : Stored str) (len : Nat)
    (hs : str'.recv.sorter = (str.recv.sorter.read len).1)
    (hrecv : str'.flowctrl.recvOff = str.flowctrl.recvOff)
    (hread : str'.flowctrl.readOff ≤ str.flowctrl.readOff + (str.recv.sorter.read len).2.length) :
    Stored str' := by
  have hlen := Sorter.read_length str.recv.sorter len
  rw [h.readable_eq] at hlen
  have h1 := h.readed_le
  have h2 := h.ordered.avail_lt
  have h3 := Sorter.maxSize_lt
  have hlt : str.recv.sorter.readedSize + (str.recv.sorter.read len).2.length < 2 ^ 64 := by omega
  have hnext : (str.recv.sorter.read len).1.readedSize =
      str.recv.sorter.readedSize + (str.recv.sorter.read len).2.length := add64_of_lt hlt
  refine ⟨?_, ?_, ?_, ?_⟩
  · rw [hs]
    exact ⟨h.ordered.gaps, h.ordered.avail⟩
  · rw [hs, hrecv]
    exact h.missing
  · rw [hs, hnext]
    show _ ≤ str.recv.sorter.availSize
    omega
  · rw [hs, hnext]
    exact hread.trans (Nat.add_le_add_right h.readOff_le _)

theorem read_stored {cfg : Config} {rtt : Nat} {now : Time} {woken : Bool} {len : Nat}
    {conn : ConnFlowctrl} {x : Stream × ConnFlowctrl × Bool} (h : Stored str)
    (hx : str.read cfg rtt now woken len conn = some x) : Stored x.1 := by
  unfold Stream.read at hx
  split at hx
  · rw [← Option.some.inj hx]
    exact h
  · dsimp only at hx
    split at hx
    · rw [← Option.some.inj hx]
      exact take_stored h len rfl rfl (Nat.le_add_right _ _)
    · obtain ⟨y, hy, rfl⟩ := Option.map_eq_some_iff.mp hx
      obtain ⟨h1, _, h3, _⟩ := StreamFlowctrl.read_spec hy
      refine take_stored h len rfl h1 ?_
      dsimp only
      rw [h3]
      exact Nat.mod_le _ _

/-- **A frame.**  What it stores ends where `recvOff` is then, or before. -/
theorem frame_stored {mem : StreamAlloc} {conn : ConnFlowctrl} {firstByte : UInt8} {off : Nat}
    {data : List UInt8} {x : Stream × ConnFlowctrl × Bool} (h : str.recv.closed = false → Stored str)
    (hend : off + data.length < maxSize) (hg : InOrder mem str off data.length)
    (hx : recvStreamHandleFrame mem str conn firstByte off data = some x) :
    x.1.recv.closed = false → Stored x.1 := by
  intro hopen
  have hmax := Sorter.maxSize_lt
  obtain ⟨hd, hflow⟩ := recvStreamHandleFrame_spec (by omega) hx
  obtain ⟨h1, h2, _, _⟩ :=
    str.flowctrl.updateRwnd_spec conn (off + data.length) (hasFin firstByte)
  rw [← hflow] at h1 h2
  dsimp only at h1 h2
  have hc : str.recv.closed = false := hd.closed.symm.trans hopen
  have hs := h hc
  have hgrow : str.flowctrl.recvOff ≤ x.1.flowctrl.recvOff := by
    rw [h1]
    split
    · exact Nat.le_refl _
    · exact Nat.le_max_left _ _
  by_cases hlen : data.length = 0
  · exact hs.keep (hd.untouched (Or.inr hlen)) hgrow h2
  rcases hg with hc' | hlen' | ⟨hmem, hsafe, hwithin⟩
  · exact absurd (hc.symm.trans hc') Bool.false_ne_true
  · exact absurd hlen' hlen
  · have hne : data ≠ [] := fun h => hlen (List.length_eq_zero_iff.mpr h)
    obtain ⟨s', start, n, hw, hwrite, _⟩ := Sorter.write_safe (fun i => data.getD i 0)
      (Nat.pos_of_ne_zero hlen) hend hs.ordered hsafe
    rw [← hmem] at hwrite
    obtain ⟨y, hy, hsorter⟩ := recvStreamHandleFrame_open mem conn firstByte hc hne hwrite
    obtain rfl : x = y := Option.some.inj (hx.symm.trans hy)
    -- the first missing byte of what is left was missing before
    have havail : str.recv.sorter.availSize ≤ s'.availSize :=
      hs.ordered.least.2 (hw.shrinks hw.ordered.least.1)
    have hbeyond : off + data.length ≤ x.1.flowctrl.recvOff := by
      rw [h1]
      split
      · rename_i hf
        exact hwithin hf
      · exact Nat.le_max_right _ _
    refine ⟨?_, fun z hz hzmax => ?_, ?_, ?_⟩ <;> rw [hsorter]
    · exact hw.ordered
    · exact hw.keeps z (hs.missing z (hgrow.trans hz) hzmax) (Or.inr (hbeyond.trans hz))
    · rw [hw.readed]
      exact hs.readed_le.trans havail
    · rw [h2, hw.readed]
      exact hs.readOff_le

theorem sameRecv_stored (h : str.recv.closed = false → Stored str) (hq : SameRecv str str') :
    str'.recv.closed = false → Stored str' := by
  intro hopen
  exact (h (hq.recv ▸ hopen)).keep (congrArg RecvStream.sorter hq.recv) hq.recvOff.ge hq.readOff

end

/-! ## the module -/

/-- every open stream has its bytes in order -/
def AllStored (s : Store) : Prop := ∀ str ∈ s.live, str.recv.closed = false → Stored str

section
variable {s s' : Store} {name : SetName} {sid : Nat} {str : Stream}

theorem mem_live (hf : s.find name sid = some str) : str ∈ s.live :=
  (erase_live hf).mem_iff.mpr List.mem_cons_self

theorem put_stored (h : AllStored s) (hs : str.recv.closed = false → Stored str) :
    AllStored (s.put name sid str) := by
  intro t ht
  cases hf : s.find name sid with
  | none =>
    rcases List.mem_cons.mp ((put_live_new str hf).mem_iff.mp ht) with rfl | ht
    · exact hs
    · exact h t ht
  | some old =>
    obtain ⟨rest, h1, h2⟩ := put_live_old str hf
    rcases List.mem_cons.mp (h2.mem_iff.mp ht) with rfl | ht
    · exact hs
    · exact h t (h1.mem_iff.mpr (List.mem_cons_of_mem _ ht))

theorem creates_stored {cfg : Config} (hc : Creates cfg s s') (h : AllStored s) : AllStored s' := by
  induction hc with
  | none => exact h
  | more _ _ ih => exact put_stored ih fun _ => create_stored cfg

theorem sweeps_stored {cfg : Config} {l : List (Nat × Stream)} (hs : Sweeps cfg s l s')
    (h : AllStored s) : AllStored s' := by
  induction hs with
  | none => exact h
  | more hf _ ih =>
    exact ih fun t ht => h t ((erase_live hf).mem_iff.mpr (List.mem_cons_of_mem _ ht))

end

/-- what an event may find; a read may be any -/
def Guarded (cfg : Config) (s : State) : Event → Prop
  | .streamFrame mem firstByte sid off data =>
    ∀ name ∈ (recvRelationStream cfg s.st sid).1,
      ∀ str ∈ (recvRelationStream cfg s.st sid).2.store.find name sid,
        FrameOk s.st.conn str firstByte (off + data.length) ∧ InOrder mem str off data.length
  | _ => True

def Inv (s : State) : Prop := AllStored s.st.store

/-- where the bytes are in order, a read is within what the flow control has counted -/
theorem guarded_of_inv {cfg : Config} {s : State} {e : Event} (hi : Inv s) (hg : Guarded cfg s e) :
    FlowBooks.Guarded cfg s e := by
  cases e with
  | streamFrame mem firstByte sid off data =>
    exact fun name hn str hf => (hg name hn str hf).1
  | read mem name sid rtt now woken len =>
    exact fun str hf => readOk_of_stored (hi str (mem_live hf)) woken len
  | _ => trivial

theorem turn_stored {cfg : Config} {st : Streams} {e : Event} {s1 : Store} {name : SetName}
    {sid : Nat} {str str' : Stream} {conn' : ConnFlowctrl} {gone : List Stream}
    (hf : s1.find name sid = some str) (ht : Turn cfg st s1 name sid str str' conn' e)
    (hw : OnWire e) (hg : Guarded cfg ⟨st, gone⟩ e) (h : str.recv.closed = false → Stored str) :
    str'.recv.closed = false → Stored str' := by
  cases e with
  | streamFrame mem firstByte k off data =>
    obtain ⟨hk, hn, hs, b, hx⟩ := ht
    have hend : off + data.length < maxSize := by
      obtain ⟨h1, h2⟩ := hw
      rw [varintMax] at h1 h2
      rw [maxSize]
      omega
    subst hk
    rw [hs] at hf
    exact frame_stored h hend (hg name hn str hf).2 hx
  | read mem n k rtt now woken len =>
    obtain ⟨_, _, _, b, hx⟩ := ht
    intro hopen
    exact read_stored (h ((Stream.read_spec hx).closed ▸ hopen)) hx
  | close mem n k rtt now closedCb =>
    obtain ⟨_, _, _, hx⟩ := ht
    intro hopen
    rw [(Stream.close_spec hx).closed] at hopen
    cases hopen
  | appendStreamFrame mem capa fill =>
    rw [ht.1]
    exact sameRecv_stored h (generate_sameRecv mem str sid capa fill)
  | maxStreamData _ _ _ => exact sameRecv_stored h ht.1.toSameRecv
  | setDeadline _ _ _ => exact sameRecv_stored h ht.1.toSameRecv
  | write _ _ _ _ _ => exact sameRecv_stored h ht.1.toSameRecv
  | writeWoken _ _ _ => exact sameRecv_stored h ht.1.toSameRecv
  | setAccept _ => exact ht.elim
  | openStream _ => exact ht.elim
  | moduleLoop _ _ => exact ht.elim
  | processRwnd _ => exact ht.elim

theorem step_inv {cfg : Config} {s s' : State} {e : Event} (hi : Inv s) (hw : OnWire e)
    (hg : Guarded cfg s e) (h : FlowBooks.step cfg s e = some s') : Inv s' := by
  obtain ⟨st, hst, hs⟩ := Option.map_eq_some_iff.mp h
  rw [← hs]
  show AllStored st.store
  have hm := step_moves hst
  generalize st.store = store at hm
  cases hm with
  | quiet _ hc => exact creates_stored hc hi
  | turn hc hf ht =>
    have hall := creates_stored hc hi
    exact put_stored hall (turn_stored hf ht hw hg (hall _ (mem_live hf)))
  | opens bidi => exact put_stored hi fun _ => create_stored cfg
  | sweeps hs => exact sweeps_stored hs hi

/-- **Reads within the credit.**  Where the frames of the open streams come in order and end within the
final size, a run meets what the books of the receive credit ask for, whatever is read. -/
theorem guarded_run (cfg : Config) (es : List Event) (hw : ∀ e ∈ es, OnWire e)
    (hg : Runs.Along (FlowBooks.step cfg) (Guarded cfg) (FlowBooks.start cfg) es) :
    Runs.Along (FlowBooks.step cfg) (FlowBooks.Guarded cfg) (FlowBooks.start cfg) es :=
  Runs.Along.of_keeps (J := Inv) (fun _ _ _ hi hge h => step_inv hi hge.1 hge.2 h)
    (fun _ _ hi hge => guarded_of_inv hi hge.2)
    (fun _ hs => absurd hs List.not_mem_nil) (hg.and_mem (FlowBooks.step cfg) hw)

end FlowReads
end OpenQuic
