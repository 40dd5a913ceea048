import Mathlib.Algebra.Order.BigOperators.Group.List
import OpenQuic.Modules.StreamMoves
import OpenQuic.Modules.StreamRecv

/-!
# The books of the receive credit

The bytes that the peer may have sent are counted for each stream and for the connection.  Here the
connection's two offsets are compared with the sums over every stream that was ever there.

* `credit`          what a stream has given back to the connection;
* `Books`           the connection's offsets are the sums, and no stream has read beyond what came;
* `frame_books`, `read_books`, `close_books`   what the three operations do to the books;
* `Guarded`         no offset passes 64 bits, no late `FIN` moves the end of a closed stream, and no
                    read goes beyond what the flow control has counted;
* `books_run`       along guarded runs the books are right.
-/

namespace OpenQuic
namespace FlowBooks
open Word Streams Store StreamLife StreamMoves

/-! ## the books -/

/-- a stream that is closed and has its final size has given back all of it -/
def credit (str : Stream) : Nat :=
  if str.recv.closed && str.recv.finFlag then str.flowctrl.recvOff else str.flowctrl.readOff

/-- `strs` are the streams that were ever there -/
structure Books (conn : ConnFlowctrl) (strs : List Stream) : Prop where
  within : ∀ str ∈ strs, str.flowctrl.readOff ≤ str.flowctrl.recvOff
  recvOff : conn.recvOff = (strs.map fun str => str.flowctrl.recvOff).sum
  readOff : conn.readOff = (strs.map credit).sum

/-- the two records of a `FIN` agree, and a closed stream has no bytes left -/
structure Sound (str : Stream) : Prop where
  fin : str.flowctrl.finFlag = str.recv.finFlag
  emptied : str.recv.closed = true → str.recv.sorter.clusters = OrdMap.empty

structure BooksInv (conn : ConnFlowctrl) (strs : List Stream) : Prop extends Books conn strs where
  sound : ∀ str ∈ strs, Sound str
  fits : conn.recvOff < 2 ^ 64

theorem BooksInv.perm {conn : ConnFlowctrl} {strs strs' : List Stream} (h : BooksInv conn strs)
    (hp : strs.Perm strs') : BooksInv conn strs' := by
  refine ⟨⟨fun str hs => h.within str (hp.mem_iff.mpr hs), ?_, ?_⟩,
    fun str hs => h.sound str (hp.mem_iff.mpr hs), h.fits⟩
  · rw [h.recvOff]
    exact (hp.map _).sum_eq
  · rw [h.readOff]
    exact (hp.map _).sum_eq

theorem credit_le {str : Stream} (h : str.flowctrl.readOff ≤ str.flowctrl.recvOff) :
    credit str ≤ str.flowctrl.recvOff := by
  unfold credit
  split
  · exact Nat.le_refl _
  · exact h

theorem sum_credit_le {strs : List Stream}
    (h : ∀ str ∈ strs, str.flowctrl.readOff ≤ str.flowctrl.recvOff) :
    (strs.map credit).sum ≤ (strs.map fun str => str.flowctrl.recvOff).sum :=
  List.sum_le_sum fun str hs => credit_le (h str hs)

/-- an open stream has given back what was read -/
theorem credit_open {str : Stream} (h : str.recv.closed = false) :
    credit str = str.flowctrl.readOff := by
  unfold credit
  rw [h]
  rfl

/-- what one stream has not given back yet is missing at the connection too -/
theorem BooksInv.head_le {conn : ConnFlowctrl} {str : Stream} {rest : List Stream}
    (h : BooksInv conn (str :: rest)) :
    conn.readOff + str.flowctrl.recvOff ≤ conn.recvOff + credit str ∧
      str.flowctrl.recvOff ≤ conn.recvOff := by
  have h4 := h.recvOff
  have h5 := h.readOff
  have h6 := sum_credit_le fun t ht => h.within t (List.mem_cons_of_mem str ht)
  rw [List.map_cons, List.sum_cons] at h4 h5
  omega

/-- a stream that is not there yet changes nothing -/
theorem create_books {conn : ConnFlowctrl} {strs : List Stream} (h : BooksInv conn strs)
    (cfg : Config) : BooksInv conn (Stream.create cfg :: strs) := by
  refine ⟨⟨fun str hs => ?_, ?_, ?_⟩, fun str hs => ?_, h.fits⟩
  · rcases List.mem_cons.mp hs with rfl | hs
    · exact Nat.le_refl _
    · exact h.within str hs
  · rw [h.recvOff, List.map_cons, List.sum_cons]
    exact (Nat.zero_add _).symm
  · rw [h.readOff, List.map_cons, List.sum_cons]
    exact (Nat.zero_add _).symm
  · rcases List.mem_cons.mp hs with rfl | hs
    · exact ⟨rfl, nofun⟩
    · exact h.sound str hs

/-- One stream moves: what it has received and what it has given back grow as the connection's
offsets do. -/
theorem move_books {conn conn' : ConnFlowctrl} {str str' : Stream} {rest : List Stream}
    (h : BooksInv conn (str :: rest)) (hs : Sound str')
    (hle : str'.flowctrl.readOff ≤ str'.flowctrl.recvOff)
    (hrecv : conn'.recvOff + str.flowctrl.recvOff = conn.recvOff + str'.flowctrl.recvOff)
    (hread : conn'.readOff + credit str = conn.readOff + credit str')
    (hfits : conn'.recvOff < 2 ^ 64) : BooksInv conn' (str' :: rest) := by
  have h1 := h.recvOff
  have h2 := h.readOff
  rw [List.map_cons, List.sum_cons] at h1 h2
  refine ⟨⟨fun t ht => ?_, ?_, ?_⟩, fun t ht => ?_, hfits⟩
  · rcases List.mem_cons.mp ht with rfl | ht
    · exact hle
    · exact h.within t (List.mem_cons_of_mem _ ht)
  · rw [List.map_cons, List.sum_cons]
    omega
  · rw [List.map_cons, List.sum_cons]
    omega
  · rcases List.mem_cons.mp ht with rfl | ht
    · exact hs
    · exact h.sound t (List.mem_cons_of_mem _ ht)

/-! ## the three operations -/

/-- the frame does not take an offset past 64 bits, and a `FIN` that finds the stream closed ends it
where the reader is -/
def FrameOk (conn : ConnFlowctrl) (str : Stream) (firstByte : UInt8) (fin : Nat) : Prop :=
  str.recv.finFlag = false →
    conn.recvOff + (fin - str.flowctrl.recvOff) < 2 ^ 64 ∧
    (str.recv.closed = true → hasFin firstByte = true →
      str.flowctrl.readOff = max str.flowctrl.recvOff fin)

theorem frame_books {mem : StreamAlloc} {str : Stream} {conn : ConnFlowctrl} {rest : List Stream}
    {firstByte : UInt8} {off : Nat} {data : List UInt8} {x : Stream × ConnFlowctrl × Bool}
    (h : BooksInv conn (str :: rest)) (hend : off + data.length < 2 ^ 64)
    (hg : FrameOk conn str firstByte (off + data.length))
    (hx : recvStreamHandleFrame mem str conn firstByte off data = some x) :
    BooksInv x.2.1 (x.1 :: rest) := by
  obtain ⟨hd, hflow⟩ := recvStreamHandleFrame_spec hend hx
  obtain ⟨h1, h2, h3, h4⟩ :=
    str.flowctrl.updateRwnd_spec conn (off + data.length) (hasFin firstByte)
  rw [← hflow] at h1 h2 h3 h4
  dsimp only at h1 h2 h3 h4
  have hs := h.sound str List.mem_cons_self
  have hle := h.within str List.mem_cons_self
  rw [hs.fin] at h1 h3 h4
  have hcredit : credit x.1 = credit str := by
    unfold credit
    rw [hd.closed, hd.finFlag, h1, h2]
    cases hf : str.recv.finFlag with
    | true => rfl
    | false =>
      cases hc : str.recv.closed with
      | false => rfl
      | true =>
        cases hfin : hasFin firstByte with
        | false => rfl
        | true => exact ((hg hf).2 hc hfin).symm
  generalize off + data.length = t at h1 h4 hg hend
  have hconn : x.2.1.readOff = conn.readOff ∧
      x.2.1.recvOff + str.flowctrl.recvOff = conn.recvOff + x.1.flowctrl.recvOff ∧
      x.2.1.recvOff < 2 ^ 64 := by
    rw [h1, h4]
    by_cases hf : str.recv.finFlag = true
    · rw [if_pos hf, if_pos (Or.inl hf)]
      exact ⟨rfl, rfl, h.fits⟩
    · have hfits := (hg (Bool.eq_false_iff.mpr hf)).1
      rw [if_neg hf]
      by_cases ht : t ≤ str.flowctrl.recvOff
      · rw [if_pos (Or.inr ht), Nat.max_eq_left ht]
        exact ⟨rfl, rfl, h.fits⟩
      · rw [if_neg (not_or.mpr ⟨hf, ht⟩), Nat.max_eq_right (by omega), sub64_of_le (by omega) hend]
        show conn.readOff = _ ∧ add64 conn.recvOff (t - str.flowctrl.recvOff) + _ = _ ∧
          add64 conn.recvOff (t - str.flowctrl.recvOff) < _
        rw [add64_of_lt hfits]
        exact ⟨rfl, by omega, hfits⟩
  refine move_books h ⟨h3.trans hd.finFlag.symm, fun hc => ?_⟩ ?_ ?_ ?_ ?_
  · have hc' : str.recv.closed = true := hd.closed.symm.trans hc
    rw [hd.untouched (Or.inl hc')]
    exact hs.emptied hc'
  · rw [h1, h2]
    split
    · exact hle
    · exact hle.trans (le_max_left _ _)
  · exact hconn.2.1
  · rw [hconn.1, hcredit]
  · exact hconn.2.2

/-- a turn that takes bytes from an open stream stays within what the flow control has counted -/
def ReadOk (str : Stream) (woken : Bool) (len : Nat) : Prop :=
  str.recv.closed = true ∨
    (woken = false ∧ str.recv.finFlag = true ∧ str.recv.finalOff ≤ str.recv.sorter.readedSize) ∨
    str.flowctrl.readOff + min len str.recv.sorter.readable ≤ str.flowctrl.recvOff

theorem read_books {cfg : Config} {rtt : Nat} {now : Time} {woken : Bool} {len : Nat} {str : Stream}
    {conn : ConnFlowctrl} {rest : List Stream} {x : Stream × ConnFlowctrl × Bool}
    (h : BooksInv conn (str :: rest)) (hg : ReadOk str woken len)
    (hx : str.read cfg rtt now woken len conn = some x) : BooksInv x.2.1 (x.1 :: rest) := by
  have hr := Stream.read_spec hx
  have hs := h.sound str List.mem_cons_self
  have hle := h.within str List.mem_cons_self
  by_cases hdone : woken = false ∧ str.recv.finFlag = true ∧
      str.recv.finalOff ≤ str.recv.sorter.readedSize
  · obtain ⟨hw, hf, hend⟩ := hdone
    rw [hw, Stream.read_done cfg rtt now len conn hf hend] at hx
    rw [← Option.some.inj hx]
    exact h
  have hsound : Sound x.1 := by
    refine ⟨hr.flowFin.trans (hs.fin.trans hr.finFlag.symm), fun hc => ?_⟩
    have hempty := hs.emptied (hr.closed.symm.trans hc)
    rcases hr.sorter with he | he <;> rw [he]
    · exact hempty
    · exact (Sorter.read_of_empty hempty len).2
  rcases hr.counts with ⟨hflow, hconn⟩ | ⟨n, hn, hpos, h1, h2, h3⟩
  · have hcredit : credit x.1 = credit str := by
      unfold credit
      rw [hr.closed, hr.finFlag, hflow]
    refine move_books h hsound ?_ ?_ ?_ ?_
    · rw [hflow]
      exact hle
    · rw [hflow, hconn]
    · rw [hcredit, hconn]
    · rw [hconn]
      exact h.fits
  · have hopen : str.recv.closed = false := by
      rw [Bool.eq_false_iff]
      intro hc
      rw [(Sorter.read_of_empty (hs.emptied hc) len).1] at hn
      exact absurd hn hpos.ne'
    have hbound : str.flowctrl.readOff + n ≤ str.flowctrl.recvOff := by
      have hmin := Sorter.read_length str.recv.sorter len
      rcases hg with hc | hd | hb
      · rw [hopen] at hc
        exact absurd hc Bool.false_ne_true
      · exact absurd hd hdone
      · omega
    -- what is read is within what came, and so are the sums
    have hold := credit_open hopen
    have hnew := credit_open (hr.closed.trans hopen)
    obtain ⟨hsum, hmine⟩ := h.head_le
    have hfits := h.fits
    rw [add64_of_lt (by omega)] at h1 h3
    have hcredit : credit x.1 = credit str + n := by rw [hnew, h1, hold]
    refine move_books h hsound ?_ ?_ ?_ ?_
    · rw [h1, hr.recvOff]
      exact hbound
    · rw [h2, hr.recvOff]
    · rw [h3, hcredit]
      omega
    · rw [h2]
      exact hfits

theorem close_books {cfg : Config} {rtt : Nat} {now : Time} {str : Stream} {conn : ConnFlowctrl}
    {rest : List Stream} {x : Stream × ConnFlowctrl} (h : BooksInv conn (str :: rest))
    (hx : str.close cfg rtt now conn = some x) : BooksInv x.2 (x.1 :: rest) := by
  have hc := Stream.close_spec hx
  have hs := h.sound str List.mem_cons_self
  have hle := h.within str List.mem_cons_self
  have hsum := h.head_le
  have hfits := h.fits
  have hread : x.2.readOff + credit str = conn.readOff + credit x.1 := by
    have hread := hc.readOff
    rw [sub64_of_le hle (by omega)] at hread
    rw [hread]
    cases hclosed : str.recv.closed with
    | true =>
      have hsame : credit x.1 = credit str := by
        unfold credit
        rw [hc.closed, hclosed, hc.finFlag, hc.flowctrl]
      rw [hsame]
      rfl
    | false =>
      have hold := credit_open hclosed
      cases hf : str.recv.finFlag with
      | false =>
        have hsame : credit x.1 = credit str := by
          rw [hold]
          unfold credit
          rw [hc.closed, hc.finFlag, hf, hc.flowctrl]
          rfl
        rw [hsame]
        rfl
      | true =>
        -- the bytes that were not read are given back
        have hnew : credit x.1 = str.flowctrl.recvOff := by
          unfold credit
          rw [hc.closed, hc.finFlag, hf, hc.flowctrl]
          rfl
        rw [hold] at hsum ⊢
        rw [hnew, if_pos (show (!false && true) = true from rfl)]
        split
        · rw [add64_of_lt (by omega)]
          omega
        · omega
  refine move_books h ⟨?_, fun _ => ?_⟩ ?_ ?_ hread ?_
  · rw [hc.flowctrl, hc.finFlag]
    exact hs.fin
  · rcases hc.sorter with hr | hr
    · rw [hr]
      exact hs.emptied (hr ▸ hc.closed)
    · rw [hr]
      rfl
  · rw [hc.flowctrl]
    exact hle
  · rw [hc.flowctrl, hc.recvOff]
  · rw [hc.recvOff]
    exact hfits

/-! ## runs -/

/-- the module, and the streams that were destroyed or replaced -/
structure State where
  st : Streams
  gone : List Stream

/-- the streams that a step takes away -/
def lost (cfg : Config) (st : Streams) : Event → List Stream
  | .openStream bidi =>
    let name := if bidi then SetName.outbidi else .outuni
    (st.store.find name (streamIdTransfer true cfg.isCli (st.sets name).nextSid)).toList
  | .moduleLoop _ now => (doomed cfg now st.store st.destorySet.entries).map Prod.snd
  | _ => []

def step (cfg : Config) (s : State) (e : Event) : Option State :=
  (StreamLife.step cfg s.st e).map fun st => ⟨st, s.gone ++ lost cfg s.st e⟩

def start (cfg : Config) : State := ⟨Streams.init cfg, []⟩

/-- every stream that was ever there -/
def everyStream (s : State) : List Stream := s.st.store.live ++ s.gone

/-- what an event may find; a STREAM frame finds the stream that it belongs to, a new one if there was
none -/
def Guarded (cfg : Config) (s : State) : Event → Prop
  | .streamFrame _ firstByte sid off data =>
    ∀ name ∈ (recvRelationStream cfg s.st sid).1,
      ∀ str ∈ (recvRelationStream cfg s.st sid).2.store.find name sid,
        FrameOk s.st.conn str firstByte (off + data.length)
  | .read _ name sid _ _ woken len => ∀ str ∈ s.st.store.find name sid, ReadOk str woken len
  | _ => True

def Inv (s : State) : Prop := BooksInv s.st.conn (everyStream s)

theorem creates_books {cfg : Config} {s s1 : Store} {gone : List Stream} (hc : Creates cfg s s1)
    (h : BooksInv s.conn (s.live ++ gone)) : BooksInv s1.conn (s1.live ++ gone) := by
  induction hc with
  | none => exact h
  | more _ hf ih =>
    exact (create_books ih cfg).perm ((put_live_new (Stream.create cfg) hf).symm.append_right gone)

theorem sweeps_books {cfg : Config} {s s' : Store} {l : List (Nat × Stream)} {gone : List Stream}
    (hs : Sweeps cfg s l s') (h : BooksInv s.conn (s.live ++ gone)) :
    BooksInv s'.conn (s'.live ++ (gone ++ l.map Prod.snd)) := by
  induction hs generalizing gone with
  | none s => rwa [List.map_nil, List.append_nil]
  | more hf _ ih =>
    rename_i s s' sid str l _
    have hp : (s.live ++ gone).Perm ((s.erase (homeSet cfg sid) sid).live ++ (gone ++ [str])) := by
      refine ((erase_live hf).append_right gone).trans ?_
      rw [← List.append_assoc]
      exact (List.perm_append_singleton str _).symm
    have hi : BooksInv s'.conn (s'.live ++ (gone ++ [str] ++ l.map Prod.snd)) := ih (h.perm hp)
    rwa [List.append_assoc] at hi

theorem sameRecv_books {conn : ConnFlowctrl} {str str' : Stream} {rest : List Stream}
    (h : BooksInv conn (str :: rest)) (hq : SameRecv str str') : BooksInv conn (str' :: rest) := by
  have hs := h.sound str List.mem_cons_self
  have hle := h.within str List.mem_cons_self
  have hcredit : credit str' = credit str := by
    unfold credit
    rw [hq.recv, hq.recvOff, hq.readOff]
  refine move_books h ⟨?_, fun hc => ?_⟩ ?_ ?_ ?_ h.fits
  · rw [hq.finFlag, hq.recv]
    exact hs.fin
  · rw [hq.recv] at hc ⊢
    exact hs.emptied hc
  · rw [hq.recvOff, hq.readOff]
    exact hle
  · rw [hq.recvOff]
  · rw [hcredit]

theorem turn_books {cfg : Config} {st : Streams} {e : Event} {s1 : Store} {name : SetName}
    {sid : Nat} {str str' : Stream} {conn' : ConnFlowctrl} {gone rest : List Stream}
    (hf : s1.find name sid = some str) (hconn : s1.conn = st.conn)
    (ht : Turn cfg st s1 name sid str str' conn' e) (hw : OnWire e)
    (hg : Guarded cfg ⟨st, gone⟩ e) (h : BooksInv s1.conn (str :: rest)) :
    BooksInv conn' (str' :: rest) := by
  cases e with
  | streamFrame mem firstByte k off data =>
    obtain ⟨hk, hn, hs, b, hx⟩ := ht
    have hend : off + data.length < 2 ^ 64 := varintMax_end hw.1 hw.2
    subst hk
    refine frame_books h hend ?_ hx
    rw [hconn]
    rw [hs] at hf
    exact hg name hn str hf
  | read mem n k rtt now woken len =>
    obtain ⟨hn, hk, hs, b, hx⟩ := ht
    subst hn hk hs
    exact read_books h (hg str hf) hx
  | close mem n k rtt now closedCb =>
    obtain ⟨_, _, _, hx⟩ := ht
    exact close_books h hx
  | appendStreamFrame mem capa fill =>
    obtain ⟨hs, hc⟩ := ht
    rw [hs, hc]
    exact sameRecv_books h (generate_sameRecv mem str sid capa fill)
  | maxStreamData _ _ _ =>
    rw [ht.2]
    exact sameRecv_books h ht.1.toSameRecv
  | setDeadline _ _ _ =>
    rw [ht.2]
    exact sameRecv_books h ht.1.toSameRecv
  | write _ _ _ _ _ =>
    rw [ht.2]
    exact sameRecv_books h ht.1.toSameRecv
  | writeWoken _ _ _ =>
    rw [ht.2]
    exact sameRecv_books h ht.1.toSameRecv
  | setAccept _ => exact ht.elim
  | openStream _ => exact ht.elim
  | moduleLoop _ _ => exact ht.elim
  | processRwnd _ => exact ht.elim

theorem lost_eq_nil {cfg : Config} {st : Streams} {e : Event} (h : Keeps e) : lost cfg st e = [] := by
  cases e with
  | openStream _ => exact h.elim
  | moduleLoop _ _ => exact h.elim
  | _ => rfl

theorem turn_keeps {cfg : Config} {st : Streams} {e : Event} {s1 : Store} {name : SetName}
    {sid : Nat} {str str' : Stream} {conn' : ConnFlowctrl}
    (ht : Turn cfg st s1 name sid str str' conn' e) : Keeps e := by
  cases e with
  | openStream _ => exact ht.elim
  | moduleLoop _ _ => exact ht.elim
  | _ => trivial

theorem moves_books {cfg : Config} {st : Streams} {e : Event} {s' : Store} {gone : List Stream}
    (hm : Moves cfg st e s') (hw : OnWire e) (hg : Guarded cfg ⟨st, gone⟩ e)
    (h : BooksInv st.conn (st.store.live ++ gone)) :
    BooksInv s'.conn (s'.live ++ (gone ++ lost cfg st e)) := by
  cases hm with
  | quiet hk hc =>
    rw [lost_eq_nil hk, List.append_nil]
    exact creates_books hc h
  | turn hc hf ht =>
    rename_i s1 name sid str str' conn'
    rw [lost_eq_nil (turn_keeps ht), List.append_nil]
    obtain ⟨rest, h1, h2⟩ := put_live_old str' hf
    have hi := (creates_books hc h).perm (h1.append_right gone)
    have ht' : BooksInv conn' (str' :: (rest ++ gone)) := turn_books hf hc.conn ht hw hg hi
    exact ht'.perm (h2.append_right gone).symm
  | opens bidi =>
    show BooksInv st.conn _
    rw [lost]
    generalize (if bidi = true then SetName.outbidi else SetName.outuni) = name
    generalize streamIdTransfer true cfg.isCli (st.sets name).nextSid = sid
    cases hf : st.store.find name sid with
    | none =>
      rw [Option.toList_none, List.append_nil]
      exact (create_books h cfg).perm
        ((put_live_new (Stream.create cfg) hf).symm.append_right gone)
    | some old =>
      obtain ⟨rest, h1, h2⟩ := put_live_old (Stream.create cfg) hf
      refine (create_books h cfg).perm ?_
      rw [Option.toList_some]
      refine ((h1.append_right gone).cons _).trans (List.Perm.trans ?_ (h2.append_right _).symm)
      -- the old stream only changes its place
      refine List.Perm.cons _ ?_
      show (old :: (rest ++ gone)).Perm (rest ++ (gone ++ [old]))
      rw [← List.append_assoc]
      exact (List.perm_append_singleton old _).symm
  | sweeps hs => exact sweeps_books hs h

theorem step_inv {cfg : Config} {s s' : State} {e : Event} (hi : Inv s) (hw : OnWire e)
    (hg : Guarded cfg s e) (h : step cfg s e = some s') : Inv s' := by
  obtain ⟨st, hst, hs⟩ := Option.map_eq_some_iff.mp h
  rw [← hs]
  exact moves_books (step_moves hst) hw hg hi

theorem start_inv (cfg : Config) : Inv (start cfg) := by
  refine ⟨⟨?_, rfl, rfl⟩, ?_, show 0 < 2 ^ 64 by decide⟩
  · intro str hs
    exact absurd hs List.not_mem_nil
  · intro str hs
    exact absurd hs List.not_mem_nil

/-- **Conservation of the receive credit.**  Along a guarded run no stream has read beyond what came,
and the connection's offsets are the sums over every stream that was ever there. -/
theorem books_run (cfg : Config) (es : List Event) (hw : ∀ e ∈ es, OnWire e)
    (hg : Runs.Along (step cfg) (Guarded cfg) (start cfg) es) :
    ∀ past, past <+: es → ∀ s, Runs.run (step cfg) (start cfg) past = some s →
      Books s.st.conn (everyStream s) := by
  intro past hpast s hs
  have ha := hg.and_mem (step cfg) hw
  have hi : Inv s := Runs.run_reached (fun _ _ _ hi hge h => step_inv hi hge.1 hge.2 h)
    (start_inv cfg) ha hpast hs
  exact hi.toBooks

instance decidableFrameOk (conn : ConnFlowctrl) (str : Stream) (firstByte : UInt8) (fin : Nat) :
    Decidable (FrameOk conn str firstByte fin) :=
  inferInstanceAs (Decidable (_ → _ ∧ (_ → _ → _)))

instance decidableReadOk (str : Stream) (woken : Bool) (len : Nat) : Decidable (ReadOk str woken len) :=
  inferInstanceAs (Decidable (_ ∨ _ ∨ _))

instance decidableGuarded (cfg : Config) (s : State) : (e : Event) → Decidable (Guarded cfg s e)
  | .streamFrame _ firstByte sid off data => inferInstanceAs (Decidable (
      ∀ name ∈ (recvRelationStream cfg s.st sid).1,
        ∀ str ∈ (recvRelationStream cfg s.st sid).2.store.find name sid,
          FrameOk s.st.conn str firstByte (off + data.length)))
  | .read _ name sid _ _ woken len =>
    inferInstanceAs (Decidable (∀ str ∈ s.st.store.find name sid, ReadOk str woken len))
  | .maxStreamData _ _ _ => isTrue trivial
  | .setAccept _ => isTrue trivial
  | .openStream _ => isTrue trivial
  | .setDeadline _ _ _ => isTrue trivial
  | .write _ _ _ _ _ => isTrue trivial
  | .writeWoken _ _ _ => isTrue trivial
  | .close _ _ _ _ _ _ => isTrue trivial
  | .moduleLoop _ _ => isTrue trivial
  | .processRwnd _ => isTrue trivial
  | .appendStreamFrame _ _ _ => isTrue trivial

/-- two streams: one is read to its end, the other is closed with bytes that nobody has read -/
def twoStreams : List Event :=
  [.streamFrame .ok 0x0a 0 0 [1, 2], .streamFrame .ok 0x0b 4 0 [3, 4, 5], .read .ok .inbidi 0 0 5 false 10,
    .close .ok .inbidi 4 0 6 true, .streamFrame .ok 0x0f 0 2 [], .close .ok .inbidi 0 0 7 true,
    .appendStreamFrame .ok 1000 false, .moduleLoop .ok 8]

theorem books_run_twoStreams :
    Runs.Along (step serverCfg) (Guarded serverCfg) (start serverCfg) twoStreams ∧
      ∀ past, past <+: twoStreams → ∀ s, Runs.run (step serverCfg) (start serverCfg) past = some s →
        Books s.st.conn (everyStream s) :=
  ⟨by decide +kernel, books_run serverCfg twoStreams (by decide) (by decide +kernel)⟩

/-- The `FIN` comes after the close: the three bytes are never given back. -/
theorem not_books_run :
    ¬ ∀ (cfg : Config) (es : List Event), (∀ e ∈ es, OnWire e) → ∀ past, past <+: es → ∀ s,
      Runs.run (step cfg) (start cfg) past = some s → Books s.st.conn (everyStream s) := by
  intro h
  have hrun : (Runs.run (step serverCfg) (start serverCfg)
      [.streamFrame .ok 0x0a 0 0 [1, 2, 3], .close .ok .inbidi 0 0 6 true,
        .streamFrame .ok 0x0f 0 3 []]).map (fun s =>
          (s.st.conn.readOff, ((everyStream s).map credit).sum)) = some (0, 3) := by decide +kernel
  obtain ⟨s, hs, hv⟩ := Option.map_eq_some_iff.mp hrun
  obtain ⟨h1, h2⟩ := Prod.mk.inj hv
  have hb := (h serverCfg _ (by decide) _ List.prefix_rfl s hs).readOff
  rw [h1, h2] at hb
  exact absurd hb (by decide)

end FlowBooks
end OpenQuic
