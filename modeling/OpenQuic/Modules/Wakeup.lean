import OpenQuic.Modules.StreamRecv

/-!
# The wake-up of a reader

Whether a STREAM frame signals `handled_chan` when it ends the wait of a reader.

* `Sorter.copies`   how many bytes a write copies that starts at the first missing byte;
* `Sorter.write_refused`   a write that moves the first gap and fails lacks the memory of a cluster;
* `Waiting`         a read would wait;
* `Guarded`         the end of the frame is no news that the handler overlooks, and there is memory;
* `wakes_run`       along guarded runs every frame that ends the wait is signalled.
-/

namespace OpenQuic
open Word

/-! ## a write that lacks memory -/

namespace Sorter

/-- how many bytes a write copies that starts at the first missing one: up to the last gap that the
fragment touches -/
def copies (s : Sorter) (off len : Nat) : Nat :=
  match s.gaps with
  | [] => 0
  | g :: post => (scanEnd (off + len - 1) g none post).elim 0 fun x =>
      add64 (sub64 (min (off + len - 1) (gapEnd (x.1.getD g))) s.availSize) 1

/-- the fragment holds the first missing byte, and a cluster of what is copied can not be had -/
def Starved (mem : Alloc) (s : Sorter) (off len : Nat) : Prop :=
  off ≤ s.availSize ∧ s.availSize < off + len ∧ ∃ i, i < s.copies off len ∧
    s.clusters.find (add64 s.availSize i / clusterSize) = none ∧
    mem.cluster (add64 s.availSize i / clusterSize) = false

theorem add64_assoc (a b c : Nat) : add64 (add64 a b) c = add64 a (b + c) := by
  show ((a + b) % 2 ^ 64 + c) % 2 ^ 64 = (a + (b + c)) % 2 ^ 64
  rw [Nat.mod_add_mod, Nat.add_assoc]

/-- a copy that fails was refused a cluster that was not there -/
theorem writeCluster_refused {mem : Alloc} {fuel : Nat} {cs : Rbt Cluster} {off len : Nat}
    {data : Nat → UInt8} (hoff : off < 2 ^ 64)
    (h : (writeCluster mem fuel cs off len data).2 ≠ .success) :
    ∃ i, i < len ∧ cs.find (add64 off i / clusterSize) = none ∧
      mem.cluster (add64 off i / clusterSize) = false := by
  induction fuel generalizing cs off len data with
  | zero => exact absurd rfl h
  | succ fuel ih =>
    rw [writeCluster] at h
    split at h
    · exact absurd rfl h
    · rename_i hlen
      extract_lets key clusterOff clusterLen next at h
      have hzero : add64 off 0 = off := Nat.mod_eq_of_lt hoff
      -- what the rest of the copy lacks, the whole copy lacks
      have hnext : ∀ c, (next c).2 ≠ .success → ∃ i, i < len ∧
          cs.find (add64 off i / clusterSize) = none ∧
            mem.cluster (add64 off i / clusterSize) = false := by
        intro c hc
        have hlt : add64 off clusterLen < 2 ^ 64 := Word.add_lt 64 _ _
        obtain ⟨i, hi, hfind, hmem⟩ := ih hlt hc
        rw [add64_assoc] at hfind hmem
        refine ⟨clusterLen + i, by omega, ?_, hmem⟩
        by_cases hkey : add64 off (clusterLen + i) / clusterSize = key
        · rw [hkey, OrdMap.find_insert_self] at hfind
          cases hfind
        · rwa [OrdMap.find_insert_of_ne _ _ hkey] at hfind
      clear_value next
      split at h
      · exact hnext _ h
      · rename_i hnone
        split at h
        · exact hnext _ h
        · rename_i hmem
          refine ⟨0, Nat.pos_of_ne_zero hlen, ?_, ?_⟩ <;> rw [hzero]
          · exact hnone
          · exact Bool.not_eq_true _ ▸ hmem

/-- the search for a fragment that holds the first missing byte, where it moves the first gap, stops at
that gap -/
theorem writeAt_refused {mem : Alloc} {s : Sorter} {off len : Nat} {data : Nat → UInt8} {sc : Scan}
    {x : Sorter × Err} (h : HeadFirst s) (hlt : s.availSize < 2 ^ 64) (hle : off ≤ s.availSize)
    (hsc : ∀ pre g post, sc = .found pre g post → pre ++ g :: post = s.gaps)
    (hw : writeAt mem s off data (off + len - 1) sc = some x) (hmoved : x.1.availSize ≠ s.availSize)
    (herr : x.2 ≠ .success) :
    ∃ i, i < s.copies off len ∧ s.clusters.find (add64 s.availSize i / clusterSize) = none ∧
      mem.cluster (add64 s.availSize i / clusterSize) = false := by
  cases sc with
  | covered =>
    rw [← Option.some.inj hw] at hmoved
    exact absurd rfl hmoved
  | head => cases hw
  | found pre g post =>
    have hsplit := hsc pre g post rfl
    rw [HeadFirst, ← hsplit] at h
    have hcopies : pre = [] → s.copies off len = (scanEnd (off + len - 1) g none post).elim 0
        fun x => add64 (sub64 (min (off + len - 1) (gapEnd (x.1.getD g))) s.availSize) 1 := by
      rintro rfl
      rw [copies, ← hsplit]
      rfl
    obtain ⟨e, post', start, last, n, hend, hstart, rfl, rfl, ⟨_, rfl⟩ |
      ⟨gs, first, rest, cs, err, _, hgs, hwrite, rfl⟩⟩ := writeAt_found hw
    · exact absurd rfl hmoved
    · cases pre with
      | cons p pre =>
        -- the first gap stays where it is
        have hp : p = first := (List.cons.inj hgs).1
        exact absurd (hp ▸ Option.some.inj h) hmoved
      | nil =>
        have hg : g.off = s.availSize := Option.some.inj h
        have hs : start = s.availSize := by
          rw [hstart, gapStart, hg]
          exact Nat.max_eq_right hle
        rw [hcopies rfl, hend, Option.elim_some]
        rw [hs] at hwrite
        exact writeCluster_refused hlt ((congrArg Prod.snd hwrite).trans_ne herr)

/-- **A failed write.**  One that moves the first gap and fails was refused a cluster. -/
theorem write_refused {mem : Alloc} {s : Sorter} {off len : Nat} {data : Nat → UInt8}
    {x : Sorter × Err} (h : HeadFirst s) (hend : off + len < 2 ^ 64)
    (hw : write mem s off len data = some x) (hmoved : x.1.availSize ≠ s.availSize)
    (herr : x.2 ≠ .success) : Starved mem s off len := by
  obtain ⟨_, _, hstays⟩ := write_headFirst h hw
  have hin : ¬ (s.availSize < off ∨ off + len ≤ s.availSize) := fun hout => hmoved (hstays hend hout)
  obtain ⟨hle, hlt⟩ := not_or.mp hin
  refine ⟨Nat.not_lt.mp hle, Nat.not_le.mp hlt, ?_⟩
  rw [write_eq_writeAt] at hw
  split at hw
  · rw [← Option.some.inj hw] at hmoved
    exact absurd rfl hmoved
  · rw [add64_of_lt hend, sub64_of_le (by omega) hend] at hw
    exact writeAt_refused h (by omega) (Nat.not_lt.mp hle)
      (fun pre g post hs => by
        have hsplit := scanStart_split hs
        exact hsplit.1) hw hmoved herr

end Sorter

/-! ## the frames that end a wait -/

namespace Wakeup
open StreamRecv

/-- the reader has reached the end of the stream -/
def AtEnd (r : RecvStream) : Prop := r.finFlag = true ∧ r.finalOff ≤ r.sorter.readedSize

/-- a `quic_stream_read` of an open stream would wait -/
def Waiting (r : RecvStream) : Prop := r.sorter.readable = 0 ∧ ¬ AtEnd r

/-- a frame that ends the wait of a reader is signalled -/
def StepOk (s : State) : Event → Prop
  | .frame mem firstByte off data =>
    ∀ x, Streams.recvStreamHandleFrame mem s.str s.conn firstByte off data = some x →
      s.str.recv.closed = false → Waiting s.str.recv → ¬ Waiting x.1.recv → x.2.2 = true
  | _ => True

/-- A frame that finds a reader waiting: a `FIN` that the reader has reached is the first one and has
no data, and the memory for the first missing bytes can be had. -/
def Guarded (s : State) : Event → Prop
  | .frame mem firstByte off data => s.str.recv.closed = false → Waiting s.str.recv →
      ¬ (hasFin firstByte = true ∧ off + data.length ≤ s.str.recv.sorter.readedSize ∧
        (data.length = 0 → s.str.recv.finFlag = true)) ∧
      ¬ Sorter.Starved mem.sorter s.str.recv.sorter off data.length
  | _ => True

/-! ### what every step keeps -/

/-- `availSize` of an open stream is the offset of the first gap -/
def Inv (s : State) : Prop := s.str.recv.closed = false → Sorter.HeadFirst s.str.recv.sorter

theorem start_inv (cfg : Config) : Inv (start cfg) := fun _ => rfl

theorem step_inv {s s' : State} {cfg : Config} {e : Event} (hi : Inv s) (hw : OnWire e)
    (h : step cfg s e = some s') : Inv s' := by
  cases e with
  | frame mem firstByte off data =>
    obtain ⟨x, hx, rfl⟩ := Option.map_eq_some_iff.mp h
    have hd := (recvStreamHandleFrame_spec (varintMax_end hw.1 hw.2) hx).1
    exact fun hc => (hd.writes (hi (hd.closed.symm.trans hc))).1
  | read rtt now woken len =>
    obtain ⟨x, hx, rfl⟩ := Option.map_eq_some_iff.mp h
    have hr := Stream.read_spec hx
    intro hc
    have hh := hi (hr.closed.symm.trans hc)
    show Sorter.HeadFirst x.1.recv.sorter
    rcases hr.sorter with hs | hs <;> rw [hs]
    · exact hh
    · exact Sorter.read_headFirst hh len
  | close rtt now =>
    obtain ⟨x, hx, rfl⟩ := Option.map_eq_some_iff.mp h
    exact fun ho => absurd ((Stream.close_spec hx).closed.symm.trans ho) (by decide)

/-! ### a frame -/

/-- a reader that waited is at the end after a frame only by the `FIN` of that frame -/
theorem atEnd_of_handled {str str' : Stream} {firstByte : UInt8} {off len : Nat}
    (hd : str.Handled str' firstByte off len)
    (hread : str'.recv.sorter.readedSize = str.recv.sorter.readedSize)
    (hwait : Waiting str.recv) (h : AtEnd str'.recv) :
    hasFin firstByte = true ∧ off + len ≤ str.recv.sorter.readedSize := by
  obtain ⟨hfin, hfinal⟩ := h
  rw [hd.finFlag] at hfin
  rw [hd.finalOff, hread] at hfinal
  by_cases hf : hasFin firstByte = true
  · rw [if_pos hf] at hfinal
    exact ⟨hf, hfinal⟩
  · rw [if_neg hf] at hfinal
    refine absurd ⟨?_, hfinal⟩ hwait.2
    simpa [hf] using hfin

/-- a frame of data: the bytes that it makes readable are signalled, where there is memory -/
theorem data_ok {mem : StreamAlloc} {str : Stream} {conn : ConnFlowctrl} {firstByte : UInt8}
    {off : Nat} {data : List UInt8} {x : Stream × ConnFlowctrl × Bool}
    (hhead : Sorter.HeadFirst str.recv.sorter) (hend : off + data.length < 2 ^ 64)
    (hopen : str.recv.closed = false) (hlen : data.length ≠ 0)
    (h : Streams.recvStreamHandleFrame mem str conn firstByte off data = some x)
    (hmem : ¬ Sorter.Starved mem.sorter str.recv.sorter off data.length)
    (hread : x.1.recv.sorter.readable ≠ str.recv.sorter.readable) : x.2.2 = true := by
  unfold Streams.recvStreamHandleFrame at h
  extract_lets tOff fin newlyFin window recv at h
  have hsorter : recv.sorter = str.recv.sorter := str.recv.finish_sorter fin tOff
  have hclosed : recv.closed = str.recv.closed := str.recv.finish_closed fin tOff
  clear_value recv
  rw [hclosed, hopen, if_neg Bool.false_ne_true, if_neg hlen, hsorter] at h
  obtain ⟨y, hy, rfl⟩ := Option.map_eq_some_iff.mp h
  have hread : y.1.readable ≠ str.recv.sorter.readable := hread
  have hsuccess : y.2 = .success := by
    by_contra herr
    refine hmem (Sorter.write_refused hhead hend hy (fun havail => hread ?_) herr)
    rw [Sorter.readable, Sorter.readable, havail, (Sorter.write_headFirst hhead hy).2.1]
  show (y.2 == .success && str.recv.sorter.readable != y.1.readable) = true
  rw [hsuccess, Bool.and_eq_true, bne_iff_ne]
  exact ⟨rfl, hread.symm⟩

theorem step_ok {s : State} {e : Event} (hi : Inv s) (hw : OnWire e) (hg : Guarded s e) :
    StepOk s e := by
  cases e with
  | frame mem firstByte off data =>
    intro x hx hopen hwait hends
    obtain ⟨hfin, hmem⟩ := hg hopen hwait
    have hend := varintMax_end hw.1 hw.2
    have hd := (recvStreamHandleFrame_spec hend hx).1
    obtain ⟨_, hreaded, _⟩ := hd.writes (hi hopen)
    by_cases hreadable : x.1.recv.sorter.readable = 0
    · -- the end of the stream is what ends the wait
      have hat : AtEnd x.1.recv := by
        by_contra hnot
        exact hends ⟨hreadable, hnot⟩
      obtain ⟨hf, hle⟩ := atEnd_of_handled hd hreaded hwait hat
      have hnew : data.length = 0 ∧ s.str.recv.finFlag = false := by
        by_contra hnot
        refine hfin ⟨hf, hle, fun hzero => ?_⟩
        exact Bool.not_eq_false _ ▸ fun hff => hnot ⟨hzero, hff⟩
      unfold Streams.recvStreamHandleFrame at hx
      extract_lets tOff fin newlyFin window recv at hx
      have hclosed : recv.closed = s.str.recv.closed := s.str.recv.finish_closed fin tOff
      rw [hclosed, hopen, if_neg Bool.false_ne_true, if_pos hnew.1] at hx
      rw [← Option.some.inj hx]
      show (hasFin firstByte && !s.str.recv.finFlag) = true
      rw [hf, hnew.2]
      rfl
    · have hchanged : x.1.recv.sorter.readable ≠ s.str.recv.sorter.readable := by
        rw [hwait.1]
        exact hreadable
      have hlen : data.length ≠ 0 := fun hzero => hchanged (by rw [hd.untouched (Or.inr hzero)])
      exact data_ok (hi hopen) hend hopen hlen hx hmem hchanged
  | _ => trivial

/-- **No reader is left waiting.**  Every frame of a guarded run that ends the wait of a reader is
signalled. -/
theorem wakes_run (cfg : Config) (es : List Event) (hw : ∀ e ∈ es, OnWire e)
    (hg : Runs.Along (step cfg) Guarded (start cfg) es) :
    ∀ past e, past ++ [e] <+: es → ∀ s, Runs.run (step cfg) (start cfg) past = some s →
      StepOk s e := by
  intro past e hpast s hs
  obtain ⟨hi, hwe, hge⟩ := Runs.run_met (J := Inv) (fun _ _ _ hi hge h => step_inv hi hge.1 h)
    (start_inv cfg) (hg.and_mem _ hw) hpast hs
  exact step_ok hi hwe hge

instance decidableWaiting (r : RecvStream) : Decidable (Waiting r) :=
  inferInstanceAs (Decidable (_ ∧ ¬ (_ ∧ _)))

instance decidableGuarded (s : State) : (e : Event) → Decidable (Guarded s e)
  | .frame _ firstByte off data => inferInstanceAs (Decidable (_ = false → Waiting _ →
      ¬ (hasFin firstByte = true ∧ off + data.length ≤ _ ∧ (data.length = 0 → _ = true)) ∧
      ¬ (off ≤ _ ∧ _ < off + data.length ∧ ∃ i, i < _ ∧ _ = none ∧ _ = false)))
  | .read _ _ _ _ => isTrue trivial
  | .close _ _ => isTrue trivial

/-- data, the read of it, and the `FIN` on its own -/
def finLast : List Event :=
  [.frame .ok 0x0a 0 [0, 1, 2, 3, 4], .read 0 0 false 5, .frame .ok 0x0f 5 []]

theorem wakes_run_finLast : (∀ e ∈ finLast, OnWire e) ∧
    Runs.Along (step serverCfg) Guarded (start serverCfg) finLast ∧
    ∀ past e, past ++ [e] <+: finLast → ∀ s,
      Runs.run (step serverCfg) (start serverCfg) past = some s → StepOk s e := by
  have hw : ∀ e ∈ finLast, OnWire e := by decide
  have hg : Runs.Along (step serverCfg) Guarded (start serverCfg) finLast := by decide +kernel
  exact ⟨hw, hg, wakes_run serverCfg finLast hw hg⟩

/-- Data that was read comes again, with the `FIN`: the reader waits on. -/
theorem not_wakes_run :
    ¬ ∀ (cfg : Config) (es : List Event), (∀ e ∈ es, OnWire e) → ∀ past e, past ++ [e] <+: es →
      ∀ s, Runs.run (step cfg) (start cfg) past = some s → StepOk s e := by
  intro h
  have hrun : (Runs.run (step serverCfg) (start serverCfg)
      [.frame .ok 0x0a 0 [0, 1, 2, 3, 4], .read 0 0 false 5]).map (fun s =>
        (s.str.recv.closed, decide (Waiting s.str.recv),
          (Streams.recvStreamHandleFrame .ok s.str s.conn 0x0b 0 [0, 1, 2, 3, 4]).map fun x =>
            (decide (Waiting x.1.recv), x.2.2))) =
      some (false, true, some (false, false)) := by decide +kernel
  obtain ⟨s, hs, hv⟩ := Option.map_eq_some_iff.mp hrun
  obtain ⟨hopen, hv⟩ := Prod.mk.inj hv
  obtain ⟨hwait, hv⟩ := Prod.mk.inj hv
  obtain ⟨x, hx, hxv⟩ := Option.map_eq_some_iff.mp hv
  obtain ⟨hends, hsignal⟩ := Prod.mk.inj hxv
  have hok := h serverCfg [.frame .ok 0x0a 0 [0, 1, 2, 3, 4], .read 0 0 false 5,
    .frame .ok 0x0b 0 [0, 1, 2, 3, 4]] (by decide) _ _ List.prefix_rfl s hs x hx hopen
    (of_decide_eq_true hwait) (of_decide_eq_false hends)
  rw [hsignal] at hok
  exact absurd hok Bool.false_ne_true

end Wakeup
end OpenQuic
