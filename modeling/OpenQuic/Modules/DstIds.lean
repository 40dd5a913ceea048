import OpenQuic.Lib.Runs
import OpenQuic.Modules.ConnidGen

/-!
# The connection IDs of the peer

The runs of NEW_CONNECTION_ID frames from the state after the module's start, with every allocation
succeeding.

* `Connids.queued`     the sequence numbers that a RETIRE_CONNECTION_ID frame was queued for;
* `Blocks`             no stored ID is in a block that was given back;
* `raise`, `raise_spec`   the IDs that a frame retires, as one operation;
* `updateDst_spec`     the switch to another ID;
* `Live`               the ID in use is stored, its block is held, and it is not retired;
* `live_iff`           the runs in which that holds all along: no frame retires its own, stored, ID
                       together with the one in use.
-/

namespace OpenQuic
open Word

/-- the sequence number in a RETIRE_CONNECTION_ID frame -/
def retiredSeq (f : Frame) : Option Nat :=
  match f.body with
  | .retireConnectionId seq => some seq
  | _ => none

namespace Connids

def queued (s : Connids) : List Nat := s.framer.ctrls.filterMap retiredSeq

@[simp] theorem queued_ctrl_retire (s : Connids) (seq : Nat) :
    (s.ctrl (retireConnectionIdFrame seq)).queued = s.queued ++ [seq] := List.filterMap_append

@[simp] theorem queued_removeDst (s : Connids) (seq : Nat) (c : ConnBuf) :
    (s.removeDst seq c).queued = s.queued := rfl

/-! ## blocks -/

structure Blocks (s : Connids) : Prop where
  held : ∀ e ∈ s.gen.dsts.entries, ∀ b, e.2.block = some b → b < s.nextBlock ∧ b ∉ s.freed
  apart : ∀ e ∈ s.gen.dsts.entries, ∀ f ∈ s.gen.dsts.entries, ∀ b,
    e.2.block = some b → f.2.block = some b → e.1 = f.1
  freed : ∀ b ∈ s.freed, b < s.nextBlock

theorem Blocks.removeDst {s : Connids} (h : Blocks s) {seq : Nat} {c : ConnBuf}
    (hc : s.gen.dsts.find seq = some c) : Blocks (s.removeDst seq c) := by
  have hmem : (seq, c) ∈ s.gen.dsts.entries := OrdMap.find_eq_some.mp hc
  refine ⟨fun e he b hb => ?_, fun e he f hf => ?_, fun b hb => ?_⟩
  · obtain ⟨he, hne⟩ := OrdMap.mem_erase.mp he
    obtain ⟨hlt, hnot⟩ := h.held e he b hb
    refine ⟨hlt, fun hm => ?_⟩
    rcases List.mem_append.mp hm with hm | hm
    · exact hnot hm
    · exact hne (h.apart e he (seq, c) hmem b hb (Option.mem_toList.mp hm))
  · exact h.apart e (OrdMap.mem_erase.mp he).1 f (OrdMap.mem_erase.mp hf).1
  · rcases List.mem_append.mp hb with hb | hb
    · exact h.freed b hb
    · exact (h.held (seq, c) hmem b (Option.mem_toList.mp hb)).1

theorem Blocks.insertDst {s : Connids} (h : Blocks s) (seq : Nat) (conn : List UInt8) :
    Blocks (s.insertDst .ok seq conn).1 := by
  unfold Connids.insertDst
  split
  · show Blocks ⟨_, _, _, _, _, _⟩
    refine ⟨fun e he b hb => ?_, fun e he f hf b heb hfb => ?_, fun b hb => ?_⟩
    · rcases OrdMap.mem_insert.mp he with rfl | ⟨he, _⟩
      · cases hb
        exact ⟨Nat.lt_succ_self _, fun hm => Nat.lt_irrefl _ (h.freed _ hm)⟩
      · exact ⟨Nat.lt_succ_of_lt (h.held e he b hb).1, (h.held e he b hb).2⟩
    · rcases OrdMap.mem_insert.mp he with rfl | ⟨he, _⟩ <;>
        rcases OrdMap.mem_insert.mp hf with rfl | ⟨hf, _⟩
      · rfl
      · cases heb
        exact absurd (h.held f hf _ hfb).1 (Nat.lt_irrefl _)
      · cases hfb
        exact absurd (h.held e he _ heb).1 (Nat.lt_irrefl _)
      · exact h.apart e he f hf b heb hfb
    · exact Nat.lt_succ_of_lt (h.freed b hb)
  · exact h

/-! ## the retired IDs -/

/-- the state after the IDs up to `retire` were retired -/
def raise (s : Connids) (retire : Nat) : Connids :=
  if s.gen.dstHretire < retire then
    { (retireDsts .ok retire s.gen.dsts.entries.length s).1 with
      gen := { (retireDsts .ok retire s.gen.dsts.entries.length s).1.gen with dstHretire := retire } }
  else s

/-- how a loop that retires the IDs up to `retire` takes `s` to `s'` -/
structure Retires (retire : Nat) (s s' : Connids) : Prop where
  dsts : s'.gen.dsts = s.gen.dsts.keep fun k _ => retire < k
  queued : s'.queued = s.queued ++
    (s.gen.dsts.entries.filter fun e => e.1 ≤ retire).map Prod.fst
  active : s'.gen.dstActive = s.gen.dstActive
  dst : s'.dst = s.dst
  blocks : Blocks s → Blocks s'

/-- everything stored is above what the loop retires -/
theorem Retires.same {retire : Nat} {s : Connids} (h : ∀ e ∈ s.gen.dsts.entries, retire < e.1) :
    Retires retire s s := by
  refine ⟨(OrdMap.keep_eq_self fun e he => decide_eq_true (h e he)).symm, ?_, rfl, rfl, id⟩
  rw [List.filter_eq_nil_iff.mpr]
  · exact (List.append_nil _).symm
  · intro e he
    have := h e he
    simp only [decide_eq_true_eq]
    omega

theorem Retires.nil {retire : Nat} {s : Connids} (h : s.gen.dsts.entries = []) :
    Retires retire s s := Retires.same fun _ he => absurd (h ▸ he) List.not_mem_nil

/-- the least ID is taken, and then those that the loop goes on to -/
theorem Retires.cons {retire key : Nat} {c : ConnBuf} {s s' : Connids}
    (hl : s.gen.dsts.least = some (key, c)) (hle : key ≤ retire)
    (hr : Retires retire ((s.ctrl (retireConnectionIdFrame key)).removeDst key c) s') :
    Retires retire s s' := by
  have hmem : (key, c) ∈ s.gen.dsts.entries := (OrdMap.least_eq_some hl).1
  refine ⟨?_, ?_, hr.active, hr.dst, fun hb => hr.blocks ?_⟩
  · rw [hr.dsts]
    show (s.gen.dsts.erase key).keep _ = _
    rw [OrdMap.erase, OrdMap.keep_keep]
    congr 1
    funext k _
    rcases Nat.lt_or_ge retire k with hk | hk
    · simp [hk, show k ≠ key by omega]
    · simp [Nat.not_lt.mpr hk]
  · rw [hr.queued, queued_removeDst, queued_ctrl_retire, List.append_assoc,
      OrdMap.entries_erase_least hl, List.filter_cons_of_pos (by simpa using hle)]
    rfl
  · exact Blocks.removeDst (s := s.ctrl (retireConnectionIdFrame key))
      ⟨hb.held, hb.apart, hb.freed⟩ (OrdMap.find_eq_some.mpr hmem)

theorem retireDsts_spec (retire fuel : Nat) (s : Connids) (h : s.gen.dsts.entries.length ≤ fuel) :
    ∃ s', retireDsts .ok retire fuel s = (s', .success) ∧ Retires retire s s' := by
  induction fuel generalizing s with
  | zero => exact ⟨s, rfl, Retires.nil (List.eq_nil_of_length_eq_zero (Nat.le_zero.mp h))⟩
  | succ fuel ih =>
    rw [retireDsts]
    split
    · rename_i hl
      exact ⟨s, rfl, Retires.nil (OrdMap.least_eq_none.mp hl)⟩
    · rename_i key c hl
      split
      · rename_i hle
        rw [if_pos (show ConnidAlloc.ok.retireFrame key = true from rfl)]
        obtain ⟨s', hs', hr⟩ := ih ((s.ctrl (retireConnectionIdFrame key)).removeDst key c) (by
          show (s.gen.dsts.erase key).entries.length ≤ fuel
          rw [OrdMap.entries_erase_least hl, List.length_cons] at h
          exact Nat.le_of_succ_le_succ h)
        exact ⟨s', hs', hr.cons hl hle⟩
      · rename_i hgt
        exact ⟨s, rfl, Retires.same fun e he =>
          lt_of_lt_of_le (Nat.lt_of_not_le hgt) ((OrdMap.least_eq_some hl).2 e he)⟩

/-- what a frame retires, in the terms of the entries and the queued numbers -/
structure Raised (retire : Nat) (s s' : Connids) : Prop where
  hretire : s'.gen.dstHretire = max s.gen.dstHretire retire
  active : s'.gen.dstActive = s.gen.dstActive
  dst : s'.dst = s.dst
  find : ∀ k c, s'.gen.dsts.find k = some c ↔
    s.gen.dsts.find k = some c ∧ (s.gen.dstHretire < retire → retire < k)
  queued : ∀ q, q ∈ s'.queued ↔ q ∈ s.queued ∨
    (s.gen.dstHretire < retire ∧ q ≤ retire ∧ ∃ c, s.gen.dsts.find q = some c)
  blocks : Blocks s → Blocks s'

theorem raise_spec (s : Connids) (retire : Nat) : Raised retire s (s.raise retire) := by
  unfold raise
  split
  · rename_i hlt
    obtain ⟨s', hs', hr⟩ := retireDsts_spec retire _ s le_rfl
    rw [hs']
    refine ⟨(Nat.max_eq_right hlt.le).symm, hr.active, hr.dst, fun k c => ?_, fun q => ?_,
      fun hb => ⟨(hr.blocks hb).held, (hr.blocks hb).apart, (hr.blocks hb).freed⟩⟩
    · show s'.gen.dsts.find k = some c ↔ _
      rw [hr.dsts, OrdMap.find_keep, decide_eq_true_eq]
      exact and_congr_right fun _ => ⟨fun h _ => h, fun h => h hlt⟩
    · show q ∈ s'.queued ↔ _
      rw [hr.queued, List.mem_append]
      refine or_congr_right ?_
      simp only [List.mem_map, List.mem_filter, decide_eq_true_eq, OrdMap.find_eq_some]
      constructor
      · rintro ⟨⟨k, c⟩, ⟨hm, hk⟩, rfl⟩
        exact ⟨hlt, hk, c, hm⟩
      · rintro ⟨_, hq, c, hm⟩
        exact ⟨(q, c), ⟨hm, hq⟩, rfl⟩
  · rename_i hge
    refine ⟨(Nat.max_eq_left (Nat.le_of_not_lt hge)).symm, rfl, rfl, fun k c => ?_, fun q => ?_, id⟩
    · exact ⟨fun h => ⟨h, fun hlt => absurd hlt hge⟩, And.left⟩
    · exact ⟨Or.inl, fun h => h.resolve_right fun hx => hge hx.1⟩

/-! ## the new ID and the switch -/

/-- how a frame's own ID is stored -/
structure Stored (seq : Nat) (s s' : Connids) : Prop where
  hretire : s'.gen.dstHretire = s.gen.dstHretire
  active : s'.gen.dstActive = s.gen.dstActive
  dst : s'.dst = s.dst
  own : ∃ c, s'.gen.dsts.find seq = some c
  others : ∀ k, k ≠ seq → s'.gen.dsts.find k = s.gen.dsts.find k
  queued : s'.queued = s.queued
  blocks : Blocks s → Blocks s'

theorem insertDst_spec (s : Connids) (seq : Nat) (conn : List UInt8) :
    (s.insertDst .ok seq conn).2 = .success ∧ Stored seq s (s.insertDst .ok seq conn).1 := by
  have hb := fun h : Blocks s => h.insertDst seq conn
  unfold insertDst at hb ⊢
  split
  · exact ⟨rfl, rfl, rfl, rfl, ⟨_, OrdMap.find_insert_self _ _ _⟩,
      fun k hk => OrdMap.find_insert_of_ne _ _ hk, rfl, by rwa [if_pos ‹_›] at hb⟩
  · rename_i hs
    refine ⟨rfl, rfl, rfl, rfl, ?_, fun _ _ => rfl, rfl, id⟩
    obtain ⟨c, hc⟩ := Option.ne_none_iff_exists'.mp (by simpa using hs)
    exact ⟨c, hc⟩

/-- how a session goes over to the least of the other IDs -/
structure Switched (s s' : Connids) : Prop where
  hretire : s'.gen.dstHretire = max s.gen.dstHretire s.gen.dstActive
  next : s'.gen.dstActive ≠ s.gen.dstActive
  least : ∀ k c, k ≠ s.gen.dstActive → s.gen.dsts.find k = some c → s'.gen.dstActive ≤ k
  dst : s'.gen.dsts.find s'.gen.dstActive = some s'.dst
  find : ∀ k, k ≠ s.gen.dstActive → s'.gen.dsts.find k = s.gen.dsts.find k
  gone : s'.gen.dsts.find s.gen.dstActive = none
  queued : s'.queued = s.queued ++ [s.gen.dstActive]
  blocks : Blocks s → Blocks s'

/-- the state in which `quic_connid_gen_update_dst` looks for the least ID -/
theorem updateDst_eq (s : Connids) : ∃ s1 : Connids,
    s1.gen.dstHretire = max s.gen.dstHretire s.gen.dstActive ∧
    s1.gen.dsts = s.gen.dsts.erase s.gen.dstActive ∧
    s1.queued = s.queued ++ [s.gen.dstActive] ∧ (Blocks s → Blocks s1) ∧
    s.updateDst .ok = match s1.gen.dsts.least with
      | none => (s1, .internalError)
      | some (key, c) => ({ s1 with gen := { s1.gen with dstActive := key }, dst := c }, .success) := by
  unfold updateDst
  rw [if_neg (show ¬ (!ConnidAlloc.ok.updateFrame) = true from Bool.false_ne_true)]
  extract_lets s1 g1 s2 s3 g3
  have hq : s2.queued = s.queued ++ [s.gen.dstActive] := by
    have : s2.queued = s1.queued := by
      show (ite _ _ _ : Connids).queued = _
      split <;> rfl
    rw [this]
    exact queued_ctrl_retire s s.gen.dstActive
  have hd : s2.gen.dsts = s.gen.dsts ∧ s2.gen.dstActive = s.gen.dstActive ∧
      s2.freed = s.freed ∧ s2.nextBlock = s.nextBlock := by
    show (ite _ _ _ : Connids).gen.dsts = _ ∧ (ite _ _ _ : Connids).gen.dstActive = _ ∧
      (ite _ _ _ : Connids).freed = _ ∧ (ite _ _ _ : Connids).nextBlock = _
    split <;> exact ⟨rfl, rfl, rfl, rfl⟩
  have hh : s2.gen.dstHretire = max s.gen.dstHretire s.gen.dstActive := by
    show (ite (s.gen.dstHretire < s.gen.dstActive) _ _ : Connids).gen.dstHretire = _
    split
    · rename_i hlt
      exact (Nat.max_eq_right hlt.le).symm
    · rename_i hge
      exact (Nat.max_eq_left (Nat.le_of_not_lt hge)).symm
  have hb : Blocks s → Blocks s2 := by
    intro h
    refine ⟨?_, ?_, ?_⟩
    · rw [hd.1, hd.2.2.1, hd.2.2.2]
      exact h.held
    · rw [hd.1]
      exact h.apart
    · rw [hd.2.2.1, hd.2.2.2]
      exact h.freed
  suffices h : s3.gen.dstHretire = max s.gen.dstHretire s.gen.dstActive ∧
      s3.gen.dsts = s.gen.dsts.erase s.gen.dstActive ∧
      s3.queued = s.queued ++ [s.gen.dstActive] ∧ (Blocks s → Blocks s3) by
    obtain ⟨h1, h2, h3, h4⟩ := h
    exact ⟨s3, h1, h2, h3, h4, rfl⟩
  cases hf : s2.gen.dsts.find s2.gen.dstActive with
  | some c =>
    have h3 : s3 = { s2.removeDst s2.gen.dstActive c with dst := ConnBuf.init } := by
      simp only [s3, hf]
    rw [h3]
    refine ⟨hh, ?_, hq, fun h => ?_⟩
    · show s2.gen.dsts.erase s2.gen.dstActive = _
      rw [hd.1, hd.2.1]
    · have hr := (hb h).removeDst hf
      exact ⟨hr.held, hr.apart, hr.freed⟩
  | none =>
    have h3 : s3 = s2 := by
      simp only [s3, hf]
    rw [h3]
    refine ⟨hh, ?_, hq, hb⟩
    rw [hd.1, hd.2.1] at hf
    rw [hd.1]
    exact (OrdMap.erase_eq_self hf).symm

theorem updateDst_spec {s : Connids} {k : Nat} {c : ConnBuf} (hk : k ≠ s.gen.dstActive)
    (hc : s.gen.dsts.find k = some c) : Switched s (s.updateDst .ok).1 := by
  obtain ⟨s1, hh, hd, hq, hb, heq⟩ := updateDst_eq s
  rw [heq]
  cases hl : s1.gen.dsts.least with
  | none =>
    have hnil := OrdMap.least_eq_none.mp hl
    have hm : (k, c) ∈ s1.gen.dsts.entries := by
      rw [hd]
      exact OrdMap.mem_erase.mpr ⟨OrdMap.find_eq_some.mp hc, hk⟩
    rw [hnil] at hm
    exact absurd hm List.not_mem_nil
  | some x =>
    obtain ⟨key, d⟩ := x
    obtain ⟨hmem, hleast⟩ := OrdMap.least_eq_some hl
    refine ⟨hh, ?_, fun j w hj hw => ?_, OrdMap.find_eq_some.mpr hmem, fun j hj => ?_, ?_, hq,
      fun h => ⟨(hb h).held, (hb h).apart, (hb h).freed⟩⟩
    · rw [hd] at hmem
      exact (OrdMap.mem_erase.mp hmem).2
    · refine hleast (j, w) ?_
      rw [hd]
      exact OrdMap.mem_erase.mpr ⟨OrdMap.find_eq_some.mp hw, hj⟩
    · show s1.gen.dsts.find j = _
      rw [hd]
      exact OrdMap.find_erase_of_ne _ hj
    · show s1.gen.dsts.find _ = _
      rw [hd]
      exact OrdMap.find_erase_self _ _

/-- the state with what a frame retires retired and its own ID stored -/
theorem raised_stored_active (s : Connids) (seq retire : Nat) (conn : List UInt8) :
    ((s.raise retire).insertDst .ok seq conn).1.gen.dstActive = s.gen.dstActive :=
  ((s.raise retire).insertDst_spec seq conn).2.active.trans (s.raise_spec retire).active

/-- there is another ID to go over to, that of the frame -/
theorem raised_stored_switched {s : Connids} {seq : Nat} (hne : seq ≠ s.gen.dstActive) (retire : Nat)
    (conn : List UInt8) : Switched ((s.raise retire).insertDst .ok seq conn).1
      (((s.raise retire).insertDst .ok seq conn).1.updateDst .ok).1 := by
  obtain ⟨c, hc⟩ := ((s.raise retire).insertDst_spec seq conn).2.own
  exact updateDst_spec (by rwa [raised_stored_active]) hc

/-! ## one frame -/

/-- **What a NEW_CONNECTION_ID frame does.** -/
theorem handleNewConnectionId_cases (s : Connids) (seq retire : Nat) (conn : List UInt8) :
    (seq < s.gen.dstHretire ∧ (s.handleNewConnectionId .ok seq retire conn).1 =
      s.ctrl (retireConnectionIdFrame seq)) ∨
    (s.gen.dstHretire ≤ seq ∧ seq = s.gen.dstActive ∧
      (s.handleNewConnectionId .ok seq retire conn).1 = s.raise retire) ∨
    (s.gen.dstHretire ≤ seq ∧ seq ≠ s.gen.dstActive ∧ retire < s.gen.dstActive ∧
      (s.handleNewConnectionId .ok seq retire conn).1 =
        ((s.raise retire).insertDst .ok seq conn).1) ∨
    (s.gen.dstHretire ≤ seq ∧ seq ≠ s.gen.dstActive ∧ s.gen.dstActive ≤ retire ∧
      (s.handleNewConnectionId .ok seq retire conn).1 =
        (((s.raise retire).insertDst .ok seq conn).1.updateDst .ok).1) := by
  have hactive := (s.raise_spec retire).active
  obtain ⟨hins, hst⟩ := (s.raise retire).insertDst_spec seq conn
  unfold handleNewConnectionId
  split
  · rename_i hlt
    exact Or.inl ⟨hlt, rfl⟩
  · rename_i hge
    extract_lets retired
    have hr : retired = (s.raise retire, .success) := by
      show (ite _ _ _ : Connids × Err) = _
      unfold raise
      split
      · obtain ⟨s', hs', _⟩ := retireDsts_spec retire _ s le_rfl
        rw [hs']
      · rfl
    rw [hr]
    dsimp only
    rw [hactive]
    refine Or.inr ?_
    split
    · rename_i he
      exact Or.inl ⟨Nat.le_of_not_lt hge, he, rfl⟩
    · rename_i hne
      refine Or.inr ?_
      generalize (s.raise retire).insertDst .ok seq conn = x at hins hst
      obtain ⟨s2, err⟩ := x
      cases hins
      dsimp only
      rw [hst.active, hactive]
      split
      · rename_i hle
        exact Or.inr ⟨Nat.le_of_not_lt hge, hne, hle, rfl⟩
      · rename_i hgt
        exact Or.inl ⟨Nat.le_of_not_lt hge, hne, Nat.lt_of_not_le hgt, rfl⟩

/-- the ID in use is stored, `session->dst` is the stored one and not given back, and no
RETIRE_CONNECTION_ID names it -/
structure Live (s : Connids) : Prop where
  stored : s.gen.dsts.find s.gen.dstActive = some s.dst
  held : ∀ b, s.dst.block = some b → b ∉ s.freed
  unretired : s.gen.dstActive ∉ s.queued

/-- Everything stored is at the highest retired number or above, and what was retired is not above
it. -/
structure Ordered (s : Connids) : Prop where
  active : s.gen.dstHretire ≤ s.gen.dstActive
  keys : ∀ k c, s.gen.dsts.find k = some c → s.gen.dstHretire ≤ k
  retired : ∀ q ∈ s.queued, q ≤ s.gen.dstHretire
  stored : s.gen.dsts.find s.gen.dstActive = some s.dst
  unretired : s.gen.dstActive ∉ s.queued
  blocks : Blocks s

theorem Ordered.live {s : Connids} (h : Ordered s) : Live s :=
  ⟨h.stored, fun b hb => (h.blocks.held _ (OrdMap.find_eq_some.mp h.stored) b hb).2, h.unretired⟩

/-- the frame retires the ID that it brings, which is stored already, and the one in use -/
def RetiresOwn (s : Connids) (seq retire : Nat) : Prop :=
  s.gen.dstHretire < retire ∧ retire = seq ∧ (s.gen.dsts.find seq).isSome = true ∧
    s.gen.dstActive ≤ seq

instance (s : Connids) (seq retire : Nat) : Decidable (RetiresOwn s seq retire) :=
  inferInstanceAs (Decidable (_ ∧ _ ∧ _ ∧ _))

section
variable {s s' : Connids} {seq retire : Nat}

/-- an ID in use that is above what the frame retires stays -/
theorem Raised.ordered (h : Ordered s) (hr : Raised retire s s')
    (hlt : s.gen.dstHretire < retire → retire < s.gen.dstActive) : Ordered s' := by
  have hmax : s'.gen.dstHretire ≤ s.gen.dstActive := by
    rw [hr.hretire]
    have := h.active
    omega
  refine ⟨?_, fun k c hk => ?_, fun q hq => ?_, ?_, fun hq => ?_, hr.blocks h.blocks⟩
  · rw [hr.active]
    exact hmax
  · obtain ⟨hk, hgt⟩ := (hr.find k c).mp hk
    have := h.keys k c hk
    rw [hr.hretire]
    omega
  · rw [hr.hretire]
    rcases (hr.queued q).mp hq with hq | ⟨_, hq, _⟩
    · have := h.retired q hq
      omega
    · omega
  · rw [hr.active, hr.dst]
    exact (hr.find _ _).mpr ⟨h.stored, hlt⟩
  · rw [hr.active] at hq
    rcases (hr.queued _).mp hq with hq | ⟨hlt', hq, _⟩
    · exact h.unretired hq
    · exact absurd (hlt hlt') (Nat.not_lt.mpr hq)

theorem Stored.ordered (h : Ordered s) (hs : Stored seq s s') (hseq : s.gen.dstHretire ≤ seq)
    (hne : seq ≠ s.gen.dstActive) : Ordered s' := by
  refine ⟨?_, fun k c hk => ?_, fun q hq => ?_, ?_, ?_, hs.blocks h.blocks⟩
  · rw [hs.hretire, hs.active]
    exact h.active
  · rw [hs.hretire]
    by_cases he : k = seq
    · rwa [he]
    · rw [hs.others k he] at hk
      exact h.keys k c hk
  · rw [hs.hretire]
    rw [hs.queued] at hq
    exact h.retired q hq
  · rw [hs.active, hs.dst, hs.others _ hne.symm]
    exact h.stored
  · rw [hs.active, hs.queued]
    exact h.unretired

/-- What the switch chooses from is at the retired numbers or above, and was not retired. -/
theorem Raised.candidate (hr : Raised retire s s') (h : Ordered s) (hle : retire ≤ seq)
    (hg : ¬ RetiresOwn s seq retire) (hseq : s.gen.dstHretire ≤ seq)
    (hact : s.gen.dstActive ≤ retire) {k : Nat} {d : ConnBuf} (hk : k ≠ s.gen.dstActive)
    (hstored : k = seq ∨ k ≠ seq ∧ s.gen.dsts.find k = some d ∧
      (s.gen.dstHretire < retire → retire < k)) :
    max s.gen.dstHretire retire ≤ k ∧ k ∉ s'.queued := by
  have hact' := h.active
  rcases Nat.lt_or_ge s.gen.dstHretire retire with hlt | hge
  · refine ⟨?_, fun hq => ?_⟩
    · rcases hstored with rfl | ⟨_, hf, hgt⟩
      · omega
      · have := hgt hlt
        omega
    · rcases (hr.queued k).mp hq with hq | ⟨_, hq, c', hc'⟩
      · have := h.retired k hq
        rcases hstored with rfl | ⟨_, _, hgt⟩
        · omega
        · have := hgt hlt
          omega
      · rcases hstored with rfl | ⟨_, _, hgt⟩
        · refine hg ⟨hlt, by omega, ?_, by omega⟩
          rw [hc']
          rfl
        · have := hgt hlt
          omega
  · -- nothing is retired: the ID in use is the highest retired number
    have hk' : s.gen.dstHretire ≤ k := by
      rcases hstored with rfl | ⟨_, hf, _⟩
      · exact hseq
      · exact h.keys k d hf
    refine ⟨by omega, fun hq => ?_⟩
    rcases (hr.queued k).mp hq with hq | ⟨hlt, _⟩
    · have := h.retired k hq
      omega
    · omega

/-- the least ID above the one in use takes over -/
theorem Switched.ordered (hs : Switched s s') (hb : Blocks s)
    (hkeys : ∀ k c, k ≠ s.gen.dstActive → s.gen.dsts.find k = some c →
      max s.gen.dstHretire s.gen.dstActive ≤ k ∧ k ∉ s.queued)
    (hq : ∀ q ∈ s.queued, q ≤ max s.gen.dstHretire s.gen.dstActive) : Ordered s' := by
  have hfind : s.gen.dsts.find s'.gen.dstActive = some s'.dst := (hs.find _ hs.next).symm.trans hs.dst
  obtain ⟨hle, hnot⟩ := hkeys _ _ hs.next hfind
  refine ⟨?_, fun k c hk => ?_, fun q hm => ?_, hs.dst, fun hm => ?_, hs.blocks hb⟩
  · rwa [hs.hretire]
  · have hne : k ≠ s.gen.dstActive := by
      intro he
      rw [he, hs.gone] at hk
      cases hk
    rw [hs.hretire]
    exact (hkeys k c hne ((hs.find k hne).symm.trans hk)).1
  · rw [hs.hretire]
    rw [hs.queued, List.mem_append, List.mem_singleton] at hm
    rcases hm with hm | rfl
    · exact hq q hm
    · exact Nat.le_max_right _ _
  · rw [hs.queued, List.mem_append, List.mem_singleton] at hm
    exact hm.elim hnot hs.next

end

/-- **One frame.**  A frame that does not retire its own ID keeps the order. -/
theorem handleNewConnectionId_ordered {s : Connids} (h : Ordered s) {seq retire : Nat}
    {conn : List UInt8} (hle : retire ≤ seq) (hg : ¬ RetiresOwn s seq retire) :
    Ordered (s.handleNewConnectionId .ok seq retire conn).1 := by
  have hr := s.raise_spec retire
  obtain ⟨_, hst⟩ := (s.raise retire).insertDst_spec seq conn
  rcases s.handleNewConnectionId_cases seq retire conn with
    ⟨hlt, he⟩ | ⟨_, hact, he⟩ | ⟨hseq, hne, hlt, he⟩ | ⟨hseq, hne, hact, he⟩ <;> rw [he]
  · refine ⟨h.active, h.keys, fun q hq => ?_, h.stored, fun hq => ?_,
      ⟨h.blocks.held, h.blocks.apart, h.blocks.freed⟩⟩
    · rw [queued_ctrl_retire, List.mem_append, List.mem_singleton] at hq
      rcases hq with hq | rfl
      · exact h.retired q hq
      · exact hlt.le
    · rw [queued_ctrl_retire, List.mem_append, List.mem_singleton] at hq
      rcases hq with hq | hq
      · exact h.unretired hq
      · have := h.active
        exact absurd (show s.gen.dstActive = seq from hq) (by omega)
  · refine hr.ordered h fun hlt => ?_
    have hs : (s.gen.dsts.find seq).isSome = true := by rw [hact, h.stored]; rfl
    have : retire ≠ seq := fun he => hg ⟨hlt, he, hs, hact.ge⟩
    omega
  · refine Stored.ordered (hr.ordered h fun _ => hlt) hst ?_ ?_
    · rw [hr.hretire]
      omega
    · rwa [hr.active]
  · have hmax : max (s.raise retire).gen.dstHretire s.gen.dstActive =
        (s.raise retire).gen.dstHretire := by
      rw [hr.hretire]
      omega
    refine (raised_stored_switched hne retire conn).ordered (hst.blocks (hr.blocks h.blocks)) ?_ ?_
    · rw [hst.active, hr.active, hst.hretire, hst.queued, hmax, hr.hretire]
      intro k d hk hd
      refine hr.candidate h hle hg hseq hact hk (d := d) ?_
      by_cases hks : k = seq
      · exact Or.inl hks
      · rw [hst.others k hks] at hd
        exact Or.inr ⟨hks, (hr.find k d).mp hd⟩
    · rw [hst.active, hr.active, hst.hretire, hst.queued, hmax, hr.hretire]
      intro q hq
      rcases (hr.queued q).mp hq with hq | ⟨_, hq, _⟩
      · have := h.retired q hq
        omega
      · omega

/-- a frame that retires its own ID ends what holds of the ID in use -/
theorem handleNewConnectionId_own {s : Connids} {seq retire : Nat} {conn : List UInt8}
    (hown : RetiresOwn s seq retire) :
    ¬ Live (s.handleNewConnectionId .ok seq retire conn).1 := by
  obtain ⟨hlt, rfl, hs, hact⟩ := hown
  obtain ⟨c, hc⟩ := Option.isSome_iff_exists.mp hs
  have hr := s.raise_spec retire
  obtain ⟨_, hst⟩ := (s.raise retire).insertDst_spec retire conn
  intro hl
  rcases s.handleNewConnectionId_cases retire retire conn with
    ⟨hlt', _⟩ | ⟨_, he, hs'⟩ | ⟨_, _, hlt', _⟩ | ⟨_, hne, _, hs'⟩
  · omega
  · rw [hs'] at hl
    have hstored := hl.stored
    rw [hr.active] at hstored
    have := ((hr.find _ _).mp hstored).2 hlt
    omega
  · omega
  · rw [hs'] at hl
    obtain ⟨d, hd⟩ := hst.own
    have hsw := raised_stored_switched hne retire conn
    have hnext := hsw.next
    have hle := hsw.least retire d (by rwa [raised_stored_active]) hd
    have hfind := (hsw.find _ hnext).symm.trans hsw.dst
    rw [hst.active, hr.active] at hnext
    -- all other IDs are above the retired ones
    have heq : (((s.raise retire).insertDst .ok retire conn).1.updateDst .ok).1.gen.dstActive =
        retire := by
      by_contra hk
      rw [hst.others _ hk] at hfind
      have := ((hr.find _ _).mp hfind).2 hlt
      omega
    refine hl.unretired ?_
    rw [heq, hsw.queued, hst.queued, List.mem_append]
    exact Or.inl ((hr.queued retire).mpr (Or.inr ⟨hlt, le_rfl, c, hc⟩))

end Connids

/-! ## runs -/

namespace DstIds
open Connids

/-- a NEW_CONNECTION_ID frame -/
structure Event where
  seq : Nat
  retire : Nat
  conn : List UInt8

def step (s : Connids) (e : Event) : Option Connids :=
  some (s.handleNewConnectionId .ok e.seq e.retire e.conn).1

/-- the state after `quic_connid_gen_module_start` -/
def start (connidLen : Nat) (src : ConnId) (dst : List UInt8) : Connids :=
  ((create connidLen src dst).start .ok).1

theorem start_ordered (connidLen : Nat) (src : ConnId) (dst : List UInt8) :
    Ordered (start connidLen src dst) := by
  have hent : (start connidLen src dst).gen.dsts.entries = [(0, ⟨some 0, dst⟩)] := rfl
  refine ⟨le_rfl, fun k c _ => Nat.zero_le k, nofun, rfl, nofun, ⟨fun e he b hb => ?_,
    fun e he f hf _ _ _ => ?_, nofun⟩⟩
  · rw [hent, List.mem_singleton] at he
    subst he
    cases hb
    exact ⟨Nat.zero_lt_one, List.not_mem_nil⟩
  · rw [hent, List.mem_singleton] at he hf
    rw [he, hf]

/-- **The ID in use.**  It is stored, held and not retired after every frame of a run if and only if no
frame of the run retires its own, stored, ID together with the one in use. -/
theorem live_iff (connidLen : Nat) (src : ConnId) (dst : List UInt8) (es : List Event)
    (hle : ∀ e ∈ es, e.retire ≤ e.seq) :
    (∀ past, past <+: es → ∃ s, Runs.run step (start connidLen src dst) past = some s ∧ Live s) ↔
      Runs.Along step (fun s e => ¬ RetiresOwn s e.seq e.retire) (start connidLen src dst) es := by
  refine Runs.always_iff_along (fun s => Ordered.live) (fun s e hs hok hg => ?_)
    (fun s e s' _ _ h hl hown => ?_) es (start_ordered connidLen src dst)
    (Runs.Along.of_mem step hle)
  · exact ⟨_, rfl, handleNewConnectionId_ordered hs hok hg⟩
  · rw [← Option.some.inj h] at hl
    exact handleNewConnectionId_own hown hl

/-- the second frame retires the IDs up to its own, and a repeated one comes after it -/
def switching : List Event := [⟨2, 1, [2]⟩, ⟨4, 3, [4]⟩, ⟨5, 0, [5]⟩, ⟨4, 3, [4]⟩, ⟨1, 0, [1]⟩]

theorem live_iff_switching : (∀ e ∈ switching, e.retire ≤ e.seq) ∧
    ((∀ past, past <+: switching →
        ∃ s, Runs.run step (start 8 ⟨[0]⟩ [9]) past = some s ∧ Live s) ↔
      Runs.Along step (fun s e => ¬ RetiresOwn s e.seq e.retire) (start 8 ⟨[0]⟩ [9]) switching) :=
  ⟨by decide, live_iff 8 ⟨[0]⟩ [9] switching (by decide)⟩

example : Runs.Along step (fun s e => ¬ RetiresOwn s e.seq e.retire) (start 8 ⟨[0]⟩ [9])
    switching := by decide +kernel

/-- The ID in use is retired by its own frame, sent again with a higher retirement: it is no longer
stored, and its block was given back. -/
theorem not_live_run : ¬ ∀ (connidLen : Nat) (src : ConnId) (dst : List UInt8) (es : List Event),
    (∀ e ∈ es, e.retire ≤ e.seq) → ∀ past, past <+: es →
      ∃ s, Runs.run step (start connidLen src dst) past = some s ∧ Live s := by
  intro h
  obtain ⟨s, hs, hl⟩ := h 8 ⟨[0]⟩ [9] [⟨3, 0, [3]⟩, ⟨3, 3, [3]⟩] (by decide) _ List.prefix_rfl
  have hrun : (Runs.run step (start 8 ⟨[0]⟩ [9]) [⟨3, 0, [3]⟩, ⟨3, 3, [3]⟩]).map
      (fun s => s.gen.dsts.find s.gen.dstActive) = some none := by decide +kernel
  rw [hs] at hrun
  rw [Option.map_some, hl.stored] at hrun
  cases hrun

end DstIds
end OpenQuic
