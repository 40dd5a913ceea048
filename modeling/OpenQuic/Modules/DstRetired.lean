import Mathlib.Data.List.Nodup
import OpenQuic.Modules.DstIds

/-!
# The retired IDs of the peer

The runs of `OpenQuic.Modules.DstIds` with the sequence numbers of their frames pairwise distinct, and
how often a RETIRE_CONNECTION_ID frame is queued for each of them.

* `Connids.stored`   the sequence numbers in `dsts`;
* `Divides`          a frame divides what is stored, and its own ID, into what it retires and what
                     stays stored;
* `Books`            a state with the IDs that have left;
* `retired_iff`      the runs in which each ID that left is retired once and none that is stored is:
                     no frame brings ID 0 again or retires the ID in use.
-/

namespace OpenQuic

namespace Connids

/-- the sequence numbers in `dsts` -/
def stored (s : Connids) : List Nat := s.gen.dsts.entries.map Prod.fst

theorem mem_stored {s : Connids} {k : Nat} :
    k ∈ s.stored ↔ ∃ c, s.gen.dsts.find k = some c := OrdMap.mem_keys

theorem nodup_stored (s : Connids) : s.stored.Nodup := s.gen.dsts.nodup_keys

/-- the frame takes `s` to `s'`: of the stored IDs and its own, those in `l` are retired and the others
are stored -/
structure Divides (seq : Nat) (l : List Nat) (s s' : Connids) : Prop where
  queued : s'.queued = s.queued ++ l
  nodup : (l ++ s'.stored).Nodup
  all : ∀ k, k ∈ l ++ s'.stored ↔ k ∈ s.stored ∨ k = seq

/-- the IDs that the loop for `retire` takes from `dsts` -/
def retiredBy (s : Connids) (retire : Nat) : List Nat :=
  if s.gen.dstHretire < retire then s.stored.filter fun k => k ≤ retire else []

theorem mem_retiredBy {s : Connids} {retire k : Nat} : k ∈ s.retiredBy retire ↔
    k ∈ s.stored ∧ s.gen.dstHretire < retire ∧ k ≤ retire := by
  unfold retiredBy
  split
  · rename_i hlt
    rw [List.mem_filter, decide_eq_true_eq]
    exact and_congr_right fun _ => (and_iff_right hlt).symm
  · rename_i hge
    exact iff_of_false List.not_mem_nil fun h => hge h.2.1

theorem nodup_retiredBy (s : Connids) (retire : Nat) : (s.retiredBy retire).Nodup := by
  unfold retiredBy
  split
  · exact s.nodup_stored.filter _
  · exact List.nodup_nil

theorem raise_queued (s : Connids) (retire : Nat) :
    (s.raise retire).queued = s.queued ++ s.retiredBy retire := by
  unfold raise retiredBy
  split
  · obtain ⟨s', hs', hr⟩ := retireDsts_spec retire _ s le_rfl
    rw [hs']
    show s'.queued = _
    rw [hr.queued, stored, List.filter_map]
    rfl
  · exact (List.append_nil _).symm

theorem mem_stored_raise {s : Connids} {retire k : Nat} :
    k ∈ (s.raise retire).stored ↔ k ∈ s.stored ∧ k ∉ s.retiredBy retire := by
  rw [mem_retiredBy]
  simp only [mem_stored, (s.raise_spec retire).find, exists_and_right, ← Nat.not_le]
  exact and_congr_right fun hk =>
    ⟨fun h hx => h hx.2.1 hx.2.2, fun h hlt hle => h ⟨hk, hlt, hle⟩⟩

theorem mem_stored_insertDst {s : Connids} {seq : Nat} {conn : List UInt8} {k : Nat} :
    k ∈ (s.insertDst .ok seq conn).1.stored ↔ k ∈ s.stored ∨ k = seq := by
  obtain ⟨_, hst⟩ := s.insertDst_spec seq conn
  by_cases hk : k = seq
  · subst hk
    exact iff_of_true (mem_stored.mpr hst.own) (Or.inr rfl)
  · rw [mem_stored, mem_stored, hst.others k hk]
    exact (or_iff_left hk).symm

theorem mem_stored_updateDst {s : Connids} {j : Nat} (hj : j ∈ s.stored)
    (hne : j ≠ s.gen.dstActive) {k : Nat} :
    k ∈ (s.updateDst .ok).1.stored ↔ k ∈ s.stored ∧ k ≠ s.gen.dstActive := by
  obtain ⟨c, hc⟩ := mem_stored.mp hj
  have hsw := updateDst_spec hne hc
  by_cases hk : k = s.gen.dstActive
  · subst hk
    refine iff_of_false ?_ fun h => h.2 rfl
    rw [mem_stored, hsw.gone]
    exact fun h => Option.some_ne_none _ h.choose_spec.symm
  · rw [mem_stored, mem_stored, hsw.find k hk]
    exact (and_iff_left hk).symm

/-! ## one frame -/

section
variable {s : Connids} {seq retire : Nat}

/-- what the loop for `retire` takes, and the frame's own ID beside what is left -/
theorem divides_raise (hseq : seq ∉ s.retiredBy retire) {s' : Connids}
    (hq : s'.queued = (s.raise retire).queued)
    (hs : ∀ k, k ∈ s'.stored ↔ k ∈ (s.raise retire).stored ∨ k = seq) :
    Divides seq (s.retiredBy retire) s s' := by
  refine ⟨hq.trans (s.raise_queued retire), ?_, fun k => ?_⟩
  · refine List.nodup_append.mpr ⟨s.nodup_retiredBy retire, s'.nodup_stored, ?_⟩
    rintro k hk _ hk' rfl
    rcases (hs k).mp hk' with hk' | rfl
    · exact (mem_stored_raise.mp hk').2 hk
    · exact hseq hk
  · rw [List.mem_append, hs, mem_stored_raise, ← or_assoc]
    refine or_congr_left ⟨?_, fun hk => ?_⟩
    · rintro (hk | hk)
      · exact (mem_retiredBy.mp hk).1
      · exact hk.1
    · by_cases hr : k ∈ s.retiredBy retire
      · exact Or.inl hr
      · exact Or.inr ⟨hk, hr⟩

/-- the frame brings an ID that is neither stored nor retired, or the one in use -/
def New (s : Connids) (seq : Nat) : Prop :=
  seq ∈ s.queued ++ s.stored → seq = s.gen.dstActive

/-- the frame retires the ID in use with its batch, before it goes over to another -/
def RetiresActive (s : Connids) (retire : Nat) : Prop :=
  s.gen.dstHretire < retire ∧ s.gen.dstActive ≤ retire

instance (s : Connids) (retire : Nat) : Decidable (RetiresActive s retire) :=
  inferInstanceAs (Decidable (_ ∧ _))

/-- **One frame.**  A frame with a new ID that does not retire the ID in use divides the IDs. -/
theorem handleNewConnectionId_divides (h : Ordered s) (hnew : New s seq)
    (hg : ¬ RetiresActive s retire) (conn : List UInt8) :
    ∃ l, Divides seq l s (s.handleNewConnectionId .ok seq retire conn).1 := by
  obtain ⟨_, hst⟩ := (s.raise retire).insertDst_spec seq conn
  have hactive : s.gen.dstActive ∉ s.retiredBy retire := fun hm =>
    hg ⟨(mem_retiredBy.mp hm).2.1, (mem_retiredBy.mp hm).2.2⟩
  have hseq : seq ∉ s.retiredBy retire := fun hm => by
    have hs := (mem_retiredBy.mp hm).1
    rw [hnew (List.mem_append_right _ hs)] at hm
    exact hactive hm
  rcases s.handleNewConnectionId_cases seq retire conn with
    ⟨hlt, he⟩ | ⟨_, hact, he⟩ | ⟨_, hne, hlt, he⟩ | ⟨_, hne, hact, he⟩ <;> rw [he]
  · have hns : seq ∉ s.stored := fun hs => by
      have hle := h.active
      rw [← hnew (List.mem_append_right _ hs)] at hle
      omega
    refine ⟨[seq], queued_ctrl_retire s seq, List.nodup_cons.mpr ⟨hns, s.nodup_stored⟩, fun k => ?_⟩
    exact List.mem_cons.trans or_comm
  · refine ⟨_, divides_raise hseq rfl fun k => (or_iff_left_of_imp ?_).symm⟩
    rintro rfl
    refine mem_stored_raise.mpr ⟨?_, hseq⟩
    rw [hact]
    exact mem_stored.mpr ⟨_, h.stored⟩
  · exact ⟨_, divides_raise hseq hst.queued fun k => mem_stored_insertDst⟩
  · -- the batch is empty
    have hnil : s.retiredBy retire = [] := if_neg fun hlt => hg ⟨hlt, hact⟩
    have hown : seq ∈ ((s.raise retire).insertDst .ok seq conn).1.stored :=
      mem_stored_insertDst.mpr (Or.inr rfl)
    have hactive' := s.raised_stored_active seq retire conn
    have hmem := fun k => mem_stored_updateDst hown (by rwa [hactive']) (k := k)
    have hq := (raised_stored_switched hne retire conn).queued
    rw [hst.queued, raise_queued, hnil, List.append_nil, hactive'] at hq
    simp only [mem_stored_insertDst, mem_stored_raise, hnil, hactive', List.not_mem_nil,
      not_false_eq_true, and_true] at hmem
    refine ⟨[s.gen.dstActive], hq, List.nodup_cons.mpr ⟨fun hm => ((hmem _).mp hm).2 rfl,
      nodup_stored _⟩, fun k => ?_⟩
    rw [List.mem_append, List.mem_singleton, hmem]
    constructor
    · rintro (rfl | hk)
      · exact Or.inl (mem_stored.mpr ⟨_, h.stored⟩)
      · exact hk.1
    · intro hk
      by_cases ha : k = s.gen.dstActive
      · exact Or.inl ha
      · exact Or.inr ⟨hk, ha⟩

/-- A frame that retires the ID in use with its batch queues it twice, and it is not stored. -/
theorem handleNewConnectionId_active (h : Ordered s) (hne : seq ≠ s.gen.dstActive)
    (hle : retire ≤ seq) (hr : RetiresActive s retire) (conn : List UInt8) :
    2 ≤ (s.handleNewConnectionId .ok seq retire conn).1.queued.count s.gen.dstActive ∧
      s.gen.dstActive ∉ (s.handleNewConnectionId .ok seq retire conn).1.stored := by
  obtain ⟨hlt, hact⟩ := hr
  obtain ⟨_, hst⟩ := (s.raise retire).insertDst_spec seq conn
  rcases s.handleNewConnectionId_cases seq retire conn with
    ⟨hlt', _⟩ | ⟨_, hact', _⟩ | ⟨_, _, hlt', _⟩ | ⟨_, _, _, he⟩
  · omega
  · exact absurd hact' hne
  · omega
  · rw [he]
    have hactive := s.raised_stored_active seq retire conn
    have hsw := raised_stored_switched hne retire conn
    have hq := hsw.queued
    have hgone := hsw.gone
    rw [hst.queued, raise_queued, hactive] at hq
    rw [hactive] at hgone
    have hm : s.gen.dstActive ∈ s.retiredBy retire :=
      mem_retiredBy.mpr ⟨mem_stored.mpr ⟨_, h.stored⟩, hlt, hact⟩
    constructor
    · rw [hq, List.count_append, List.count_append, List.count_singleton_self]
      have := List.count_pos_iff.mpr hm
      omega
    · rw [mem_stored, hgone]
      exact fun h => Option.some_ne_none _ h.choose_spec.symm

/-- an ID below the highest retired one is retired -/
theorem handleNewConnectionId_late (s : Connids) (seq retire : Nat) (conn : List UInt8)
    (h : seq < s.gen.dstHretire) :
    seq ∈ (s.handleNewConnectionId .ok seq retire conn).1.queued := by
  unfold handleNewConnectionId
  rw [if_pos h, if_pos (show ConnidAlloc.ok.retireFrame seq = true from rfl), queued_ctrl_retire]
  exact List.mem_append_right _ (List.mem_singleton_self seq)

/-- the ID that a session leaves is retired -/
theorem handleNewConnectionId_left (s : Connids) (seq retire : Nat) (conn : List UInt8) :
    (s.handleNewConnectionId .ok seq retire conn).1.gen.dstActive = s.gen.dstActive ∨
      s.gen.dstActive ∈ (s.handleNewConnectionId .ok seq retire conn).1.queued := by
  have hr := s.raise_spec retire
  rcases s.handleNewConnectionId_cases seq retire conn with
    ⟨_, he⟩ | ⟨_, _, he⟩ | ⟨_, _, _, he⟩ | ⟨_, hne, _, he⟩ <;> rw [he]
  · exact Or.inl rfl
  · exact Or.inl hr.active
  · exact Or.inl (s.raised_stored_active seq retire conn)
  · right
    rw [(raised_stored_switched hne retire conn).queued, raised_stored_active]
    exact List.mem_append_right _ (List.mem_singleton_self _)

/-- An ID that was retired and comes again is retired a second time, or stored. -/
theorem handleNewConnectionId_again (hq : seq ∈ s.queued) (hne : seq ≠ s.gen.dstActive)
    (retire : Nat) (conn : List UInt8) :
    (seq < s.gen.dstHretire ∧
      2 ≤ (s.handleNewConnectionId .ok seq retire conn).1.queued.count seq) ∨
    (seq ∈ (s.handleNewConnectionId .ok seq retire conn).1.stored ∧
      seq ∈ (s.handleNewConnectionId .ok seq retire conn).1.queued) := by
  obtain ⟨_, hst⟩ := (s.raise retire).insertDst_spec seq conn
  have hqr : seq ∈ ((s.raise retire).insertDst .ok seq conn).1.queued := by
    rw [hst.queued, raise_queued]
    exact List.mem_append_left _ hq
  have hown : seq ∈ ((s.raise retire).insertDst .ok seq conn).1.stored :=
    mem_stored_insertDst.mpr (Or.inr rfl)
  rcases s.handleNewConnectionId_cases seq retire conn with
    ⟨hlt, he⟩ | ⟨_, hact, _⟩ | ⟨_, _, _, he⟩ | ⟨_, _, _, he⟩
  · rw [he]
    refine Or.inl ⟨hlt, ?_⟩
    rw [queued_ctrl_retire, List.count_append, List.count_singleton_self]
    have := List.count_pos_iff.mpr hq
    omega
  · exact absurd hact hne
  · rw [he]
    exact Or.inr ⟨hown, hqr⟩
  · rw [he]
    have hne' : seq ≠ ((s.raise retire).insertDst .ok seq conn).1.gen.dstActive := by
      rwa [raised_stored_active]
    refine Or.inr ⟨(mem_stored_updateDst hown hne').mpr ⟨hown, hne'⟩, ?_⟩
    rw [(raised_stored_switched hne retire conn).queued]
    exact List.mem_append_left _ hqr

end
end Connids

/-! ## runs -/

namespace DstRetired
open Connids

/-- a state, the IDs that have left or were refused, and those of the frames so far -/
structure Books where
  ids : Connids
  gone : List Nat
  seen : List Nat

def step (s : Books) (e : DstIds.Event) : Option Books :=
  (DstIds.step s.ids e).map fun ids =>
    { ids := ids
      gone := s.gone ++ (s.ids.stored.filter fun k => k ∉ ids.stored) ++
        if e.seq < s.ids.gen.dstHretire then [e.seq] else []
      seen := s.seen ++ [e.seq] }

def start (connidLen : Nat) (src : ConnId) (dst : List UInt8) : Books :=
  ⟨DstIds.start connidLen src dst, [], []⟩

/-- each ID that left is retired once, and none that is stored is -/
structure RetiredOnce (s : Books) : Prop where
  gone : ∀ k ∈ s.gone, s.ids.queued.count k = 1
  stays : ∀ k ∈ s.ids.stored, k ∉ s.ids.queued

/-- The frame does not bring ID 0 after the session left it, and does not retire the ID in use with its
batch. -/
def Apart (s : Books) (e : DstIds.Event) : Prop :=
  (e.seq = 0 → s.ids.gen.dstActive = 0) ∧ ¬ RetiresActive s.ids e.retire

instance (s : Books) (e : DstIds.Event) : Decidable (Apart s e) :=
  inferInstanceAs (Decidable (_ ∧ _))

/-- every ID that came, and the first one, is queued or stored, and once -/
structure Booked (s : Books) : Prop where
  ordered : Ordered s.ids
  nodup : (s.ids.queued ++ s.ids.stored).Nodup
  known : ∀ k, k ∈ s.ids.queued ++ s.ids.stored ↔ k = 0 ∨ k ∈ s.seen
  gone : ∀ k ∈ s.gone, k ∈ s.ids.queued
  left : s.ids.gen.dstActive = 0 ∨ 0 ∈ s.ids.queued

theorem Booked.retiredOnce {s : Books} (h : Booked s) : RetiredOnce s := by
  obtain ⟨hq, _, hd⟩ := List.nodup_append.mp h.nodup
  exact ⟨fun k hk => List.count_eq_one_of_mem hq (h.gone k hk),
    fun k hk hkq => hd k hkq k hk rfl⟩

theorem mem_gone (s : Books) (e : DstIds.Event) (ids : Connids) (k : Nat) :
    (k ∈ s.gone ++ (s.ids.stored.filter fun k => k ∉ ids.stored) ++
      if e.seq < s.ids.gen.dstHretire then [e.seq] else []) ↔
      k ∈ s.gone ∨ (k ∈ s.ids.stored ∧ k ∉ ids.stored) ∨
        (e.seq < s.ids.gen.dstHretire ∧ k = e.seq) := by
  rw [List.mem_append, List.mem_append, List.mem_filter, decide_eq_true_eq, or_assoc]
  refine or_congr_right (or_congr_right ?_)
  split
  · rename_i hlt
    rw [List.mem_singleton]
    exact (and_iff_right hlt).symm
  · rename_i hge
    exact iff_of_false List.not_mem_nil fun h => hge h.1

/-- **One frame.**  It keeps the books where it is apart. -/
theorem Booked.next {s : Books} (h : Booked s) {e : DstIds.Event} (hseen : e.seq ∉ s.seen)
    (hle : e.retire ≤ e.seq) (hg : Apart s e) : ∃ s', step s e = some s' ∧ Booked s' := by
  have hnew : New s.ids e.seq := fun hm => by
    have h0 := ((h.known _).mp hm).resolve_right hseen
    rw [hg.1 h0, h0]
  have hown : ¬ RetiresOwn s.ids e.seq e.retire := fun ⟨hlt, hre, _, hact⟩ =>
    hg.2 ⟨hlt, hre ▸ hact⟩
  have hord : Ordered (s.ids.handleNewConnectionId .ok e.seq e.retire e.conn).1 :=
    handleNewConnectionId_ordered h.ordered hle hown
  obtain ⟨l, hd⟩ := handleNewConnectionId_divides h.ordered hnew hg.2 e.conn
  have hleft := s.ids.handleNewConnectionId_left e.seq e.retire e.conn
  have hlate := s.ids.handleNewConnectionId_late e.seq e.retire e.conn
  refine ⟨_, rfl, ?_⟩
  generalize (s.ids.handleNewConnectionId .ok e.seq e.retire e.conn).1 = ids
    at hord hd hleft hlate
  have hkeep : ∀ k ∈ s.ids.queued, k ∈ ids.queued := fun k hk => by
    rw [hd.queued]
    exact List.mem_append_left _ hk
  obtain ⟨hq, hst, hdis⟩ := List.nodup_append.mp h.nodup
  refine ⟨hord, ?_, fun k => ?_, fun k hk => ?_, ?_⟩
  · rw [hd.queued, List.append_assoc]
    refine List.nodup_append.mpr ⟨hq, hd.nodup, ?_⟩
    rintro k hk _ hk' rfl
    rcases (hd.all k).mp hk' with hk' | rfl
    · exact hdis k hk k hk' rfl
    · rw [hnew (List.mem_append_left _ hk)] at hk
      exact h.ordered.unretired hk
  · rw [hd.queued, List.append_assoc, List.mem_append, hd.all, ← or_assoc, ← List.mem_append, h.known,
      List.mem_append, List.mem_singleton, or_assoc]
  · rcases (mem_gone s e ids k).mp hk with hk | ⟨hk, hk'⟩ | ⟨hlt, rfl⟩
    · exact hkeep k (h.gone k hk)
    · rw [hd.queued]
      have := List.mem_append.mp ((hd.all k).mpr (Or.inl hk))
      exact List.mem_append_right _ (this.resolve_right hk')
    · exact hlate hlt
  · rcases h.left with h0 | h0
    · rcases hleft with ha | ha
      · exact Or.inl (ha.trans h0)
      · exact Or.inr (h0 ▸ ha)
    · exact Or.inr (hkeep 0 h0)

/-- a frame that is not apart breaks the books -/
theorem Booked.apart_of_retiredOnce {s s' : Books} (h : Booked s) {e : DstIds.Event}
    (hseen : e.seq ∉ s.seen) (hle : e.retire ≤ e.seq) (hs : step s e = some s')
    (ho : RetiredOnce s') : Apart s e := by
  cases hs
  have hmem := mem_gone s e (s.ids.handleNewConnectionId .ok e.seq e.retire e.conn).1
  refine ⟨fun h0 => ?_, fun hr => ?_⟩
  · by_contra hact
    have hq : e.seq ∈ s.ids.queued := h0 ▸ h.left.resolve_left hact
    have hne : e.seq ≠ s.ids.gen.dstActive := fun heq => hact (heq.symm.trans h0)
    rcases handleNewConnectionId_again hq hne e.retire e.conn with ⟨hlt, hc⟩ | ⟨hm, hq⟩
    · have := ho.gone e.seq ((hmem _).mpr (Or.inr (Or.inr ⟨hlt, rfl⟩)))
      exact absurd this (Nat.ne_of_gt hc)
    · exact ho.stays e.seq hm hq
  · have hactive : s.ids.gen.dstActive ∈ s.ids.stored := mem_stored.mpr ⟨_, h.ordered.stored⟩
    have hne : e.seq ≠ s.ids.gen.dstActive := fun heq => by
      have h0 := ((h.known _).mp (List.mem_append_right _ hactive)).resolve_right (heq ▸ hseen)
      have := hr.1
      omega
    obtain ⟨hc, hm⟩ := handleNewConnectionId_active h.ordered hne hle hr e.conn
    have := ho.gone _ ((hmem _).mpr (Or.inr (Or.inl ⟨hactive, hm⟩)))
    exact absurd this (Nat.ne_of_gt hc)

theorem start_booked (connidLen : Nat) (src : ConnId) (dst : List UInt8) :
    Booked (start connidLen src dst) := by
  have hst : (start connidLen src dst).ids.stored = [0] := rfl
  refine ⟨DstIds.start_ordered connidLen src dst, ?_, fun k => ?_, nofun, Or.inl rfl⟩
  · rw [hst]
    exact List.nodup_singleton 0
  · rw [hst]
    exact List.mem_singleton.trans (or_iff_left List.not_mem_nil).symm

/-- what is known of a frame of a run whose sequence numbers are distinct -/
def Distinct (s : Books) (e : DstIds.Event) : Prop := e.seq ∉ s.seen ∧ e.retire ≤ e.seq

theorem along_distinct {s : Books} {es : List DstIds.Event} (hle : ∀ e ∈ es, e.retire ≤ e.seq)
    (hseqs : (s.seen ++ es.map DstIds.Event.seq).Nodup) : Runs.Along step Distinct s es := by
  induction es generalizing s with
  | nil => trivial
  | cons e es ih =>
    rw [List.map_cons, List.append_cons] at hseqs
    refine ⟨⟨fun hm => ?_, hle e List.mem_cons_self⟩, fun s' hs' => ?_⟩
    · have := (List.nodup_append.mp hseqs.of_append_left).2.2
      exact this e.seq hm e.seq (List.mem_singleton_self _) rfl
    · cases hs'
      exact ih (fun f hf => hle f (List.mem_cons_of_mem e hf)) hseqs

/-- **The retired IDs.**  In every state of a run each ID that left is named by one
RETIRE_CONNECTION_ID, and none that is stored by any, if and only if every frame of the run is apart. -/
theorem retired_iff (connidLen : Nat) (src : ConnId) (dst : List UInt8) (es : List DstIds.Event)
    (hle : ∀ e ∈ es, e.retire ≤ e.seq) (hseqs : (es.map DstIds.Event.seq).Nodup) :
    (∀ past, past <+: es → ∃ s, Runs.run step (start connidLen src dst) past = some s ∧
        RetiredOnce s) ↔
      Runs.Along step Apart (start connidLen src dst) es :=
  Runs.always_iff_along (fun _ => Booked.retiredOnce) (fun _ _ hb hd hg => hb.next hd.1 hd.2 hg)
    (fun _ _ _ hb hd hs ho => hb.apart_of_retiredOnce hd.1 hd.2 hs ho) es
    (start_booked connidLen src dst) (along_distinct hle hseqs)

/-- the session goes over to ID 4, ID 5 raises the highest retired number, and ID 2 is late -/
def late : List DstIds.Event := [⟨4, 0, [4]⟩, ⟨5, 3, [5]⟩, ⟨2, 0, [2]⟩, ⟨6, 3, [6]⟩]

theorem retired_iff_late : ((∀ e ∈ late, e.retire ≤ e.seq) ∧ (late.map DstIds.Event.seq).Nodup) ∧
    ((∀ past, past <+: late → ∃ s, Runs.run step (start 8 ⟨[0]⟩ [9]) past = some s ∧ RetiredOnce s) ↔
      Runs.Along step Apart (start 8 ⟨[0]⟩ [9]) late) :=
  ⟨⟨by decide, by decide⟩, retired_iff 8 ⟨[0]⟩ [9] late (by decide) (by decide)⟩

example : Runs.Along step Apart (start 8 ⟨[0]⟩ [9]) late := by decide +kernel

/-- The first frame retires ID 0 and brings ID 1: ID 0 leaves with the batch, and again as the ID in
use. -/
theorem not_retiredOnce_run : ¬ ∀ (connidLen : Nat) (src : ConnId) (dst : List UInt8)
    (es : List DstIds.Event), (∀ e ∈ es, e.retire ≤ e.seq) → (es.map DstIds.Event.seq).Nodup →
      ∀ past, past <+: es →
        ∃ s, Runs.run step (start connidLen src dst) past = some s ∧ RetiredOnce s := by
  intro h
  obtain ⟨s, hs, ho⟩ := h 8 ⟨[0]⟩ [9] [⟨1, 1, [1]⟩] (by decide) (by decide) _ List.prefix_rfl
  have hrun : (Runs.run step (start 8 ⟨[0]⟩ [9]) [⟨1, 1, [1]⟩]).map
      (fun s => (s.gone, s.ids.queued)) = some ([0], [0, 0]) := by decide +kernel
  rw [hs, Option.map_some, Option.some.injEq, Prod.mk.injEq] at hrun
  have := ho.gone 0 (by rw [hrun.1]; exact List.mem_singleton_self 0)
  rw [hrun.2] at this
  exact absurd this (by decide)

end DstRetired
end OpenQuic
