import OpenQuic.Modules.StreamLife

/-!
# The active streams

The framer keeps the streams that have something to send in a set and in a queue.

* `Listed`            a queue without repetitions that holds exactly the members of a set;
* `addActiveErr`      what `quic_framer_add_active` returns;
* `Event`, `step`     the two operations, between which the streams may change in any way;
* `appendStreamFrame_listed`   the append takes the head out of both, or puts it back at the end;
* `Guarded`           no allocation fails between the two insertions;
* `listed_iff`        the guarded runs are those in which the two agree all along.
-/

namespace OpenQuic
open StreamLife

/-! ## a queue of the members of a set -/

/-- the queue holds the members of the set once each -/
structure Listed (queue : List Nat) (held : Nat → Prop) : Prop where
  nodup : queue.Nodup
  mem_iff : ∀ sid, sid ∈ queue ↔ held sid

namespace Listed

variable {queue : List Nat} {held held' : Nat → Prop} {sid : Nat}

/-- a new member goes to the end of the queue -/
theorem push (h : Listed queue held) (hnew : ¬ held sid)
    (hheld : ∀ k, held' k ↔ k = sid ∨ held k) : Listed (queue ++ [sid]) held' := by
  have hout : sid ∉ queue := fun hm => hnew ((h.mem_iff sid).mp hm)
  refine ⟨List.nodup_append.mpr ⟨h.nodup, List.nodup_singleton sid, ?_⟩, fun k => ?_⟩
  · intro a ha b hb hab
    rw [hab, List.mem_singleton.mp hb] at ha
    exact hout ha
  · rw [List.mem_append, List.mem_singleton, hheld, h.mem_iff, or_comm]

/-- the head goes to the end -/
theorem rotate (h : Listed (sid :: queue) held) : Listed (queue ++ [sid]) held := by
  have hperm : (queue ++ [sid]).Perm (sid :: queue) := List.perm_append_singleton sid queue
  exact ⟨hperm.nodup_iff.mpr h.nodup, fun k => hperm.mem_iff.trans (h.mem_iff k)⟩

/-- the head leaves the queue and the set -/
theorem pop (h : Listed (sid :: queue) held) (hheld : ∀ k, held' k ↔ k ≠ sid ∧ held k) :
    Listed queue held' := by
  obtain ⟨hout, hnd⟩ := List.nodup_cons.mp h.nodup
  refine ⟨hnd, fun k => ?_⟩
  rw [hheld, ← h.mem_iff k, List.mem_cons]
  constructor
  · intro hk
    exact ⟨fun he => hout (he ▸ hk), Or.inr hk⟩
  · rintro ⟨hne, he | hk⟩
    · exact absurd he hne
    · exact hk

end Listed

/-- what `quic_framer_add_active` returns -/
def Framer.addActiveErr (mem : StreamAlloc) (f : Framer) (sid : Nat) : Err :=
  if (f.activeSet.find sid).isSome then .success
  else if !mem.setNode then .internalError
  else if !mem.queNode then .internalError
  else .success

namespace ActiveQueue

/-- the framer's queue holds its set -/
def Agree (f : Framer) : Prop := Listed f.activeQueue fun sid => (f.activeSet.find sid).isSome = true

inductive Event where
  | addActive (mem : StreamAlloc) (sid : Nat)
  | append (mem : StreamAlloc) (capa : Nat) (fill : Bool)
  /-- everything but the set and the queue is what it is in another state -/
  | change (other : Streams)

def step (cfg : Config) (st : Streams) : Event → Option Streams
  | .addActive mem sid => some { st with framer := st.framer.addActive mem sid }
  | .append mem capa fill => (st.appendStreamFrame cfg mem capa fill).map fun x => x.2.2
  | .change other => some { other with framer := { other.framer with
      activeSet := st.framer.activeSet, activeQueue := st.framer.activeQueue } }

/-- a call that returns an error leaves the set and the queue as they are -/
def ErrorKeeps (st : Streams) : Event → Prop
  | .addActive mem sid => st.framer.addActiveErr mem sid ≠ .success →
      (st.framer.addActive mem sid).activeSet = st.framer.activeSet ∧
        (st.framer.addActive mem sid).activeQueue = st.framer.activeQueue
  | _ => True

structure StepOk (cfg : Config) (st : Streams) (e : Event) : Prop where
  agree : ∃ st', step cfg st e = some st' ∧ Agree st'.framer
  error : ErrorKeeps st e

/-- a stream that has come into the set comes into the queue -/
def Guarded (st : Streams) : Event → Prop
  | .addActive mem sid => (st.framer.activeSet.find sid).isSome = true ∨ mem.setNode = false ∨
      mem.queNode = true
  | _ => True

/-! ## the operations -/

theorem held_insert (set : Rbt Unit) (sid k : Nat) :
    ((set.insert sid ()).find k).isSome = true ↔ k = sid ∨ (set.find k).isSome = true := by
  rw [OrdMap.find_insert]
  split <;> simp [*]

theorem held_erase (set : Rbt Unit) (sid k : Nat) :
    ((set.erase sid).find k).isSome = true ↔ k ≠ sid ∧ (set.find k).isSome = true := by
  rw [OrdMap.find_erase]
  split <;> simp [*]

theorem addActive_agree_iff {f : Framer} (h : Agree f) (mem : StreamAlloc) (sid : Nat) :
    Agree (f.addActive mem sid) ↔ (f.activeSet.find sid).isSome = true ∨ mem.setNode = false ∨
      mem.queNode = true := by
  unfold Framer.addActive
  by_cases hin : (f.activeSet.find sid).isSome = true
  · rw [if_pos (by rw [hin]; rfl)]
    exact iff_of_true h (Or.inl hin)
  · rw [Bool.not_eq_true] at hin
    cases hset : mem.setNode with
    | false =>
      rw [if_pos (by rw [hin]; rfl)]
      exact iff_of_true h (Or.inr (Or.inl rfl))
    | true =>
      rw [if_neg (by rw [hin]; decide)]
      have hnew : ¬ (f.activeSet.find sid).isSome = true := by rw [hin]; exact Bool.false_ne_true
      dsimp only
      cases hque : mem.queNode with
      | true =>
        rw [if_pos rfl]
        refine iff_of_true ?_ (Or.inr (Or.inr rfl))
        exact h.push hnew (held_insert f.activeSet sid)
      | false =>
        rw [if_neg Bool.false_ne_true]
        refine iff_of_false (fun hc => hnew ?_) ?_
        · -- the queue is the old one, and the new member of the set is not in it
          have hm := (hc.mem_iff sid).mpr ((held_insert f.activeSet sid sid).mpr (Or.inl rfl))
          exact (h.mem_iff sid).mp hm
        · rw [hin]
          decide

/-- an error without the broken insertion leaves the framer alone -/
theorem addActive_error {f : Framer} {mem : StreamAlloc} {sid : Nat}
    (hg : (f.activeSet.find sid).isSome = true ∨ mem.setNode = false ∨ mem.queNode = true)
    (he : f.addActiveErr mem sid ≠ .success) : f.addActive mem sid = f := by
  unfold Framer.addActive
  refine if_pos ?_
  unfold Framer.addActiveErr at he
  rcases hg with hin | hset | hque
  · rw [hin]
    rfl
  · rw [hset, Bool.not_false, Bool.or_true]
  · cases hset : mem.setNode with
    | false => rw [Bool.not_false, Bool.or_true]
    | true =>
      rw [hset, hque] at he
      simp only [Bool.not_true, Bool.false_eq_true, ↓reduceIte, ite_self, ne_eq,
        not_true_eq_false] at he

theorem dropActive_agree {f : Framer} {sid : Nat} (h : Listed (sid :: f.activeQueue) fun k =>
    (f.activeSet.find k).isSome = true) :
    ∃ f', Streams.dropActive f sid = some f' ∧ Agree f' := by
  obtain ⟨u, hu⟩ := Option.isSome_iff_exists.mp ((h.mem_iff sid).mp List.mem_cons_self)
  refine ⟨_, by rw [Streams.dropActive, hu]; rfl, ?_⟩
  exact h.pop (held_erase f.activeSet sid)

/-- a set that is not empty has a queue that is not empty -/
theorem Agree.queue_ne_nil {f : Framer} (h : Agree f) (hset : ¬ f.activeSet.entries.isEmpty = true) :
    f.activeQueue ≠ [] := by
  intro hnil
  cases he : f.activeSet.entries with
  | nil => exact hset (by rw [he]; rfl)
  | cons e es =>
    have hfind : f.activeSet.find e.1 = some e.2 :=
      OrdMap.find_eq_some.mpr (he ▸ List.mem_cons_self)
    have hm := (h.mem_iff e.1).mpr (by rw [hfind]; rfl)
    rw [hnil] at hm
    exact absurd hm List.not_mem_nil

/-- **An append takes the head of the queue out of both, or puts it back at the end.** -/
theorem appendStreamFrame_listed {cfg : Config} {mem : StreamAlloc} {st : Streams} {capa : Nat}
    {fill : Bool} {o : Option (Nat × Option Frame × Streams)} (h : Agree st.framer)
    (ho : st.appendStreamFrame cfg mem capa fill = o) :
    ∃ x, o = some x ∧ Agree x.2.2.framer := by
  unfold Streams.appendStreamFrame at ho
  by_cases hempty : st.framer.activeSet.entries.isEmpty = true
  · rw [if_pos hempty] at ho
    exact ⟨_, ho.symm, h⟩
  · rw [if_neg hempty] at ho
    cases hq : st.framer.activeQueue with
    | nil => exact absurd hq (h.queue_ne_nil hempty)
    | cons sid queue =>
      rw [hq] at ho
      dsimp -zeta only at ho
      extract_lets f y at ho
      have hl : Looked cfg { st with framer := { st.framer with activeQueue := queue } } sid _ y :=
        sendRelationStream_looked cfg _ sid
      clear_value y
      have hpop : Listed (sid :: y.2.framer.activeQueue) fun k =>
          (y.2.framer.activeSet.find k).isSome = true := by
        rw [hl.rest.framer]
        exact hq ▸ h
      cases hn : y.1 with
      | none =>
        obtain ⟨f, hf, ha⟩ := dropActive_agree hpop
        rw [hn, Option.bind_none, hf] at ho
        exact ⟨_, ho.symm, ha⟩
      | some name =>
        obtain ⟨str, hfind, _⟩ := hl.found name hn
        rw [hn, Option.bind_some, hfind, Option.map_some] at ho
        dsimp -zeta only at ho
        extract_lets g st1 framer at ho
        -- a control frame for a blocked stream leaves the set and the queue alone
        have hframer : Listed (sid :: framer.activeQueue) fun k =>
            (framer.activeSet.find k).isSome = true := by
          unfold framer
          split
          · split <;> exact hpop
          · exact hpop
        clear_value framer
        split at ho
        · exact ⟨_, ho.symm, hframer.rotate⟩
        · split at ho
          · obtain ⟨f, hf, ha⟩ := dropActive_agree hframer
            rw [hf] at ho
            exact ⟨_, ho.symm, ha⟩
          · exact ⟨_, ho.symm, hframer.rotate⟩

/-! ## runs -/

theorem agree_init (cfg : Config) : Agree (Streams.init cfg).framer :=
  ⟨List.nodup_nil, fun _ => iff_of_false List.not_mem_nil Bool.false_ne_true⟩

/-- a guarded step is defined and keeps the two in agreement -/
theorem step_agree {cfg : Config} {st : Streams} {e : Event} (h : Agree st.framer)
    (hg : Guarded st e) : ∃ st', step cfg st e = some st' ∧ Agree st'.framer := by
  cases e with
  | addActive mem sid => exact ⟨_, rfl, (addActive_agree_iff h mem sid).mpr hg⟩
  | append mem capa fill =>
    obtain ⟨x, hx, ha⟩ :=
      appendStreamFrame_listed h (show st.appendStreamFrame cfg mem capa fill = _ from rfl)
    exact ⟨_, congrArg (Option.map _) hx, ha⟩
  | change other => exact ⟨_, rfl, h⟩

theorem stepOk_iff {cfg : Config} {st : Streams} {e : Event} (h : Agree st.framer) :
    StepOk cfg st e ↔ Guarded st e := by
  constructor
  · rintro ⟨⟨st', hst, ha⟩, _⟩
    cases e with
    | addActive mem sid =>
      rw [← Option.some.inj hst] at ha
      exact (addActive_agree_iff h mem sid).mp ha
    | append mem capa fill => trivial
    | change other => trivial
  · intro hg
    refine ⟨step_agree h hg, ?_⟩
    cases e with
    | addActive mem sid =>
      intro he
      rw [addActive_error hg he]
      exact ⟨rfl, rfl⟩
    | append mem capa fill => trivial
    | change other => trivial

/-- **The queue and the set of the active streams.**  The guarded runs are exactly those in which the
two hold the same streams all along, and in which an error changes neither. -/
theorem listed_iff (cfg : Config) (es : List Event) :
    (∀ past e, past ++ [e] <+: es → ∀ st, Runs.run (step cfg) (Streams.init cfg) past = some st →
      StepOk cfg st e) ↔ Runs.Along (step cfg) Guarded (Streams.init cfg) es := by
  have hok : Runs.Along (step cfg) (fun _ _ => True) (Streams.init cfg) es :=
    Runs.Along.of_mem _ fun _ _ => trivial
  refine Runs.steps_iff_along (I := fun st => Agree st.framer) (fun st e h _ => stepOk_iff h)
    (fun st e st' h _ hg hst => ?_) es (agree_init cfg) hok
  obtain ⟨st2, hst2, ha⟩ : ∃ st2, step cfg st e = some st2 ∧ Agree st2.framer := step_agree h hg
  rw [Option.some.inj (hst.symm.trans hst2)]
  exact ha

/-- The second allocation fails: the stream is in the set, not in the queue, and stays so. -/
theorem not_listed :
    ¬ ∀ (cfg : Config) (es : List Event), ∀ past e, past ++ [e] <+: es → ∀ st,
      Runs.run (step cfg) (Streams.init cfg) past = some st → StepOk cfg st e := by
  intro h
  have hok := h serverCfg [.addActive { StreamAlloc.ok with queNode := false } 4] [] _
    List.prefix_rfl (Streams.init serverCfg) rfl
  exact absurd ((stepOk_iff (agree_init serverCfg)).mp hok) (by unfold Guarded; decide)

end ActiveQueue
end OpenQuic
