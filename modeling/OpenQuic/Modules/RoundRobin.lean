import OpenQuic.Lib.RoundRobin
import OpenQuic.Modules.ActiveQueue
import Mathlib.Data.List.Infix

/-!
# The streams take turns

* `served`           the streams that the appends of a run look at, one after the other;
* `appendStreamFrame_moves`   an append is a move of the queue, and its frame is one of the head;
* `fair_run`         **two streams that stay active are looked at in turn**, whatever the streams, the
                     windows and the room in the packets are.
-/

namespace OpenQuic
open StreamLife Runs RoundRobin

namespace ActiveQueue

/-- the stream that an append looks at -/
def turn (st : Streams) : Event → Option Nat
  | .append _ _ _ => st.framer.activeQueue.head?
  | _ => none

def served (cfg : Config) : Streams → List Event → List Nat :=
  shown (step cfg) fun st e => (turn st e).toList

/-- the frame of an append is one of the stream that it looks at -/
def Own (cfg : Config) (st : Streams) : Event → Prop
  | .append mem capa fill => ∀ x, st.appendStreamFrame cfg mem capa fill = some x →
      ∀ f ∈ x.2.1, ∃ sid ∈ st.framer.activeQueue.head?, ∃ off data, f.body = .stream sid off data
  | _ => True

theorem dropActive_queue {f f' : Framer} {sid : Nat} (h : Streams.dropActive f sid = some f') :
    f'.activeQueue = f.activeQueue := by
  obtain ⟨u, _, rfl⟩ := Option.map_eq_some_iff.mp h
  rfl

theorem generate_body {mem : StreamAlloc} {str : Stream} {sid capa : Nat} {fill : Bool} {f : Frame}
    (h : (str.generate mem sid capa fill).frame = some f) :
    ∃ off data, f.body = .stream sid off data := by
  unfold Stream.generate at h
  dsimp only at h
  split at h
  · cases h
  · split at h
    · cases h
    · cases h
      exact ⟨_, _, rfl⟩

/-- **An append is a move of the queue**, and its frame is one of the head. -/
theorem appendStreamFrame_moves {cfg : Config} {mem : StreamAlloc} {st : Streams} {capa : Nat}
    {fill : Bool} {x : Nat × Option Frame × Streams} (h : Agree st.framer)
    (hx : st.appendStreamFrame cfg mem capa fill = some x) :
    Moves st.framer.activeQueue st.framer.activeQueue.head? x.2.2.framer.activeQueue ∧
      ∀ f ∈ x.2.1, ∃ sid ∈ st.framer.activeQueue.head?, ∃ off data, f.body = .stream sid off data := by
  unfold Streams.appendStreamFrame at hx
  by_cases hempty : st.framer.activeSet.entries.isEmpty = true
  · rw [if_pos hempty] at hx
    obtain rfl := (Option.some.inj hx).symm
    have hnil : st.framer.activeQueue = [] := by
      refine List.eq_nil_iff_forall_not_mem.mpr fun sid hsid => ?_
      obtain ⟨u, hu⟩ := Option.isSome_iff_exists.mp ((h.mem_iff sid).mp hsid)
      have hmem := OrdMap.find_eq_some.mp hu
      rw [List.isEmpty_iff.mp hempty] at hmem
      exact absurd hmem List.not_mem_nil
    rw [hnil]
    exact ⟨.rest [], fun f hf => by cases hf⟩
  · rw [if_neg hempty] at hx
    cases hq : st.framer.activeQueue with
    | nil => exact absurd hq (h.queue_ne_nil hempty)
    | cons sid queue =>
      rw [hq] at hx
      dsimp -zeta only at hx
      extract_lets f y at hx
      have hl : Looked cfg { st with framer := { st.framer with activeQueue := queue } } sid _ y :=
        sendRelationStream_looked cfg _ sid
      clear_value y
      have hqueue : y.2.framer.activeQueue = queue := by
        rw [hl.rest.framer]
      cases hn : y.1 with
      | none =>
        rw [hn, Option.bind_none] at hx
        obtain ⟨f, hf, rfl⟩ := Option.map_eq_some_iff.mp hx
        have hf' := (dropActive_queue hf).trans hqueue
        refine ⟨?_, fun g hg => by cases hg⟩
        show Moves _ _ f.activeQueue
        rw [hf']
        exact .leave sid queue
      | some name =>
        obtain ⟨str, hfind, _⟩ := hl.found name hn
        rw [hn, Option.bind_some, hfind, Option.map_some] at hx
        dsimp -zeta only at hx
        extract_lets g st1 framer at hx
        have hframer : framer.activeQueue = queue := by
          unfold framer
          split
          · split <;> exact hqueue
          · exact hqueue
        clear_value framer
        split at hx
        · obtain rfl := (Option.some.inj hx).symm
          refine ⟨?_, fun g hg => by cases hg⟩
          show Moves _ _ (framer.activeQueue ++ [sid])
          rw [hframer]
          exact .again sid queue
        · rename_i frame hframe
          have hbody := generate_body hframe
          split at hx
          · obtain ⟨f, hf, rfl⟩ := Option.map_eq_some_iff.mp hx
            have hf' := (dropActive_queue hf).trans hframer
            refine ⟨?_, fun g hg => ⟨sid, rfl, ?_⟩⟩
            · show Moves _ _ f.activeQueue
              rw [hf']
              exact .leave sid queue
            · cases hg
              exact hbody
          · obtain rfl := (Option.some.inj hx).symm
            refine ⟨?_, fun g hg => ⟨sid, rfl, ?_⟩⟩
            · show Moves _ _ (framer.activeQueue ++ [sid])
              rw [hframer]
              exact .again sid queue
            · cases hg
              exact hbody

section
variable {cfg : Config} {st st' : Streams} {e : Event}

theorem step_moves (h : Agree st.framer) (hs : step cfg st e = some st') :
    Moves st.framer.activeQueue (turn st e) st'.framer.activeQueue ∧ Own cfg st e := by
  cases e with
  | append mem capa fill =>
    obtain ⟨x, hx, rfl⟩ := Option.map_eq_some_iff.mp hs
    exact ⟨(appendStreamFrame_moves h hx).1, fun x hx => (appendStreamFrame_moves h hx).2⟩
  | change other =>
    cases hs
    exact ⟨.rest _, trivial⟩
  | addActive mem sid =>
    cases hs
    refine ⟨?_, trivial⟩
    show Moves _ none (st.framer.addActive mem sid).activeQueue
    unfold Framer.addActive
    split
    · exact .rest _
    · rename_i hno
      have hnew : sid ∉ st.framer.activeQueue := by
        intro hmem
        rw [(h.mem_iff sid).mp hmem] at hno
        exact hno rfl
      dsimp only
      split
      · exact .join hnew
      · exact .rest _

/-- the streams of `S` are in the queue all along -/
def StaysIn (cfg : Config) (S : Set Nat) (st : Streams) (es : List Event) : Prop :=
  ∀ past, past <+: es → ∀ st', run (step cfg) st past = some st' →
    ∀ sid ∈ S, sid ∈ st'.framer.activeQueue

theorem run_stays {S : Set Nat} {es : List Event} (h : Agree st.framer)
    (hg : Along (step cfg) Guarded st es) (hstay : StaysIn cfg S st es) :
    ∃ q, Stays S st.framer.activeQueue (served cfg st es) q := by
  induction es generalizing st with
  | nil => exact ⟨_, .none fun sid hsid => hstay [] List.prefix_rfl st rfl sid hsid⟩
  | cons e es ih =>
    obtain ⟨st1, h1, ha⟩ : ∃ st1, step cfg st e = some st1 ∧ Agree st1.framer := step_agree h hg.1
    have hrest : StaysIn cfg S st1 es := by
      intro past hp st' hst'
      refine hstay (e :: past) (List.cons_prefix_cons.mpr ⟨rfl, hp⟩) st' ?_
      rw [run_cons, h1]
      exact hst'
    obtain ⟨q, hq⟩ := ih ha (hg.2 st1 h1) hrest
    refine ⟨q, ?_⟩
    rw [served, shown_cons _ _ h1]
    exact .more (hstay [] (List.nil_prefix) st rfl) (step_moves h h1).1 hq

/-- two streams are looked at in turn, and what is sent is theirs -/
structure Fair (cfg : Config) (st : Streams) (es : List Event) (a b : Nat) : Prop where
  turns : Alternates a b (served cfg st es)
  own : ∀ past e, past ++ [e] <+: es → ∀ st', run (step cfg) st past = some st' → Own cfg st' e

end

/-- **Fair.**  From any state of a run on, two streams that stay active are looked at in turn, the one
in front first. -/
theorem fair_run (cfg : Config) (past es : List Event)
    (hg : Along (step cfg) Guarded (Streams.init cfg) (past ++ es)) {st : Streams}
    (hst : run (step cfg) (Streams.init cfg) past = some st) {a b : Nat}
    (hab : [a, b].Sublist st.framer.activeQueue) (hstay : StaysIn cfg {a, b} st es) :
    Fair cfg st es a b := by
  have hstep : ∀ st e st', Agree st.framer → Guarded st e → step cfg st e = some st' →
      Agree st'.framer := by
    intro st e st' h hg hs
    obtain ⟨st1, h1, ha⟩ : ∃ st1, step cfg st e = some st1 ∧ Agree st1.framer := step_agree h hg
    rw [Option.some.inj (hs.symm.trans h1)]
    exact ha
  have hagree : Agree st.framer := run_keeps (J := fun st => Agree st.framer)
    (fun st e st' => hstep st e st') (agree_init cfg) hg.append_left hst
  have hrest := hg.append_right (step cfg) hst
  obtain ⟨q, hq⟩ := run_stays hagree hrest hstay
  refine ⟨hq.alternates hagree.nodup (Or.inl rfl) (Or.inr rfl) hab, fun past e hp st' hst' => ?_⟩
  obtain ⟨ha, hge⟩ := run_met (J := fun st => Agree st.framer) (fun st e st' => hstep st e st')
    hagree hrest hp hst'
  obtain ⟨st2, h2, _⟩ : ∃ st2, step cfg st' e = some st2 ∧ Agree st2.framer := step_agree ha hge
  exact (step_moves ha h2).2

/-! ### two streams -/

/-- a server has written 100 bytes to each of two streams -/
def written : Streams :=
  let st := ((Streams.init serverCfg).open serverCfg true).open serverCfg true
  (st.write .ok .outbidi 1 0 (List.replicate 100 0)).write .ok .outbidi 5 0 (List.replicate 100 0)

def listed : List Event := [.change written, .addActive .ok 1, .addActive .ok 5]

/-- packets with little room -/
def appends : List Event :=
  [.append .ok 24 false, .append .ok 24 false, .append .ok 2 false, .append .ok 24 false]

theorem staysIn_of_inits {cfg : Config} {S : Set Nat} {st : Streams} {es : List Event}
    (h : ∀ past ∈ es.inits, ∀ st' ∈ run (step cfg) st past, ∀ sid ∈ S,
      sid ∈ st'.framer.activeQueue) : StaysIn cfg S st es :=
  fun past hp st' hst' => h past ((List.mem_inits past es).mpr hp) st' hst'

example : (run (step serverCfg) (Streams.init serverCfg) listed).map
    (fun st => served serverCfg st appends) = some [1, 5, 1, 5] := by decide +kernel

theorem fair_run_appends : ∃ st, run (step serverCfg) (Streams.init serverCfg) listed = some st ∧
    Fair serverCfg st appends 1 5 := by
  have hrun : (run (step serverCfg) (Streams.init serverCfg) listed).map (fun st =>
      (st.framer.activeQueue, appends.inits.all fun past => (run (step serverCfg) st past).all
        fun st' => decide (1 ∈ st'.framer.activeQueue) && decide (5 ∈ st'.framer.activeQueue))) =
      some ([1, 5], true) := by decide +kernel
  obtain ⟨st, hst, he⟩ := Option.map_eq_some_iff.mp hrun
  obtain ⟨hqueue, hin⟩ := Prod.mk.inj he
  have hg : Along (step serverCfg) Guarded (Streams.init serverCfg) (listed ++ appends) := by
    have hall : Along (step serverCfg) (fun _ e => ∀ st, Guarded st e) (Streams.init serverCfg)
        (listed ++ appends) := by
      refine Along.of_mem _ fun e he => ?_
      simp only [listed, appends, List.cons_append, List.nil_append, List.mem_cons,
        List.not_mem_nil, or_false] at he
      rcases he with rfl | rfl | rfl | rfl | rfl | rfl | rfl
      · exact fun _ => trivial
      · exact fun _ => Or.inr (Or.inr rfl)
      · exact fun _ => Or.inr (Or.inr rfl)
      all_goals exact fun _ => trivial
    exact Along.mono _ (fun st e h => h st) hall
  refine ⟨st, hst, fair_run serverCfg listed appends hg hst (by rw [hqueue]) ?_⟩
  refine staysIn_of_inits fun past hp st' hst' sid hsid => ?_
  have hboth := Option.all_eq_true _ _ |>.mp (List.all_eq_true.mp hin past hp) st' hst'
  rw [Bool.and_eq_true, decide_eq_true_iff, decide_eq_true_iff] at hboth
  rcases hsid with rfl | rfl
  · exact hboth.1
  · exact hboth.2

end ActiveQueue
end OpenQuic
