import OpenQuic.Lib.Registry
import OpenQuic.Lib.Runs
import OpenQuic.Modules.Stream
import OpenQuic.Sorter.Gaps

/-!
# The life of a peer's stream

The runs of the stream module of one session: frames of the peer, the application's calls, passes of
the module, and the sender's calls, in any order.  Seen from outside, the streams of the peer are a
registry that creates its members on demand.

* `view`               the registry: which streams of the peer there are, and what happened to them;
* `refs`               the peer's identifiers that a step looks up;
* `step_view`          a step refers to `refs`, and then removes some streams;
* `OnceOnly`           no stream of the peer is created or accepted twice, or after its destruction;
* `Guarded`            a step looks up no stream of the peer that was destroyed;
* `once_only_iff`      the runs in which streams live once are the guarded ones.
-/

namespace OpenQuic
namespace StreamLife
open Word Streams Registry

/-! ## runs -/

inductive Event where
  | streamFrame (mem : StreamAlloc) (firstByte : UInt8) (sid off : Nat) (data : List UInt8)
  | maxStreamData (mem : StreamAlloc) (sid maxData : Nat)
  | setAccept (cb : Bool)
  | openStream (bidi : Bool)
  | setDeadline (name : SetName) (sid : Nat) (deadline : Time)
  | write (mem : StreamAlloc) (name : SetName) (sid : Nat) (now : Time) (data : List UInt8)
  | writeWoken (name : SetName) (sid : Nat) (now : Time)
  | read (mem : StreamAlloc) (name : SetName) (sid rtt : Nat) (now : Time) (woken : Bool) (len : Nat)
  | close (mem : StreamAlloc) (name : SetName) (sid rtt : Nat) (now : Time) (closedCb : Bool)
  | moduleLoop (mem : StreamAlloc) (now : Time)
  | processRwnd (mem : StreamAlloc)
  | appendStreamFrame (mem : StreamAlloc) (capa : Nat) (fill : Bool)

def step (cfg : Config) (st : Streams) : Event → Option Streams
  | .streamFrame mem firstByte sid off data => handleStreamFrame cfg mem st firstByte sid off data
  | .maxStreamData mem sid maxData => handleMaxStreamData cfg mem st sid maxData
  | .setAccept cb => some { st with acceptCb := cb }
  | .openStream bidi => some (st.open cfg bidi)
  | .setDeadline name sid deadline => some (st.setDeadline name sid deadline)
  | .write mem name sid now data => some (st.write mem name sid now data)
  | .writeWoken name sid now => some (st.writeWoken name sid now)
  | .read mem name sid rtt now woken len => st.read cfg mem name sid rtt now woken len
  | .close mem name sid rtt now closedCb => st.close cfg mem name sid rtt now closedCb
  | .moduleLoop mem now => some (st.moduleLoop cfg mem now)
  | .processRwnd mem => some (st.processRwnd cfg mem)
  | .appendStreamFrame mem capa fill => (st.appendStreamFrame cfg mem capa fill).map fun x => x.2.2

/-- a STREAM frame as the parser delivers it: the fields are variable-length integers -/
def OnWire : Event → Prop
  | .streamFrame _ _ _ off data => off ≤ varintMax ∧ data.length ≤ varintMax
  | _ => True

/-! ## the registry of the peer's streams -/

/-- what is recorded of a stream of the peer -/
def mark (cfg : Config) : Life → Option (Mark Nat)
  | .created sid => if streamIdSamePrincipal sid cfg then none else some (.created sid)
  | .accepted sid => if streamIdSamePrincipal sid cfg then none else some (.announced sid)
  | .closed _ => none
  | .destoried sid => if streamIdSamePrincipal sid cfg then none else some (.removed sid)

def view (cfg : Config) (st : Streams) : Members Nat where
  alive := {sid | streamIdSamePrincipal sid cfg = false ∧
    ((st.streams (recvSet sid)).find sid).isSome}
  trace := st.trace.filterMap (mark cfg)

/-- no stream of the peer is created or accepted twice, or after its destruction -/
def OnceOnly (cfg : Config) (st : Streams) : Prop := Once (st.trace.filterMap (mark cfg))

def peers (cfg : Config) (sids : List Nat) : List Nat :=
  sids.filter fun sid => !streamIdSamePrincipal sid cfg

/-- the peer's identifiers that a step looks up -/
def refs (cfg : Config) (st : Streams) : Event → List Nat
  | .streamFrame _ _ sid _ _ => peers cfg [sid]
  | .maxStreamData _ sid _ => if streamIdIsBidi sid then peers cfg [sid] else []
  | .processRwnd mem => peers cfg (rootsInOrder mem st)
  | .appendStreamFrame _ _ _ =>
    if st.framer.activeSet.entries.isEmpty then []
    else match st.framer.activeQueue with
      | [] => []
      | sid :: _ => if streamIdIsBidi sid then peers cfg [sid] else []
  | _ => []

/-- no stream that a step looks up was destroyed -/
def Guarded (cfg : Config) (st : Streams) (e : Event) : Prop :=
  ∀ sid ∈ refs cfg st e, Life.destoried sid ∉ st.trace

theorem mem_peers {cfg : Config} {sids : List Nat} {sid : Nat} :
    sid ∈ peers cfg sids ↔ sid ∈ sids ∧ streamIdSamePrincipal sid cfg = false := by
  rw [peers, List.mem_filter, Bool.not_eq_true']

theorem peers_cons (cfg : Config) (sid : Nat) (sids : List Nat) :
    peers cfg (sid :: sids) = peers cfg [sid] ++ peers cfg sids := by
  rw [← List.singleton_append, peers, List.filter_append]
  rfl

theorem removed_mem_view {cfg : Config} {st : Streams} {sid : Nat}
    (h : streamIdSamePrincipal sid cfg = false) :
    Mark.removed sid ∈ (view cfg st).trace ↔ Life.destoried sid ∈ st.trace := by
  show Mark.removed sid ∈ st.trace.filterMap (mark cfg) ↔ _
  rw [List.mem_filterMap]
  constructor
  · rintro ⟨a, ha, hm⟩
    cases a <;> simp only [mark] at hm <;> try split at hm
    all_goals cases hm
    exact ha
  · intro ha
    exact ⟨_, ha, by simp [mark, h]⟩

/-! ## what leaves the registry alone -/

theorem streams_setStreams (st : Streams) (name n : SetName) (ss : Rbt Stream) :
    (st.setStreams name ss).streams n = if n = name then ss else st.streams n := by
  unfold setStreams streams
  dsimp only
  split <;> rfl

theorem find_putStream (st : Streams) (name n : SetName) (sid k : Nat) (str : Stream) :
    ((st.putStream name sid str).streams n).find k =
      if n = name ∧ k = sid then some str else (st.streams n).find k := by
  rw [putStream, streams_setStreams, ite_and]
  split
  · subst n
    exact OrdMap.find_insert _ _ _ _
  · rfl

theorem find_eraseStream (st : Streams) (name n : SetName) (sid k : Nat) :
    ((st.setStreams name ((st.streams name).erase sid)).streams n).find k =
      if n = name ∧ k = sid then none else (st.streams n).find k := by
  rw [streams_setStreams, ite_and]
  split
  · subst n
    exact OrdMap.find_erase _ _ _
  · rfl

theorem view_ext {cfg : Config} {st st' : Streams}
    (halive : ∀ sid, streamIdSamePrincipal sid cfg = false →
      ((st'.streams (recvSet sid)).find sid).isSome = ((st.streams (recvSet sid)).find sid).isSome)
    (htrace : st'.trace.filterMap (mark cfg) = st.trace.filterMap (mark cfg)) :
    view cfg st' = view cfg st := by
  unfold view
  rw [htrace]
  congr 1
  ext sid
  exact and_congr_right fun h => by rw [halive sid h]

theorem putStream_view (cfg : Config) {st : Streams} {name : SetName} {sid : Nat} {str0 : Stream}
    (h : (st.streams name).find sid = some str0) (str : Stream) :
    view cfg (st.putStream name sid str) = view cfg st := by
  refine view_ext (fun k _ => ?_) rfl
  rw [find_putStream]
  split
  · rename_i hk
    rw [hk.1, hk.2, h]
    rfl
  · rfl

theorem recvSet_cases (sid : Nat) : recvSet sid = .inbidi ∨ recvSet sid = .inuni := by
  unfold recvSet
  split
  · exact Or.inl rfl
  · exact Or.inr rfl

theorem sendSet_ne_recvSet (sid k : Nat) : recvSet k ≠ sendSet sid := by
  unfold sendSet
  rcases recvSet_cases k with h | h <;> rw [h] <;> split <;> decide

/-! ## looking a stream up -/

theorem openRecvStream_view (cfg : Config) (st : Streams) {sid : Nat}
    (h : streamIdSamePrincipal sid cfg = false) :
    view cfg (openRecvStream cfg st sid) = refer st.acceptCb (view cfg st) sid := by
  unfold openRecvStream refer
  cases hf : (st.streams (recvSet sid)).find sid with
  | some str =>
    rw [if_pos (show sid ∈ (view cfg st).alive from ⟨h, by rw [hf]; rfl⟩)]
  | none =>
    rw [if_neg (fun ha : sid ∈ (view cfg st).alive => by
      have := ha.2
      rw [hf] at this
      cases this)]
    dsimp only
    unfold view
    congr 1
    · ext k
      show _ ∧ (((st.putStream (recvSet sid) sid (Stream.create cfg)).streams _).find k).isSome ↔
        k = sid ∨ (_ ∧ _)
      rw [find_putStream]
      by_cases hk : k = sid
      · subst hk
        rw [if_pos ⟨rfl, rfl⟩]
        simp [h]
      · rw [if_neg fun hc => hk hc.2]
        simp [hk]
    · show (st.trace ++ _).filterMap (mark cfg) = _
      rw [List.filterMap_append]
      congr 1
      unfold creation
      cases st.acceptCb <;> simp [mark, h]

theorem openRecvStream_find (cfg : Config) (st : Streams) (sid : Nat) :
    ∃ str, ((openRecvStream cfg st sid).streams (recvSet sid)).find sid = some str ∧
      ((st.streams (recvSet sid)).find sid = none → str = Stream.create cfg) := by
  unfold openRecvStream
  cases hf : (st.streams (recvSet sid)).find sid with
  | some str => exact ⟨str, hf, fun h => nomatch h⟩
  | none =>
    refine ⟨Stream.create cfg, ?_, fun _ => rfl⟩
    show ((st.putStream (recvSet sid) sid (Stream.create cfg)).streams _).find sid = _
    rw [find_putStream, if_pos ⟨rfl, rfl⟩]

/-- what a lookup does not touch -/
structure SameRest (st st' : Streams) : Prop where
  rwndUpdated : st'.rwndUpdated = st.rwndUpdated
  destorySet : st'.destorySet = st.destorySet
  acceptCb : st'.acceptCb = st.acceptCb
  framer : st'.framer = st.framer
  conn : st'.conn = st.conn

theorem openRecvStream_rest (cfg : Config) (st : Streams) (sid : Nat) :
    SameRest st (openRecvStream cfg st sid) := by
  unfold openRecvStream
  split <;> exact ⟨rfl, rfl, rfl, rfl, rfl⟩

/-- How a lookup takes `st` to `x`: it refers to `ks`, and a stream that it answers is there, a new
one if it had to be created. -/
structure Looked (cfg : Config) (st : Streams) (sid : Nat) (ks : List Nat)
    (x : Option SetName × Streams) : Prop where
  rest : SameRest st x.2
  view : view cfg x.2 = refers st.acceptCb ks (view cfg st)
  found : ∀ name, x.1 = some name → ∃ str, (x.2.streams name).find sid = some str ∧
    (ks = [sid] → (st.streams (recvSet sid)).find sid = none → str = Stream.create cfg)
  answers : ks = [sid] → x.1 = some (recvSet sid)

theorem looked_own {cfg : Config} {st : Streams} {sid : Nat} {o : Option SetName}
    (h : ∀ name, o = some name → ((st.streams name).find sid).isSome) :
    Looked cfg st sid [] (o, st) := by
  refine ⟨⟨rfl, rfl, rfl, rfl, rfl⟩, rfl, fun name hn => ?_, nofun⟩
  obtain ⟨str, hs⟩ := Option.isSome_iff_exists.mp (h name hn)
  exact ⟨str, hs, nofun⟩

theorem looked_peer {cfg : Config} (st : Streams) {sid : Nat}
    (h : streamIdSamePrincipal sid cfg = false) :
    Looked cfg st sid [sid] (some (recvSet sid), openRecvStream cfg st sid) := by
  refine ⟨openRecvStream_rest cfg st sid, openRecvStream_view cfg st h, fun name hn => ?_,
    fun _ => rfl⟩
  cases hn
  obtain ⟨str, h1, h2⟩ := openRecvStream_find cfg st sid
  exact ⟨str, h1, fun _ => h2⟩

theorem peers_singleton (cfg : Config) (sid : Nat) :
    peers cfg [sid] = if streamIdSamePrincipal sid cfg then [] else [sid] := by
  unfold peers
  cases h : streamIdSamePrincipal sid cfg <;> simp [h]

theorem recvRelationStream_looked (cfg : Config) (st : Streams) (sid : Nat) :
    Looked cfg st sid (peers cfg [sid]) (recvRelationStream cfg st sid) := by
  rw [peers_singleton, recvRelationStream]
  cases h : streamIdSamePrincipal sid cfg with
  | false => exact looked_peer st h
  | true =>
    refine looked_own fun name hn => ?_
    split at hn
    · rename_i hf
      cases hn
      exact hf.2
    · cases hn

theorem sendRelationStream_looked (cfg : Config) (st : Streams) (sid : Nat) :
    Looked cfg st sid (if streamIdIsBidi sid then peers cfg [sid] else [])
      (sendRelationStream cfg st sid) := by
  rw [peers_singleton, sendRelationStream]
  cases h : streamIdSamePrincipal sid cfg with
  | false =>
    cases hb : streamIdIsBidi sid with
    | true => exact looked_peer st h
    | false => exact looked_own nofun
  | true =>
    rw [if_pos rfl, ite_self]
    refine looked_own fun name hn => ?_
    split at hn
    · rename_i hf
      cases hn
      exact hf
    · cases hn

/-! ## frames of the peer -/

theorem handleStreamFrame_view {cfg : Config} {mem : StreamAlloc} {st st' : Streams}
    {firstByte : UInt8} {sid off : Nat} {data : List UInt8}
    (h : handleStreamFrame cfg mem st firstByte sid off data = some st') :
    view cfg st' = refers st.acceptCb (peers cfg [sid]) (view cfg st) := by
  have hl := recvRelationStream_looked cfg st sid
  unfold handleStreamFrame at h
  generalize recvRelationStream cfg st sid = x at h hl
  rw [← hl.view]
  dsimp only at h
  cases hn : x.1 with
  | none =>
    rw [hn] at h
    cases h
    rfl
  | some name =>
    obtain ⟨str, hf, _⟩ := hl.found name hn
    rw [hn] at h
    dsimp only at h
    rw [hf] at h
    obtain ⟨y, _, rfl⟩ := Option.map_eq_some_iff.mp h
    exact putStream_view cfg hf y.1

theorem handleMaxStreamData_view {cfg : Config} {mem : StreamAlloc} {st st' : Streams}
    {sid maxData : Nat} (h : handleMaxStreamData cfg mem st sid maxData = some st') :
    view cfg st' = refers st.acceptCb (if streamIdIsBidi sid then peers cfg [sid] else [])
      (view cfg st) := by
  have hl := sendRelationStream_looked cfg st sid
  unfold handleMaxStreamData at h
  generalize sendRelationStream cfg st sid = x at h hl
  rw [← hl.view]
  dsimp only at h
  cases hn : x.1 with
  | none =>
    rw [hn] at h
    cases h
    rfl
  | some name =>
    obtain ⟨str, hf, _⟩ := hl.found name hn
    rw [hn] at h
    dsimp only at h
    rw [hf] at h
    dsimp only at h
    split at h
    · cases h
      exact putStream_view cfg hf _
    · cases h
      exact putStream_view cfg hf _

/-! ## the application -/

/-- an identifier that `quic_stream_open` makes up is one's own -/
theorem samePrincipal_transfer (cfg : Config) (key : Nat) :
    streamIdSamePrincipal (streamIdTransfer true cfg.isCli key) cfg = true := by
  have hshl : shl64 (sub64 key 1) 2 % 2 = 0 := by
    rw [shl64, Word.trunc, Nat.shiftLeft_eq]
    omega
  have hpar : streamIdTransfer true cfg.isCli key % 2 = if cfg.isCli then 0 else 1 := by
    rw [streamIdTransfer, add64, Word.add]
    cases cfg.isCli
    · simp only [if_true, Bool.false_eq_true, if_false]
      omega
    · simp only [if_true]
      omega
  rw [streamIdSamePrincipal, streamIdIsCli, hpar]
  cases cfg.isCli <;> rfl

theorem open_view (cfg : Config) (st : Streams) (bidi : Bool) :
    view cfg (st.open cfg bidi) = view cfg st := by
  have hown := samePrincipal_transfer cfg (st.sets (if bidi then .outbidi else .outuni)).nextSid
  refine view_ext (fun sid _ => ?_) ?_
  · have hne : recvSet sid ≠ if bidi then .outbidi else .outuni := by
      rcases recvSet_cases sid with h | h <;> rw [h] <;> cases bidi <;> decide
    show (OrdMap.find (StreamSet.streams (if _ then _ else _)) sid).isSome = _
    rw [if_neg hne]
    show (((st.putStream _ _ _).streams _).find sid).isSome = _
    rw [find_putStream, if_neg (fun h => hne h.1)]
  · show (st.trace ++ _ ++ _).filterMap (mark cfg) = _
    have hgone : ∀ c : Bool, (if c then [Life.destoried (streamIdTransfer true cfg.isCli (st.sets
        (if bidi then .outbidi else .outuni)).nextSid)] else []).filterMap (mark cfg) = [] := by
      intro c
      cases c <;> simp [mark, hown]
    rw [List.filterMap_append, List.filterMap_append, hgone]
    simp [mark, hown]

theorem setDeadline_view (cfg : Config) (st : Streams) (name : SetName) (sid : Nat)
    (deadline : Time) : view cfg (st.setDeadline name sid deadline) = view cfg st := by
  unfold setDeadline
  split
  · rfl
  · rename_i hf
    exact putStream_view cfg hf _

theorem write_view (cfg : Config) (mem : StreamAlloc) (st : Streams) (name : SetName) (sid : Nat)
    (now : Time) (data : List UInt8) : view cfg (st.write mem name sid now data) = view cfg st := by
  unfold Streams.write
  split
  · rfl
  · rename_i hf
    dsimp only
    split
    · exact putStream_view cfg hf _
    · exact putStream_view cfg hf _

theorem writeWoken_view (cfg : Config) (st : Streams) (name : SetName) (sid : Nat) (now : Time) :
    view cfg (st.writeWoken name sid now) = view cfg st := by
  unfold writeWoken
  split
  · rfl
  · rename_i hf
    exact putStream_view cfg hf _

theorem updateRwnd_view (cfg : Config) (mem : StreamAlloc) (st : Streams) (sid : Nat) :
    view cfg (st.updateRwnd mem sid) = view cfg st := by
  unfold updateRwnd
  split <;> rfl

theorem read_view {cfg : Config} {mem : StreamAlloc} {st st' : Streams} {name : SetName}
    {sid rtt : Nat} {now : Time} {woken : Bool} {len : Nat}
    (h : st.read cfg mem name sid rtt now woken len = some st') : view cfg st' = view cfg st := by
  unfold Streams.read at h
  split at h
  · cases h
    rfl
  · rename_i hf
    obtain ⟨x, _, rfl⟩ := Option.map_eq_some_iff.mp h
    dsimp only
    split
    · rw [updateRwnd_view]
      exact putStream_view cfg hf _
    · exact putStream_view cfg hf _

theorem destoryPush_view (cfg : Config) (mem : StreamAlloc) (st : Streams) (sid : Nat) (now : Time)
    (closedCb : Bool) : view cfg (st.destoryPush mem sid now closedCb) = view cfg st := by
  unfold destoryPush
  split <;> rfl

theorem close_view {cfg : Config} {mem : StreamAlloc} {st st' : Streams} {name : SetName}
    {sid rtt : Nat} {now : Time} {closedCb : Bool}
    (h : st.close cfg mem name sid rtt now closedCb = some st') : view cfg st' = view cfg st := by
  unfold Streams.close at h
  split at h
  · cases h
    rfl
  · rename_i str hf
    obtain ⟨conn, _, rfl⟩ := Option.map_eq_some_iff.mp h
    rw [destoryPush_view]
    exact putStream_view cfg hf _

/-! ## destruction -/

theorem setDelete_view (cfg : Config) (st : Streams) (sid : Nat) :
    view cfg (st.setDelete (homeSet cfg sid) sid) = removes (peers cfg [sid]) (view cfg st) := by
  rw [peers_singleton]
  unfold setDelete
  cases hp : streamIdSamePrincipal sid cfg with
  | true =>
    rw [if_pos rfl, removes_nil, homeSet, hp, if_pos rfl]
    split
    · rfl
    · refine view_ext (fun k _ => ?_) ?_
      · show (((st.setStreams _ _).streams _).find k).isSome = _
        rw [streams_setStreams, if_neg (sendSet_ne_recvSet sid k)]
      · show (st.trace ++ _).filterMap (mark cfg) = _
        simp [mark, hp]
  | false =>
    rw [if_neg Bool.false_ne_true, homeSet, hp, if_neg Bool.false_ne_true]
    show _ = remove (view cfg st) sid
    unfold remove
    cases hf : (st.streams (recvSet sid)).find sid with
    | none =>
      rw [if_neg (fun ha : sid ∈ (view cfg st).alive => by
        have := ha.2
        rw [hf] at this
        cases this)]
    | some str =>
      rw [if_pos (show sid ∈ (view cfg st).alive from ⟨hp, by rw [hf]; rfl⟩)]
      dsimp only
      unfold view
      congr 1
      · ext k
        show _ ∧ (((st.setStreams _ _).streams _).find k).isSome ↔ (_ ∧ _) ∧ ¬ k = sid
        rw [find_eraseStream]
        by_cases hk : k = sid
        · subst hk
          simp
        · simp [hk]
      · show (st.trace ++ _).filterMap (mark cfg) = _
        rw [List.filterMap_append]
        simp [mark, hp]

theorem destoryVisit_view (cfg : Config) (mem : StreamAlloc) (now : Time)
    (x : Streams × List Nat) (e : Nat × DestorySid) :
    ∃ ks, view cfg (destoryVisit cfg mem now x e).1 = removes ks (view cfg x.1) := by
  unfold destoryVisit
  dsimp only
  split
  · exact ⟨[], rfl⟩
  · split
    · refine ⟨peers cfg [e.1], (setDelete_view cfg _ _).trans (congrArg _ ?_)⟩
      split
      · refine view_ext (fun _ _ => rfl) ?_
        show (x.1.trace ++ _).filterMap (mark cfg) = _
        simp [mark]
      · rfl
    · exact ⟨[], rfl⟩

theorem moduleLoop_view (cfg : Config) (mem : StreamAlloc) (st : Streams) (now : Time) :
    ∃ ks, view cfg (st.moduleLoop cfg mem now) = removes ks (view cfg st) := by
  have hfold : ∀ (es : List (Nat × DestorySid)) (x : Streams × List Nat),
      ∃ ks, view cfg (es.foldl (destoryVisit cfg mem now) x).1 = removes ks (view cfg x.1) := by
    intro es
    induction es with
    | nil => exact fun x => ⟨[], rfl⟩
    | cons e es ih =>
      intro x
      obtain ⟨ks, hks⟩ := destoryVisit_view cfg mem now x e
      obtain ⟨js, hjs⟩ := ih (destoryVisit cfg mem now x e)
      refine ⟨ks ++ js, ?_⟩
      rw [List.foldl_cons, hjs, hks, removes_append]
  exact hfold st.destorySet.entries (st, [])

/-! ## the sender -/

theorem processRwndVisit_view (cfg : Config) (mem : StreamAlloc) (st : Streams) (sid : Nat) :
    view cfg (processRwndVisit cfg mem st sid) =
        refers st.acceptCb (peers cfg [sid]) (view cfg st) ∧
      (processRwndVisit cfg mem st sid).acceptCb = st.acceptCb := by
  have hl := recvRelationStream_looked cfg st sid
  rw [← hl.view, ← hl.rest.acceptCb]
  unfold processRwndVisit
  dsimp only
  split
  · exact ⟨rfl, rfl⟩
  · split <;> exact ⟨rfl, rfl⟩

theorem processRwnd_view (cfg : Config) (mem : StreamAlloc) (st : Streams) :
    view cfg (st.processRwnd cfg mem) =
      refers st.acceptCb (peers cfg (rootsInOrder mem st)) (view cfg st) := by
  have hfold : ∀ (sids : List Nat) (s : Streams),
      view cfg (sids.foldl (processRwndVisit cfg mem) s) =
        refers s.acceptCb (peers cfg sids) (view cfg s) := by
    intro sids
    induction sids with
    | nil => exact fun s => rfl
    | cons sid sids ih =>
      intro s
      obtain ⟨h1, h2⟩ := processRwndVisit_view cfg mem s sid
      show view cfg (sids.foldl _ (processRwndVisit cfg mem s sid)) = _
      rw [ih, h1, h2, peers_cons cfg sid sids, refers_append]
  exact hfold (rootsInOrder mem st) st

theorem appendStreamFrame_view {cfg : Config} {mem : StreamAlloc} {st : Streams} {capa : Nat}
    {fill : Bool} {x : Nat × Option Frame × Streams}
    (h : st.appendStreamFrame cfg mem capa fill = some x) :
    view cfg x.2.2 = refers st.acceptCb (refs cfg st (.appendStreamFrame mem capa fill))
      (view cfg st) := by
  unfold Streams.appendStreamFrame at h
  rw [refs]
  split at h
  · rename_i hempty
    cases h
    rw [if_pos hempty]
    rfl
  · rename_i hempty
    rw [if_neg hempty]
    cases hq : st.framer.activeQueue with
    | nil =>
      rw [hq] at h
      cases h
    | cons sid queue =>
      rw [hq] at h
      dsimp only at h ⊢
      have hl := sendRelationStream_looked cfg
        { st with framer := { st.framer with activeQueue := queue } } sid
      generalize sendRelationStream cfg _ sid = y at h hl
      refine Eq.trans ?_ hl.view
      cases hn : y.1 with
      | none =>
        rw [hn] at h
        obtain ⟨f, _, rfl⟩ := Option.map_eq_some_iff.mp h
        rfl
      | some name =>
        obtain ⟨str, hf, _⟩ := hl.found name hn
        rw [hn, Option.bind_some, hf, Option.map_some] at h
        dsimp only at h
        have hput := putStream_view cfg hf (str.generate mem sid capa fill).stream
        split at h
        · cases h
          exact hput
        · split at h
          · obtain ⟨f, _, rfl⟩ := Option.map_eq_some_iff.mp h
            exact hput
          · cases h
            exact hput

/-! ## steps and runs -/

/-- **A step refers to the streams that it looks up, and then removes some.** -/
theorem step_view {cfg : Config} {st st' : Streams} {e : Event} (h : step cfg st e = some st') :
    ∃ ks, view cfg st' = removes ks (refers st.acceptCb (refs cfg st e) (view cfg st)) := by
  cases e with
  | streamFrame mem firstByte sid off data => exact ⟨[], handleStreamFrame_view h⟩
  | maxStreamData mem sid maxData => exact ⟨[], handleMaxStreamData_view h⟩
  | setAccept cb =>
    cases h
    exact ⟨[], rfl⟩
  | openStream bidi =>
    cases h
    exact ⟨[], open_view cfg st bidi⟩
  | setDeadline name sid deadline =>
    cases h
    exact ⟨[], setDeadline_view cfg st name sid deadline⟩
  | write mem name sid now data =>
    cases h
    exact ⟨[], write_view cfg mem st name sid now data⟩
  | writeWoken name sid now =>
    cases h
    exact ⟨[], writeWoken_view cfg st name sid now⟩
  | read mem name sid rtt now woken len => exact ⟨[], read_view h⟩
  | close mem name sid rtt now closedCb => exact ⟨[], close_view h⟩
  | moduleLoop mem now =>
    cases h
    exact moduleLoop_view cfg mem st now
  | processRwnd mem =>
    cases h
    exact ⟨[], processRwnd_view cfg mem st⟩
  | appendStreamFrame mem capa fill =>
    obtain ⟨x, hx, rfl⟩ := Option.map_eq_some_iff.mp h
    exact ⟨[], appendStreamFrame_view hx⟩

theorem refs_peer {cfg : Config} {st : Streams} {e : Event} {sid : Nat} (h : sid ∈ refs cfg st e) :
    streamIdSamePrincipal sid cfg = false := by
  cases e <;> simp only [refs] at h <;> (try split at h) <;> (try split at h) <;>
    first
    | exact (mem_peers.mp h).2
    | exact absurd h List.not_mem_nil
    | (split at h <;> first | exact (mem_peers.mp h).2 | exact absurd h List.not_mem_nil)

/-! ### a step that looks a destroyed stream up -/

/-- the first fragment of a stream is always taken -/
theorem recvStreamHandleFrame_fresh (mem : StreamAlloc) {str : Stream} (conn : ConnFlowctrl)
    (firstByte : UInt8) {off : Nat} {data : List UInt8} (hs : str.recv.sorter = Sorter.init)
    (h1 : off ≤ varintMax) (h2 : data.length ≤ varintMax) :
    (recvStreamHandleFrame mem str conn firstByte off data).isSome := by
  have hend : off + data.length < Sorter.maxSize := by
    rw [varintMax] at h1 h2
    rw [Sorter.maxSize]
    omega
  have hw := Sorter.write_init_isSome mem.sorter (fun i => data.getD i 0) hend
  unfold recvStreamHandleFrame
  extract_lets tOff fin newlyFin window recv
  have hsorter : recv.sorter = Sorter.init := (str.recv.finish_sorter fin tOff).trans hs
  split
  · rfl
  · split
    · rfl
    · rw [Option.isSome_map, hsorter]
      exact hw

/-- an open stream without bytes to send makes no frame -/
theorem generate_idle (mem : StreamAlloc) {str : Stream} (sid bytes : Nat) (fill : Bool)
    (hlen : str.send.readerLen = 0) (hopen : str.send.closed = false) :
    (str.generate mem sid bytes fill).frame = none := by
  have hle := str.payloadSize_le sid bytes fill
  rw [hlen] at hle
  have hc : str.payloadSize sid bytes fill = 0 ∧ (!str.send.closed) = true :=
    ⟨Nat.le_zero.mp hle, by rw [hopen]; rfl⟩
  unfold Stream.generate
  rw [if_pos hc]

theorem refs_singleton {cfg : Config} {c : Prop} [Decidable c] {sid k : Nat}
    (h : k ∈ if c then peers cfg [sid] else []) :
    k = sid ∧ (if c then peers cfg [sid] else []) = [sid] := by
  split at h
  · rename_i hc
    obtain ⟨h1, h2⟩ := mem_peers.mp h
    have hk := List.mem_singleton.mp h1
    subst hk
    rw [if_pos hc, peers_singleton, h2]
    exact ⟨rfl, rfl⟩
  · exact absurd h List.not_mem_nil

/-- a step that has to create a stream has a result -/
theorem step_isSome {cfg : Config} {st : Streams} {e : Event} {k : Nat} (hw : OnWire e)
    (hk : k ∈ refs cfg st e) (hnone : (st.streams (recvSet k)).find k = none) :
    ∃ st', step cfg st e = some st' := by
  cases e with
  | streamFrame mem firstByte sid off data =>
    obtain ⟨rfl, hks⟩ := refs_singleton (c := True) (by rw [if_pos trivial]; exact hk)
    rw [if_pos trivial] at hks
    have hl := recvRelationStream_looked cfg st k
    rw [step]
    unfold handleStreamFrame
    generalize recvRelationStream cfg st k = x at hl
    have hn := hl.answers hks
    obtain ⟨str, hf, hstr⟩ := hl.found _ hn
    have hfresh : str.recv.sorter = Sorter.init := by
      rw [hstr hks hnone]
      rfl
    obtain ⟨y, hy⟩ := Option.isSome_iff_exists.mp
      (recvStreamHandleFrame_fresh mem x.2.conn firstByte hfresh hw.1 hw.2)
    dsimp only
    rw [hn]
    dsimp only
    rw [hf]
    exact ⟨_, by dsimp only; rw [hy, Option.map_some]⟩
  | maxStreamData mem sid maxData =>
    obtain ⟨rfl, hks⟩ := refs_singleton hk
    have hl := sendRelationStream_looked cfg st k
    rw [step]
    unfold handleMaxStreamData
    generalize sendRelationStream cfg st k = x at hl
    have hn := hl.answers hks
    obtain ⟨str, hf, _⟩ := hl.found _ hn
    dsimp only
    rw [hn]
    dsimp only
    rw [hf]
    exact ⟨_, rfl⟩
  | processRwnd mem => exact ⟨_, rfl⟩
  | appendStreamFrame mem capa fill =>
    rw [refs] at hk
    split at hk
    · exact absurd hk List.not_mem_nil
    · rename_i hempty
      split at hk
      · exact absurd hk List.not_mem_nil
      · rename_i sid queue hq
        obtain ⟨rfl, hks⟩ := refs_singleton hk
        have hl := sendRelationStream_looked cfg
          { st with framer := { st.framer with activeQueue := queue } } k
        rw [step]
        unfold Streams.appendStreamFrame
        rw [if_neg hempty, hq]
        dsimp only
        generalize sendRelationStream cfg _ k = x at hl
        have hn := hl.answers hks
        obtain ⟨str, hf, hstr⟩ := hl.found _ hn
        have hidle : (str.generate mem k capa fill).frame = none := by
          rw [hstr hks hnone]
          exact generate_idle mem k capa fill rfl rfl
        rw [hn, Option.bind_some, hf, Option.map_some]
        dsimp only
        rw [hidle]
        exact ⟨_, rfl⟩
  | _ => exact absurd hk List.not_mem_nil

theorem step_sound {cfg : Config} {st st' : Streams} {e : Event} (hs : Sound (view cfg st))
    (hg : Guarded cfg st e) (h : step cfg st e = some st') : Sound (view cfg st') := by
  obtain ⟨ks, hv⟩ := step_view h
  rw [hv]
  refine removes_sound (refers_sound hs st.acceptCb _ fun k hk => ?_) ks
  rw [removed_mem_view (refs_peer hk)]
  exact hg k hk

theorem step_stale {cfg : Config} {st : Streams} {e : Event} (hs : Sound (view cfg st))
    (hw : OnWire e) (hg : ¬ Guarded cfg st e) :
    ∃ st', step cfg st e = some st' ∧ ¬ OnceOnly cfg st' := by
  obtain ⟨k, hk, hd⟩ : ∃ k ∈ refs cfg st e, Life.destoried k ∈ st.trace := by
    simpa [Guarded] using hg
  have hpeer := refs_peer hk
  have hremoved := (removed_mem_view hpeer).mpr hd
  have hnone : (st.streams (recvSet k)).find k = none := by
    by_contra hne
    exact ((hs.alive k).mp ⟨hpeer, Option.isSome_iff_ne_none.mpr hne⟩).2 hremoved
  obtain ⟨st', hst'⟩ := step_isSome hw hk hnone
  refine ⟨st', hst', fun ho => ?_⟩
  obtain ⟨ks, hv⟩ := step_view hst'
  have htrace : (view cfg st').trace = st'.trace.filterMap (mark cfg) := rfl
  rw [OnceOnly, ← htrace, hv] at ho
  exact refers_stale hs st.acceptCb hk hremoved (ho.of_isPrefix (removes_trace ks _))

theorem init_sound (cfg : Config) : Sound (view cfg (Streams.init cfg)) := by
  have halive : (view cfg (Streams.init cfg)).alive = ∅ := by
    ext sid
    show _ ∧ (OrdMap.find OrdMap.empty sid).isSome ↔ _
    rw [OrdMap.find_empty]
    simp
  have heq : view cfg (Streams.init cfg) = ⟨∅, []⟩ := by
    rw [← halive]
    rfl
  rw [heq]
  exact sound_empty

/-- **Every stream of the peer lives once, exactly along the guarded runs.** -/
theorem once_only_iff (cfg : Config) (es : List Event) (hw : ∀ e ∈ es, OnWire e) :
    (∀ past, past <+: es → ∀ st, Runs.run (step cfg) (Streams.init cfg) past = some st →
      OnceOnly cfg st) ↔ Runs.Along (step cfg) (Guarded cfg) (Streams.init cfg) es :=
  Runs.holds_iff_along (I := fun st => Sound (view cfg st)) (fun _ hs => hs.once)
    (fun _ _ _ hs _ hg h => step_sound hs hg h) (fun _ _ hs hw hg => step_stale hs hw hg) es
    (init_sound cfg) (Runs.Along.of_mem (step cfg) hw)

instance decidableOnWire : (e : Event) → Decidable (OnWire e)
  | .streamFrame _ _ _ off data => inferInstanceAs (Decidable (off ≤ _ ∧ data.length ≤ _))
  | .maxStreamData _ _ _ => isTrue trivial
  | .setAccept _ => isTrue trivial
  | .openStream _ => isTrue trivial
  | .setDeadline _ _ _ => isTrue trivial
  | .write _ _ _ _ _ => isTrue trivial
  | .writeWoken _ _ _ => isTrue trivial
  | .read _ _ _ _ _ _ _ => isTrue trivial
  | .close _ _ _ _ _ _ => isTrue trivial
  | .moduleLoop _ _ => isTrue trivial
  | .processRwnd _ => isTrue trivial
  | .appendStreamFrame _ _ _ => isTrue trivial

instance decidableGuarded (cfg : Config) (st : Streams) (e : Event) : Decidable (Guarded cfg st e) :=
  inferInstanceAs (Decidable (∀ sid ∈ refs cfg st e, _ ∉ st.trace))

/-- a stream of the client that is read, closed by both sides and destroyed, and another one after
it -/
def exchange : List Event :=
  [.setAccept true, .streamFrame .ok 0x0a 0 0 [1, 2], .streamFrame .ok 0x0b 0 2 [3],
    .read .ok .inbidi 0 0 5 false 10, .close .ok .inbidi 0 0 6 true,
    .appendStreamFrame .ok 1000 false, .moduleLoop .ok 7, .processRwnd .ok]

theorem once_only_exchange :
    Runs.Along (step serverCfg) (Guarded serverCfg) (Streams.init serverCfg)
        (exchange ++ [.streamFrame .ok 0x0b 4 0 [1]]) ∧
      ∀ past, past <+: exchange ++ [.streamFrame .ok 0x0b 4 0 [1]] → ∀ st,
        Runs.run (step serverCfg) (Streams.init serverCfg) past = some st → OnceOnly serverCfg st :=
  ⟨by decide +kernel, (once_only_iff serverCfg _ (by decide)).mpr (by decide +kernel)⟩

/-- The second fragment of the stream arrives again after the stream was destroyed. -/
theorem not_once_only :
    ¬ ∀ (cfg : Config) (es : List Event), (∀ e ∈ es, OnWire e) → ∀ past, past <+: es → ∀ st,
      Runs.run (step cfg) (Streams.init cfg) past = some st → OnceOnly cfg st := by
  intro h
  have htrace : (Runs.run (step serverCfg) (Streams.init serverCfg)
      (exchange ++ [.streamFrame .ok 0x0b 0 2 [3]])).map (fun st => st.trace) =
    some [.created 0, .accepted 0, .closed 0, .destoried 0, .created 0, .accepted 0] := by decide +kernel
  obtain ⟨st, hst, ht⟩ := Option.map_eq_some_iff.mp htrace
  have ho := h serverCfg _ (by decide) _ List.prefix_rfl st hst
  have hmarks : [Life.created 0, .accepted 0, .closed 0, .destoried 0, .created 0,
      .accepted 0].filterMap (mark serverCfg) =
    [.created 0, .announced 0, .removed 0, .created 0, .announced 0] := rfl
  rw [OnceOnly, ht, hmarks] at ho
  have hc := ho.created 0
  simp at hc

end StreamLife
end OpenQuic
