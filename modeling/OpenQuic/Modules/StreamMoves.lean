import OpenQuic.Modules.StreamLife

/-!
# What a step of the stream module does to the streams

The steps of `StreamLife`, seen from the four sets and the flow control of the connection.

* `Store`            the streams and the connection's flow control;
* `Creates`          some streams are created where there was none;
* `Turn`             what an event does to the one stream that it works on;
* `Sweeps`, `doomed`   the streams that a pass of the module destroys;
* `step_moves`       a step creates streams and then gives one of them a turn, or opens a stream, or
                     sweeps.
-/

namespace OpenQuic
open Word Streams

/-! ## the store -/

structure Store where
  streams : SetName → Rbt Stream
  conn : ConnFlowctrl

def Streams.store (st : Streams) : Store := ⟨st.streams, st.conn⟩

namespace Store

def find (s : Store) (name : SetName) (sid : Nat) : Option Stream := (s.streams name).find sid

def put (s : Store) (name : SetName) (sid : Nat) (str : Stream) : Store :=
  { s with streams := fun n => if n = name then (s.streams n).insert sid str else s.streams n }

def erase (s : Store) (name : SetName) (sid : Nat) : Store :=
  { s with streams := fun n => if n = name then (s.streams n).erase sid else s.streams n }

def withConn (s : Store) (conn : ConnFlowctrl) : Store := { s with conn := conn }

theorem find_put (s : Store) (name n : SetName) (sid k : Nat) (str : Stream) :
    (s.put name sid str).find n k = if n = name ∧ k = sid then some str else s.find n k := by
  unfold find put
  dsimp only
  rw [ite_and]
  split
  · exact OrdMap.find_insert _ _ _ _
  · rfl

theorem find_erase (s : Store) (name n : SetName) (sid k : Nat) :
    (s.erase name sid).find n k = if n = name ∧ k = sid then none else s.find n k := by
  unfold find erase
  dsimp only
  rw [ite_and]
  split
  · exact OrdMap.find_erase _ _ _
  · rfl

@[simp] theorem find_withConn (s : Store) (conn : ConnFlowctrl) (n : SetName) (k : Nat) :
    (s.withConn conn).find n k = s.find n k := rfl

/-- every stream that there is -/
def live (s : Store) : List Stream :=
  [SetName.inuni, .inbidi, .outuni, .outbidi].flatMap fun n => (s.streams n).entries.map Prod.snd

/-- one set changes: the streams of the others are counted as before -/
theorem live_change (s s' : Store) (name : SetName) (h : ∀ n, n ≠ name → s'.streams n = s.streams n) :
    ∃ rest, s.live.Perm ((s.streams name).entries.map Prod.snd ++ rest) ∧
      s'.live.Perm ((s'.streams name).entries.map Prod.snd ++ rest) := by
  have hsplit : ∀ t : Store, t.live.Perm ((t.streams name).entries.map Prod.snd ++
      ([SetName.inuni, .inbidi, .outuni, .outbidi].erase name).flatMap fun n =>
        (t.streams n).entries.map Prod.snd) := fun t => by
    have hp : [SetName.inuni, .inbidi, .outuni, .outbidi].Perm
        (name :: [SetName.inuni, .inbidi, .outuni, .outbidi].erase name) :=
      List.perm_cons_erase (by cases name <;> simp)
    exact hp.flatMap_right _
  refine ⟨_, hsplit s, ?_⟩
  have hrest : ([SetName.inuni, .inbidi, .outuni, .outbidi].erase name).flatMap
      (fun n => (s'.streams n).entries.map Prod.snd) =
      ([SetName.inuni, .inbidi, .outuni, .outbidi].erase name).flatMap
        (fun n => (s.streams n).entries.map Prod.snd) := by
    refine List.flatMap_congr fun n hn => ?_
    rw [h n ?_]
    intro he
    subst he
    cases n <;> simp at hn
  rw [← hrest]
  exact hsplit s'

theorem put_live_new {s : Store} {name : SetName} {sid : Nat} (str : Stream)
    (h : s.find name sid = none) : (s.put name sid str).live.Perm (str :: s.live) := by
  obtain ⟨rest, h1, h2⟩ := live_change s (s.put name sid str) name fun n hn => if_neg hn
  have hp := ((s.streams name).insert_perm str h).map Prod.snd
  refine h2.trans ?_
  rw [show (s.put name sid str).streams name = (s.streams name).insert sid str from if_pos rfl]
  exact (hp.append_right rest).trans (h1.symm.cons str)

theorem erase_live {s : Store} {name : SetName} {sid : Nat} {str : Stream}
    (h : s.find name sid = some str) : s.live.Perm (str :: (s.erase name sid).live) := by
  obtain ⟨rest, h1, h2⟩ := live_change s (s.erase name sid) name fun n hn => if_neg hn
  have hp := ((s.streams name).erase_perm h).map Prod.snd
  refine h1.trans ((hp.append_right rest).trans ?_)
  refine List.Perm.cons str ?_
  rw [show (s.erase name sid).streams name = (s.streams name).erase sid from if_pos rfl] at h2
  exact h2.symm

/-- a stream gets a new value -/
theorem put_live_old {s : Store} {name : SetName} {sid : Nat} {str : Stream} (str' : Stream)
    (h : s.find name sid = some str) :
    ∃ rest, s.live.Perm (str :: rest) ∧ (s.put name sid str').live.Perm (str' :: rest) := by
  obtain ⟨rest, h1, h2⟩ := live_change s (s.put name sid str') name fun n hn => if_neg hn
  have hold := ((s.streams name).erase_perm h).map Prod.snd
  have hnew := ((s.streams name).insert_perm_erase sid str').map Prod.snd
  rw [show (s.put name sid str').streams name = (s.streams name).insert sid str' from if_pos rfl] at h2
  exact ⟨_, h1.trans (hold.append_right rest), h2.trans (hnew.append_right rest)⟩

end Store

/-! ## the moves -/

namespace StreamMoves
open Store StreamLife

theorem putStream_store (st : Streams) (name : SetName) (sid : Nat) (str : Stream) :
    (st.putStream name sid str).store = st.store.put name sid str := by
  have h : (st.putStream name sid str).streams = (st.store.put name sid str).streams := by
    funext n
    rw [putStream, streams_setStreams]
    show _ = if n = name then (st.streams n).insert sid str else st.streams n
    split
    · rename_i hn
      rw [hn]
    · rfl
  show Store.mk (st.putStream name sid str).streams st.conn = _
  rw [h]
  rfl

/-- streams are created where there was none -/
inductive Creates (cfg : Config) : Store → Store → Prop
  | none (s : Store) : Creates cfg s s
  | more {s s1 : Store} {name : SetName} {sid : Nat} (hc : Creates cfg s s1)
      (h : s1.find name sid = none) : Creates cfg s (s1.put name sid (Stream.create cfg))

theorem Creates.trans {cfg : Config} {s s1 s2 : Store} (h1 : Creates cfg s s1)
    (h2 : Creates cfg s1 s2) : Creates cfg s s2 := by
  induction h2 with
  | none => exact h1
  | more _ h ih => exact ih.more h

theorem Creates.conn {cfg : Config} {s s1 : Store} (h : Creates cfg s s1) : s1.conn = s.conn := by
  induction h with
  | none => rfl
  | more _ _ ih => exact ih

theorem openRecvStream_creates (cfg : Config) (st : Streams) (sid : Nat) :
    Creates cfg st.store (openRecvStream cfg st sid).store := by
  unfold openRecvStream
  split
  · exact .none _
  · rename_i h
    show Creates cfg st.store (st.putStream (recvSet sid) sid (Stream.create cfg)).store
    rw [putStream_store]
    exact (Creates.none _).more h

/-- a lookup that answers a set answers one with the stream in it -/
structure LookedUp (cfg : Config) (st : Streams) (sid : Nat) (x : Option SetName × Streams) :
    Prop where
  creates : Creates cfg st.store x.2.store
  found : ∀ name, x.1 = some name → name = homeSet cfg sid ∧ ∃ str, x.2.store.find name sid = some str

theorem recvRelationStream_lookedUp (cfg : Config) (st : Streams) (sid : Nat) :
    LookedUp cfg st sid (recvRelationStream cfg st sid) := by
  have hl := recvRelationStream_looked cfg st sid
  refine ⟨?_, fun name hn => ⟨?_, ?_⟩⟩
  · unfold recvRelationStream
    split
    · exact .none _
    · exact openRecvStream_creates cfg st sid
  · unfold recvRelationStream at hn
    unfold homeSet
    split at hn
    · rename_i hown
      rw [if_pos hown]
      dsimp only at hn
      split at hn
      · rename_i hb
        rw [← Option.some.inj hn, sendSet, if_pos hb.1]
      · cases hn
    · rename_i hown
      rw [if_neg hown]
      exact (Option.some.inj hn).symm
  · obtain ⟨str, hstr, _⟩ := hl.found name hn
    exact ⟨str, hstr⟩

theorem sendRelationStream_lookedUp (cfg : Config) (st : Streams) (sid : Nat) :
    LookedUp cfg st sid (sendRelationStream cfg st sid) := by
  have hl := sendRelationStream_looked cfg st sid
  refine ⟨?_, fun name hn => ⟨?_, ?_⟩⟩
  · unfold sendRelationStream
    split
    · exact .none _
    · split
      · exact openRecvStream_creates cfg st sid
      · exact .none _
  · unfold sendRelationStream at hn
    unfold homeSet
    split at hn
    · rename_i hown
      rw [if_pos hown]
      dsimp only at hn
      split at hn
      · exact (Option.some.inj hn).symm
      · cases hn
    · rename_i hown
      rw [if_neg hown]
      split at hn
      · exact (Option.some.inj hn).symm
      · cases hn
  · obtain ⟨str, hstr, _⟩ := hl.found name hn
    exact ⟨str, hstr⟩

/-- what only a STREAM frame, a read and a close change of a stream -/
structure SameRecv (str str' : Stream) : Prop where
  recv : str'.recv = str.recv
  recvOff : str'.flowctrl.recvOff = str.flowctrl.recvOff
  readOff : str'.flowctrl.readOff = str.flowctrl.readOff
  finFlag : str'.flowctrl.finFlag = str.flowctrl.finFlag

/-- neither is a frame of the stream made or acknowledged -/
structure Quiet (str str' : Stream) : Prop extends SameRecv str str' where
  unacked : str'.send.unackedFramesCount = str.send.unackedFramesCount

/-- how an event takes the stream `str` of `s1` to `str'`, and the connection's flow control to
`conn'` -/
def Turn (cfg : Config) (st : Streams) (s1 : Store) (name : SetName) (sid : Nat) (str str' : Stream)
    (conn' : ConnFlowctrl) : Event → Prop
  | .streamFrame mem firstByte k off data => k = sid ∧ (recvRelationStream cfg st k).1 = some name ∧
      s1 = (recvRelationStream cfg st k).2.store ∧
      ∃ b, recvStreamHandleFrame mem str s1.conn firstByte off data = some (str', conn', b)
  | .read _ n k rtt now woken len => n = name ∧ k = sid ∧ s1 = st.store ∧
      ∃ b, str.read cfg rtt now woken len s1.conn = some (str', conn', b)
  | .close _ n k rtt now _ => n = name ∧ k = sid ∧ s1 = st.store ∧
      str.close cfg rtt now s1.conn = some (str', conn')
  | .appendStreamFrame mem capa fill =>
      str' = (str.generate mem sid capa fill).stream ∧ conn' = s1.conn
  | .maxStreamData _ _ _ | .setDeadline _ _ _ | .write _ _ _ _ _ | .writeWoken _ _ _ =>
      Quiet str str' ∧ conn' = s1.conn
  | .setAccept _ | .openStream _ | .moduleLoop _ _ | .processRwnd _ => False

/-- the events that take no stream away -/
def Keeps : Event → Prop
  | .openStream _ | .moduleLoop _ _ => False
  | _ => True

theorem generate_sameRecv (mem : StreamAlloc) (str : Stream) (sid bytes : Nat) (fill : Bool) :
    SameRecv str (str.generate mem sid bytes fill).stream := by
  unfold Stream.generate
  extract_lets payloadSize x fin
  split
  · show SameRecv str { str with flowctrl := str.flowctrl.newlyBlocked.2 }
    unfold StreamFlowctrl.newlyBlocked
    split <;> exact ⟨rfl, rfl, rfl, rfl⟩
  · split
    · exact ⟨rfl, rfl, rfl, rfl⟩
    · refine ⟨rfl, ?_, ?_, ?_⟩
      all_goals
        dsimp only
        split <;> rfl

/-- the frame of a call is counted -/
theorem generate_unacked (mem : StreamAlloc) (str : Stream) (sid bytes : Nat) (fill : Bool) :
    ((str.generate mem sid bytes fill).frame = none ∧
        (str.generate mem sid bytes fill).stream.send.unackedFramesCount =
          str.send.unackedFramesCount) ∨
      ∃ f, (str.generate mem sid bytes fill).frame = some f ∧ f.onAcked = some sid ∧
        (str.generate mem sid bytes fill).stream.send.unackedFramesCount =
          add32 str.send.unackedFramesCount 1 := by
  unfold Stream.generate
  extract_lets payloadSize x fin
  split
  · exact Or.inl ⟨rfl, rfl⟩
  · split
    · exact Or.inl ⟨rfl, rfl⟩
    · exact Or.inr ⟨_, rfl, rfl, rfl⟩

/-- the streams that a pass destroys, with their identifiers -/
def doomed (cfg : Config) (now : Time) (s : Store) (es : List (Nat × DestorySid)) :
    List (Nat × Stream) :=
  es.filterMap fun e => match s.find (homeSet cfg e.1) e.1 with
    | some str => if expires cfg now str e.2 then some (e.1, str) else none
    | none => none

/-- the streams of a list are taken out, one after the other -/
inductive Sweeps (cfg : Config) : Store → List (Nat × Stream) → Store → Prop
  | none (s : Store) : Sweeps cfg s [] s
  | more {s s' : Store} {sid : Nat} {str : Stream} {l : List (Nat × Stream)}
      (h : s.find (homeSet cfg sid) sid = some str)
      (hs : Sweeps cfg (s.erase (homeSet cfg sid) sid) l s') : Sweeps cfg s ((sid, str) :: l) s'

/-- **What a step can do.** -/
inductive Moves (cfg : Config) (st : Streams) : Event → Store → Prop
  | quiet {e : Event} {s' : Store} (hk : Keeps e) (hc : Creates cfg st.store s') : Moves cfg st e s'
  | turn {e : Event} {s1 : Store} {name : SetName} {sid : Nat} {str str' : Stream}
      {conn' : ConnFlowctrl} (hc : Creates cfg st.store s1) (hf : s1.find name sid = some str)
      (ht : Turn cfg st s1 name sid str str' conn' e) :
      Moves cfg st e ((s1.put name sid str').withConn conn')
  | opens (bidi : Bool) : Moves cfg st (.openStream bidi) (st.store.put
      (if bidi then .outbidi else .outuni)
      (streamIdTransfer true cfg.isCli (st.sets (if bidi then .outbidi else .outuni)).nextSid)
      (Stream.create cfg))
  | sweeps {mem : StreamAlloc} {now : Time} {s' : Store}
      (h : Sweeps cfg st.store (doomed cfg now st.store st.destorySet.entries) s') :
      Moves cfg st (.moduleLoop mem now) s'

/-! ## one operation after the other -/

theorem turn_store (st : Streams) (name : SetName) (sid : Nat) (str : Stream) (conn : ConnFlowctrl) :
    ({ st.putStream name sid str with conn := conn } : Streams).store =
      (st.store.put name sid str).withConn conn :=
  congrArg (fun s : Store => s.withConn conn) (putStream_store st name sid str)

/-- a quiet change of a stream that is there -/
theorem quiet_moves {cfg : Config} {st st1 st' : Streams} {e : Event} {name : SetName} {sid : Nat}
    {str : Stream} (str' : Stream) (hc : Creates cfg st.store st1.store) (hf : st1.store.find name sid = some str)
    (ht : Turn cfg st st1.store name sid str str' st1.conn e)
    (h : st'.store = (st1.putStream name sid str').store) : Moves cfg st e st'.store := by
  rw [h, putStream_store]
  exact (Moves.turn hc hf ht : Moves cfg st e ((st1.store.put name sid str').withConn st1.conn))

theorem handleStreamFrame_moves {cfg : Config} {mem : StreamAlloc} {st st' : Streams}
    {firstByte : UInt8} {sid off : Nat} {data : List UInt8}
    (h : handleStreamFrame cfg mem st firstByte sid off data = some st') :
    Moves cfg st (.streamFrame mem firstByte sid off data) st'.store := by
  have hl := recvRelationStream_lookedUp cfg st sid
  unfold handleStreamFrame at h
  dsimp only at h
  cases hn : (recvRelationStream cfg st sid).1 with
  | none =>
    rw [hn] at h
    dsimp only at h
    rw [← Option.some.inj h]
    exact .quiet trivial hl.creates
  | some name =>
    obtain ⟨_, str, hf⟩ := hl.found name hn
    rw [hn] at h
    dsimp only at h
    rw [show ((recvRelationStream cfg st sid).2.streams name).find sid = some str from hf] at h
    obtain ⟨y, hy, hst⟩ := Option.map_eq_some_iff.mp h
    rw [← hst, turn_store]
    exact .turn hl.creates hf ⟨rfl, hn, rfl, y.2.2, hy⟩

theorem handleMaxStreamData_moves {cfg : Config} {mem : StreamAlloc} {st st' : Streams}
    {sid maxData : Nat} (h : handleMaxStreamData cfg mem st sid maxData = some st') :
    Moves cfg st (.maxStreamData mem sid maxData) st'.store := by
  have hl := sendRelationStream_lookedUp cfg st sid
  unfold handleMaxStreamData at h
  dsimp only at h
  cases hn : (sendRelationStream cfg st sid).1 with
  | none =>
    rw [hn] at h
    dsimp only at h
    rw [← Option.some.inj h]
    exact .quiet trivial hl.creates
  | some name =>
    obtain ⟨_, str, hf⟩ := hl.found name hn
    rw [hn] at h
    dsimp only at h
    rw [show ((sendRelationStream cfg st sid).2.streams name).find sid = some str from hf] at h
    have hquiet : Quiet str { str with flowctrl := str.flowctrl.updateSwnd maxData } := by
      unfold StreamFlowctrl.updateSwnd
      split <;> exact ⟨⟨rfl, rfl, rfl, rfl⟩, rfl⟩
    refine quiet_moves _ hl.creates hf ⟨hquiet, rfl⟩ ?_
    rw [← Option.some.inj h]
    split <;> rfl

theorem open_moves (cfg : Config) (st : Streams) (bidi : Bool) :
    Moves cfg st (.openStream bidi) (st.open cfg bidi).store := by
  have hstore : (st.open cfg bidi).store = st.store.put (if bidi then .outbidi else .outuni)
      (streamIdTransfer true cfg.isCli (st.sets (if bidi then .outbidi else .outuni)).nextSid)
      (Stream.create cfg) := by
    rw [← putStream_store]
    have hstreams : (st.open cfg bidi).streams = (st.putStream (if bidi then .outbidi else .outuni)
        (streamIdTransfer true cfg.isCli (st.sets (if bidi then .outbidi else .outuni)).nextSid)
        (Stream.create cfg)).streams := by
      funext n
      show StreamSet.streams (if _ then _ else _) = _
      rw [apply_ite StreamSet.streams]
      exact ite_self _
    show Store.mk (st.open cfg bidi).streams st.conn = _
    rw [hstreams]
    rfl
  rw [hstore]
  exact .opens bidi

theorem setDeadline_moves (cfg : Config) (st : Streams) (name : SetName) (sid : Nat)
    (deadline : Time) :
    Moves cfg st (.setDeadline name sid deadline) (st.setDeadline name sid deadline).store := by
  unfold setDeadline
  split
  · exact .quiet trivial (.none _)
  · rename_i str hf
    exact quiet_moves { str with send := { str.send with deadline := deadline } } (.none _) hf
      ⟨⟨⟨rfl, rfl, rfl, rfl⟩, rfl⟩, rfl⟩ rfl

theorem write_moves (cfg : Config) (mem : StreamAlloc) (st : Streams) (name : SetName) (sid : Nat)
    (now : Time) (data : List UInt8) :
    Moves cfg st (.write mem name sid now data) (st.write mem name sid now data).store := by
  unfold Streams.write
  split
  · exact .quiet trivial (.none _)
  · rename_i str hf
    have hunacked : (str.send.write now data).1.unackedFramesCount = str.send.unackedFramesCount := by
      unfold SendStream.write
      dsimp only
      split <;> rfl
    refine quiet_moves { str with send := (str.send.write now data).1 } (.none _) hf
      ⟨⟨⟨rfl, rfl, rfl, rfl⟩, hunacked⟩, rfl⟩ ?_
    dsimp only
    split <;> rfl

theorem writeWoken_moves (cfg : Config) (st : Streams) (name : SetName) (sid : Nat) (now : Time) :
    Moves cfg st (.writeWoken name sid now) (st.writeWoken name sid now).store := by
  unfold writeWoken
  split
  · exact .quiet trivial (.none _)
  · rename_i str hf
    have hunacked : (str.send.woken now).unackedFramesCount = str.send.unackedFramesCount := by
      unfold SendStream.woken
      split <;> rfl
    exact quiet_moves { str with send := str.send.woken now } (.none _) hf
      ⟨⟨⟨rfl, rfl, rfl, rfl⟩, hunacked⟩, rfl⟩ rfl

theorem updateRwnd_store (mem : StreamAlloc) (st : Streams) (sid : Nat) :
    (st.updateRwnd mem sid).store = st.store := by
  unfold updateRwnd
  split <;> rfl

theorem read_moves {cfg : Config} {mem : StreamAlloc} {st st' : Streams} {name : SetName}
    {sid rtt : Nat} {now : Time} {woken : Bool} {len : Nat}
    (h : st.read cfg mem name sid rtt now woken len = some st') :
    Moves cfg st (.read mem name sid rtt now woken len) st'.store := by
  unfold Streams.read at h
  split at h
  · rw [← Option.some.inj h]
    exact .quiet trivial (.none _)
  · rename_i str hf
    obtain ⟨x, hx, hst⟩ := Option.map_eq_some_iff.mp h
    have hstore : st'.store = (st.store.put name sid x.1).withConn x.2.1 := by
      rw [← hst, ← turn_store]
      dsimp only
      split
      · exact updateRwnd_store mem _ sid
      · rfl
    rw [hstore]
    exact .turn (.none _) hf ⟨rfl, rfl, rfl, x.2.2, hx⟩

theorem destoryPush_store (mem : StreamAlloc) (st : Streams) (sid : Nat) (now : Time)
    (closedCb : Bool) : (st.destoryPush mem sid now closedCb).store = st.store := by
  unfold destoryPush
  split <;> rfl

theorem close_moves {cfg : Config} {mem : StreamAlloc} {st st' : Streams} {name : SetName}
    {sid rtt : Nat} {now : Time} {closedCb : Bool}
    (h : st.close cfg mem name sid rtt now closedCb = some st') :
    Moves cfg st (.close mem name sid rtt now closedCb) st'.store := by
  unfold Streams.close at h
  split at h
  · rw [← Option.some.inj h]
    exact .quiet trivial (.none _)
  · rename_i str hf
    obtain ⟨x, hx, hst⟩ := Option.map_eq_some_iff.mp h
    have hstore : st'.store = (st.store.put name sid x.1).withConn x.2 := by
      rw [← hst, ← turn_store]
      exact destoryPush_store mem _ sid now closedCb
    rw [hstore]
    exact .turn (.none _) hf ⟨rfl, rfl, rfl, hx⟩

theorem setDelete_store {cfg : Config} {st : Streams} {sid : Nat} {str : Stream}
    (hf : st.store.find (homeSet cfg sid) sid = some str) :
    (st.setDelete (homeSet cfg sid) sid).store = st.store.erase (homeSet cfg sid) sid := by
  unfold setDelete
  rw [show (st.streams (homeSet cfg sid)).find sid = some str from hf]
  dsimp only
  have hstreams : (st.setStreams (homeSet cfg sid) ((st.streams (homeSet cfg sid)).erase sid)).streams =
      (st.store.erase (homeSet cfg sid) sid).streams := by
    funext n
    rw [streams_setStreams]
    show _ = if n = homeSet cfg sid then (st.streams n).erase sid else st.streams n
    split
    · rename_i hn
      rw [hn]
    · rfl
  show Store.mk (st.setStreams _ _).streams st.conn = _
  rw [hstreams]
  rfl

/-- Other identifiers are not touched by a pass, so what it destroys can be read off at its start. -/
theorem sweep_fold (cfg : Config) (mem : StreamAlloc) (now : Time) (es : List (Nat × DestorySid))
    (hs : es.Pairwise fun a b => a.1 < b.1) (x : Streams × List Nat) :
    Sweeps cfg x.1.store (doomed cfg now x.1.store es)
      (es.foldl (destoryVisit cfg mem now) x).1.store := by
  induction es generalizing x with
  | nil => exact .none _
  | cons e es ih =>
    obtain ⟨hne, hs⟩ := List.pairwise_cons.mp hs
    have ih := ih hs (destoryVisit cfg mem now x e)
    rw [List.foldl_cons]
    unfold destoryVisit at ih ⊢
    dsimp only at ih ⊢
    cases hf : x.1.store.find (homeSet cfg e.1) e.1 with
    | none =>
      have hd : doomed cfg now x.1.store (e :: es) = doomed cfg now x.1.store es :=
        List.filterMap_cons_none (by rw [hf])
      rw [show (x.1.streams (homeSet cfg e.1)).find e.1 = none from hf] at ih ⊢
      rw [hd]
      exact ih
    | some str =>
      rw [show (x.1.streams (homeSet cfg e.1)).find e.1 = some str from hf] at ih ⊢
      dsimp only at ih ⊢
      by_cases he : expires cfg now str e.2 = true
      · have hd : doomed cfg now x.1.store (e :: es) = (e.1, str) :: doomed cfg now x.1.store es :=
          List.filterMap_cons_some (by rw [hf]; exact if_pos he)
        have hsame : doomed cfg now (x.1.store.erase (homeSet cfg e.1) e.1) es =
            doomed cfg now x.1.store es := by
          refine List.filterMap_congr fun d hd => ?_
          rw [find_erase, if_neg fun h => (hne d hd).ne' h.2]
        have hstore : ∀ st : Streams, st.store = x.1.store →
            (st.setDelete (homeSet cfg e.1) e.1).store =
              x.1.store.erase (homeSet cfg e.1) e.1 := fun st hst => by
          rw [← hst]
          exact setDelete_store (by rw [hst]; exact hf)
        rw [if_pos he] at ih ⊢
        dsimp only at ih ⊢
        rw [hstore (if e.2.closedCb then x.1.note [.closed e.1] else x.1) (by split <;> rfl),
          hsame] at ih
        rw [hd]
        exact .more hf ih
      · have hd : doomed cfg now x.1.store (e :: es) = doomed cfg now x.1.store es :=
          List.filterMap_cons_none (by rw [hf]; exact if_neg he)
        rw [if_neg he] at ih ⊢
        rw [hd]
        exact ih

theorem moduleLoop_moves (cfg : Config) (mem : StreamAlloc) (st : Streams) (now : Time) :
    Moves cfg st (.moduleLoop mem now) (st.moduleLoop cfg mem now).store :=
  .sweeps (sweep_fold cfg mem now st.destorySet.entries st.destorySet.sorted (st, []))

theorem processRwnd_moves (cfg : Config) (mem : StreamAlloc) (st : Streams) :
    Moves cfg st (.processRwnd mem) (st.processRwnd cfg mem).store := by
  have hvisit : ∀ (st : Streams) (sid : Nat),
      Creates cfg st.store (processRwndVisit cfg mem st sid).store := fun st sid => by
    have hc := (recvRelationStream_lookedUp cfg st sid).creates
    unfold processRwndVisit
    dsimp only
    split
    · exact hc
    · split <;> exact hc
  have hfold : ∀ (sids : List Nat) (st : Streams), Creates cfg st.store
      (sids.foldl (processRwndVisit cfg mem) st).store := by
    intro sids
    induction sids with
    | nil => exact fun st => .none _
    | cons sid sids ih => exact fun st => (hvisit st sid).trans (ih _)
  exact .quiet trivial (hfold (rootsInOrder mem st) st)

/-- What the framer takes from the streams: nothing, or what `generate` makes of one of them. -/
theorem appendStreamFrame_out {cfg : Config} {mem : StreamAlloc} {st : Streams} {capa : Nat}
    {fill : Bool} {x : Nat × Option Frame × Streams}
    (h : st.appendStreamFrame cfg mem capa fill = some x) :
    ∃ s1, Creates cfg st.store s1 ∧ ((x.2.1 = none ∧ x.2.2.store = s1) ∨
      ∃ sid str, st.framer.activeQueue.head? = some sid ∧ s1.find (homeSet cfg sid) sid = some str ∧
        x.2.2.store = s1.put (homeSet cfg sid) sid (str.generate mem sid capa fill).stream ∧
        x.2.1 = (str.generate mem sid capa fill).frame.map fun f => { f with onLost := true }) := by
  unfold Streams.appendStreamFrame at h
  split at h
  · rw [← Option.some.inj h]
    exact ⟨_, .none _, Or.inl ⟨rfl, rfl⟩⟩
  · cases hq : st.framer.activeQueue with
    | nil =>
      rw [hq] at h
      cases h
    | cons sid queue =>
      rw [hq] at h
      dsimp only at h
      have hl := sendRelationStream_lookedUp cfg
        { st with framer := { st.framer with activeQueue := queue } } sid
      generalize sendRelationStream cfg _ sid = y at h hl
      refine ⟨y.2.store, hl.creates, ?_⟩
      cases hn : y.1 with
      | none =>
        rw [hn] at h
        obtain ⟨f, _, hx⟩ := Option.map_eq_some_iff.mp h
        rw [← hx]
        exact Or.inl ⟨rfl, rfl⟩
      | some name =>
        obtain ⟨hname, str, hf⟩ := hl.found name hn
        rw [hname] at hf hn
        rw [hn, Option.bind_some, show (y.2.streams (homeSet cfg sid)).find sid = some str from hf,
          Option.map_some] at h
        dsimp only at h
        refine Or.inr ⟨sid, str, rfl, hf, ?_⟩
        rw [← putStream_store]
        cases hg : (str.generate mem sid capa fill).frame with
        | none =>
          rw [hg] at h
          rw [← Option.some.inj h]
          exact ⟨rfl, rfl⟩
        | some f =>
          rw [hg] at h
          dsimp only at h
          split at h
          · obtain ⟨fr, _, hx⟩ := Option.map_eq_some_iff.mp h
            rw [← hx]
            exact ⟨rfl, rfl⟩
          · rw [← Option.some.inj h]
            exact ⟨rfl, rfl⟩

theorem appendStreamFrame_moves {cfg : Config} {mem : StreamAlloc} {st : Streams} {capa : Nat}
    {fill : Bool} {x : Nat × Option Frame × Streams}
    (h : st.appendStreamFrame cfg mem capa fill = some x) :
    Moves cfg st (.appendStreamFrame mem capa fill) x.2.2.store := by
  obtain ⟨s1, hc, ⟨_, hs⟩ | ⟨sid, str, _, hf, hs, _⟩⟩ := appendStreamFrame_out h
  · rw [hs]
    exact .quiet trivial hc
  · rw [hs]
    exact (Moves.turn hc hf ⟨rfl, rfl⟩ : Moves cfg st (.appendStreamFrame mem capa fill)
      ((s1.put (homeSet cfg sid) sid (str.generate mem sid capa fill).stream).withConn s1.conn))

/-- **Every step of the module is one of the moves.** -/
theorem step_moves {cfg : Config} {st st' : Streams} {e : Event} (h : step cfg st e = some st') :
    Moves cfg st e st'.store := by
  cases e with
  | streamFrame mem firstByte sid off data => exact handleStreamFrame_moves h
  | maxStreamData mem sid maxData => exact handleMaxStreamData_moves h
  | setAccept cb =>
    rw [← Option.some.inj h]
    exact .quiet trivial (.none _)
  | openStream bidi =>
    rw [← Option.some.inj h]
    exact open_moves cfg st bidi
  | setDeadline name sid deadline =>
    rw [← Option.some.inj h]
    exact setDeadline_moves cfg st name sid deadline
  | write mem name sid now data =>
    rw [← Option.some.inj h]
    exact write_moves cfg mem st name sid now data
  | writeWoken name sid now =>
    rw [← Option.some.inj h]
    exact writeWoken_moves cfg st name sid now
  | read mem name sid rtt now woken len => exact read_moves h
  | close mem name sid rtt now closedCb => exact close_moves h
  | moduleLoop mem now =>
    rw [← Option.some.inj h]
    exact moduleLoop_moves cfg mem st now
  | processRwnd mem =>
    rw [← Option.some.inj h]
    exact processRwnd_moves cfg mem st
  | appendStreamFrame mem capa fill =>
    obtain ⟨x, hx, hst⟩ := Option.map_eq_some_iff.mp h
    rw [← hst]
    exact appendStreamFrame_moves hx

end StreamMoves

end OpenQuic
