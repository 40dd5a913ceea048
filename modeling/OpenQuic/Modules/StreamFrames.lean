import OpenQuic.Modules.FrameLedger
import OpenQuic.Modules.StreamMoves
import OpenQuic.Modules.StreamRecv

/-!
# The STREAM frames that are not acknowledged

A STREAM frame holds a reference to its stream from the moment it is made until it is acknowledged:
in the packet that is being built, in `sent_mem`, and in the retransmission queue.  The runs here are
those of the stream module together with the retransmission module of the application's packets.

* `places`        the frames that are not acknowledged;
* `Tally`         the counters of the streams are right, for any count of references;
* `creates_tally`, `put_tally`, `sweeps_tally`, `settle_tally`   what the moves do to it;
* `Referred`      each stream counts its frames, and no frame refers to a stream that is gone;
* `Guarded`       no stream goes while it has frames, no packet is acknowledged twice, and no counter
                  is full;
* `referred_run`  along guarded runs the references are right.
-/

namespace OpenQuic
namespace StreamFrames
open Word Streams Store StreamLife StreamMoves Recovery

/-! ## counters and references -/

/-- `n` references to each stream: the stream that an identifier stands for is there as long as there
is one, and counts them -/
structure Tally (cfg : Config) (n : Nat → Nat) (s : Store) : Prop where
  counts : ∀ name sid str, s.find name sid = some str →
    str.send.unackedFramesCount = if name = homeSet cfg sid then n sid else 0
  there : ∀ sid, 0 < n sid → (s.find (homeSet cfg sid) sid).isSome

theorem creates_tally {cfg : Config} {n : Nat → Nat} {s s1 : Store} (hc : Creates cfg s s1)
    (h : Tally cfg n s) : Tally cfg n s1 := by
  induction hc with
  | none => exact h
  | more _ hf ih =>
    rename_i s1 name sid _
    refine ⟨fun m k str hstr => ?_, fun k hk => ?_⟩
    · rw [find_put] at hstr
      split at hstr
      · rename_i hmk
        rw [← Option.some.inj hstr, hmk.1, hmk.2]
        split
        · rename_i hname
          -- a stream that is not there has no references
          by_contra hne
          have := ih.there sid (Nat.pos_of_ne_zero fun h0 => hne h0.symm)
          rw [← hname, hf] at this
          cases this
        · rfl
      · exact ih.counts m k str hstr
    · rw [find_put]
      split
      · rfl
      · exact ih.there k hk

/-- the counter of one stream follows the references to it -/
theorem put_tally {cfg : Config} {n : Nat → Nat} {s : Store} {name : SetName} {sid : Nat}
    {str : Stream} (n' : Nat → Nat) (str' : Stream) (h : Tally cfg n s) (hf : s.find name sid = some str)
    (hn : ∀ k, k ≠ sid → n' k = n k) (hhome : name ≠ homeSet cfg sid → n' sid = n sid)
    (hs : str'.send.unackedFramesCount = if name = homeSet cfg sid then n' sid else 0)
    (conn : ConnFlowctrl) : Tally cfg n' ((s.put name sid str').withConn conn) := by
  refine ⟨fun m k t ht => ?_, fun k hk => ?_⟩
  · rw [find_withConn, find_put] at ht
    split at ht
    · rename_i hmk
      rw [← Option.some.inj ht, hmk.1, hmk.2]
      exact hs
    · rename_i hmk
      rw [h.counts m k t ht]
      by_cases hk : k = sid
      · subst hk
        split
        · rename_i hm
          exact (hhome fun hname => hmk ⟨hm.trans hname.symm, rfl⟩).symm
        · rfl
      · rw [hn k hk]
  · rw [find_withConn, find_put]
    split
    · rfl
    · by_cases hks : k = sid
      · subst hks
        by_cases hname : name = homeSet cfg k
        · rw [← hname, hf]
          rfl
        · exact h.there k (by rwa [hhome hname] at hk)
      · exact h.there k (by rwa [hn k hks] at hk)

theorem keep_tally {cfg : Config} {n : Nat → Nat} {s : Store} {name : SetName} {sid : Nat}
    {str str' : Stream} (h : Tally cfg n s) (hf : s.find name sid = some str)
    (hs : str'.send.unackedFramesCount = str.send.unackedFramesCount) (conn : ConnFlowctrl) :
    Tally cfg n ((s.put name sid str').withConn conn) :=
  put_tally n str' h hf (fun _ _ => rfl) (fun _ => rfl) (hs.trans (h.counts name sid str hf)) conn

/-- a new stream in the place of what was there -/
theorem renew_tally {cfg : Config} {n : Nat → Nat} {s : Store} {name : SetName} {sid : Nat}
    (h : Tally cfg n s) (hn : name = homeSet cfg sid → n sid = 0) :
    Tally cfg n (s.put name sid (Stream.create cfg)) := by
  refine ⟨fun m k str hstr => ?_, fun k hk => ?_⟩
  · rw [find_put] at hstr
    split at hstr
    · rename_i hmk
      rw [← Option.some.inj hstr, hmk.1, hmk.2]
      split
      · rename_i hname
        exact (hn hname).symm
      · rfl
    · exact h.counts m k str hstr
  · rw [find_put]
    split
    · rfl
    · exact h.there k hk

theorem sweeps_tally {cfg : Config} {n : Nat → Nat} {s s' : Store} {l : List (Nat × Stream)}
    (hs : Sweeps cfg s l s') (h : Tally cfg n s) (hn : ∀ d ∈ l, n d.1 = 0) : Tally cfg n s' := by
  induction hs with
  | none => exact h
  | more hf _ ih =>
    rename_i s s' sid str l _
    refine ih ⟨fun m k t ht => ?_, fun k hk => ?_⟩ fun d hd => hn d (List.mem_cons_of_mem _ hd)
    · rw [find_erase] at ht
      split at ht
      · cases ht
      · exact h.counts m k t ht
    · rw [find_erase, if_neg]
      · exact h.there k hk
      · rintro ⟨_, rfl⟩
        exact hk.ne' (hn (k, str) List.mem_cons_self)

/-! ## `on_acked` -/

/-- `quic_send_stream_on_acked`; no result for a stream that is gone -/
def onAcked (cfg : Config) (st : Streams) (sid : Nat) : Option Streams :=
  (st.store.find (homeSet cfg sid) sid).map fun str =>
    st.putStream (homeSet cfg sid) sid { str with send := { str.send with
      unackedFramesCount := sub32 str.send.unackedFramesCount 1 } }

/-- the acknowledged frames of a pass release their references -/
def settle (cfg : Config) (st : Streams) (sids : List Nat) : Option Streams :=
  sids.foldlM (onAcked cfg) st

/-- the stream without one of its references -/
def Stream.released (str : Stream) : Stream :=
  { str with send := { str.send with unackedFramesCount := sub32 str.send.unackedFramesCount 1 } }

theorem onAcked_tally {cfg : Config} {n n' : Nat → Nat} {st : Streams} {sid : Nat}
    (h : Tally cfg n st.store) (hn : ∀ k, n k = n' k + [sid].count k) (hfit : n sid < 2 ^ 32) :
    ∃ st', onAcked cfg st sid = some st' ∧ Tally cfg n' st'.store := by
  have hsid : n sid = n' sid + 1 := by
    have := hn sid
    rwa [List.count_cons_self] at this
  obtain ⟨str, hstr⟩ := Option.isSome_iff_exists.mp (h.there sid (by omega))
  have hcount := h.counts _ sid str hstr
  rw [if_pos rfl] at hcount
  refine ⟨st.putStream (homeSet cfg sid) sid (Stream.released str), ?_, ?_⟩
  · rw [onAcked, hstr, Option.map_some]
    rfl
  · rw [putStream_store]
    refine put_tally n' (Stream.released str) h hstr (fun k hk => ?_) (fun hne => absurd rfl hne) ?_
      st.store.conn
    · have := hn k
      rw [List.count_cons_of_ne hk.symm, List.count_nil] at this
      omega
    · show sub32 str.send.unackedFramesCount 1 = _
      rw [if_pos rfl, hcount, sub32_of_le (by omega) hfit]
      omega

theorem settle_tally {cfg : Config} {n n' : Nat → Nat} {st : Streams} {sids : List Nat}
    (h : Tally cfg n st.store) (hn : ∀ k, n k = n' k + sids.count k) (hfit : ∀ k, n k < 2 ^ 32) :
    ∃ st', settle cfg st sids = some st' ∧ Tally cfg n' st'.store := by
  induction sids generalizing st n with
  | nil =>
    refine ⟨st, rfl, ?_⟩
    have : n = n' := funext hn
    rwa [← this]
  | cons sid sids ih =>
    have hn1 : ∀ k, n k = n' k + sids.count k + [sid].count k := fun k => by
      have := hn k
      rw [← List.singleton_append, List.count_append] at this
      omega
    obtain ⟨st1, h1, ht1⟩ := onAcked_tally h hn1 (hfit sid)
    obtain ⟨st', h2, ht2⟩ := ih ht1 (fun _ => rfl) fun k => by
      have := hn1 k
      have := hfit k
      omega
    refine ⟨st', ?_, ht2⟩
    rw [settle, List.foldlM_cons, h1]
    exact h2

/-! ## runs -/

structure State where
  st : Streams
  m : Recovery
  /-- the packet that is being built -/
  pkt : List Frame
  /-- the numbers of the packets that were sent -/
  sent : List Nat

inductive Event where
  | stream (e : StreamLife.Event)
  | retransmit (capa : Nat)
  | produce (f : Frame)
  | send (num largestAck : Nat) (sentTime : Time) (pktLen : Nat) (includedUnacked : Bool)
  | acked (mem : Nat → Nat → Bool) (a : AckFrame)
  | lost (mem : Nat → Bool) (now : Time)
  | other (o : Other)

/-- the stream whose reference an acknowledgement releases -/
def ackedSid : Call → Option Nat
  | .onAcked f => f.onAcked
  | _ => none

/-- A frame that the framer takes from a stream goes into the packet that is being built; a packet
without frames is not sent. -/
def step (cfg : Config) (cbrt : Nat → Nat) (s : State) : Event → Option State
  | .stream (.appendStreamFrame mem capa fill) =>
    (s.st.appendStreamFrame cfg mem capa fill).map fun x =>
      { s with st := x.2.2, pkt := s.pkt ++ x.2.1.toList }
  | .stream e => (StreamLife.step cfg s.st e).map fun st => { s with st := st }
  | .retransmit capa =>
    let x := Retransmission.appendFrame s.pkt capa s.m.rtx
    some { s with m := { s.m with rtx := x.2.2 }, pkt := x.2.1 }
  | .produce f => some { s with pkt := s.pkt ++ [f] }
  | .send num largestAck sentTime pktLen includedUnacked =>
    if s.pkt.isEmpty then some s
    else some { s with
      m := sentMemPush s.m num ⟨largestAck, sentTime, pktLen, includedUnacked, s.pkt⟩
      pkt := []
      sent := num :: s.sent }
  | .acked mem a => (findNewlyAcked cfg cbrt mem s.m a).bind fun x =>
      (settle cfg s.st (x.2.filterMap ackedSid)).map fun st => { s with st := st, m := x.1 }
  | .lost mem now => (findNewlyLost cfg mem s.m now).map fun x => { s with m := x.1 }
  | .other o => some { s with m := o.set s.m }

def start (cfg : Config) (cong : Congestion) : State :=
  ⟨Streams.init cfg, ⟨Retransmission.init, cong, 0⟩, [], []⟩

/-- the frames that are not acknowledged: in flight, waiting, and in the packet that is being built -/
def places (s : State) : List Frame :=
  FrameLedger.sentFrames s.m.rtx.sentMem.entries ++ s.m.rtx.retransmissionQueue ++ s.pkt

/-- the frames among `fs` that refer to a stream -/
def owned (fs : List Frame) (sid : Nat) : Nat := fs.countP fun f => f.onAcked = some sid

/-- Each stream counts its frames that are not acknowledged, and the stream of each such frame is
there. -/
structure Referred (cfg : Config) (s : State) : Prop where
  counts : ∀ name sid str, s.st.store.find name sid = some str →
    str.send.unackedFramesCount = if name = homeSet cfg sid then owned (places s) sid else 0
  there : ∀ f ∈ places s, ∀ sid, f.onAcked = some sid →
    (s.st.store.find (homeSet cfg sid) sid).isSome

/-- what the sender does: the packets have distinct numbers, and the frames that it makes itself are
no STREAM frames -/
def Fresh (s : State) : Event → Prop
  | .send num _ _ _ _ => num ∉ s.sent
  | .produce f => f.onAcked = none
  | _ => True

/-- No stream is destroyed or replaced while it has frames, no packet is in two tested ranges, and the
stream that is served has room in its counter. -/
def Guarded (cfg : Config) (s : State) : Event → Prop
  | .stream (.moduleLoop _ now) =>
    ∀ d ∈ doomed cfg now s.st.store s.st.destorySet.entries, owned (places s) d.1 = 0
  | .stream (.openStream bidi) =>
    let name := if bidi then SetName.outbidi else .outuni
    let sid := streamIdTransfer true cfg.isCli (s.st.sets name).nextSid
    name = homeSet cfg sid → owned (places s) sid = 0
  | .stream (.appendStreamFrame _ _ _) => ∀ sid ∈ s.st.framer.activeQueue.head?,
    owned (places s) sid + 1 < 2 ^ 32
  | .acked _ a => ∀ e ∈ s.m.rtx.sentMem.entries, AckedOnce a e.1
  | _ => True

structure Inv (cfg : Config) (s : State) : Prop where
  tally : Tally cfg (owned (places s)) s.st.store
  fits : ∀ sid, owned (places s) sid < 2 ^ 32
  onLost : ∀ f ∈ places s, f.onAcked ≠ none → f.onLost = true
  live : s.m.rtx.dropped = false
  sent : ∀ e ∈ s.m.rtx.sentMem.entries, e.1 ∈ s.sent

theorem owned_append (fs gs : List Frame) (sid : Nat) :
    owned (fs ++ gs) sid = owned fs sid + owned gs sid := List.countP_append

theorem owned_cons (f : Frame) (fs : List Frame) (sid : Nat) :
    owned (f :: fs) sid = owned fs sid + if f.onAcked = some sid then 1 else 0 := by
  unfold owned
  rw [List.countP_cons]
  simp only [decide_eq_true_eq]

theorem owned_singleton (f : Frame) (sid : Nat) :
    owned [f] sid = if f.onAcked = some sid then 1 else 0 := by
  rw [owned_cons]
  exact Nat.zero_add _

theorem owned_perm {fs gs : List Frame} (h : fs.Perm gs) : owned fs = owned gs :=
  funext fun _ => h.countP_eq _

theorem owned_pos {fs : List Frame} {sid : Nat} : 0 < owned fs sid ↔ ∃ f ∈ fs, f.onAcked = some sid := by
  rw [owned, List.countP_pos_iff]
  simp only [decide_eq_true_eq]

theorem Inv.referred {cfg : Config} {s : State} (h : Inv cfg s) : Referred cfg s :=
  ⟨h.tally.counts, fun f hf sid hs => h.tally.there sid (owned_pos.mpr ⟨f, hf, hs⟩)⟩

theorem start_inv (cfg : Config) (cong : Congestion) : Inv cfg (start cfg cong) := by
  refine ⟨⟨fun name sid str h => ?_, fun sid h => ?_⟩, fun _ => ?_, List.forall_mem_nil _, rfl,
    List.forall_mem_nil _⟩
  · exact absurd h (by rw [show (start cfg cong).st.store.find name sid = none from rfl]; nofun)
  · exact absurd h (lt_irrefl 0)
  · show 0 < 2 ^ 32
    decide

/-- the streams are as before, and so are the references -/
theorem Inv.move {cfg : Config} {s s' : State} (h : Inv cfg s) (hst : s'.st = s.st)
    (hp : (places s').Perm (places s)) (hd : s'.m.rtx.dropped = false)
    (hs : ∀ e ∈ s'.m.rtx.sentMem.entries, e.1 ∈ s'.sent) : Inv cfg s' := by
  refine ⟨?_, ?_, fun f hf => h.onLost f (hp.mem_iff.mp hf), hd, hs⟩
  · rw [hst, owned_perm hp]
    exact h.tally
  · rw [owned_perm hp]
    exact h.fits

/-! ### the stream module -/

theorem turn_unacked {cfg : Config} {st : Streams} {e : StreamLife.Event} {s1 : Store}
    {name : SetName} {sid : Nat} {str str' : Stream} {conn' : ConnFlowctrl}
    (ht : Turn cfg st s1 name sid str str' conn' e)
    (hne : ∀ mem capa fill, e ≠ .appendStreamFrame mem capa fill) :
    str'.send.unackedFramesCount = str.send.unackedFramesCount := by
  cases e with
  | streamFrame mem firstByte k off data =>
    obtain ⟨_, _, _, b, hx⟩ := ht
    exact congrArg SendStream.unackedFramesCount (recvStreamHandleFrame_send hx)
  | read mem n k rtt now woken len =>
    obtain ⟨_, _, _, b, hx⟩ := ht
    exact congrArg SendStream.unackedFramesCount (Stream.read_spec hx).send
  | close mem n k rtt now closedCb =>
    obtain ⟨_, _, _, hx⟩ := ht
    rw [show str'.send = _ from (Stream.close_spec hx).send]
  | appendStreamFrame mem capa fill => exact absurd rfl (hne mem capa fill)
  | maxStreamData _ _ _ => exact ht.1.unacked
  | setDeadline _ _ _ => exact ht.1.unacked
  | write _ _ _ _ _ => exact ht.1.unacked
  | writeWoken _ _ _ => exact ht.1.unacked
  | setAccept _ => exact ht.elim
  | openStream _ => exact ht.elim
  | moduleLoop _ _ => exact ht.elim
  | processRwnd _ => exact ht.elim

theorem moves_tally {cfg : Config} {s : State} {e : StreamLife.Event} {s' : Store}
    (hm : Moves cfg s.st e s') (hg : Guarded cfg s (.stream e))
    (hne : ∀ mem capa fill, e ≠ .appendStreamFrame mem capa fill)
    (h : Tally cfg (owned (places s)) s.st.store) : Tally cfg (owned (places s)) s' := by
  cases hm with
  | quiet _ hc => exact creates_tally hc h
  | turn hc hf ht => exact keep_tally (creates_tally hc h) hf (turn_unacked ht hne) _
  | opens bidi => exact renew_tally h hg
  | sweeps hs => exact sweeps_tally hs h hg

theorem step_stream (cfg : Config) (cbrt : Nat → Nat) (s : State) {e : StreamLife.Event}
    (hne : ∀ mem capa fill, e ≠ .appendStreamFrame mem capa fill) :
    step cfg cbrt s (.stream e) =
      (StreamLife.step cfg s.st e).map fun st => { s with st := st } := by
  cases e with
  | appendStreamFrame mem capa fill => exact absurd rfl (hne mem capa fill)
  | _ => rfl

theorem stream_inv {cfg : Config} {cbrt : Nat → Nat} {s s' : State} {e : StreamLife.Event}
    (hi : Inv cfg s) (hg : Guarded cfg s (.stream e))
    (hne : ∀ mem capa fill, e ≠ .appendStreamFrame mem capa fill)
    (h : step cfg cbrt s (.stream e) = some s') : Inv cfg s' := by
  rw [step_stream cfg cbrt s hne] at h
  obtain ⟨st, hst, hs⟩ := Option.map_eq_some_iff.mp h
  have ht := moves_tally (step_moves hst) hg hne hi.tally
  rw [← hs]
  exact ⟨ht, hi.fits, hi.onLost, hi.live, hi.sent⟩

theorem append_inv {cfg : Config} {cbrt : Nat → Nat} {s s' : State} {mem : StreamAlloc} {capa : Nat}
    {fill : Bool} (hi : Inv cfg s) (hg : Guarded cfg s (.stream (.appendStreamFrame mem capa fill)))
    (h : step cfg cbrt s (.stream (.appendStreamFrame mem capa fill)) = some s') : Inv cfg s' := by
  obtain ⟨x, hx, hs⟩ := Option.map_eq_some_iff.mp h
  obtain ⟨s1, hc, ⟨hnone, hst⟩ | ⟨sid, str, hhead, hf, hst, hframe⟩⟩ := appendStreamFrame_out hx
  · rw [← hs, hnone, Option.toList_none, List.append_nil]
    refine ⟨?_, hi.fits, hi.onLost, hi.live, hi.sent⟩
    show Tally cfg (owned (places s)) x.2.2.store
    rw [hst]
    exact creates_tally hc hi.tally
  · have ht := creates_tally hc hi.tally
    rcases generate_unacked mem str sid capa fill with ⟨hnone, hsame⟩ | ⟨f, hsome, hsid, hmore⟩
    · rw [hnone, Option.map_none] at hframe
      rw [← hs, hframe, Option.toList_none, List.append_nil]
      refine ⟨?_, hi.fits, hi.onLost, hi.live, hi.sent⟩
      show Tally cfg (owned (places s)) x.2.2.store
      rw [hst]
      exact keep_tally ht hf hsame s1.conn
    · rw [hsome, Option.map_some] at hframe
      rw [← hs, hframe, Option.toList_some]
      have hroom : owned (places s) sid + 1 < 2 ^ 32 := hg sid hhead
      have hplaces : ∀ k, owned (places s ++ [{ f with onLost := true }]) k =
          if k = sid then owned (places s) sid + 1 else owned (places s) k := fun k => by
        rw [owned_append, owned_singleton]
        show _ + (if f.onAcked = some k then 1 else 0) = _
        rw [hsid]
        by_cases hk : k = sid
        · rw [hk, if_pos rfl, if_pos rfl]
        · rw [if_neg hk, if_neg fun h => hk (Option.some.inj h).symm, Nat.add_zero]
      have heq : places { s with st := x.2.2, pkt := s.pkt ++ [{ f with onLost := true }] } =
          places s ++ [{ f with onLost := true }] := (List.append_assoc _ _ _).symm
      refine ⟨?_, fun k => ?_, fun g hgm ha => ?_, hi.live, hi.sent⟩
      · rw [heq]
        show Tally cfg _ x.2.2.store
        rw [hst]
        refine put_tally _ _ ht hf (fun k hk => ?_) (fun hne => absurd rfl hne) ?_ s1.conn
        · rw [hplaces, if_neg hk]
        · have hcount := ht.counts _ sid str hf
          rw [if_pos rfl] at hcount
          rw [if_pos rfl, hplaces, if_pos rfl, hmore, hcount, add32_of_lt hroom]
      · rw [heq, hplaces]
        split
        · exact hroom
        · exact hi.fits k
      · rw [heq] at hgm
        rcases List.mem_append.mp hgm with hgm | hgm
        · exact hi.onLost g hgm ha
        · rw [List.mem_singleton.mp hgm]

/-! ### the sender -/

theorem retransmit_inv {cfg : Config} {cbrt : Nat → Nat} {s s' : State} {capa : Nat}
    (hi : Inv cfg s) (h : step cfg cbrt s (.retransmit capa) = some s') : Inv cfg s' := by
  obtain ⟨hsame, hcount⟩ := FrameLedger.appendFrame_spec s.pkt capa s.m.rtx
  rw [step] at h
  generalize Retransmission.appendFrame s.pkt capa s.m.rtx = x at h hsame hcount
  have hmem : x.2.2.sentMem = s.m.rtx.sentMem := by rw [hsame]
  have hdrop : x.2.2.dropped = s.m.rtx.dropped := by rw [hsame]
  rw [← Option.some.inj h]
  refine hi.move rfl (List.perm_iff_count.mpr fun f => ?_) (hdrop.trans hi.live) ?_
  · have hc := hcount f
    unfold places
    dsimp only
    rw [hmem, List.count_append, List.count_append, List.count_append, List.count_append]
    omega
  · dsimp only
    rw [hmem]
    exact hi.sent

theorem produce_inv {cfg : Config} {cbrt : Nat → Nat} {s s' : State} {f : Frame} (hi : Inv cfg s)
    (hf : f.onAcked = none) (h : step cfg cbrt s (.produce f) = some s') : Inv cfg s' := by
  rw [← Option.some.inj h]
  have heq : places { s with pkt := s.pkt ++ [f] } = places s ++ [f] := (List.append_assoc _ _ _).symm
  have howned : owned (places s ++ [f]) = owned (places s) := funext fun k => by
    rw [owned_append, owned_singleton, hf, if_neg nofun, Nat.add_zero]
  refine ⟨?_, ?_, fun g hg ha => ?_, hi.live, hi.sent⟩
  · rw [heq, howned]
    exact hi.tally
  · rw [heq, howned]
    exact hi.fits
  · rw [heq] at hg
    rcases List.mem_append.mp hg with hg | hg
    · exact hi.onLost g hg ha
    · rw [List.mem_singleton.mp hg] at ha
      exact absurd hf ha

theorem send_inv {cfg : Config} {cbrt : Nat → Nat} {s s' : State} {num largestAck : Nat}
    {sentTime : Time} {pktLen : Nat} {includedUnacked : Bool} (hi : Inv cfg s) (hn : num ∉ s.sent)
    (h : step cfg cbrt s (.send num largestAck sentTime pktLen includedUnacked) = some s') :
    Inv cfg s' := by
  rw [step] at h
  split at h
  · rw [← Option.some.inj h]
    exact hi
  · obtain ⟨h1, _, _, h4, h5⟩ := sentMemPush_spec (m := s.m) hi.live num
      ⟨largestAck, sentTime, pktLen, includedUnacked, s.pkt⟩
    have hperm := s.m.rtx.sentMem.insert_perm (k := num)
      ⟨largestAck, sentTime, pktLen, includedUnacked, s.pkt⟩
      (OrdMap.find_eq_none.mpr fun e he heq => hn (heq ▸ hi.sent e he))
    rw [← Option.some.inj h]
    refine hi.move rfl ?_ (h5.trans hi.live) fun e he => ?_
    · unfold places
      dsimp only
      rw [h1, h4, List.append_nil]
      have hf := hperm.flatMap_right fun e => e.2.frames
      rw [List.flatMap_cons] at hf
      refine (hf.append_right _).trans ?_
      rw [List.append_assoc]
      exact List.perm_append_comm
    · dsimp only at he
      rw [h1] at he
      rcases List.mem_cons.mp (hperm.mem_iff.mp he) with rfl | he
      · exact List.mem_cons_self
      · exact List.mem_cons_of_mem _ (hi.sent e he)

/-! ### acknowledgements and losses -/

theorem owned_eq_count (fs : List Frame) (sid : Nat) :
    owned fs sid = (fs.filterMap Frame.onAcked).count sid := by
  induction fs with
  | nil => rfl
  | cons f fs ih =>
    rw [owned_cons, ih]
    cases h : f.onAcked with
    | none => rw [List.filterMap_cons_none h, if_neg nofun, Nat.add_zero]
    | some k =>
      rw [List.filterMap_cons_some h, List.count_cons]
      by_cases hk : k = sid
      · rw [hk, if_pos rfl, if_pos (by simp)]
      · rw [if_neg fun h => hk (Option.some.inj h), if_neg (by simpa using hk)]

theorem owned_filter_onLost {fs : List Frame} (h : ∀ f ∈ fs, f.onAcked ≠ none → f.onLost = true)
    (sid : Nat) : owned (fs.filter Frame.onLost) sid = owned fs sid := by
  unfold owned
  rw [List.countP_filter]
  refine List.countP_congr fun f hf => ?_
  simp only [Bool.and_eq_true, decide_eq_true_eq]
  exact ⟨And.left, fun ha => ⟨ha, h f hf (by rw [ha]; nofun)⟩⟩

/-- the frames of the packets that a pass does not hit stay, and no others -/
theorem passed_frames {hit : Nat → SentPacket → Bool} {ok : Nat → Bool}
    {calls : Nat → SentPacket → List Call} {requeue : SentPacket → List Frame} {m m' : Recovery}
    {cs : List Call} (h : Passed hit ok calls requeue m m' cs) :
    FrameLedger.sentFrames m'.rtx.sentMem.entries =
      FrameLedger.sentFrames (m.rtx.sentMem.entries.filter fun e => !hit e.1 e.2) := by
  rw [FrameLedger.sentFrames, h.sentMem]
  generalize m.rtx.sentMem.entries = es
  induction es with
  | nil => rfl
  | cons e es ih =>
    rw [List.filter_cons, List.filter_cons]
    cases hhit : hit e.1 e.2 with
    | false =>
      rw [if_pos (show (!(false && ok e.1)) = true from rfl), if_pos (show (!false) = true from rfl),
        List.map_cons, List.flatMap_cons, ih, hhit]
      rfl
    | true =>
      rw [if_neg (show ¬(!true) = true from Bool.false_ne_true)]
      cases ok e.1 with
      | true => exact ih
      | false =>
        rw [if_pos (show (!(true && false)) = true from rfl), List.map_cons, List.flatMap_cons, ih,
          hhit]
        rfl

theorem passed_sent {hit : Nat → SentPacket → Bool} {ok : Nat → Bool}
    {calls : Nat → SentPacket → List Call} {requeue : SentPacket → List Frame} {m m' : Recovery}
    {cs : List Call} (h : Passed hit ok calls requeue m m' cs) {sent : List Nat}
    (hs : ∀ e ∈ m.rtx.sentMem.entries, e.1 ∈ sent) : ∀ e ∈ m'.rtx.sentMem.entries, e.1 ∈ sent := by
  intro e he
  rw [h.sentMem] at he
  obtain ⟨d, hd, rfl⟩ := List.mem_map.mp he
  exact hs d (List.mem_filter.mp hd).1

theorem ackedCalls_sid (num : Nat) (pkt : SentPacket) :
    (ackedCalls num pkt).filterMap ackedSid = pkt.frames.filterMap Frame.onAcked := by
  show (pkt.frames.map ackCall).filterMap ackedSid = _
  rw [List.filterMap_map]
  congr 1
  funext f
  show ackedSid (ackCall f) = f.onAcked
  rw [ackCall]
  cases h : f.onAcked with
  | none => rfl
  | some sid => exact h

theorem acked_inv {cfg : Config} {cbrt : Nat → Nat} {s s' : State} {mem : Nat → Nat → Bool}
    {a : AckFrame} (hi : Inv cfg s) (hg : Guarded cfg s (.acked mem a))
    (h : step cfg cbrt s (.acked mem a) = some s') : Inv cfg s' := by
  obtain ⟨m', cs, hres, hp⟩ := acked_passed cfg cbrt mem s.m a hi.live hg
  rw [step, hres, Option.bind_some] at h
  obtain ⟨st, hst, hs⟩ := Option.map_eq_some_iff.mp h
  have hsids : cs.filterMap ackedSid = (FrameLedger.sentFrames
      (s.m.rtx.sentMem.entries.filter fun e => acks a e.1)).filterMap Frame.onAcked := by
    rw [hp.calls, List.filterMap_flatMap, FrameLedger.sentFrames, List.filterMap_flatMap]
    simp only [ackedCalls_sid]
  have hqueue : m'.rtx.retransmissionQueue = s.m.rtx.retransmissionQueue := by
    rw [hp.queue]
    simp
  have hframes := passed_frames hp
  have hplaces : places s' = FrameLedger.sentFrames (s.m.rtx.sentMem.entries.filter
      fun e => !acks a e.1) ++ s.m.rtx.retransmissionQueue ++ s.pkt := by
    rw [← hs]
    unfold places
    dsimp only
    rw [hframes, hqueue]
  have hperm := FrameLedger.sentFrames_perm s.m.rtx.sentMem.entries fun e => acks a e.1
  have howned : ∀ k, owned (places s) k = owned (places s') k + (cs.filterMap ackedSid).count k := by
    intro k
    have hk := congrFun (owned_perm hperm) k
    rw [owned_append] at hk
    rw [hplaces, hsids, ← owned_eq_count, places, owned_append, owned_append, owned_append,
      owned_append]
    omega
  obtain ⟨st', hst', ht⟩ := settle_tally hi.tally howned hi.fits
  rw [hst'] at hst
  rw [Option.some.inj hst] at ht
  refine ⟨?_, fun k => ?_, fun f hf => hi.onLost f ?_, ?_, ?_⟩
  · rw [← hs] at ht ⊢
    exact ht
  · have := howned k
    have := hi.fits k
    omega
  · rw [hplaces] at hf
    unfold places
    rcases List.mem_append.mp hf with hf | hf
    · rcases List.mem_append.mp hf with hf | hf
      · exact List.mem_append_left _ (List.mem_append_left _
          (hperm.mem_iff.mp (List.mem_append_right _ hf)))
      · exact List.mem_append_left _ (List.mem_append_right _ hf)
    · exact List.mem_append_right _ hf
  · rw [← hs]
    exact hp.dropped.trans hi.live
  · rw [← hs]
    exact passed_sent hp hi.sent

theorem lost_inv {cfg : Config} {cbrt : Nat → Nat} {s s' : State} {mem : Nat → Bool} {now : Time}
    (hi : Inv cfg s) (h : step cfg cbrt s (.lost mem now) = some s') : Inv cfg s' := by
  obtain ⟨m', cs, hres, hp⟩ := lost_passed cfg mem s.m now hi.live
  rw [step, hres, Option.map_some] at h
  have hframes := passed_frames hp
  have hperm := FrameLedger.sentFrames_perm s.m.rtx.sentMem.entries fun e => isLost s.m.cong now e.2
  have hplaces : places s' = FrameLedger.sentFrames (s.m.rtx.sentMem.entries.filter
      fun e => !isLost s.m.cong now e.2) ++ (s.m.rtx.retransmissionQueue ++
        (FrameLedger.sentFrames (s.m.rtx.sentMem.entries.filter
          fun e => isLost s.m.cong now e.2)).filter Frame.onLost) ++ s.pkt := by
    rw [← Option.some.inj h]
    unfold places
    dsimp only
    rw [hframes, hp.queue, FrameLedger.sentFrames, FrameLedger.sentFrames, List.filter_flatMap]
  -- what was lost refers to its streams as before
  have hlost : ∀ f ∈ FrameLedger.sentFrames (s.m.rtx.sentMem.entries.filter
      fun e => isLost s.m.cong now e.2), f ∈ places s := fun f hf =>
    List.mem_append_left _ (List.mem_append_left _ (hperm.mem_iff.mp (List.mem_append_left _ hf)))
  have howned : owned (places s') = owned (places s) := by
    funext k
    have hk := congrFun (owned_perm hperm) k
    have hback := owned_filter_onLost (fun f hf => hi.onLost f (hlost f hf)) k
    rw [owned_append] at hk
    rw [hplaces, places, owned_append, owned_append, owned_append, owned_append, owned_append, hback]
    omega
  refine ⟨?_, ?_, fun f hf => ?_, ?_, ?_⟩
  · rw [howned, ← Option.some.inj h]
    exact hi.tally
  · rw [howned]
    exact hi.fits
  · rw [hplaces] at hf
    refine hi.onLost f ?_
    rcases List.mem_append.mp hf with hf | hf
    · rcases List.mem_append.mp hf with hf | hf
      · exact List.mem_append_left _ (List.mem_append_left _
          (hperm.mem_iff.mp (List.mem_append_right _ hf)))
      · rcases List.mem_append.mp hf with hf | hf
        · exact List.mem_append_left _ (List.mem_append_right _ hf)
        · exact hlost f (List.mem_filter.mp hf).1
    · exact List.mem_append_right _ hf
  · rw [← Option.some.inj h]
    exact hp.dropped.trans hi.live
  · rw [← Option.some.inj h]
    exact passed_sent hp hi.sent

/-! ### steps and runs -/

theorem step_inv {cfg : Config} {cbrt : Nat → Nat} {s s' : State} {e : Event} (hi : Inv cfg s)
    (hf : Fresh s e) (hg : Guarded cfg s e) (h : step cfg cbrt s e = some s') : Inv cfg s' := by
  cases e with
  | stream e =>
    by_cases hne : ∀ mem capa fill, e ≠ .appendStreamFrame mem capa fill
    · exact stream_inv hi hg hne h
    · simp only [not_forall, not_not] at hne
      obtain ⟨mem, capa, fill, rfl⟩ := hne
      exact append_inv hi hg h
  | retransmit capa => exact retransmit_inv hi h
  | produce f => exact produce_inv hi hf h
  | send num largestAck sentTime pktLen includedUnacked => exact send_inv hi hf h
  | acked mem a => exact acked_inv hi hg h
  | lost mem now => exact lost_inv hi h
  | other o =>
    rw [← Option.some.inj h]
    exact ⟨hi.tally, hi.fits, hi.onLost, hi.live, hi.sent⟩

/-- **Streams and their frames.**  Along a guarded run each stream counts its frames that are not
acknowledged, and no such frame refers to a stream that is gone. -/
theorem referred_run (cfg : Config) (cbrt : Nat → Nat) (cong : Congestion) (es : List Event)
    (hf : Runs.Along (step cfg cbrt) Fresh (start cfg cong) es)
    (hg : Runs.Along (step cfg cbrt) (Guarded cfg) (start cfg cong) es) :
    ∀ past, past <+: es → ∀ s, Runs.run (step cfg cbrt) (start cfg cong) past = some s →
      Referred cfg s := by
  intro past hpast s hs
  have hi : Inv cfg s := Runs.run_reached (fun _ _ _ hi hge h => step_inv hi hge.1 hge.2 h)
    (start_inv cfg cong) (hf.and (step cfg cbrt) hg) hpast hs
  exact hi.referred

instance decidableFresh (s : State) : (e : Event) → Decidable (Fresh s e)
  | .send _ _ _ _ _ => inferInstanceAs (Decidable (_ ∉ _))
  | .produce f => inferInstanceAs (Decidable (f.onAcked = none))
  | .stream _ => isTrue trivial
  | .retransmit _ => isTrue trivial
  | .acked _ _ => isTrue trivial
  | .lost _ _ => isTrue trivial
  | .other _ => isTrue trivial

/-- a stream that both sides close: its frame is sent, lost, sent again and acknowledged, and then
the stream is destroyed -/
def farewell : List Event :=
  [.stream (.streamFrame .ok 0x0b 0 0 [1]), .stream (.close .ok .inbidi 0 0 6 true),
    .stream (.appendStreamFrame .ok 1000 false), .send 0 0 10 1200 true,
    .lost (fun _ => true) 9000000, .retransmit 1000, .send 1 0 20 1200 true,
    .acked (fun _ _ => true) ⟨0x40, 30, 1, 0, 0, 0, 0, 0, 0, []⟩, .stream (.moduleLoop .ok 40)]

instance decidableGuarded (cfg : Config) (s : State) : (e : Event) → Decidable (Guarded cfg s e)
  | .stream (.moduleLoop _ now) => inferInstanceAs (Decidable (
      ∀ d ∈ doomed cfg now s.st.store s.st.destorySet.entries, owned (places s) d.1 = 0))
  | .stream (.openStream _) => inferInstanceAs (Decidable (_ = homeSet cfg _ → owned (places s) _ = 0))
  | .stream (.appendStreamFrame _ _ _) => inferInstanceAs (Decidable (
      ∀ sid ∈ s.st.framer.activeQueue.head?, owned (places s) sid + 1 < 2 ^ 32))
  | .acked _ _ => inferInstanceAs (Decidable (∀ e ∈ s.m.rtx.sentMem.entries, AckedOnce _ e.1))
  | .stream (.streamFrame _ _ _ _ _) => isTrue trivial
  | .stream (.maxStreamData _ _ _) => isTrue trivial
  | .stream (.setAccept _) => isTrue trivial
  | .stream (.setDeadline _ _ _) => isTrue trivial
  | .stream (.write _ _ _ _ _) => isTrue trivial
  | .stream (.writeWoken _ _ _) => isTrue trivial
  | .stream (.read _ _ _ _ _ _ _) => isTrue trivial
  | .stream (.close _ _ _ _ _ _) => isTrue trivial
  | .stream (.processRwnd _) => isTrue trivial
  | .retransmit _ => isTrue trivial
  | .produce _ => isTrue trivial
  | .send _ _ _ _ _ => isTrue trivial
  | .lost _ _ => isTrue trivial
  | .other _ => isTrue trivial

theorem referred_run_farewell :
    Runs.Along (step serverCfg id) Fresh (start serverCfg (Congestion.init serverCfg)) farewell ∧
      Runs.Along (step serverCfg id) (Guarded serverCfg)
        (start serverCfg (Congestion.init serverCfg)) farewell ∧
      ∀ past, past <+: farewell → ∀ s,
        Runs.run (step serverCfg id) (start serverCfg (Congestion.init serverCfg)) past = some s →
          Referred serverCfg s :=
  ⟨by decide +kernel, by decide +kernel,
    referred_run serverCfg id _ farewell (by decide +kernel) (by decide +kernel)⟩

/-- The stream is destroyed as soon as its last frame is made. -/
theorem not_referred_run :
    ¬ ∀ (cfg : Config) (cbrt : Nat → Nat) (cong : Congestion) (es : List Event),
      Runs.Along (step cfg cbrt) Fresh (start cfg cong) es → ∀ past, past <+: es → ∀ s,
        Runs.run (step cfg cbrt) (start cfg cong) past = some s → Referred cfg s := by
  intro h
  have hrun : (Runs.run (step serverCfg id) (start serverCfg (Congestion.init serverCfg))
      [.stream (.streamFrame .ok 0x0b 0 0 [1]), .stream (.close .ok .inbidi 0 0 6 true),
        .stream (.appendStreamFrame .ok 1000 false), .stream (.moduleLoop .ok 7)]).map (fun s =>
          ((places s).map Frame.onAcked, (s.st.store.find (homeSet serverCfg 0) 0).isSome)) =
      some ([some 0], false) := by decide +kernel
  obtain ⟨s, hs, hv⟩ := Option.map_eq_some_iff.mp hrun
  obtain ⟨h1, h2⟩ := Prod.mk.inj hv
  have hr := h serverCfg id (Congestion.init serverCfg) _ (by decide +kernel) _ List.prefix_rfl s hs
  obtain ⟨f, hf, hsid⟩ := List.mem_map.mp (h1 ▸ List.mem_singleton_self (some 0))
  have hthere := hr.there f hf 0 hsid
  rw [h2] at hthere
  exact absurd hthere Bool.false_ne_true

end StreamFrames
end OpenQuic
