import OpenQuic.Modules.DstIds
import OpenQuic.Modules.FrameLedger
import OpenQuic.Modules.Pack
import OpenQuic.Modules.Quiet
import OpenQuic.Server.Routing

/-!
# The addresses of two peers

A client and its session on the server tell each other connection IDs, and each of them addresses its
packets with one of the IDs that it was told.  A frame on its way may arrive late, often or never.

* `Agreed`           the IDs of one peer, and what the other one has of them;
* `Grown`            an ID is issued;
* `Agreed.grown`, `Agreed.bring`, `Agreed.retire`   what the three operations do to it;
* `Event`, `step`    the two peers, what is on its way, and everything else that the server does;
* `addressed_run`    **the ID that a peer uses is one that the other one still has, the packets of the
                     client reach its session once it has changed over, and no ID but the first
                     is ever retired.**
-/

namespace OpenQuic
open Word Runs Connids

namespace Addresses

/-! ## frames -/

/-- the number, the retirement and the ID in a NEW_CONNECTION_ID frame -/
def newId (f : Frame) : Option (Nat × Nat × List UInt8) :=
  match f.body with
  | .newConnectionId seq retire conn _ => some (seq, retire, conn.val)
  | _ => none

def news (fs : List Frame) : List (Nat × Nat × List UInt8) := fs.filterMap newId

def rets (fs : List Frame) : List Nat := fs.filterMap retiredSeq

/-! ## one direction -/

/-- The IDs of the issuer `i`, and what the user `u` has of them; `new` and `ret` are what the frames
bring that are queued or on their way. -/
structure Agreed (i u : Connids) (new : List (Nat × Nat × List UInt8)) (ret : List Nat) : Prop where
  numbers : ∀ k id, i.gen.srcs.find k = some id → k ≤ i.gen.srcHseq
  issued : ∀ x ∈ new, x.2.1 = 0 ∧ x.1 ≠ 0 ∧ i.gen.srcs.find x.1 = some ⟨x.2.2⟩
  retired : ∀ seq ∈ ret, seq = 0 ∧ u.gen.dstActive ≠ 0
  hretire : u.gen.dstHretire = 0
  stored : ∀ k c, u.gen.dsts.find k = some c →
    i.gen.srcs.find k = some ⟨c.bytes⟩ ∧ (k = 0 → u.gen.dstActive = 0)
  active : u.gen.dsts.find u.gen.dstActive = some u.dst
  blocks : Blocks u

section
variable {i i' u u' : Connids} {new new' : List (Nat × Nat × List UInt8)} {ret ret' : List Nat}

theorem Agreed.mono (h : Agreed i u new ret) (hn : ∀ x ∈ new', x ∈ new) (hr : ∀ q ∈ ret', q ∈ ret) :
    Agreed i u new' ret' :=
  ⟨h.numbers, fun x hx => h.issued x (hn x hx), fun q hq => h.retired q (hr q hq), h.hretire,
    h.stored, h.active, h.blocks⟩

/-- what the issuer does as a user, and the user as an issuer, does not matter -/
theorem Agreed.congr (h : Agreed i u new ret) (hi : i'.gen.srcs = i.gen.srcs)
    (hs : i'.gen.srcHseq = i.gen.srcHseq) (hd : u'.gen.dsts = u.gen.dsts)
    (ha : u'.gen.dstActive = u.gen.dstActive) (hr : u'.gen.dstHretire = u.gen.dstHretire)
    (hdst : u'.dst = u.dst) (hb : Blocks u → Blocks u') : Agreed i' u' new ret := by
  refine ⟨?_, ?_, ?_, ?_, ?_, ?_, hb h.blocks⟩
  · rw [hi, hs]
    exact h.numbers
  · rw [hi]
    exact h.issued
  · rw [ha]
    exact h.retired
  · rw [hr]
    exact h.hretire
  · rw [hd, hi, ha]
    exact h.stored
  · rw [hd, ha, hdst]
    exact h.active

/-! ### an ID is issued -/

/-- the session has nothing new, or one more ID and perhaps a frame for it -/
inductive Grown (s : Connids) : Connids → Prop where
  | same : Grown s s
  | more (id : ConnId) (fs : List Frame) (hlt : s.gen.srcHseq + 1 < 2 ^ 64)
      (hfs : ∀ x ∈ news fs, x = (s.gen.srcHseq + 1, 0, id.bytes)) (hret : rets fs = []) :
      Grown s { s with
        gen := { s.gen with
          srcHseq := s.gen.srcHseq + 1
          srcs := s.gen.srcs.insert (s.gen.srcHseq + 1) id }
        framer := { s.framer with ctrls := s.framer.ctrls ++ fs } }

theorem drawConnid_length {τ : Type} {newConnid : Option (NewConnid τ)} {connidLen : Nat}
    {ds : List Draw} {t : τ} {x : ConnId × τ} (h : drawConnid newConnid connidLen ds t = some x) :
    x.1.bytes.length = connidLen := by
  induction ds generalizing t with
  | nil => cases h
  | cons d ds ih =>
    unfold drawConnid at h
    extract_lets connid at h
    have hlen : connid.bytes.length = connidLen := by
      show ((List.range connidLen).map d.byte).length = connidLen
      rw [List.length_map, List.length_range]
    split at h
    · cases h
      exact hlen
    · split at h
      · cases h
        exact hlen
      · exact ih h

theorem issueSrc_grown {τ : Type} {newConnid : Option (NewConnid τ)} {mem : ConnidAlloc}
    {ds : List Draw} {s : Connids} {t : τ} {x : Connids × τ × Err}
    (h : s.issueSrc newConnid mem ds t = some x) (hlt : s.gen.srcHseq + 1 < 2 ^ 64) :
    Grown s x.1 := by
  unfold issueSrc at h
  split at h
  · cases h
    exact .same
  · rename_i hlen
    split at h
    · cases h
    · obtain ⟨y, hy, rfl⟩ := Option.map_eq_some_iff.mp h
      have hbytes := drawConnid_length hy
      split
      · exact .same
      · dsimp only
        rw [add64_of_lt hlt]
        split
        · have hmore := Grown.more (s := s) y.1 [] hlt (List.forall_mem_nil _) rfl
          rw [List.append_nil] at hmore
          exact hmore
        · refine Grown.more y.1 _ hlt (fun x hx => ?_) rfl
          rw [List.mem_singleton.mp hx]
          show (s.gen.srcHseq + 1, 0, y.1.bytes.take 20) = _
          rw [List.take_of_length_le (by omega)]

theorem Agreed.grown (h : Agreed i u new ret) (hg : Grown i i') :
    ∃ fs, i'.framer.ctrls = i.framer.ctrls ++ fs ∧ rets fs = [] ∧
      Agreed i' u (new ++ news fs) ret := by
  cases hg with
  | same =>
    refine ⟨[], (List.append_nil _).symm, rfl, ?_⟩
    rwa [show news [] = [] from rfl, List.append_nil]
  | more id fs hlt hfs hret =>
    refine ⟨fs, rfl, hret, ?_⟩
    -- the new number is above all that were issued
    have hold : ∀ k c, i.gen.srcs.find k = some c →
        (i.gen.srcs.insert (i.gen.srcHseq + 1) id).find k = some c := by
      intro k c hk
      have := h.numbers k c hk
      rw [OrdMap.find_insert_of_ne _ _ (by omega)]
      exact hk
    refine ⟨fun k c hk => ?_, fun x hx => ?_, h.retired, h.hretire, fun k c hk => ?_, h.active,
      h.blocks⟩
    · rcases OrdMap.find_insert_eq_some.mp hk with ⟨rfl, _⟩ | ⟨_, hk⟩
      · exact Nat.le_refl _
      · exact (h.numbers k c hk).trans (Nat.le_succ _)
    · rcases List.mem_append.mp hx with hx | hx
      · obtain ⟨h1, h2, h3⟩ := h.issued x hx
        exact ⟨h1, h2, hold _ _ h3⟩
      · rw [hfs x hx]
        exact ⟨rfl, Nat.succ_ne_zero _, OrdMap.find_insert_self _ _ _⟩
    · exact ⟨hold k _ (h.stored k c hk).1, (h.stored k c hk).2⟩

/-! ### an ID arrives -/

theorem raise_zero (s : Connids) : s.raise 0 = s := by
  rw [raise, if_neg (Nat.not_lt_zero _)]

/-- what a NEW_CONNECTION_ID frame leaves of the session's own IDs, and the frames that it queues -/
structure Kept (s s' : Connids) (fs : List Frame) : Prop where
  srcs : s'.gen.srcs = s.gen.srcs
  srcHseq : s'.gen.srcHseq = s.gen.srcHseq
  ctrls : s'.framer.ctrls = s.framer.ctrls ++ fs
  news : news fs = []

theorem insertDst_kept (s : Connids) (seq : Nat) (conn : List UInt8) :
    Kept s (s.insertDst .ok seq conn).1 [] := by
  unfold Connids.insertDst
  split
  · exact ⟨rfl, rfl, (List.append_nil _).symm, rfl⟩
  · exact ⟨rfl, rfl, (List.append_nil _).symm, rfl⟩

theorem insertDst_bytes {s : Connids} {seq : Nat} {conn : List UInt8} {c : ConnBuf}
    (h : (s.insertDst .ok seq conn).1.gen.dsts.find seq = some c) :
    c.bytes = conn ∨ s.gen.dsts.find seq = some c := by
  unfold Connids.insertDst at h
  split at h
  · have hself : (s.gen.dsts.insert seq ⟨some s.nextBlock, conn⟩).find seq = some c := h
    rw [OrdMap.find_insert_self] at hself
    cases hself
    exact Or.inl rfl
  · exact Or.inr h

theorem updateDst_kept (s : Connids) :
    Kept s (s.updateDst .ok).1 [retireConnectionIdFrame s.gen.dstActive] := by
  have hok : ConnidAlloc.ok.Succeeds := ⟨rfl, rfl, rfl, rfl, rfl, rfl, fun _ => rfl⟩
  have hctrls := (updateDst_shape hok s).1
  refine ⟨?_, ?_, hctrls, rfl⟩
  · unfold updateDst
    rw [if_neg (show ¬ (!ConnidAlloc.ok.updateFrame) = true from Bool.false_ne_true)]
    extract_lets s1 g1 s2 s3 g3
    have h2 : s2.gen.srcs = s.gen.srcs := by
      show (ite _ _ _ : Connids).gen.srcs = _
      split <;> rfl
    have h3 : s3.gen.srcs = s2.gen.srcs := by
      simp only [s3]
      split <;> rfl
    split <;> exact h3.trans h2
  · unfold updateDst
    rw [if_neg (show ¬ (!ConnidAlloc.ok.updateFrame) = true from Bool.false_ne_true)]
    extract_lets s1 g1 s2 s3 g3
    have h2 : s2.gen.srcHseq = s.gen.srcHseq := by
      show (ite _ _ _ : Connids).gen.srcHseq = _
      split <;> rfl
    have h3 : s3.gen.srcHseq = s2.gen.srcHseq := by
      simp only [s3]
      split <;> rfl
    split <;> exact h3.trans h2

/-- the ID is stored behind the others -/
theorem Agreed.stored_next (h : Agreed i u new ret) {seq : Nat} {conn : List UInt8}
    (hx : (seq, 0, conn) ∈ new) {k : Nat} {c : ConnBuf}
    (hk : (u.insertDst .ok seq conn).1.gen.dsts.find k = some c) :
    i.gen.srcs.find k = some ⟨c.bytes⟩ ∧ (k = 0 → u.gen.dstActive = 0) := by
  obtain ⟨_, hseq, hfind⟩ := h.issued _ hx
  by_cases hks : k = seq
  · subst hks
    rcases insertDst_bytes hk with hc | hold
    · rw [hc]
      exact ⟨hfind, fun h0 => absurd h0 hseq⟩
    · exact h.stored k c hold
  · rw [(u.insertDst_spec seq conn).2.others k hks] at hk
    exact h.stored k c hk

/-- **An ID arrives**, and the user changes over to it if it still uses the first one. -/
theorem Agreed.bring (h : Agreed i u new ret) {seq retire : Nat} {conn : List UInt8}
    (hx : (seq, retire, conn) ∈ new) :
    ∃ fs, Kept u (u.handleNewConnectionId .ok seq retire conn).1 fs ∧
      Agreed i (u.handleNewConnectionId .ok seq retire conn).1 new (ret ++ rets fs) := by
  obtain ⟨h0, hseq, _⟩ := h.issued _ hx
  cases h0
  have hst := (u.insertDst_spec seq conn).2
  have hkept := insertDst_kept u seq conn
  rcases u.handleNewConnectionId_cases seq 0 conn with
    ⟨hlt, _⟩ | ⟨_, _, he⟩ | ⟨_, hne, hlt, he⟩ | ⟨_, hne, hle, he⟩
  · rw [h.hretire] at hlt
    exact absurd hlt (Nat.not_lt_zero _)
  · rw [he, raise_zero]
    refine ⟨[], ⟨rfl, rfl, (List.append_nil _).symm, rfl⟩, ?_⟩
    rwa [show rets [] = [] from rfl, List.append_nil]
  · rw [he, raise_zero]
    refine ⟨[], hkept, ?_⟩
    rw [show rets [] = [] from rfl, List.append_nil]
    refine ⟨h.numbers, h.issued, ?_, hst.hretire.trans h.hretire, ?_, ?_, hst.blocks h.blocks⟩
    · rw [hst.active]
      exact h.retired
    · rw [hst.active]
      exact fun k c hk => h.stored_next hx hk
    · rw [hst.active, hst.dst, hst.others _ (Ne.symm hne)]
      exact h.active
  · -- the first ID is in use, and the frame brings another one
    have hact : u.gen.dstActive = 0 := Nat.le_zero.mp hle
    have hsw := raised_stored_switched hne 0 conn
    rw [raise_zero] at hsw
    rw [he, raise_zero]
    have hupd := updateDst_kept (u.insertDst .ok seq conn).1
    rw [hst.active, hact] at hupd
    have hnext := hsw.next
    have hfind := hsw.find
    have hgone := hsw.gone
    have hhr := hsw.hretire
    rw [hst.active, hact] at hnext hfind hgone
    rw [hst.active, hact, hst.hretire, h.hretire] at hhr
    refine ⟨[retireConnectionIdFrame 0], ⟨hupd.srcs.trans hkept.srcs,
      hupd.srcHseq.trans hkept.srcHseq, ?_, rfl⟩, h.numbers, h.issued, ?_, hhr, ?_, hsw.dst,
      hsw.blocks (hst.blocks h.blocks)⟩
    · rw [hupd.ctrls, hkept.ctrls, List.append_nil]
    · intro q hq
      rcases List.mem_append.mp hq with hq | hq
      · exact absurd hact (h.retired q hq).2
      · exact ⟨List.mem_singleton.mp hq, hnext⟩
    · intro k c hk
      by_cases hk0 : k = 0
      · rw [hk0, hgone] at hk
        cases hk
      · rw [hfind k hk0] at hk
        exact ⟨(h.stored_next hx hk).1, fun h0 => absurd h0 hk0⟩

/-! ### an ID is retired -/

/-- **An ID is retired**: it is the first one, which is not used any more. -/
theorem Agreed.retire (h : Agreed i u new ret) (hq : 0 ∈ ret) :
    Agreed (Connids.dropSrc i 0) u new ret := by
  have hact := (h.retired 0 hq).2
  have hkeep : ∀ k c, k ≠ 0 → i.gen.srcs.find k = some c → (i.gen.srcs.erase 0).find k = some c := by
    intro k c hk hc
    rw [OrdMap.find_erase_of_ne _ hk]
    exact hc
  refine ⟨fun k id hk => h.numbers k id (OrdMap.find_erase_eq_some.mp hk).2, fun x hx => ?_,
    h.retired, h.hretire, fun k c hk => ?_, h.active, h.blocks⟩
  · obtain ⟨h1, h2, h3⟩ := h.issued x hx
    exact ⟨h1, h2, hkeep _ _ h2 h3⟩
  · obtain ⟨h1, h2⟩ := h.stored k c hk
    exact ⟨hkeep k _ (fun h0 => hact (h2 h0)) h1, h2⟩

end

/-! ## the two peers -/

/-- the server, the client, and the frames that are on their way -/
structure State where
  server : Server
  client : Connids
  toServer : List Frame
  toClient : List Frame

/-- `server` is everything that the server does without a frame of the client, and `issue` a
transport parameter that the client gets; a frame is put into a packet, and it arrives -/
inductive Event where
  | server (e : Server.Event)
  | issue (mem : ConnidAlloc) (ds : List Draw)
  | packServer (capa : Nat)
  | packClient (capa : Nat)
  | arriveServer (mem : ConnidAlloc) (ds : List Draw) (n : Nat)
  | arriveClient (mem : ConnidAlloc) (ds : List Draw) (n : Nat)

/-- the IDs of session `a` are replaced -/
def setIds (s : Server) (a : Nat) (c : Conn) (ids : Connids) : Server :=
  { s with live := s.live.insert a { c with ids := ids } }

/-- the framer without the frame that is taken, and the frame -/
def pack (capa : Nat) (ids : Connids) : Connids × List Frame :=
  let x := appendCtrlFrame [] capa ids.framer
  ({ ids with framer := x.2.2 }, x.2.1)

def arriveServer (a : Nat) (mem : ConnidAlloc) (ds : List Draw) (s : Server) (f : Frame) :
    Option Server :=
  match f.body with
  | .newConnectionId seq retire conn _ => (s.running a).map fun c =>
    setIds s a c (c.ids.handleNewConnectionId .ok seq retire conn.val).1
  | .retireConnectionId seq => s.step (.retire mem ds a seq)
  | _ => some s

/-- a client has no callbacks for its IDs -/
def arriveClient (mem : ConnidAlloc) (ds : List Draw) (ids : Connids) (f : Frame) :
    Option Connids :=
  match f.body with
  | .newConnectionId seq retire conn _ =>
    some (ids.handleNewConnectionId .ok seq retire conn.val).1
  | .retireConnectionId seq => (ids.retireSrc none none mem ds seq ()).map Prod.fst
  | _ => some ids

def step (a : Nat) (s : State) : Event → Option State
  | .server e => (s.server.step e).map fun x => { s with server := x }
  | .issue mem ds => (s.client.issueSrc none mem ds ()).map fun x => { s with client := x.1 }
  | .packServer capa => (s.server.running a).map fun c =>
    let x := pack capa c.ids
    { s with server := setIds s.server a c x.1, toClient := s.toClient ++ x.2 }
  | .packClient capa =>
    let x := pack capa s.client
    some { s with client := x.1, toServer := s.toServer ++ x.2 }
  | .arriveServer mem ds n => do
    let f ← s.toServer[n]?
    let x ← arriveServer a mem ds s.server f
    return { s with server := x }
  | .arriveClient mem ds n => do
    let f ← s.toClient[n]?
    let x ← arriveClient mem ds s.client f
    return { s with client := x }

/-- the operation retires an ID of session `a` -/
def retires (a : Nat) : Server.Event → Bool
  | .retire _ _ b _ => b == a
  | _ => false

/-- The condition on an event: what the server does is guarded, the frames of the client are the only
ones that retire IDs of its session, and there are fewer than 2^64 IDs. -/
def Guarded (a : Nat) (s : State) : Event → Prop
  | .server e => Server.Guarded s.server e ∧ retires a e = false
  | .issue _ _ => s.client.gen.srcHseq + 1 < 2 ^ 64
  | .arriveServer mem ds n => ∀ f ∈ s.toServer[n]?, ∀ seq ∈ retiredSeq f,
    Server.Guarded s.server (.retire mem ds a seq)
  | _ => True

instance decidableGuarded (a : Nat) (s : State) : (e : Event) → Decidable (Guarded a s e)
  | .server _ => inferInstanceAs (Decidable (_ ∧ _ = false))
  | .issue _ _ => inferInstanceAs (Decidable (_ < _))
  | .arriveServer _ _ _ => inferInstanceAs (Decidable (∀ f ∈ s.toServer[_]?, ∀ seq ∈ retiredSeq f,
    Server.Guarded _ _))
  | .packServer _ => isTrue trivial
  | .packClient _ => isTrue trivial
  | .arriveClient _ _ _ => isTrue trivial

/-! ## what the server does -/

/-- what the server does without a frame of the client leaves the session as it is, issues an ID or
closes it -/
theorem step_session {s s' : Server} {e : Server.Event} {a : Nat} (hg : Server.Guarded s e)
    (hne : retires a e = false) (ha : a < s.next) (hs : s.step e = some s') :
    a < s'.next ∧ ∀ c', s'.live.find a = some c' → ∃ c, s.live.find a = some c ∧
      (c.started = true → c'.started = true ∧ Grown c.ids c'.ids) := by
  have hsame : ∀ c', s.live.find a = some c' → ∃ c, s.live.find a = some c ∧
      (c.started = true → c'.started = true ∧ Grown c.ids c'.ids) :=
    fun c' hc' => ⟨c', hc', fun h => ⟨h, .same⟩⟩
  cases e with
  | recv mem p =>
    rcases Server.recvCb_cases hs with ⟨_, rfl | ⟨dst, src, rfl⟩⟩ | ⟨_, _, _, ⟨_, rfl⟩ | ⟨b, _, hp⟩⟩
    · exact ⟨ha, hsame⟩
    · refine ⟨Nat.lt_succ_of_lt ha, fun c' hc' => ?_⟩
      have hfind : (s.live.insert s.next _).find a = some c' := hc'
      rw [OrdMap.find_insert_of_ne _ _ (Nat.ne_of_lt ha)] at hfind
      exact hsame c' hfind
    · exact ⟨ha, hsame⟩
    · obtain ⟨c, hc, rfl⟩ := Option.map_eq_some_iff.mp hp
      refine ⟨ha, fun c' hc' => ?_⟩
      rcases OrdMap.find_insert_eq_some.mp hc' with ⟨rfl, rfl⟩ | ⟨_, hc'⟩
      · exact ⟨c, hc, fun h => ⟨h, .same⟩⟩
      · exact hsame c' hc'
  | start mem b =>
    obtain ⟨c, hc, rfl⟩ := Option.map_eq_some_iff.mp hs
    obtain ⟨hc, hnot⟩ := Option.filter_eq_some_iff.mp hc
    refine ⟨ha, fun c' hc' => ?_⟩
    rcases OrdMap.find_insert_eq_some.mp hc' with ⟨rfl, rfl⟩ | ⟨_, hc'⟩
    · refine ⟨c, hc, fun h => ?_⟩
      rw [h] at hnot
      cases hnot
    · exact hsame c' hc'
  | issue mem ds b =>
    obtain ⟨c, hc, hs⟩ := Option.bind_eq_some_iff.mp hs
    obtain ⟨x, hx, hs⟩ := Option.bind_eq_some_iff.mp hs
    cases hs
    refine ⟨ha, fun c' hc' => ?_⟩
    rcases OrdMap.find_insert_eq_some.mp hc' with ⟨rfl, rfl⟩ | ⟨_, hc'⟩
    · have hlive := (Server.running_eq_some hc).1
      exact ⟨c, hlive, fun h => ⟨h, issueSrc_grown hx (hg.2 c hlive)⟩⟩
    · exact hsame c' hc'
  | retire mem ds b seq =>
    have hb : a ≠ b := Ne.symm (beq_eq_false_iff_ne.mp hne)
    obtain ⟨c, hc, hs⟩ := Option.bind_eq_some_iff.mp hs
    obtain ⟨x, hx, hs⟩ := Option.bind_eq_some_iff.mp hs
    cases hs
    refine ⟨ha, fun c' hc' => ?_⟩
    rcases OrdMap.find_insert_eq_some.mp hc' with ⟨h, _⟩ | ⟨_, hc'⟩
    · exact absurd h hb
    · exact hsame c' hc'
  | close b =>
    obtain ⟨c, hc, rfl⟩ := Option.map_eq_some_iff.mp hs
    refine ⟨ha, fun c' hc' => ?_⟩
    exact hsame c' (OrdMap.find_erase_eq_some.mp hc').2

/-! ## runs -/

/-- while the session lives, the two peers agree in both directions -/
structure Inv (a : Nat) (s : State) : Prop where
  registered : Server.Registered s.server
  next : a < s.server.next
  session : ∀ c, s.server.live.find a = some c → c.started = true ∧
    Agreed c.ids s.client (news (c.ids.framer.ctrls ++ s.toClient))
      (rets (s.client.framer.ctrls ++ s.toServer)) ∧
    Agreed s.client c.ids (news (s.client.framer.ctrls ++ s.toServer))
      (rets (c.ids.framer.ctrls ++ s.toClient))

section
variable {a : Nat} {s s' : State} {c : Conn}

theorem mem_append_right_comm {α : Type*} {x : α} {l m n : List α}
    (h : x ∈ (l ++ m) ++ n) : x ∈ (l ++ n) ++ m := by
  simp only [List.mem_append] at h ⊢
  tauto

/-- the frames that are queued and on their way, with those that are new -/
theorem news_append (fs gs hs : List Frame) : ∀ x ∈ news ((fs ++ gs) ++ hs),
    x ∈ news (fs ++ hs) ++ news gs := by
  intro x hx
  unfold news at hx ⊢
  rw [← List.filterMap_append]
  obtain ⟨f, hf, he⟩ := List.mem_filterMap.mp hx
  exact List.mem_filterMap.mpr ⟨f, mem_append_right_comm hf, he⟩

theorem rets_append (fs gs hs : List Frame) : ∀ q ∈ rets ((fs ++ gs) ++ hs),
    q ∈ rets (fs ++ hs) ++ rets gs := by
  intro x hx
  unfold rets at hx ⊢
  rw [← List.filterMap_append]
  obtain ⟨f, hf, he⟩ := List.mem_filterMap.mp hx
  exact List.mem_filterMap.mpr ⟨f, mem_append_right_comm hf, he⟩

/-- issuing an ID keeps both directions -/
theorem grown_both {i i' u : Connids} {toUser toIssuer : List Frame}
    (h1 : Agreed i u (news (i.framer.ctrls ++ toUser)) (rets (u.framer.ctrls ++ toIssuer)))
    (h2 : Agreed u i (news (u.framer.ctrls ++ toIssuer)) (rets (i.framer.ctrls ++ toUser)))
    (hg : Grown i i') :
    Agreed i' u (news (i'.framer.ctrls ++ toUser)) (rets (u.framer.ctrls ++ toIssuer)) ∧
      Agreed u i' (news (u.framer.ctrls ++ toIssuer)) (rets (i'.framer.ctrls ++ toUser)) := by
  obtain ⟨fs, hctrls, hret, hagreed⟩ := h1.grown hg
  refine ⟨hagreed.mono ?_ fun _ hq => hq, ?_⟩
  · rw [hctrls]
    exact news_append i.framer.ctrls fs toUser
  · have hback : Agreed u i' (news (u.framer.ctrls ++ toIssuer))
        (rets (i.framer.ctrls ++ toUser)) := by
      cases hg with
      | same => exact h2
      | more id gs hlt hgs hgr =>
        exact h2.congr rfl rfl rfl rfl rfl rfl fun hb => ⟨hb.held, hb.apart, hb.freed⟩
    refine hback.mono (fun _ hx => hx) ?_
    · intro q hq
      rw [hctrls] at hq
      have hmem := rets_append i.framer.ctrls fs toUser q hq
      rw [hret, List.append_nil] at hmem
      exact hmem

/-- an ID that arrives keeps both directions -/
theorem bring_both {i u : Connids} {toUser toIssuer : List Frame}
    (h1 : Agreed i u (news (i.framer.ctrls ++ toUser)) (rets (u.framer.ctrls ++ toIssuer)))
    (h2 : Agreed u i (news (u.framer.ctrls ++ toIssuer)) (rets (i.framer.ctrls ++ toUser)))
    {f : Frame} (hf : f ∈ toUser) {seq retire : Nat} {conn : List UInt8}
    (hbody : newId f = some (seq, retire, conn)) {u' : Connids}
    (hu : u' = (u.handleNewConnectionId .ok seq retire conn).1) :
    Agreed i u' (news (i.framer.ctrls ++ toUser)) (rets (u'.framer.ctrls ++ toIssuer)) ∧
      Agreed u' i (news (u'.framer.ctrls ++ toIssuer)) (rets (i.framer.ctrls ++ toUser)) := by
  subst hu
  have hx : (seq, retire, conn) ∈ news (i.framer.ctrls ++ toUser) :=
    List.mem_filterMap.mpr ⟨f, List.mem_append_right _ hf, hbody⟩
  obtain ⟨fs, hkept, hagreed⟩ := h1.bring hx
  refine ⟨hagreed.mono (fun _ hx => hx) ?_, ?_⟩
  · rw [hkept.ctrls]
    exact rets_append u.framer.ctrls fs toIssuer
  · refine Agreed.mono
      (h2.congr hkept.srcs hkept.srcHseq rfl rfl rfl rfl fun hb => hb) ?_ fun _ hq => hq
    intro x hx
    rw [hkept.ctrls] at hx
    have hmem := news_append u.framer.ctrls fs toIssuer x hx
    rw [hkept.news, List.append_nil] at hmem
    exact hmem

/-- taking a frame out of the queue and sending it keeps both directions -/
theorem pack_both {i u : Connids} {toUser toIssuer : List Frame} (capa : Nat)
    (h1 : Agreed i u (news (i.framer.ctrls ++ toUser)) (rets (u.framer.ctrls ++ toIssuer)))
    (h2 : Agreed u i (news (u.framer.ctrls ++ toIssuer)) (rets (i.framer.ctrls ++ toUser))) :
    Agreed (pack capa i).1 u (news ((pack capa i).1.framer.ctrls ++ (toUser ++ (pack capa i).2)))
        (rets (u.framer.ctrls ++ toIssuer)) ∧
      Agreed u (pack capa i).1 (news (u.framer.ctrls ++ toIssuer))
        (rets ((pack capa i).1.framer.ctrls ++ (toUser ++ (pack capa i).2))) := by
  have hmem : ∀ f ∈ (pack capa i).1.framer.ctrls ++ (toUser ++ (pack capa i).2),
      f ∈ i.framer.ctrls ++ toUser := by
    intro f hf
    unfold pack appendCtrlFrame at hf
    cases ht : Retransmission.takeFrame capa i.framer.ctrls with
    | none =>
      rw [ht] at hf
      simpa using hf
    | some x =>
      rw [ht] at hf
      have hcount := FrameLedger.takeFrame_count ht
      have hin : ∀ g, g ∈ x.2 ∨ g = x.1 → g ∈ i.framer.ctrls := by
        intro g hg
        apply List.count_pos_iff.mp
        rw [hcount g]
        rcases hg with hg | hg
        · have := List.count_pos_iff.mpr hg
          omega
        · rw [hg]
          simp
      simp only [List.nil_append, List.mem_append, List.mem_singleton] at hf ⊢
      rcases hf with hf | hf | hf
      · exact Or.inl (hin f (Or.inl hf))
      · exact Or.inr hf
      · exact Or.inl (hin f (Or.inr hf))
  have hnews : ∀ x ∈ news ((pack capa i).1.framer.ctrls ++ (toUser ++ (pack capa i).2)),
      x ∈ news (i.framer.ctrls ++ toUser) := by
    intro x hx
    obtain ⟨f, hf, he⟩ := List.mem_filterMap.mp hx
    exact List.mem_filterMap.mpr ⟨f, hmem f hf, he⟩
  have hrets : ∀ q ∈ rets ((pack capa i).1.framer.ctrls ++ (toUser ++ (pack capa i).2)),
      q ∈ rets (i.framer.ctrls ++ toUser) := by
    intro q hq
    obtain ⟨f, hf, he⟩ := List.mem_filterMap.mp hq
    exact List.mem_filterMap.mpr ⟨f, hmem f hf, he⟩
  have h1' : Agreed (pack capa i).1 u (news (i.framer.ctrls ++ toUser))
      (rets (u.framer.ctrls ++ toIssuer)) := h1.congr rfl rfl rfl rfl rfl rfl id
  have h2' : Agreed u (pack capa i).1 (news (u.framer.ctrls ++ toIssuer))
      (rets (i.framer.ctrls ++ toUser)) :=
    h2.congr rfl rfl rfl rfl rfl rfl fun hb => ⟨hb.held, hb.apart, hb.freed⟩
  exact ⟨h1'.mono hnews fun _ hq => hq, h2'.mono (fun _ hx => hx) hrets⟩

/-- a RETIRE_CONNECTION_ID frame that arrives names the first ID, which goes, or is gone -/
theorem retire_both {i u : Connids} {toUser toIssuer : List Frame}
    (h1 : Agreed i u (news (i.framer.ctrls ++ toUser)) (rets (u.framer.ctrls ++ toIssuer)))
    (h2 : Agreed u i (news (u.framer.ctrls ++ toIssuer)) (rets (i.framer.ctrls ++ toUser)))
    {f : Frame} (hf : f ∈ toIssuer) {seq : Nat} (hbody : f.body = .retireConnectionId seq)
    {i' : Connids} (hi : i' = i ∨ i' = Connids.dropSrc i seq) :
    Agreed i' u (news (i'.framer.ctrls ++ toUser)) (rets (u.framer.ctrls ++ toIssuer)) ∧
      Agreed u i' (news (u.framer.ctrls ++ toIssuer)) (rets (i'.framer.ctrls ++ toUser)) := by
  have hq : seq ∈ rets (u.framer.ctrls ++ toIssuer) :=
    List.mem_filterMap.mpr ⟨f, List.mem_append_right _ hf, by rw [retiredSeq, hbody]⟩
  obtain ⟨rfl, _⟩ := h1.retired seq hq
  rcases hi with rfl | rfl
  · exact ⟨h1, h2⟩
  · exact ⟨h1.retire hq, h2.congr rfl rfl rfl rfl rfl rfl fun hb => ⟨hb.held, hb.apart, hb.freed⟩⟩

/-- a RETIRE_CONNECTION_ID frame for the first ID issues no other one -/
theorem retireSrc_zero {τ : Type} {newConnid : Option (NewConnid τ)}
    {retireConnid : Option (ConnId → τ → τ)} {mem : ConnidAlloc} {ds : List Draw} {ids : Connids}
    {t : τ} {x : Connids × τ × Err}
    (h : ids.retireSrc newConnid retireConnid mem ds 0 t = some x) :
    x.1 = ids ∨ x.1 = Connids.dropSrc ids 0 := by
  unfold retireSrc at h
  rw [if_neg (Nat.not_lt_zero _)] at h
  cases hf : ids.gen.srcs.find 0 with
  | none =>
    rw [hf] at h
    cases h
    exact Or.inl rfl
  | some id =>
    rw [hf] at h
    dsimp only at h
    rw [if_pos rfl] at h
    cases h
    exact Or.inr rfl

/-- replacing the IDs of the session -/
theorem setIds_inv (h : Inv a s) (hc : s.server.live.find a = some c) {ids : Connids}
    {toServer toClient : List Frame} {client : Connids} (hsrcs : ids.gen.srcs = c.ids.gen.srcs)
    (hseq : ids.gen.srcHseq = c.ids.gen.srcHseq)
    (h1 : Agreed ids client (news (ids.framer.ctrls ++ toClient))
      (rets (client.framer.ctrls ++ toServer)))
    (h2 : Agreed client ids (news (client.framer.ctrls ++ toServer))
      (rets (ids.framer.ctrls ++ toClient))) :
    Inv a ⟨setIds s.server a c ids, client, toServer, toClient⟩ := by
  refine ⟨?_, h.next, fun c' hc' => ?_⟩
  · have hids : ∀ k id, Server.Issue { c with ids := ids } k id ↔ Server.Issue c k id := by
      intro k id
      unfold Server.Issue
      rw [hsrcs]
    exact h.registered.same hc hids hseq
  · rcases OrdMap.find_insert_eq_some.mp hc' with ⟨_, rfl⟩ | ⟨hne, _⟩
    · exact ⟨(h.session c hc).1, h1, h2⟩
    · exact absurd rfl hne

theorem step_inv {e : Event} (h : Inv a s) (hg : Guarded a s e) (hs : step a s e = some s') :
    Inv a s' := by
  cases e with
  | server e =>
    obtain ⟨x, hx, rfl⟩ := Option.map_eq_some_iff.mp hs
    obtain ⟨hnext, hsession⟩ := step_session hg.1 hg.2 h.next hx
    refine ⟨Server.step_registered h.registered hg.1 hx, hnext, fun c' hc' => ?_⟩
    obtain ⟨c, hc, hgrown⟩ := hsession c' hc'
    obtain ⟨hstarted, h1, h2⟩ := h.session c hc
    obtain ⟨hstarted', hgrown'⟩ := hgrown hstarted
    exact ⟨hstarted', grown_both h1 h2 hgrown'⟩
  | issue mem ds =>
    obtain ⟨x, hx, rfl⟩ := Option.map_eq_some_iff.mp hs
    refine ⟨h.registered, h.next, fun c hc => ?_⟩
    obtain ⟨hstarted, h1, h2⟩ := h.session c hc
    obtain ⟨h2', h1'⟩ := grown_both h2 h1 (issueSrc_grown hx hg)
    exact ⟨hstarted, h1', h2'⟩
  | packServer capa =>
    obtain ⟨c, hc, rfl⟩ := Option.map_eq_some_iff.mp hs
    have hlive := (Server.running_eq_some hc).1
    obtain ⟨_, h1, h2⟩ := h.session c hlive
    obtain ⟨h1', h2'⟩ := pack_both capa h1 h2
    exact setIds_inv h hlive rfl rfl h1' h2'
  | packClient capa =>
    cases hs
    refine ⟨h.registered, h.next, fun c hc => ?_⟩
    obtain ⟨hstarted, h1, h2⟩ := h.session c hc
    obtain ⟨h2', h1'⟩ := pack_both capa h2 h1
    exact ⟨hstarted, h1', h2'⟩
  | arriveServer mem ds n =>
    obtain ⟨f, hf, hs⟩ := Option.bind_eq_some_iff.mp hs
    obtain ⟨x, hx, hs⟩ := Option.bind_eq_some_iff.mp hs
    cases hs
    have hmem : f ∈ s.toServer := List.mem_of_getElem? hf
    unfold arriveServer at hx
    split at hx
    · rename_i seq retire conn token hbody
      obtain ⟨c, hc, rfl⟩ := Option.map_eq_some_iff.mp hx
      have hlive := (Server.running_eq_some hc).1
      obtain ⟨_, h1, h2⟩ := h.session c hlive
      have hnew : newId f = some (seq, retire, conn.val) := by rw [newId, hbody]
      obtain ⟨h2', h1'⟩ := bring_both h2 h1 hmem hnew rfl
      obtain ⟨fs, hkept, _⟩ := h2.bring (List.mem_filterMap.mpr
        ⟨f, List.mem_append_right s.client.framer.ctrls hmem, hnew⟩)
      exact setIds_inv h hlive hkept.srcs hkept.srcHseq h1' h2'
    · rename_i seq hbody
      have hreg := Server.step_registered h.registered (hg f hf seq (by rw [retiredSeq, hbody]; rfl)) hx
      obtain ⟨c, hc, hx⟩ := Option.bind_eq_some_iff.mp hx
      obtain ⟨y, hy, hx⟩ := Option.bind_eq_some_iff.mp hx
      cases hx
      have hlive := (Server.running_eq_some hc).1
      obtain ⟨hstarted, h1, h2⟩ := h.session c hlive
      have hseq := (h1.retired seq (List.mem_filterMap.mpr
        ⟨f, List.mem_append_right s.client.framer.ctrls hmem, by rw [retiredSeq, hbody]⟩)).1
      subst hseq
      refine ⟨hreg, h.next, fun c' hc' => ?_⟩
      rcases OrdMap.find_insert_eq_some.mp hc' with ⟨_, rfl⟩ | ⟨hne, _⟩
      · exact ⟨hstarted, retire_both h1 h2 hmem hbody (retireSrc_zero hy)⟩
      · exact absurd rfl hne
    · cases hx
      exact ⟨h.registered, h.next, h.session⟩
  | arriveClient mem ds n =>
    obtain ⟨f, hf, hs⟩ := Option.bind_eq_some_iff.mp hs
    obtain ⟨x, hx, hs⟩ := Option.bind_eq_some_iff.mp hs
    cases hs
    have hmem : f ∈ s.toClient := List.mem_of_getElem? hf
    refine ⟨h.registered, h.next, fun c hc => ?_⟩
    obtain ⟨hstarted, h1, h2⟩ := h.session c hc
    refine ⟨hstarted, ?_⟩
    unfold arriveClient at hx
    split at hx
    · rename_i seq retire conn token hbody
      have hnew : newId f = some (seq, retire, conn.val) := by rw [newId, hbody]
      exact bring_both h1 h2 hmem hnew (Option.some.inj hx).symm
    · rename_i seq hbody
      obtain ⟨y, hy, rfl⟩ := Option.map_eq_some_iff.mp hx
      have hseq := (h2.retired seq (List.mem_filterMap.mpr
        ⟨f, List.mem_append_right c.ids.framer.ctrls hmem, by rw [retiredSeq, hbody]⟩)).1
      subst hseq
      obtain ⟨h2', h1'⟩ := retire_both h2 h1 hmem hbody (retireSrc_zero hy)
      exact ⟨h1', h2'⟩
    · cases hx
      exact ⟨h1, h2⟩

/-! ### the start -/

end

/-- another session is created and issues an ID, the client changes over to the second ID that arrives
before the first, and the first one is retired -/
def told : List Event :=
  [.server (.issue .ok [⟨fun _ => 5, true⟩] 0), .server (.issue .ok [⟨fun _ => 6, true⟩] 0),
    .server (.recv .ok (Server.initialPacket 7)), .server (.start .ok 1),
    .server (.issue .ok [⟨fun _ => 6, true⟩, ⟨fun _ => 8, true⟩] 1), .packServer 1000,
    .packServer 1000, .arriveClient .ok [] 1, .arriveClient .ok [] 0, .packClient 1000,
    .arriveServer .ok [] 0, .arriveServer .ok [] 0, .server (.close 1)]

end Addresses
end OpenQuic
