import OpenQuic.Modules.Endpoint
import OpenQuic.Lib.Runs
import OpenQuic.Modules.Replay
import OpenQuic.Modules.Spaces

/-!
# Encryption levels

What the levels of the sealer module are for, in every run of an endpoint.

* `SentOne`, `loop_turned`   a turn of the sender sends a packet of a space that belongs to the level,
                     or none;
* `Ordered`          Initial packets leave before Handshake packets and these before all others; a
                     space whose packets are over has nothing left to acknowledge or to send again;
* `ordered_run`      **it holds in every run, and no level is ever taken back.**
-/

namespace OpenQuic
open Word Runs

namespace Endpoint
open Spaces

variable {τ ρ : Type}

/-! ## a turn of the sender -/

/-- the spaces whose packets a level sends -/
def Belongs : EncLevel → Space → Prop
  | .initial, .initial => True
  | .initial, .handshake => True
  | .handshake, .handshake => True
  | .application, .app => True
  | _, _ => False

/-- no packet leaves -/
structure Rested (e e' : Endpoint τ ρ) : Prop where
  level : e'.session.level = e.session.level
  sent : e'.sent = e.sent
  kept : ∀ sp, SpaceKept e.session e'.session sp

/-- a packet of the space leaves, and the first Handshake packet is the end of the Initial space -/
structure SentOne (e e' : Endpoint τ ρ) (sp : Space) : Prop where
  sent : ∃ z, e'.sent = z :: e.sent ∧ z.space = sp
  level : e'.session.level = if sp = .handshake then .handshake else e.session.level
  kept : ∀ sp', ¬ (sp = .handshake ∧ sp' = .initial) → SpaceKept e.session e'.session sp'
  gone : sp = .handshake → Gone e'.session .initial

section
variable {env : Env τ ρ} {o : Outside} {e e' : Endpoint τ ρ}

theorem put_kept (env : Env τ ρ) (sp : Space) {x : Pack.Packing} {s : Session τ ρ}
    (ha : AckKept (s.ackGens sp) x.ack) (hr : RtxKept (s.rtx sp) x.rtx) (sp' : Space) :
    SpaceKept s (put env sp x s) sp' := by
  let s1 : Session τ ρ := { s with ackGens := Function.update s.ackGens sp x.ack }
  have h1 : SpaceKept s s1 sp' := spaceKept_updateAck s s1 rfl rfl ha sp'
  exact h1.trans (spaceKept_updateRtx s1 (put env sp x s) rfl rfl hr sp')

theorem sendPacket_kept (mem : Bool) (now : Time) (m : Recovery) (pkt : SendPacket) :
    RtxKept m.rtx (sendPacket mem now m pkt).1.rtx := by
  cases mem with
  | false => exact Kept.refl _ _
  | true => exact sentMemPush_kept m pkt.num _

theorem sendSealed_kept (o : Outside) (sp : Space) (pkt : SendPacket) (s : Session τ ρ)
    (sp' : Space) : SpaceKept s (sendSealed o sp pkt s).1 sp' :=
  spaceKept_updateRtx s (sendSealed o sp pkt s).1 rfl rfl
    (sendPacket_kept o.nodeMem o.sentTime ⟨s.rtx sp, s.cong, s.loopDeadline⟩ pkt) sp'

theorem sendSealed_space (sp : Space) (pkt : SendPacket) (s : Session τ ρ) :
    (sendSealed o sp pkt s).2.space = pkt.space := by
  unfold sendSealed sendPacket
  cases o.nodeMem <;> rfl

theorem send_sent {probe : Bool} {sp : Space} {x : Pack.Packed}
    (hx : e.pack env o probe sp = some x) (h : e.send env o sp x = some e') : SentOne e e' sp := by
  obtain ⟨y, hy, rfl⟩ := Option.map_eq_some_iff.mp h
  obtain ⟨hack, hrtx⟩ := packPacket_kept hx
  have hput := put_kept env sp hack hrtx
  have hspace : y.1.space = sp := (SenderLoop.sealed_names (e := y.2) hy).1
  have hpush := sendSealed_kept o sp y.1
    (if sp = .handshake then (put env sp x.packing e.session).setLevel .handshake
      else put env sp x.packing e.session)
  refine ⟨⟨_, rfl, (sendSealed_space sp y.1 _).trans hspace⟩, ?_, fun sp' hsp' => ?_, fun hsp => ?_⟩
  · show (if sp = .handshake then _ else _ : Session τ ρ).level = _
    split <;> rfl
  · refine SpaceKept.trans ?_ (hpush sp')
    split
    · rename_i hsp
      have hdrop := dropSpace_kept (put env sp x.packing e.session) .initial
        fun heq => hsp' ⟨hsp, heq⟩
      exact (hput sp').trans ⟨hdrop.ack, hdrop.rtx⟩
    · exact hput sp'
  · refine (hpush .initial).gone ?_
    rw [if_pos hsp]
    have hg := dropSpace_gone (put env sp x.packing e.session) .initial
    exact ⟨hg.ack, hg.ranges, hg.rtx, hg.sentMem, hg.queue⟩

theorem choose_belongs {probe : Bool} {sp : Space} {x : Pack.Packed}
    (h : e.choose env o probe = some (sp, x)) :
    Belongs e.session.level sp ∧ e.pack env o probe sp = some x := by
  unfold choose at h
  cases hl : e.session.level with
  | initial =>
    rw [hl] at h
    dsimp only at h
    cases hinitial : e.pack env o probe .initial with
    | some y =>
      rw [hinitial] at h
      cases h
      exact ⟨trivial, hinitial⟩
    | none =>
      rw [hinitial] at h
      obtain ⟨y, hy, he⟩ := Option.map_eq_some_iff.mp h
      cases he
      exact ⟨trivial, hy⟩
  | handshake =>
    rw [hl] at h
    obtain ⟨y, hy, he⟩ := Option.map_eq_some_iff.mp h
    cases he
    exact ⟨trivial, hy⟩
  | application =>
    rw [hl] at h
    obtain ⟨y, hy, he⟩ := Option.map_eq_some_iff.mp h
    cases he
    exact ⟨trivial, hy⟩
  | earlyData =>
    rw [hl] at h
    cases h

theorem unpacked_rested (env : Env τ ρ) (o : Outside) (probe : Bool) (e : Endpoint τ ρ) : Rested e (e.unpacked env o probe) := by
  have hsame : Rested e e := ⟨rfl, rfl, SpaceKept.of_eq rfl rfl⟩
  unfold unpacked
  dsimp only
  split
  · exact hsame
  · split
    · exact ⟨rfl, rfl, SpaceKept.of_eq rfl rfl⟩
    · refine ⟨rfl, rfl, ?_⟩
      have hw := Pack.collect_walk o.pack o.fuel probe [.retransmission, .ctrl, .stream]
        ⟨[], 0, false, u32 (sub64 (sub64 (e.packLevel env o .app).mtu
          (generateShortHeader (e.packLevel env o .app).dst (e.packLevel env o .app).num).length)
          (e.packLevel env o .app).tag), 0, (e.packLevel env o .app).ack,
          (e.packLevel env o .app).rtx, (e.packLevel env o .app).crypto,
          (e.packLevel env o .app).streams.processRwnd o.rwnd.cfg o.rwnd.streamMem⟩
      obtain ⟨hack, hrtx⟩ := walk_kept hw
      intro sp
      have hk := put_kept env .app hack hrtx sp
      exact ⟨hk.ack, hk.rtx⟩

/-- **A turn sends a packet that belongs to the level, or none.** -/
theorem loop_turned {now : Time} (h : e.loop env o now = some e') :
    Rested e e' ∨ ∃ sp, Belongs e.session.level sp ∧ SentOne e e' sp := by
  have hsame : ∀ (loopDeadline nextSendTime : Time), Rested e { e with
      session := { e.session with loopDeadline := loopDeadline }, nextSendTime := nextSendTime } :=
    fun _ _ => ⟨rfl, rfl, SpaceKept.of_eq rfl rfl⟩
  unfold loop at h
  split at h
  · cases h
    exact .inl (hsame _ e.nextSendTime)
  · dsimp only at h
    split at h
    · cases h
      exact .inl (hsame e.session.loopDeadline 0)
    · split at h
      · cases h
        exact .inl (hsame e.session.loopDeadline 0)
      · split at h
        · cases h
          have hr := fun probe =>
            unpacked_rested env o probe { e with nextSendTime := 0 }
          exact .inl ⟨(hr _).level, (hr _).sent, (hr _).kept⟩
        · rename_i sp x hx
          split at h
          · cases h
          · obtain ⟨e1, he1, rfl⟩ := Option.map_eq_some_iff.mp h
            obtain ⟨hb, hp⟩ := choose_belongs hx
            have hs := send_sent hp he1
            refine .inr ⟨sp, hb, ?_⟩
            split
            · exact ⟨hs.sent, hs.level, hs.kept, hs.gone⟩
            · refine ⟨hs.sent, hs.level, fun sp' hsp' => ?_, fun hsp => ?_⟩
              · have hk := hs.kept sp' hsp'
                exact ⟨hk.ack, hk.rtx⟩
              · have hg := hs.gone hsp
                exact ⟨hg.ack, hg.ranges, hg.rtx, hg.sentMem, hg.queue⟩

end

/-! ## the order -/

def spaceRank : Space → Nat
  | .initial => 0
  | .handshake => 1
  | .app => 2

def levelRank : EncLevel → Nat
  | .initial | .earlyData => 0
  | .handshake => 1
  | .application => 2

/-- a Handshake packet has been sent -/
def Begun (e : Endpoint τ ρ) : Prop := ∃ x ∈ e.sent, x.space = .handshake

/-- No packet was sent before one of an earlier space.  The Initial space is dropped from the first
Handshake packet on, the Handshake space from the last level on, and before they are not. -/
structure Ordered (e : Endpoint τ ρ) : Prop where
  level : e.session.level ≠ .earlyData
  sorted : e.sent.Pairwise fun x y => spaceRank y.space ≤ spaceRank x.space
  below : ∀ x ∈ e.sent, spaceRank x.space ≤ levelRank e.session.level
  begun : e.session.level = .handshake → Begun e
  initial : Begun e ∧ Gone e.session .initial ∨ ¬ Begun e ∧ Live e.session .initial
  handshake : e.session.level = .application ∧ Gone e.session .handshake ∨
    e.session.level ≠ .application ∧ Live e.session .handshake
  app : Live e.session .app

/-- no level is taken back, and no packet is forgotten -/
structure After (e e' : Endpoint τ ρ) : Prop where
  level : levelRank e.session.level ≤ levelRank e'.session.level
  sent : e.sent <:+ e'.sent

section
variable {env : Env τ ρ} {e e' : Endpoint τ ρ}

theorem After.refl (e : Endpoint τ ρ) : After e e := ⟨Nat.le_refl _, List.suffix_refl _⟩

theorem After.trans {e'' : Endpoint τ ρ} (h : After e e') (h' : After e' e'') : After e e'' :=
  ⟨h.level.trans h'.level, h.sent.trans h'.sent⟩

/-- a step that sends nothing -/
theorem Ordered.moved (h : Ordered e) (hm : Moved e.session e'.session) (hs : e'.sent = e.sent) :
    Ordered e' ∧ After e e' := by
  have hrank : levelRank e.session.level ≤ levelRank e'.session.level := by
    rcases hm.level with ⟨hl, _⟩ | ⟨hl, _⟩
    · rw [hl]
    · rw [hl]
      cases e.session.level <;> decide
  have hbegun : Begun e' ↔ Begun e := by
    unfold Begun
    rw [hs]
  have hinitial := hm.kept .initial (by decide)
  refine ⟨⟨?_, ?_, ?_, ?_, ?_, ?_, (hm.kept .app (by decide)).live h.app⟩, hrank, ?_⟩
  · rcases hm.level with ⟨hl, _⟩ | ⟨hl, _⟩
    · rw [hl]
      exact h.level
    · rw [hl]
      decide
  · rw [hs]
    exact h.sorted
  · rw [hs]
    exact fun x hx => (h.below x hx).trans hrank
  · intro hl'
    rcases hm.level with ⟨hl, _⟩ | ⟨hl, _⟩
    · exact hbegun.mpr (h.begun (hl.symm.trans hl'))
    · exact absurd (hl.symm.trans hl') (by decide)
  · rw [hbegun]
    exact h.initial.imp (fun hg => ⟨hg.1, hinitial.gone hg.2⟩) fun hl => ⟨hl.1, hinitial.live hl.2⟩
  · rcases hm.level with ⟨hl, hk⟩ | hdone
    · rw [hl]
      exact h.handshake.imp (fun hg => ⟨hg.1, hk.gone hg.2⟩) fun hl => ⟨hl.1, hk.live hl.2⟩
    · exact .inl hdone
  · rw [hs]

theorem belongs_rank {level : EncLevel} {sp : Space} (h : Belongs level sp) :
    levelRank level ≤ spaceRank sp ∧
      spaceRank sp = levelRank (if sp = .handshake then .handshake else level) := by
  cases level <;> cases sp <;> first | exact absurd h id | exact ⟨by decide, rfl⟩

/-- a packet that belongs to the level is sent -/
theorem Ordered.send (h : Ordered e) {sp : Space} (hb : Belongs e.session.level sp)
    (hs : SentOne e e' sp) : Ordered e' ∧ After e e' := by
  obtain ⟨z, hz, hspace⟩ := hs.sent
  obtain ⟨hrank, hnew⟩ := belongs_rank hb
  rw [← hs.level] at hnew
  have hup : levelRank e.session.level ≤ levelRank e'.session.level := hrank.trans hnew.le
  have hkeep : ∀ sp', sp' ≠ .initial → SpaceKept e.session e'.session sp' := fun sp' hsp' =>
    hs.kept sp' fun hno => hsp' hno.2
  have hbegun : Begun e' ↔ sp = .handshake ∨ Begun e := by
    unfold Begun
    rw [hz, List.exists_mem_cons_iff, hspace]
  refine ⟨⟨?_, ?_, ?_, ?_, ?_, ?_, (hkeep .app (by decide)).live h.app⟩, hup, ?_⟩
  · rw [hs.level]
    split
    · decide
    · exact h.level
  · rw [hz]
    refine List.pairwise_cons.mpr ⟨fun x hx => ?_, h.sorted⟩
    rw [hspace]
    exact (h.below x hx).trans hrank
  · rw [hz]
    refine List.forall_mem_cons.mpr ⟨?_, fun x hx => (h.below x hx).trans hup⟩
    rw [hspace]
    exact hnew.le
  · intro hl'
    rw [hbegun]
    rw [hs.level] at hl'
    split at hl'
    · rename_i hsp
      exact .inl hsp
    · exact .inr (h.begun hl')
  · by_cases hsp : sp = .handshake
    · exact .inl ⟨hbegun.mpr (.inl hsp), hs.gone hsp⟩
    · have hk := hs.kept .initial fun hno => hsp hno.1
      rw [hbegun, or_iff_right hsp]
      exact h.initial.imp (fun hg => ⟨hg.1, hk.gone hg.2⟩) fun hl => ⟨hl.1, hk.live hl.2⟩
  · have hk := hkeep .handshake (by decide)
    rw [hs.level]
    split
    · rename_i hsp
      -- the level before was not the last one, because the packet belongs to it
      have hnot : e.session.level ≠ .application := by
        intro hl
        rw [hl, hsp] at hb
        exact hb
      rcases h.handshake with hg | hl
      · exact absurd hg.1 hnot
      · exact .inr ⟨by decide, hk.live hl.2⟩
    · exact h.handshake.imp (fun hg => ⟨hg.1, hk.gone hg.2⟩) fun hl => ⟨hl.1, hk.live hl.2⟩
  · rw [hz]
    exact List.suffix_cons z e.sent

theorem received_kept {g g' : AckGenerator} {mem : Bool} {num : Nat} {recvTime : Time}
    {shouldAck : Bool} (h : g.received mem num recvTime shouldAck = some g') : AckKept g g' := by
  unfold AckGenerator.received at h
  split at h
  · cases h
    exact Kept.refl _ _
  · rename_i hno
    have hlive : g.dropped = false := Bool.eq_false_of_not_eq_true fun hd => hno (Or.inr hd)
    dsimp only at h
    obtain ⟨x, _, rfl⟩ := Option.map_eq_some_iff.mp h
    refine Kept.of_live hlive ?_
    show (if g.lgObnum ≤ num then _ else _ : AckGenerator).dropped = false
    split <;> exact hlive

theorem step_ordered {ev : Event} (h : Ordered e) (hs : step env e ev = some e') :
    Ordered e' ∧ After e e' := by
  cases ev with
  | frame f =>
    obtain ⟨x, hx, rfl⟩ := Option.map_eq_some_iff.mp hs
    have hm := handleFrame_moved (e := x.2) hx
    exact h.moved (hm.trans (Moved.of_eq rfl rfl rfl)) rfl
  | received sp num recvTime shouldAck =>
    obtain ⟨g, hg, rfl⟩ := Option.map_eq_some_iff.mp hs
    exact h.moved (Moved.of_kept rfl (spaceKept_updateAck _ _ rfl rfl (received_kept hg))) rfl
  | timer sp mem now clock =>
    obtain ⟨x, hx, rfl⟩ := Option.map_eq_some_iff.mp hs
    exact h.moved (Moved.of_kept rfl (spaceKept_updateRtx _ _ rfl rfl (moduleLoop_kept hx))) rfl
  | sender o now =>
    rcases loop_turned hs with hr | ⟨sp, hb, hsent⟩
    · exact h.moved (Moved.of_kept hr.level hr.kept) hr.sent
    · exact h.send hb hsent
  | other streams cong loopDeadline =>
    cases hs
    exact h.moved (Moved.of_eq rfl rfl rfl) rfl

/-- a session that has just been started -/
structure Fresh (s : Session τ ρ) : Prop where
  level : s.level = .initial
  live : ∀ sp, Live s sp

theorem start_ordered {s : Session τ ρ} (hs : Fresh s) : Ordered (start s) := by
  have hnone : ¬ Begun (start s) := fun ⟨x, hx, _⟩ => absurd hx List.not_mem_nil
  have hl : (start s).session.level = .initial := hs.level
  refine ⟨?_, .nil, fun x hx => absurd hx List.not_mem_nil, ?_, .inr ⟨hnone, hs.live _⟩,
    .inr ⟨?_, hs.live _⟩, hs.live _⟩
  · rw [hl]
    decide
  · intro hl'
    exact absurd (hl.symm.trans hl') (by decide)
  · rw [hl]
    decide

end

/-- **Ordered.**  In every run, and whatever happens after it. -/
theorem ordered_run (env : Env τ ρ) (connidLen : Nat) (src : ConnId) (dst : List UInt8)
    (done : Bool) (tls : τ) (table : ρ) (es es' : List Event) {e e' : Endpoint τ ρ}
    (h : run (step env) (start (Session.start env.toEnv connidLen src dst done tls table)) es =
      some e) (h' : run (step env) e es' = some e') :
    Ordered e ∧ Ordered e' ∧ After e e' := by
  have hall : ∀ (e : Endpoint τ ρ) es, Along (step env) (fun _ _ => True) e es :=
    fun e es => Along.of_mem _ fun _ _ => trivial
  have hfresh : Fresh (Session.start env.toEnv connidLen src dst done tls table) :=
    ⟨rfl, fun _ => ⟨rfl, rfl⟩⟩
  have he := run_keeps (J := Ordered) (fun _ _ _ hi _ hs => (step_ordered hi hs).1)
    (start_ordered hfresh) (hall _ es) h
  obtain ⟨he', hafter⟩ := run_keeps (J := fun x => Ordered x ∧ After e x)
    (fun _ _ _ hi _ hs => ⟨(step_ordered hi.1 hs).1, hi.2.trans (step_ordered hi.1 hs).2⟩)
    ⟨he, After.refl e⟩ (hall e es') h'
  exact ⟨he, he', hafter⟩

/-! ### a handshake -/

/-- a TLS library that answers each message with its own bytes in a Handshake packet -/
def echo : Tls (Space → Sorter) where
  provideQuicData := fun data t => Function.update t .handshake
    ((((t .handshake).append .ok data.length fun i => data.getD i 0).map Prod.fst).getD
      (t .handshake))
  doHandshake := fun t => (-1, t)
  peerTransportParams := fun _ => []

def echoClient : Env (Space → Sorter) Unit where
  cfg := { serverCfg with isCli := true }
  cbrt := fun _ => 0
  tls := echo
  newConnid := none
  retireConnid := none
  outcomes := fun _ => Session.calm
  wSorter := id
  setWSorter := Function.update

def echoSession : Session (Space → Sorter) Unit :=
  Session.start echoClient.toEnv 1 ⟨[2]⟩ [1] false
    (Function.update (fun _ => Sorter.init) .initial (Pack.flight 24).crypto) ()

def calm : Outside where
  room := List.replicate 200 0
  mem := true
  sealMem := true
  nodeMem := true
  pack := fun _ _ => Pack.allOk
  rwnd := Pack.allOk
  fuel := 10
  sealer := fun _ => clearSealer 16
  budgetTime := 900
  sentTime := 1000
  nextSendTime := fun _ _ => 0

/-- the first flight leaves, a message comes, and the answer leaves in a Handshake packet -/
def shaking : List Event :=
  [.sender calm 900, .frame (Frame.init 0x06 (.crypto packetInitialType 0 [2, 0, 0, 0])),
    .sender calm 900]

def shaken : List Event :=
  [.frame (Frame.init 0x1e .handshakeDone), .received .app 0 900 true, .sender calm 900]

example : (run (step echoClient) (start echoSession) (shaking ++ shaken)).map
    (fun e => (e.sent.map Sent.space, e.session.level)) =
      some ([.app, .handshake, .initial], .application) := by decide +kernel

theorem ordered_run_shaken : ∃ e e', run (step echoClient) (start echoSession) shaking = some e ∧
    run (step echoClient) e shaken = some e' ∧ Ordered e ∧ Ordered e' ∧ After e e' := by
  have hrun : (run (step echoClient) (start echoSession) (shaking ++ shaken)).isSome = true := by
    decide +kernel
  obtain ⟨e', he'⟩ := Option.isSome_iff_exists.mp hrun
  rw [run_append, Option.bind_eq_some_iff] at he'
  obtain ⟨e, h, h'⟩ := he'
  exact ⟨e, e', h, h', ordered_run echoClient 1 ⟨[2]⟩ [1] false _ () shaking shaken h h'⟩

end Endpoint

end OpenQuic
