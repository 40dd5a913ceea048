import OpenQuic.Modules.Sender
import OpenQuic.Modules.Session

/-!
# The loop of the sender

`quic_sender_module_loop` of `modules/sender.c`: it asks the congestion module and sends one packet.

* `Env`              what the pack functions make, the time that `has_budget` reads, and
                     `next_send_time`, which is floating-point;
* `choose`           the switch over the encryption level, with its fall-through;
* `loopWith`, `loop` the loop, behind the answer of `quic_congestion_allow_send`;
* `loop_steps`       a turn is a few steps of `Sending`;
* `unlimited_run`    **in no run does the window hold a packet back or a timer fire;**
* `crowded_run`      **and in no run are more than 6250 packets in flight.**
-/

namespace OpenQuic
open Word Runs

namespace SenderLoop
open FrameLedger Recovery Sending

/-- the sender module, the level of the sealer module, and the three spaces -/
structure State where
  sending : Sending.State
  level : EncLevel
  nextSendTime : Time

structure Env where
  /-- `quic_sender_pack_initial_packet`, `quic_sender_pack_handshake_packet` and
  `quic_sender_pack_app_packet` -/
  pack : Sending.State → Space → (probe : Bool) → Option Build
  budgetTime : Time
  nextSendTime : Congestion → Nat → Time

def start (cong : Congestion) : State := ⟨Sending.start cong, .initial, 0⟩

/-! ## the loop -/

/-- the sum of the three counters, which are `uint32_t` -/
def unackedPktCount (s : Sending.State) : Nat :=
  add32 (add32 (s.rtx .app).sentPktCount (s.rtx .handshake).sentPktCount)
    (s.rtx .initial).sentPktCount

def unackedBytes (s : Sending.State) : Nat :=
  add32 (add32 (s.rtx .app).unackedLen (s.rtx .handshake).unackedLen) (s.rtx .initial).unackedLen

/-- the packet of a level, if there is something to put into it -/
def packed (env : Env) (s : Sending.State) (sp : Space) (probe : Bool) : Option Build :=
  (env.pack s sp probe).filter fun b =>
    b.space = sp && !(b.data.1.isEmpty || !b.mem || (b.frames s).1.isEmpty)

/-- the switch: the packet, and the level afterwards -/
def choose (env : Env) (x : State) (probe : Bool) : Option (Build × EncLevel) :=
  match x.level with
  | .initial =>
    match packed env x.sending .initial probe with
    | some b => some (b, .initial)
    | none => (packed env x.sending .handshake probe).map fun b => (b, .handshake)
  | .handshake => (packed env x.sending .handshake probe).map fun b => (b, .handshake)
  | .application => (packed env x.sending .app probe).map fun b => (b, .application)
  | .earlyData => none

/-- the retransmission modules of a level that is set: the one below is dropped -/
def settle (level : EncLevel) (s : Sending.State) : Sending.State :=
  if level = .handshake then
    { s with rtx := Function.update s.rtx .initial (s.rtx .initial).drop }
  else s

def updateDeadline (s : Sending.State) (deadline : Time) : Sending.State :=
  { s with loopDeadline := updateLoopDeadline s.loopDeadline deadline }

/-- The loop, with `allow` for `quic_congestion_allow_send`.  The level is set between packing and
sending in the code; the packet that is sent then is not in the space that is dropped. -/
def loopWith (allow : Congestion → Nat → Bool) (cfg : Config) (cbrt : Nat → Nat) (env : Env)
    (now : Time) (x : State) : Option State :=
  if now < x.nextSendTime ∧ x.nextSendTime ≠ 0 then
    some { x with sending := updateDeadline x.sending x.nextSendTime }
  else
    let x := { x with nextSendTime := 0 }
    if 25000 / 4 ≤ unackedPktCount x.sending then some x
    else
      let probe := !allow x.sending.cong (unackedBytes x.sending) ||
        decide (20000 ≤ unackedPktCount x.sending)
      if !x.sending.cong.hasBudget env.budgetTime then some x
      else
        match choose env x probe with
        | none => some x
        | some (b, level) =>
          (Sending.step cfg cbrt x.sending (.send b)).map fun s =>
            let x' := { x with sending := settle level s, level := level }
            if probe then x'
            else
              let next := env.nextSendTime s.cong (unackedBytes x.sending)
              { x' with sending := updateDeadline x'.sending next, nextSendTime := next }

def loop (cfg : Config) : (cbrt : Nat → Nat) → Env → Time → State → Option State :=
  loopWith (Congestion.allowSend cfg) cfg

/-- a turn of the loop, what the other modules do to the spaces, and a level that is set by the
handshake -/
inductive Event where
  | turn (env : Env) (now : Time)
  | module (e : Sending.Event)
  | setLevel (level : EncLevel)

def step (cfg : Config) (cbrt : Nat → Nat) (x : State) : Event → Option State
  | .turn env now => loop cfg cbrt env now x
  | .module e => (Sending.step cfg cbrt x.sending e).map fun s => { x with sending := s }
  | .setLevel level => some { x with level := level }

section
variable {cfg : Config} {cbrt : Nat → Nat} {x x' : State}

/-! ## a turn -/

/-- what a turn does to the spaces: nothing, or it sends one packet, with few others in flight -/
inductive Turned (cfg : Config) (cbrt : Nat → Nat) (s : Sending.State) : Sending.State → Prop where
  | rest (deadline : Time) : Turned cfg cbrt s { s with loopDeadline := deadline }
  | sent (b : Build) (s1 : Sending.State) (level : EncLevel) (deadline : Time)
      (room : unackedPktCount s < 25000 / 4)
      (send : Sending.step cfg cbrt s (.send b) = some s1) :
      Turned cfg cbrt s { settle level s1 with loopDeadline := deadline }

theorem loop_turned {env : Env} {now : Time} (h : loop cfg cbrt env now x = some x') :
    Turned cfg cbrt x.sending x'.sending := by
  unfold loop loopWith at h
  split at h
  · cases h
    exact .rest _
  · dsimp only at h
    split at h
    · cases h
      exact .rest x.sending.loopDeadline
    · rename_i hroom
      split at h
      · cases h
        exact .rest x.sending.loopDeadline
      · split at h
        · cases h
          exact .rest x.sending.loopDeadline
        · rename_i b level _
          obtain ⟨s1, hs1, rfl⟩ := Option.map_eq_some_iff.mp h
          split
          · exact .sent b s1 level (settle level s1).loopDeadline (Nat.lt_of_not_le hroom) hs1
          · exact .sent b s1 level _ (Nat.lt_of_not_le hroom) hs1

/-! ## nothing holds a packet back -/

theorem settle_inv {s : Sending.State} (hi : Sending.Inv s) (level : EncLevel) :
    Sending.Inv (settle level s) := by
  unfold settle
  split
  · exact ⟨hi.update (fun _ hx => hx) ⟨List.forall_mem_nil _, rfl, rfl⟩, hi.log⟩
  · exact hi

theorem step_sending {e : Event} (hi : Sending.Inv x.sending) (h : step cfg cbrt x e = some x') :
    Sending.Inv x'.sending := by
  cases e with
  | turn env now =>
    have hturned := loop_turned h
    generalize x'.sending = s' at hturned ⊢
    cases hturned with
    | rest deadline => exact ⟨hi.weightless, hi.log⟩
    | sent b s1 level deadline _ hs1 =>
      have h1 := settle_inv (Sending.step_inv hi hs1) level
      exact ⟨h1.weightless, h1.log⟩
  | module e =>
    obtain ⟨s, hs, rfl⟩ := Option.map_eq_some_iff.mp h
    exact Sending.step_inv hi hs
  | setLevel level =>
    cases h
    exact hi

theorem unackedBytes_zero (hi : Sending.Inv x.sending) : unackedBytes x.sending = 0 := by
  unfold unackedBytes
  rw [(hi.weightless .app).unacked, (hi.weightless .handshake).unacked,
    (hi.weightless .initial).unacked]
  rfl

/-- no bytes in flight fit any window -/
theorem allowSend_zero (cfg : Config) {c : Congestion} (h : 0 < c.base.cwnd) :
    c.allowSend cfg 0 = true := by
  unfold Congestion.allowSend
  split
  · unfold Congestion.prrAllowSend
    rw [if_pos (Or.inr (by decide))]
  · exact decide_eq_true h

/-- nothing but the number of packets and the budget decides about a packet: no bytes are in flight
and no alarm is set, the loop does what it does without a window, and the loops of the retransmission
modules do nothing -/
structure Unlimited (cfg : Config) (cbrt : Nat → Nat) (x : State) : Prop where
  unarmed : ∀ sp, (x.sending.rtx sp).unackedLen = 0 ∧ (x.sending.rtx sp).alarm = 0
  window : 0 < x.sending.cong.base.cwnd → ∀ env now,
    loop cfg cbrt env now x = loopWith (fun _ _ => true) cfg cbrt env now x
  timer : ∀ sp mem now clock,
    moduleLoop cfg mem (x.sending.recovery sp) now clock = some (x.sending.recovery sp, [])

theorem unlimited_of_inv (hi : Sending.Inv x.sending) : Unlimited cfg cbrt x := by
  refine ⟨fun sp => ⟨(hi.weightless sp).unacked, (hi.weightless sp).alarm⟩, fun hc env now => ?_,
    fun sp mem now clock => ?_⟩
  · unfold loop loopWith
    dsimp only
    rw [unackedBytes_zero hi, allowSend_zero cfg hc]
  · exact moduleLoop_weightless (m := x.sending.recovery sp) (hi.weightless sp) cfg mem now clock

end

/-- **Unlimited.**  Whatever is sent, received, acknowledged or dropped, the window never holds a
packet back and no retransmission timer ever fires. -/
theorem unlimited_run (cfg : Config) (cbrt : Nat → Nat) (cong : Congestion) (es : List Event) :
    ∀ x, run (step cfg cbrt) (start cong) es = some x → Unlimited cfg cbrt x := by
  intro x hx
  have hall : Along (step cfg cbrt) (fun _ _ => True) (start cong) es :=
    Along.of_mem _ fun _ _ => trivial
  exact unlimited_of_inv (run_keeps (J := fun x => Sending.Inv x.sending)
    (fun _ _ _ hi _ hs => step_sending hi hs) (Sending.start_inv cong) hall hx)

/-! ## how many packets are in flight -/

/-- the counters of a space are right, and its numbers have been given away -/
structure Tidy (next : Nat) (r : Retransmission) : Prop where
  counts : Counts r
  lt : r.sentPktCount < 2 ^ 32
  unacked : r.unackedLen = 0
  nums : ∀ e ∈ r.sentMem.entries, e.1 < next

theorem Tidy.count {next : Nat} {r : Retransmission} (h : Tidy next r) :
    r.sentPktCount = r.sentMem.entries.length := h.counts.count

theorem init_tidy (next : Nat) : Tidy next Retransmission.init :=
  ⟨⟨rfl, rfl⟩, Nat.two_pow_pos 32, rfl, List.forall_mem_nil _⟩

theorem drop_tidy (next : Nat) (r : Retransmission) : Tidy next r.drop :=
  ⟨⟨rfl, rfl⟩, Nat.two_pow_pos 32, rfl, List.forall_mem_nil _⟩

/-- three fields and the keys matter -/
theorem Tidy.congr {next next' : Nat} {r r' : Retransmission} (h : Tidy next r)
    (h1 : r'.sentMem = r.sentMem) (h2 : r'.sentPktCount = r.sentPktCount)
    (h3 : r'.unackedLen = r.unackedLen) (hn : next ≤ next') : Tidy next' r' := by
  refine ⟨⟨?_, ?_⟩, ?_, ?_, ?_⟩
  · rw [h2, h1]
    exact h.counts.count
  · rw [h3, h1]
    exact h.counts.unacked
  · rw [h2]
    exact h.lt
  · rw [h3]
    exact h.unacked
  · rw [h1]
    exact fun e he => Nat.lt_of_lt_of_le (h.nums e he) hn

/-- a pass in which every allocation succeeds -/
theorem Passed.tidy {hit : Nat → SentPacket → Bool} {ok : Nat → Bool}
    {calls : Nat → SentPacket → List Call} {requeue : SentPacket → List Frame} {m m' : Recovery}
    {cs : List Call} (h : Passed hit ok calls requeue m m' cs) {next : Nat} (ht : Tidy next m.rtx)
    (hok : ∀ n, ok n = true) :
    Tidy next m'.rtx ∧ m'.rtx.sentPktCount ≤ m.rtx.sentPktCount := by
  have hok' : ∀ e ∈ m.rtx.sentMem.entries, hit e.1 e.2 = true → ok e.1 = true := fun e _ _ => hok e.1
  obtain ⟨hc, hle, hu⟩ := h.counts ht.counts ht.lt (by rw [ht.unacked]; decide) hok'
  refine ⟨⟨hc, Nat.lt_of_le_of_lt hle ht.lt, by have := ht.unacked; omega, fun e he => ?_⟩, hle⟩
  rw [h.taken hok'] at he
  exact ht.nums e (List.mem_filter.mp he).1

theorem push_tidy {next : Nat} {m : Recovery} (ht : Tidy next m.rtx)
    (hlt : m.rtx.sentPktCount + 1 < 2 ^ 32) (num : Nat) (hnum : next ≤ num) (pkt : SentPacket)
    (hlen : pkt.pktLen = 0) :
    Tidy (num + 1) (sentMemPush m num pkt).rtx ∧
      (sentMemPush m num pkt).rtx.sentPktCount ≤ m.rtx.sentPktCount + 1 := by
  cases hd : m.rtx.dropped with
  | true =>
    rw [sentMemPush, if_pos hd]
    exact ⟨ht.congr rfl rfl rfl (by omega), Nat.le_succ _⟩
  | false =>
    obtain ⟨h1, h2, h3, _⟩ := sentMemPush_spec hd num pkt
    have hperm := m.rtx.sentMem.insert_perm (k := num) pkt (OrdMap.find_eq_none.mpr fun e he h =>
      Nat.not_lt_of_le hnum (h ▸ ht.nums e he))
    have hcount : (sentMemPush m num pkt).rtx.sentPktCount = m.rtx.sentPktCount + 1 := by
      rw [h2]
      exact add32_of_lt hlt
    have hunacked : (sentMemPush m num pkt).rtx.unackedLen = 0 := by
      rw [h3, hlen, ht.unacked]
      split <;> rfl
    have hweight : weight pkt = 0 := by
      unfold weight
      split
      · exact hlen
      · rfl
    refine ⟨⟨⟨?_, ?_⟩, ?_, hunacked, fun e he => ?_⟩, hcount.le⟩
    · rw [hcount, h1, hperm.length_eq, List.length_cons, ht.count]
    · have hsum : unackedSum m.rtx.sentMem.entries = 0 := ht.counts.unacked.symm.trans ht.unacked
      rw [hunacked, h1, unackedSum, (hperm.map _).sum_nat, List.map_cons, List.sum_cons, hweight]
      exact hsum.symm.trans (Nat.zero_add _).symm
    · rw [hcount]
      exact hlt
    · rw [h1] at he
      rcases OrdMap.mem_insert.mp he with rfl | ⟨he, _⟩
      · exact Nat.lt_succ_self _
      · have := ht.nums e he
        omega

theorem handleAckFrame_tidy {cfg : Config} {cbrt : Nat → Nat} {ackMem : Nat → Nat → Bool}
    {lostMem : Nat → Bool} {m m' : Recovery} {short : Bool} {a : AckFrame} {clock : Time}
    {cs : List Call} {next : Nat} (ht : Tidy next m.rtx)
    (hone : ∀ e ∈ m.rtx.sentMem.entries, AckedOnce a e.1) (hack : ∀ n i, ackMem n i = true)
    (hlost : ∀ n, lostMem n = true)
    (h : handleAckFrame cfg cbrt ackMem lostMem m short a clock = some (m', cs)) :
    Tidy next m'.rtx ∧ m'.rtx.sentPktCount ≤ m.rtx.sentPktCount := by
  cases hd : m.rtx.dropped with
  | true =>
    rw [handleAckFrame, if_pos hd] at h
    cases h
    exact ⟨ht, Nat.le_refl _⟩
  | false =>
    obtain ⟨m1, cs1, m2, cs2, hp, hres⟩ :=
      handleAckFrame_passed cfg cbrt ackMem lostMem m short a clock hd hone
    cases h.symm.trans hres
    obtain ⟨h1, h2, h3, _⟩ := sampleAck_frame m short a
    obtain ⟨ht1, hle1⟩ := Passed.tidy hp.acked (ht.congr h1 h2 h3 (Nat.le_refl _)) fun n => hack n _
    obtain ⟨ht2, hle2⟩ := Passed.tidy hp.lost ht1 hlost
    obtain ⟨u1, u2, u3, _⟩ := updateAlarm_frame { m2 with rtx := { m2.rtx with ptoCount := 0 } }
    refine ⟨ht2.congr u1 u2 u3 (Nat.le_refl _), ?_⟩
    rw [u2]
    exact hle2.trans (hle1.trans h2.le)

/-- the packets of the three spaces -/
def inFlight (s : Sending.State) : Nat :=
  (s.rtx .app).sentMem.entries.length + (s.rtx .handshake).sentMem.entries.length +
    (s.rtx .initial).sentMem.entries.length

/-- the spaces with their counters, and few packets -/
structure Crowded (s : Sending.State) : Prop where
  weightless : Sending.Inv s
  tidy : ∀ sp, Tidy (s.next sp) (s.rtx sp)
  few : inFlight s ≤ 25000 / 4

/-- Fewer than 2^64 packets are sent in a space; an ACK frame names no packet in two of the ranges
that are tested; packets leave through the loop; and the nodes of the drop lists are allocated. -/
def Guarded (x : State) : Event → Prop
  | .turn _ _ => ∀ sp, x.sending.next sp + 1 < 2 ^ 64
  | .module (.send _) => False
  | .module (.ack sp ackMem lostMem a _) =>
    (∀ e ∈ (x.sending.rtx sp).sentMem.entries, AckedOnce a e.1) ∧ (∀ n i, ackMem n i = true) ∧
      ∀ n, lostMem n = true
  | _ => True

/-- replacing one module -/
theorem tidy_update {next next' : Space → Nat} {rtx : Space → Retransmission}
    (h : ∀ sp, Tidy (next sp) (rtx sp)) {sp : Space} {r : Retransmission} (hr : Tidy (next' sp) r)
    (hn : ∀ sp', next sp' ≤ next' sp') (sp' : Space) :
    Tidy (next' sp') (Function.update rtx sp r sp') := by
  by_cases hsp : sp' = sp
  · subst hsp
    rw [Function.update_self]
    exact hr
  · rw [Function.update_of_ne hsp]
    exact (h sp').congr rfl rfl rfl (hn sp')

/-- one module gets `n` packets more -/
theorem inFlight_update (s : Sending.State) (sp : Space) (r : Retransmission) (n : Nat)
    (h : r.sentMem.entries.length ≤ (s.rtx sp).sentMem.entries.length + n) :
    inFlight { s with rtx := Function.update s.rtx sp r } ≤ inFlight s + n := by
  unfold inFlight
  dsimp only
  cases sp <;> simp only [Function.update_self, ne_eq, reduceCtorEq, not_false_eq_true,
    Function.update_of_ne] <;> omega

/-- sealing leaves the space and the number of the packet as they are -/
theorem sealed_names {mem : Bool} {sealer : Sealer} {pkt pkt' : SendPacket} {hdr : List UInt8}
    {srcLen : Nat} {e : Err} (h : sealerSeal mem sealer pkt hdr srcLen = some (pkt', e)) :
    pkt'.space = pkt.space ∧ pkt'.num = pkt.num := by
  obtain ⟨pnumOff, _, h⟩ := Option.bind_eq_some_iff.mp h
  obtain ⟨first, _, h⟩ := Option.bind_eq_some_iff.mp h
  cases mem with
  | false =>
    obtain ⟨rfl, _⟩ := Prod.mk.inj (Option.some.inj h)
    exact ⟨rfl, rfl⟩
  | true =>
    obtain ⟨payload, _, h⟩ := Option.bind_eq_some_iff.mp h
    obtain ⟨data, _, h⟩ := Option.bind_eq_some_iff.mp h
    obtain ⟨sample, _, h⟩ := Option.bind_eq_some_iff.mp h
    obtain ⟨masked, _, h⟩ := Option.bind_eq_some_iff.mp h
    obtain ⟨data', _, h⟩ := Option.bind_eq_some_iff.mp h
    obtain ⟨rfl, _⟩ := Prod.mk.inj (Option.some.inj h)
    exact ⟨rfl, rfl⟩

/-- few packets do not overflow the sum -/
theorem unackedPktCount_eq {s : Sending.State} (h : Crowded s) : unackedPktCount s = inFlight s := by
  have hfew := h.few
  unfold inFlight at hfew
  unfold unackedPktCount inFlight
  have hadd := add32_of_lt (a := (s.rtx .app).sentMem.entries.length)
    (b := (s.rtx .handshake).sentMem.entries.length) (by omega)
  rw [(h.tidy .app).count, (h.tidy .handshake).count, (h.tidy .initial).count, hadd,
    add32_of_lt (by omega)]

/-- taking frames out of a queue leaves the packets as they are -/
theorem build_tidy {next : Nat} {r : Retransmission} (h : Tidy next r) (ops : List BuildOp) :
    Tidy next (build ops [] r).2 ∧ (build ops [] r).2.sentMem = r.sentMem := by
  have hsame := (build_spec ops [] r).1
  unfold SameButQueue at hsame
  generalize (build ops [] r).2 = r' at hsame ⊢
  have h1 : r'.sentMem = r.sentMem := by rw [hsame]
  have h2 : r'.sentPktCount = r.sentPktCount := by rw [hsame]
  have h3 : r'.unackedLen = r.unackedLen := by rw [hsame]
  exact ⟨h.congr h1 h2 h3 (Nat.le_refl _), h1⟩

section
variable {cfg : Config} {cbrt : Nat → Nat} {x x' : State}

theorem send_crowded {s s1 : Sending.State} {b : Build} (h : Crowded s)
    (hroom : unackedPktCount s < 25000 / 4) (hn : s.next b.space + 1 < 2 ^ 64)
    (hs : Sending.step cfg cbrt s (.send b) = some s1) : Crowded s1 := by
  have hinv := Sending.step_inv h.weightless hs
  obtain ⟨hbuilt, hmem⟩ := build_tidy (h.tidy b.space) b.ops
  rcases send_cases hs with ⟨_, rtx, rfl, rfl | rfl⟩ | ⟨hdata, _, _, pkt, hpkt, rfl⟩
  · exact ⟨hinv, h.tidy, h.few⟩
  · refine ⟨hinv, tidy_update h.tidy hbuilt fun _ => Nat.le_refl _, ?_⟩
    refine (inFlight_update s b.space (b.frames s).2 0 ?_).trans h.few
    show (build b.ops [] (s.rtx b.space)).2.sentMem.entries.length ≤ _
    rw [hmem]
    exact Nat.le_refl _
  · obtain ⟨hpos, _, _⟩ := Build.sealed_spec hdata hpkt
    obtain ⟨payloadLen, _, hseal⟩ := Option.bind_eq_some_iff.mp hpkt
    obtain ⟨y, hy, rfl⟩ := Option.map_eq_some_iff.mp hseal
    obtain ⟨hspace, hnum⟩ := sealed_names (e := y.2) hy
    have hsp : y.1.space = b.space := hspace
    have hno : y.1.num = s.next b.space := hnum
    have hnext : add64 (s.next b.space) 1 = s.next b.space + 1 := add64_of_lt hn
    have hle : ∀ sp', s.next sp' ≤
        Function.update s.next b.space (add64 (s.next b.space) 1) sp' := by
      intro sp'
      rw [hnext, Function.update_apply]
      split
      · rename_i heq
        rw [heq]
        exact Nat.le_succ _
      · exact Nat.le_refl _
    have hfew := h.few
    rw [unackedPktCount_eq h] at hroom
    have hcount := (h.tidy b.space).count
    have hlen := congrArg (fun m : Rbt SentPacket => m.entries.length) hmem
    -- the module of the packet, with its new entry if there is a node for it
    obtain ⟨r', hr', ht', hle'⟩ : ∃ r', (State.sendPacket { s with
            rtx := Function.update s.rtx b.space (b.frames s).2
            next := Function.update s.next b.space (add64 (s.next b.space) 1) }
          b.nodeMem b.now y.1).rtx = Function.update s.rtx b.space r' ∧
        Tidy (s.next b.space + 1) r' ∧
        r'.sentMem.entries.length ≤ (s.rtx b.space).sentMem.entries.length + 1 := by
      unfold State.sendPacket sendPacket State.setRecovery State.recovery
      rw [hsp, hno, hpos]
      dsimp only
      rw [Function.update_self]
      cases b.nodeMem with
      | false =>
        refine ⟨(b.frames s).2, Function.update_idem .., ?_, ?_⟩
        · exact hbuilt.congr rfl rfl rfl (Nat.le_succ _)
        · exact hlen.le.trans (Nat.le_succ _)
      | true =>
        have hlt : (b.frames s).2.sentPktCount + 1 < 2 ^ 32 := by
          have hc := hbuilt.count
          have hone : (s.rtx b.space).sentMem.entries.length ≤ inFlight s := by
            unfold inFlight
            cases b.space <;> omega
          show (build b.ops [] (s.rtx b.space)).2.sentPktCount + 1 < 2 ^ 32
          omega
        obtain ⟨ht, hc⟩ := push_tidy (m := ⟨(b.frames s).2, s.cong, s.loopDeadline⟩) hbuilt hlt
          (s.next b.space) (Nat.le_refl _) ⟨y.1.largestAck, b.now, u32 0, y.1.includedUnacked,
            y.1.frames⟩ rfl
        refine ⟨_, Function.update_idem .., ht, ht.count.ge.trans (hc.trans ?_)⟩
        show (build b.ops [] (s.rtx b.space)).2.sentPktCount + 1 ≤ _
        rw [hbuilt.count]
        exact Nat.succ_le_succ hlen.le
    refine ⟨hinv, ?_, ?_⟩
    · rw [hr']
      refine tidy_update h.tidy ?_ hle
      show Tidy (Function.update s.next b.space (add64 (s.next b.space) 1) b.space) r'
      rw [Function.update_self, hnext]
      exact ht'
    · have hmore := inFlight_update s b.space r' 1 hle'
      rw [← hr'] at hmore
      exact hmore.trans (by omega)

theorem settle_crowded {s : Sending.State} (h : Crowded s) (level : EncLevel) :
    Crowded (settle level s) := by
  refine ⟨settle_inv h.weightless level, ?_, ?_⟩
  · unfold settle
    split
    · exact tidy_update h.tidy (drop_tidy _ _) fun _ => Nat.le_refl _
    · exact h.tidy
  · unfold settle
    split
    · exact (inFlight_update s .initial (s.rtx .initial).drop 0 (Nat.zero_le _)).trans h.few
    · exact h.few

theorem step_crowded {e : Event} (h : Crowded x.sending) (hg : Guarded x e)
    (hs : step cfg cbrt x e = some x') : Crowded x'.sending := by
  have hinv := step_sending h.weightless hs
  cases e with
  | turn env now =>
    have hturned := loop_turned hs
    generalize x'.sending = s' at hturned hinv ⊢
    cases hturned with
    | rest deadline => exact ⟨hinv, h.tidy, h.few⟩
    | sent b s1 level deadline hroom hs1 =>
      have h1 := settle_crowded (send_crowded h hroom (hg b.space) hs1) level
      exact ⟨hinv, h1.tidy, h1.few⟩
  | setLevel level =>
    cases hs
    exact h
  | module e =>
    cases e with
    | send b => exact absurd hg id
    | ack sp ackMem lostMem a clock =>
      obtain ⟨s, hstep, rfl⟩ := Option.map_eq_some_iff.mp hs
      obtain ⟨y, hy, rfl⟩ := Option.map_eq_some_iff.mp hstep
      obtain ⟨ht, hle⟩ := handleAckFrame_tidy (m := x.sending.recovery sp) (h.tidy sp) hg.1 hg.2.1
        hg.2.2 hy
      refine ⟨hinv, tidy_update h.tidy ht fun _ => Nat.le_refl _, ?_⟩
      refine (inFlight_update x.sending sp y.1.rtx 0 ?_).trans h.few
      rw [← ht.count, Nat.add_zero, ← (h.tidy sp).count]
      exact hle
    | loop sp mem now clock =>
      obtain ⟨s, hstep, rfl⟩ := Option.map_eq_some_iff.mp hs
      obtain ⟨y, hy, rfl⟩ := Option.map_eq_some_iff.mp hstep
      rw [moduleLoop_weightless (m := x.sending.recovery sp) (h.weightless.weightless sp)] at hy
      cases hy
      refine ⟨hinv, tidy_update h.tidy (h.tidy sp) fun _ => Nat.le_refl _, ?_⟩
      exact (inFlight_update x.sending sp (x.sending.rtx sp) 0 (Nat.le_refl _)).trans h.few
    | drop sp =>
      cases hs
      refine ⟨hinv, tidy_update h.tidy (drop_tidy _ _) fun _ => Nat.le_refl _, ?_⟩
      exact (inFlight_update x.sending sp (x.sending.rtx sp).drop 0 (Nat.zero_le _)).trans h.few
    | other cong loopDeadline =>
      cases hs
      exact ⟨hinv, h.tidy, h.few⟩

theorem start_crowded (cong : Congestion) : Crowded (start cong).sending :=
  ⟨Sending.start_inv cong, fun _ => init_tidy _, Nat.zero_le _⟩

end

/-- the counters of the three spaces are right, and not many packets are in flight -/
structure Bounded (x : State) : Prop where
  counted : ∀ sp, (x.sending.rtx sp).sentPktCount = (x.sending.rtx sp).sentMem.entries.length
  few : inFlight x.sending ≤ 6250

/-- **Crowded.**  Whatever is acknowledged, lost or dropped, at most 6250 packets are in flight. -/
theorem crowded_run (cfg : Config) (cbrt : Nat → Nat) (cong : Congestion) (es : List Event)
    (hg : Along (step cfg cbrt) Guarded (start cong) es) :
    ∀ past, past <+: es → ∀ x, run (step cfg cbrt) (start cong) past = some x → Bounded x := by
  intro past hp x hx
  have h := run_reached (J := fun x => Crowded x.sending)
    (fun _ _ _ h hg hs => step_crowded h hg hs) (start_crowded cong) hg hp hx
  exact ⟨fun sp => (h.tidy sp).count, h.few⟩

/-- a PING is sent at the application level and acknowledged -/
def pinged : List Event :=
  [.setLevel .application,
    .turn ⟨fun _ sp _ => if sp = .app then some (pingBuild true) else none, 900, fun _ _ => 3000⟩ 900,
    .module (.ack .app (fun _ _ => true) (fun _ => true) ⟨0x40, 1500, 0, 0, 0, 0, 0, 0, 0, []⟩ 1600)]

example : (run (step serverCfg id) (start (Congestion.init serverCfg)) (pinged.take 2)).map
    (fun x => (inFlight x.sending, x.nextSendTime)) = some (1, 3000) := by decide +kernel

theorem pinged_guarded : Along (step serverCfg id) Guarded (start (Congestion.init serverCfg))
    pinged := by
  have hwf : WellFormed ⟨0x40, 1500, 0, 0, 0, 0, 0, 0, 0, []⟩ := ⟨by decide, by decide, trivial, rfl⟩
  refine ⟨trivial, fun s1 h1 => ⟨?_, fun s2 _ => ⟨?_, fun s3 _ => trivial⟩⟩⟩
  · cases h1
    intro sp
    show 0 + 1 < 2 ^ 64
    decide
  · exact ⟨fun e _ => ackedOnce_of_wellFormed hwf e.1, fun _ _ => rfl, fun _ => rfl⟩

theorem pinged_runs :
    (run (step serverCfg id) (start (Congestion.init serverCfg)) pinged).isSome = true := by
  decide +kernel

theorem unlimited_run_pinged : ∃ x,
    run (step serverCfg id) (start (Congestion.init serverCfg)) pinged = some x ∧
      Unlimited serverCfg id x := by
  obtain ⟨x, hx⟩ := Option.isSome_iff_exists.mp pinged_runs
  exact ⟨x, hx, unlimited_run serverCfg id _ pinged x hx⟩

theorem crowded_run_pinged : ∃ x,
    run (step serverCfg id) (start (Congestion.init serverCfg)) pinged = some x ∧ Bounded x := by
  obtain ⟨x, hx⟩ := Option.isSome_iff_exists.mp pinged_runs
  exact ⟨x, hx, crowded_run serverCfg id _ pinged pinged_guarded _ List.prefix_rfl x hx⟩

end SenderLoop
end OpenQuic
