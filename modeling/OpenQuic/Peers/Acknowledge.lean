import OpenQuic.Modules.AckReceived
import OpenQuic.Modules.FrameLedger
import OpenQuic.Modules.Recver
import OpenQuic.Peers.Arrival

/-!
# Acknowledgements between two peers

One packet number space: one peer builds and sends packets, the other records them and makes ACK
frames of what it has recorded.  The network in between may lose, duplicate and reorder the packets
and the ACK frames.

* `State`, `step`     the sender with its packets, the other peer's generator, and the ACK frames on
                      their way, each with the numbers that were recorded when it was made;
* `Made`              what such a frame says, `Made.arrives` what is parsed of it;
* `handleAck_spec`    what the sender does with it;
* `Inv`               the invariant, `step_inv` the step that keeps it;
* `truthful_run`      **what the sender takes for acknowledged has reached the other peer;**
* `named_run`         **which packets an ACK frame acknowledges;**
* `nothing_lost_run`  **where every frame can be sent again, it is in flight, waits in the queue, or
                      has reached the other peer.**
-/

namespace OpenQuic
open Word Runs

/-! ## a frame of the generator -/

namespace AckGenerator

/-- nothing is sent before the first number -/
def Idle (past : List Received) (g : AckGenerator) : Prop :=
  past = [] → g.shouldSend = false ∧ g.alarm = 0

theorem received_idle {past : List Received} (e : Received) (g : AckGenerator) :
    Idle (past ++ [e]) g := fun h => absurd h (by simp)

/-- A frame is made of a generator that holds a number, and asks for nothing more. -/
theorem Holds.generate {past : List Received} {g : AckGenerator} (h : Holds past g)
    (hidle : Idle past g) (mem : Bool) (now : Time) :
    ∃ o g', g.generate mem now = some (o, g') ∧ Holds past g' ∧ Idle past g' ∧
      ∀ a ∈ o, a.delay = sub64 now g.lgObtime ∧ a.ect0 = 0 ∧ a.ect1 = 0 ∧ a.ectCe = 0 := by
  have hstay : ∃ o g', some (none, g) = some (o, g') ∧ Holds past g' ∧ Idle past g' ∧
      ∀ a : AckFrame, a ∈ o →
        a.delay = sub64 now g.lgObtime ∧ a.ect0 = 0 ∧ a.ect1 = 0 ∧ a.ectCe = 0 := by
    refine ⟨none, g, rfl, h, hidle, fun a ha => ?_⟩
    cases ha
  unfold AckGenerator.generate
  rw [if_neg (by rw [h.live]; decide)]
  split
  · exact hstay
  · rename_i hsend
    split
    · exact hstay
    · have hne : past ≠ [] := by
        intro h0
        obtain ⟨h1, h2⟩ := hidle h0
        exact hsend (by rw [h1, h2]; rfl)
      cases hrev : g.ranges.reverse with
      | nil =>
        obtain ⟨e, l, rfl⟩ := List.exists_cons_of_ne_nil hne
        obtain ⟨r, hr, _⟩ := (h.held e.num).mpr (by simp)
        rw [List.reverse_eq_nil_iff.mp hrev] at hr
        cases hr
      | cons top below =>
        dsimp only
        rw [if_pos h.count]
        refine ⟨_, _, rfl, ⟨h.ok, h.count, h.held, h.live, h.noThrehold⟩, fun h0 => absurd h0 hne,
          fun a ha => ?_⟩
        cases ha
        exact ⟨rfl, rfl, rfl, rfl⟩

end AckGenerator

namespace Recovery
open AckGenerator

/-- ranges that fit below a number are below it themselves -/
theorem RangesFit.le {start : Nat} {rs : List AckRange} (h : RangesFit start rs) :
    ∀ r ∈ rs, r.gap ≤ start ∧ r.len ≤ start := by
  induction rs generalizing start with
  | nil => exact List.forall_mem_nil _
  | cons r rs ih =>
    obtain ⟨hr, hrs⟩ := h
    refine List.forall_mem_cons.mpr ⟨by omega, fun q hq => ?_⟩
    have := ih hrs q hq
    omega

/-- each range takes two numbers at least -/
theorem RangesFit.length_le {start : Nat} {rs : List AckRange} (h : RangesFit start rs) :
    2 * rs.length ≤ start := by
  induction rs generalizing start with
  | nil => exact Nat.zero_le _
  | cons r rs ih =>
    obtain ⟨hr, hrs⟩ := h
    have := ih hrs
    rw [List.length_cons]
    omega

/-- the number is in a range that the sender's pass looks at -/
def Named (R : List Nat) (n : Nat) : Prop := n ∈ R ∧ (LowestRun R n → ∀ k ∈ R, LowestRun R k)

/-- the frame says that the numbers `R` have been recorded -/
structure Says (a : AckFrame) (R : List Nat) : Prop where
  wellFormed : WellFormed a
  covers : ∀ n, covers a n = decide (n ∈ R)
  last : ∀ n, inLastRange a n = true ↔ LowestRun R n ∧ ¬ ∀ k ∈ R, LowestRun R k

/-- the pass looks at every range but the last one -/
theorem Says.acks {a : AckFrame} {R : List Nat} (h : Says a R) (n : Nat) :
    acks a n = true ↔ Named R n := by
  obtain ⟨hcov, hnot⟩ := covers_iff h.wellFormed n
  rw [h.covers] at hcov
  constructor
  · intro hack
    rw [hack, Bool.true_or] at hcov
    refine ⟨of_decide_eq_true hcov, fun hlow => ?_⟩
    by_contra hno
    exact absurd ((h.last n).mpr ⟨hlow, hno⟩) (by rw [hnot hack]; decide)
  · intro hn
    cases hl : inLastRange a n with
    | false => rwa [hl, Bool.or_false, decide_eq_true hn.1, eq_comm] at hcov
    | true =>
      obtain ⟨h1, h2⟩ := (h.last n).mp hl
      exact absurd (hn.2 h1) h2

end Recovery

namespace Acknowledge
open AckGenerator Recovery FrameLedger

/-! ## the frame on the wire -/

/-- an ACK frame that was made when the numbers `R` were recorded -/
def Made (f : Frame) (R : List Nat) : Prop :=
  ∃ a, f = Frame.init frameAckType (.ack a) ∧ a.delay ≤ varintMax ∧ a.ect0 = 0 ∧ a.ect1 = 0 ∧
    a.ectCe = 0 ∧ a.largestAck < 2 ^ 32 ∧ Says a R

theorem Made.fieldsFit {a : AckFrame} {R : List Nat} (hd : a.delay ≤ varintMax) (h0 : a.ect0 = 0)
    (h1 : a.ect1 = 0) (h2 : a.ectCe = 0) (hl : a.largestAck < 2 ^ 32) (h : Says a R) :
    (Body.ack a).FieldsFit := by
  have hmax : varintMax = 2 ^ 62 - 1 := rfl
  have hfirst := h.wellFormed.first
  have hle := h.wellFormed.ranges.le
  have hlen := h.wellFormed.ranges.length_le
  have hcount := h.wellFormed.count
  refine ⟨⟨by omega, hd, by omega, by omega, by omega, by omega⟩, hcount, by omega, fun r hr => ?_⟩
  have := hle r hr
  omega

/-- **The frame arrives**: the receiver parses the same numbers, and stamps the packet. -/
theorem Made.arrives {f : Frame} {R : List Nat} (h : Made f R) (rest : List UInt8) (type : UInt8)
    (recvTime : Time) : ∃ g b, overWire f rest = some g ∧
      (Recver.stamp type recvTime g).body = .ack b ∧ Says b R := by
  obtain ⟨a, rfl, hd, h0, h1, h2, hl, hsays⟩ := h
  have hw : (Frame.init frameAckType (.ack a)).WellStored :=
    ⟨by simp [Frame.init, frameAckType, Body.types], Made.fieldsFit hd h0 h1 h2 hl hsays, trivial⟩
  have hmis : ¬ (Frame.init frameAckType (.ack a)).Misrouted := by
    show ¬ (0x02 : UInt8).toNat ∈ [0x15, 0x16, 0x17]
    decide
  obtain ⟨chunks, hc1, _, hc3⟩ := frame_codec rest hw hmis id fun hu => absurd hu id
  have hbytes : frameBytes (Frame.init frameAckType (.ack a)) = frameAckType :: chunks.flatten := by
    rw [frameBytes, hc1]
    rfl
  have hwf := hsays.wellFormed
  refine ⟨.init frameAckType (.ack { a with
      packetType := 0, recvTime := 0, ect0 := 0, ect1 := 0, ectCe := 0 }),
    { a with packetType := type, recvTime := recvTime, ect0 := 0, ect1 := 0, ectCe := 0 }, ?_, rfl,
    ⟨hwf.word, hwf.first, hwf.ranges, hwf.count⟩, hsays.covers, hsays.last⟩
  have hparse : frameParse memOk (frameAckType :: (chunks.flatten ++ rest)) = _ := hc3
  rw [overWire, hbytes, List.cons_append, hparse]
  rfl

/-! ## the two peers -/

structure State where
  own : FrameLedger.State
  /-- the packets that were sent, with their frames: a record that is not part of the code -/
  packets : List (Nat × List Frame)
  /-- the numbers that were reported as acknowledged -/
  told : List Nat
  peer : AckGenerator
  heard : List Received
  /-- the ACK frames of the other peer, each with the numbers that were recorded by then -/
  flying : List (Frame × List Nat)

inductive Event where
  | own (e : FrameLedger.Event)
  | deliver (i : Nat) (recvTime : Time) (shouldAck : Bool)
  | generate (mem : Bool) (now : Time)
  | acknowledge (i : Nat) (rest : List UInt8) (type : UInt8) (recvTime clock : Time)

/-- the packet that a step of the sender sends -/
def packetOf (own : FrameLedger.State) : FrameLedger.Event → List (Nat × List Frame)
  | .send num _ _ _ _ ops =>
    let frames := (build ops [] own.m.rtx).1
    if frames.isEmpty then [] else [(num, frames)]
  | _ => []

/-- the number of a packet that is acknowledged -/
def ackedNum : Recovery.Call → Option Nat
  | .ackedPacket num => some num
  | _ => none

def numbers (heard : List Received) : List Nat := heard.map Received.num

/-- an ACK frame reaches the sender, where every allocation succeeds -/
def handleAck (cfg : Config) (cbrt : Nat → Nat) (short : Bool) (s : State) (a : AckFrame)
    (clock : Time) : Option State :=
  (handleAckFrame cfg cbrt (fun _ => allocated) allocated s.own.m short a clock).map fun x =>
    { s with
      own := { s.own with m := x.1, acked := s.own.acked ++ x.2.filterMap doneFrame }
      told := s.told ++ x.2.filterMap ackedNum }

/-- `short` says whether the packets of the space have short headers -/
def step (cfg : Config) (cbrt : Nat → Nat) (short : Bool) (s : State) : Event → Option State
  | .own e => (FrameLedger.step cfg cbrt s.own e).map fun x =>
      { s with own := x, packets := s.packets ++ packetOf s.own e }
  | .deliver i recvTime shouldAck =>
    match s.packets[i]? with
    | none => some s
    | some p => (Received.step s.peer ⟨p.1, recvTime, shouldAck⟩).map fun g =>
        { s with peer := g, heard := s.heard ++ [⟨p.1, recvTime, shouldAck⟩] }
  | .generate mem now => (s.peer.generate mem now).map fun x =>
      { s with
        peer := x.2
        flying := s.flying ++ x.1.toList.map fun a =>
          (Frame.init frameAckType (.ack a), numbers s.heard) }
  | .acknowledge i rest type recvTime clock =>
    match s.flying[i]? with
    | none => some s
    | some x => do
      let f ← overWire x.1 rest
      match (Recver.stamp type recvTime f).body with
      | .ack a => handleAck cfg cbrt short s a clock
      | _ => some s

def start (cong : Congestion) : State := ⟨FrameLedger.start cong, [], [], AckGenerator.init, [], []⟩

/-- Packet numbers are fresh and have four bytes at most; the sender takes no acknowledgement but
those of the other peer; and the other peer's clock does not run backwards. -/
def Guarded (s : State) : Event → Prop
  | .own (.send num _ _ _ _ _) => num ∉ s.own.sent ∧ num < 2 ^ 32
  | .own (.acked _) => False
  | .generate _ now => s.peer.lgObtime ≤ now ∧ now ≤ varintMax
  | _ => True

/-- a new frame is an ACK frame or can be sent again -/
def Recoverable (_ : State) : Event → Prop
  | .own (.send _ _ _ _ _ ops) => ∀ f ∈ produced ops, f.isAck = true ∨ f.onLost = true
  | _ => True

instance (s : State) : (e : Event) → Decidable (Guarded s e)
  | .own (.send _ _ _ _ _ _) => inferInstanceAs (Decidable (_ ∉ _ ∧ _))
  | .own (.acked _) => isFalse id
  | .own (.lost _) | .own (.other _) => isTrue trivial
  | .deliver _ _ _ | .acknowledge _ _ _ _ _ => isTrue trivial
  | .generate _ _ => inferInstanceAs (Decidable (_ ∧ _))

instance (s : State) : (e : Event) → Decidable (Recoverable s e)
  | .own (.send _ _ _ _ _ _) => inferInstanceAs (Decidable (∀ f ∈ produced _, _))
  | .own (.acked _) | .own (.lost _) | .own (.other _) => isTrue trivial
  | .deliver _ _ _ | .acknowledge _ _ _ _ _ | .generate _ _ => isTrue trivial

/-! ## an ACK frame at the sender -/

theorem lostCalls_done (num : Nat) (pkt : SentPacket) :
    (lostCalls num pkt).filterMap doneFrame = [] ∧ (lostCalls num pkt).filterMap ackedNum = [] := by
  have h : ∀ f, doneFrame (lostCall f) = none ∧ ackedNum (lostCall f) = none := by
    intro f
    unfold lostCall
    split <;> exact ⟨rfl, rfl⟩
  constructor
  · show (pkt.frames.map lostCall).filterMap doneFrame = []
    rw [List.filterMap_map, List.filterMap_eq_nil_iff]
    exact fun f _ => (h f).1
  · show (pkt.frames.map lostCall).filterMap ackedNum = []
    rw [List.filterMap_map, List.filterMap_eq_nil_iff]
    exact fun f _ => (h f).2

theorem ackedCalls_num (num : Nat) (pkt : SentPacket) :
    (ackedCalls num pkt).filterMap ackedNum = [num] := by
  have h : ∀ f, ackedNum (ackCall f) = none := by
    intro f
    unfold ackCall
    split <;> rfl
  show num :: (pkt.frames.map ackCall).filterMap ackedNum = [num]
  rw [List.filterMap_map, List.filterMap_eq_nil_iff.mpr]
  exact fun f _ => h f

/-- **What the sender does with an ACK frame**: it reports the packets in flight that the frame
names, with their frames, and nothing gets into flight. -/
theorem handleAck_spec (cfg : Config) (cbrt : Nat → Nat) (short : Bool) {s : State}
    {a : AckFrame} {R : List Nat} (clock : Time) (hd : s.own.m.rtx.dropped = false) (ha : Says a R) :
    ∃ s', handleAck cfg cbrt short s a clock = some s' ∧ s'.own.m.rtx.dropped = false ∧
      s'.packets = s.packets ∧ s'.own.sent = s.own.sent ∧ s'.peer = s.peer ∧ s'.heard = s.heard ∧
      s'.flying = s.flying ∧ s'.own.handed = s.own.handed ∧
      (∀ e ∈ s'.own.m.rtx.sentMem.entries, e ∈ s.own.m.rtx.sentMem.entries) ∧
      (∃ ns, s'.told = s.told ++ ns ∧
        ∀ n, n ∈ ns ↔ (∃ pkt, (n, pkt) ∈ s.own.m.rtx.sentMem.entries) ∧ Named R n) ∧
      (∀ f ∈ s'.own.acked, f ∈ s.own.acked ∨
        ∃ e ∈ s.own.m.rtx.sentMem.entries, Named R e.1 ∧ f ∈ e.2.frames) := by
  obtain ⟨m1, cs1, m2, cs2, ⟨_, hp1, _, hp2⟩, hres⟩ := handleAckFrame_passed cfg cbrt
    (fun _ => allocated) allocated s.own.m short a clock hd
    fun e _ => ackedOnce_of_wellFormed ha.wellFormed e.1
  obtain ⟨hsm, _, _, _, hdrop⟩ := sampleAck_frame s.own.m short a
  obtain ⟨ha1, _, _, _, ha5, _⟩ := updateAlarm_frame { m2 with rtx := { m2.rtx with ptoCount := 0 } }
  generalize updateAlarm { m2 with rtx := { m2.rtx with ptoCount := 0 } } = m' at hres ha1 ha5
  have htaken1 := hp1.taken fun _ _ _ => rfl
  have htaken2 := hp2.taken fun _ _ _ => rfl
  rw [hsm] at htaken1
  have hnone : cs2.filterMap doneFrame = [] ∧ cs2.filterMap ackedNum = [] := by
    rw [hp2.calls, List.filterMap_flatMap, List.filterMap_flatMap]
    simp only [(lostCalls_done _ _).1, (lostCalls_done _ _).2]
    simp
  have hnums : cs1.filterMap ackedNum =
      (s.own.m.rtx.sentMem.entries.filter fun e => acks a e.1).map Prod.fst := by
    rw [hp1.calls, List.filterMap_flatMap, hsm]
    simp only [ackedCalls_num]
    exact List.map_eq_flatMap.symm
  have hdone : cs1.filterMap doneFrame =
      sentFrames (s.own.m.rtx.sentMem.entries.filter fun e => acks a e.1) := by
    rw [hp1.calls, List.filterMap_flatMap, hsm]
    simp only [ackedCalls_done]
    rfl
  refine ⟨{ s with
      own := { s.own with m := m', acked := s.own.acked ++ (cs1 ++ cs2).filterMap doneFrame }
      told := s.told ++ (cs1 ++ cs2).filterMap ackedNum }, ?_, ?_, rfl, rfl, rfl, rfl, rfl, rfl, ?_,
    ?_, ?_⟩
  · rw [handleAck, hres]
    rfl
  · exact ha5.trans (hp2.dropped.trans (hp1.dropped.trans (hdrop.trans hd)))
  · intro e he
    dsimp only at he
    rw [ha1] at he
    dsimp only at he
    rw [htaken2, htaken1] at he
    exact (List.mem_filter.mp (List.mem_filter.mp he).1).1
  · refine ⟨(s.own.m.rtx.sentMem.entries.filter fun e => acks a e.1).map Prod.fst, ?_, fun n => ?_⟩
    · dsimp only
      rw [List.filterMap_append, hnums, hnone.2, List.append_nil]
    · simp only [List.mem_map, List.mem_filter, ha.acks]
      constructor
      · rintro ⟨e, ⟨he, hn⟩, rfl⟩
        exact ⟨⟨e.2, he⟩, hn⟩
      · rintro ⟨⟨pkt, hpkt⟩, hn⟩
        exact ⟨(n, pkt), ⟨hpkt, hn⟩, rfl⟩
  · intro f hf
    dsimp only at hf
    rw [List.filterMap_append, hdone, hnone.1, List.append_nil] at hf
    rcases List.mem_append.mp hf with hf | hf
    · exact Or.inl hf
    · obtain ⟨e, he, hfe⟩ := List.mem_flatMap.mp hf
      obtain ⟨he, hn⟩ := List.mem_filter.mp he
      exact Or.inr ⟨e, he, (ha.acks e.1).mp hn, hfe⟩

/-! ## the invariant -/

/-- a frame has been in a packet that has reached the other peer -/
def Reached (s : State) (f : Frame) : Prop :=
  ∃ p ∈ s.packets, p.1 ∈ numbers s.heard ∧ f ∈ p.2

structure Inv (s : State) : Prop where
  live : s.own.m.rtx.dropped = false
  flight : ∀ e ∈ s.own.m.rtx.sentMem.entries, (e.1, e.2.frames) ∈ s.packets
  sent : ∀ p ∈ s.packets, p.1 ∈ s.own.sent
  small : ∀ p ∈ s.packets, p.1 < 2 ^ 32
  distinct : (s.packets.map Prod.fst).Nodup
  holds : Holds s.heard s.peer
  idle : Idle s.heard s.peer
  heard : ∀ n ∈ numbers s.heard, n ∈ s.packets.map Prod.fst
  flying : ∀ x ∈ s.flying, Made x.1 x.2 ∧ ∀ n ∈ x.2, n ∈ numbers s.heard
  told : ∀ n ∈ s.told, n ∈ numbers s.heard
  reached : ∀ f ∈ s.own.acked, Reached s f

theorem start_inv (cong : Congestion) : Inv (start cong) where
  live := rfl
  flight := List.forall_mem_nil _
  sent := List.forall_mem_nil _
  small := List.forall_mem_nil _
  distinct := List.nodup_nil
  holds := holds_init
  idle := fun _ => ⟨rfl, rfl⟩
  heard := List.forall_mem_nil _
  flying := List.forall_mem_nil _
  told := List.forall_mem_nil _
  reached := List.forall_mem_nil _

section
variable {cfg : Config} {cbrt : Nat → Nat} {short : Bool} {s s' : State}

theorem Reached.mono {f : Frame} (h : Reached s f) (hp : ∀ p ∈ s.packets, p ∈ s'.packets)
    (hn : ∀ n ∈ numbers s.heard, n ∈ numbers s'.heard) : Reached s' f := by
  obtain ⟨p, hp1, hp2, hp3⟩ := h
  exact ⟨p, hp p hp1, hn _ hp2, hp3⟩

/-- what a step of the sender's own does to what is in flight -/
structure Moved (own own' : FrameLedger.State) (sent : List (Nat × List Frame)) : Prop where
  live : own'.m.rtx.dropped = false
  flight : ∀ e ∈ own'.m.rtx.sentMem.entries,
    e ∈ own.m.rtx.sentMem.entries ∨ (e.1, e.2.frames) ∈ sent
  sent : ∀ n, n ∈ own'.sent ↔ n ∈ sent.map Prod.fst ∨ n ∈ own.sent
  acked : own'.acked = own.acked

theorem send_moved {own : FrameLedger.State} (hd : own.m.rtx.dropped = false)
    (num largestAck : Nat) (sentTime : Time) (pktLen : Nat) (includedUnacked : Bool)
    (ops : List BuildOp) :
    ∃ own', FrameLedger.step cfg cbrt own (.send num largestAck sentTime pktLen includedUnacked ops) =
        some own' ∧
      Moved own own' (packetOf own (.send num largestAck sentTime pktLen includedUnacked ops)) := by
  obtain ⟨hsame, _⟩ := build_spec ops [] own.m.rtx
  unfold FrameLedger.step packetOf
  dsimp only
  generalize build ops [] own.m.rtx = x at hsame ⊢
  have hmem : x.2.sentMem = own.m.rtx.sentMem := by rw [hsame]
  have hdrop : x.2.dropped = false := by rw [hsame]; exact hd
  split
  · refine ⟨_, rfl, hdrop, fun e he => Or.inl ?_, fun n => by simp, rfl⟩
    rwa [← hmem]
  · obtain ⟨h1, _, _, _, h5⟩ := sentMemPush_spec (m := { own.m with rtx := x.2 }) hdrop num
      ⟨largestAck, sentTime, pktLen, includedUnacked, x.1⟩
    dsimp only at h1 h5
    refine ⟨_, rfl, h5.trans hdrop, fun e he => ?_, fun n => by simp, rfl⟩
    dsimp only at he
    rw [h1, OrdMap.mem_insert] at he
    rcases he with rfl | ⟨he, _⟩
    · exact Or.inr List.mem_cons_self
    · rw [hmem] at he
      exact Or.inl he

theorem lost_moved {own : FrameLedger.State} (hd : own.m.rtx.dropped = false) (now : Time) :
    ∃ own', FrameLedger.step cfg cbrt own (.lost now) = some own' ∧ Moved own own' [] := by
  obtain ⟨m', cs, hres, hp⟩ := lost_passed cfg allocated own.m now hd
  refine ⟨{ own with m := m' }, ?_, hp.dropped.trans hd, fun e he => Or.inl ?_, fun n => by simp, rfl⟩
  · rw [FrameLedger.step, hres, Option.map_some]
  · dsimp only at he
    rw [hp.taken fun _ _ _ => rfl] at he
    exact (List.mem_filter.mp he).1

theorem own_moved (cfg : Config) (cbrt : Nat → Nat) {own : FrameLedger.State}
    (hd : own.m.rtx.dropped = false) {e : FrameLedger.Event} (he : ∀ a, e ≠ .acked a) :
    ∃ own', FrameLedger.step cfg cbrt own e = some own' ∧ Moved own own' (packetOf own e) := by
  cases e with
  | send num largestAck sentTime pktLen includedUnacked ops =>
    exact send_moved hd num largestAck sentTime pktLen includedUnacked ops
  | acked a => exact absurd rfl (he a)
  | lost now => exact lost_moved hd now
  | other o => exact ⟨_, rfl, hd, fun _ h => Or.inl h, fun n => by simp [packetOf], rfl⟩

theorem packetOf_send {own : FrameLedger.State} {num largestAck : Nat} {sentTime : Time}
    {pktLen : Nat} {includedUnacked : Bool} {ops : List BuildOp} {p : Nat × List Frame}
    (h : p ∈ packetOf own (.send num largestAck sentTime pktLen includedUnacked ops)) :
    p.1 = num := by
  unfold packetOf at h
  dsimp only at h
  split at h
  · cases h
  · rw [List.mem_singleton.mp h]

/-- a step sends one packet at most, with a fresh number -/
theorem packetOf_fresh {e : FrameLedger.Event} (hg : Guarded s (.own e)) :
    (∀ p ∈ packetOf s.own e, p.1 ∉ s.own.sent ∧ p.1 < 2 ^ 32) ∧
      ((packetOf s.own e).map Prod.fst).Nodup := by
  cases e with
  | send num largestAck sentTime pktLen includedUnacked ops =>
    refine ⟨fun p hp => ?_, ?_⟩
    · rw [packetOf_send hp]
      exact hg
    · unfold packetOf
      dsimp only
      split <;> simp
  | acked a => exact absurd hg id
  | lost now => exact ⟨List.forall_mem_nil _, List.nodup_nil⟩
  | other o => exact ⟨List.forall_mem_nil _, List.nodup_nil⟩

theorem own_inv (hi : Inv s) {e : FrameLedger.Event} (hg : Guarded s (.own e)) :
    ∃ s', step cfg cbrt short s (.own e) = some s' ∧ Inv s' := by
  have hno : ∀ a, e ≠ .acked a := by
    rintro a rfl
    exact hg
  obtain ⟨own', hstep, hm⟩ := own_moved cfg cbrt hi.live hno
  obtain ⟨hfresh, hnd⟩ := packetOf_fresh hg
  refine ⟨{ s with own := own', packets := s.packets ++ packetOf s.own e }, ?_, hm.live, ?_, ?_, ?_,
    ?_, hi.holds, hi.idle, ?_, hi.flying, hi.told, ?_⟩
  · rw [step, hstep, Option.map_some]
  · intro x hx
    rcases hm.flight x hx with h | h
    · exact List.mem_append_left _ (hi.flight x h)
    · exact List.mem_append_right _ h
  · intro p hp
    rw [hm.sent]
    rcases List.mem_append.mp hp with hp | hp
    · exact Or.inr (hi.sent p hp)
    · exact Or.inl (List.mem_map_of_mem hp)
  · intro p hp
    rcases List.mem_append.mp hp with hp | hp
    · exact hi.small p hp
    · exact (hfresh p hp).2
  · dsimp only
    rw [List.map_append]
    refine List.nodup_append.mpr ⟨hi.distinct, hnd, ?_⟩
    intro n hn k hk hnk
    obtain ⟨p, hp, rfl⟩ := List.mem_map.mp hn
    obtain ⟨q, hq, rfl⟩ := List.mem_map.mp hk
    exact (hfresh q hq).1 (hnk ▸ hi.sent p hp)
  · intro n hn
    dsimp only
    rw [List.map_append]
    exact List.mem_append_left _ (hi.heard n hn)
  · intro f hf
    dsimp only at hf
    rw [hm.acked] at hf
    exact (hi.reached f hf).mono (fun _ h => List.mem_append_left _ h) fun _ h => h

theorem deliver_inv (hi : Inv s) (i : Nat) (recvTime : Time) (shouldAck : Bool) :
    ∃ s', step cfg cbrt short s (.deliver i recvTime shouldAck) = some s' ∧ Inv s' := by
  cases hp : s.packets[i]? with
  | none =>
    refine ⟨s, ?_, hi⟩
    rw [step, hp]
  | some p =>
    have hmem := List.mem_of_getElem? hp
    obtain ⟨g, hg, hholds⟩ := received_inv (e := ⟨p.1, recvTime, shouldAck⟩) hi.holds
      (hi.small p hmem)
    have hgrow : ∀ n ∈ numbers s.heard,
        n ∈ numbers (s.heard ++ [⟨p.1, recvTime, shouldAck⟩]) := by
      intro n hn
      unfold numbers
      rw [List.map_append]
      exact List.mem_append_left _ hn
    refine ⟨{ s with peer := g, heard := s.heard ++ [⟨p.1, recvTime, shouldAck⟩] }, ?_, hi.live,
      hi.flight, hi.sent, hi.small, hi.distinct, hholds, received_idle _ g, fun n hn => ?_,
      fun x hx => ⟨(hi.flying x hx).1, fun n hn => hgrow n ((hi.flying x hx).2 n hn)⟩,
      fun n hn => hgrow n (hi.told n hn), fun f hf => (hi.reached f hf).mono (fun _ h => h) hgrow⟩
    · rw [step, hp]
      dsimp only
      rw [hg, Option.map_some]
    · unfold numbers at hn
      rw [List.map_append] at hn
      rcases List.mem_append.mp hn with hn | hn
      · exact hi.heard n hn
      · rw [List.mem_singleton.mp hn]
        exact List.mem_map_of_mem hmem

/-- the frame that the generator makes -/
theorem generate_made (hi : Inv s) {mem : Bool} {now : Time} (hg : Guarded s (.generate mem now))
    {a : AckFrame} {g : AckGenerator} (h : s.peer.generate mem now = some (some a, g)) :
    Made (Frame.init frameAckType (.ack a)) (numbers s.heard) := by
  obtain ⟨hwf, hcov, hlast⟩ := generated_covers hi.holds h
  obtain ⟨o, g', hgen, _, _, hfields⟩ := hi.holds.generate hi.idle mem now
  cases h.symm.trans hgen
  obtain ⟨hdelay, h0, h1, h2⟩ := hfields a rfl
  have hlarge : a.largestAck ∈ numbers s.heard := by
    refine of_decide_eq_true ((hcov _).symm.trans ?_)
    rw [covers, ackedSpans, List.any_cons, within]
    simp
  obtain ⟨p, hp, hpn⟩ := List.mem_map.mp (hi.heard _ hlarge)
  refine ⟨a, rfl, ?_, h0, h1, h2, hpn ▸ hi.small p hp, hwf, hcov, hlast⟩
  rw [hdelay]
  exact (sub64_le hg.1).trans ((Nat.sub_le _ _).trans hg.2)

theorem generate_inv (hi : Inv s) {mem : Bool} {now : Time} (hg : Guarded s (.generate mem now)) :
    ∃ s', step cfg cbrt short s (.generate mem now) = some s' ∧ Inv s' := by
  obtain ⟨o, g, hgen, hholds, hidle, _⟩ := hi.holds.generate hi.idle mem now
  refine ⟨{ s with
      peer := g
      flying := s.flying ++ o.toList.map fun a =>
        (Frame.init frameAckType (.ack a), numbers s.heard) }, ?_, hi.live, hi.flight, hi.sent,
    hi.small, hi.distinct, hholds, hidle, hi.heard, fun x hx => ?_, hi.told, hi.reached⟩
  · rw [step, hgen]
    rfl
  rcases List.mem_append.mp hx with hx | hx
  · exact hi.flying x hx
  · obtain ⟨a, ha, rfl⟩ := List.mem_map.mp hx
    rw [Option.mem_toList] at ha
    cases ha
    exact ⟨generate_made hi hg hgen, fun _ h => h⟩

/-- an ACK frame arrives -/
theorem acknowledge_step (cfg : Config) (cbrt : Nat → Nat) (short : Bool) {x : Frame × List Nat}
    (hx : Made x.1 x.2) {i : Nat} (hi : s.flying[i]? = some x) (rest : List UInt8)
    (type : UInt8) (recvTime clock : Time) :
    ∃ b, Says b x.2 ∧ step cfg cbrt short s (.acknowledge i rest type recvTime clock) =
      handleAck cfg cbrt short s b clock := by
  obtain ⟨g, b, hwire, hbody, hsays⟩ := hx.arrives rest type recvTime
  refine ⟨b, hsays, ?_⟩
  rw [step, hi]
  dsimp only
  rw [hwire, Option.bind_eq_bind, Option.bind_some, hbody]

theorem acknowledge_inv (hi : Inv s) (i : Nat) (rest : List UInt8) (type : UInt8)
    (recvTime clock : Time) :
    ∃ s', step cfg cbrt short s (.acknowledge i rest type recvTime clock) = some s' ∧ Inv s' := by
  cases hx : s.flying[i]? with
  | none =>
    refine ⟨s, ?_, hi⟩
    rw [step, hx]
  | some x =>
    obtain ⟨hmade, hheard⟩ := hi.flying x (List.mem_of_getElem? hx)
    obtain ⟨b, hsays, hstep⟩ := acknowledge_step cfg cbrt short hmade hx rest type recvTime clock
    obtain ⟨s', hres, hlive, hpk, hsent, hpeer, hh, hfl, _, hflight, ⟨ns, htold, hns⟩, hacked⟩ :=
      handleAck_spec cfg cbrt short clock hi.live hsays
    refine ⟨s', hstep.trans hres, hlive, fun e he => ?_, ?_, ?_, ?_, ?_, ?_, ?_, ?_, fun n hn => ?_,
      fun f hf => ?_⟩
    · rw [hpk]
      exact hi.flight e (hflight e he)
    · rw [hpk, hsent]
      exact hi.sent
    · rw [hpk]
      exact hi.small
    · rw [hpk]
      exact hi.distinct
    · rw [hpeer, hh]
      exact hi.holds
    · rw [hpeer, hh]
      exact hi.idle
    · rw [hpk, hh]
      exact hi.heard
    · rw [hfl, hh]
      exact hi.flying
    · rw [hh]
      rw [htold] at hn
      rcases List.mem_append.mp hn with hn | hn
      · exact hi.told n hn
      · exact hheard n ((hns n).mp hn).2.1
    · have hreached : Reached s f := by
        rcases hacked f hf with hf | ⟨e, he, hnamed, hfe⟩
        · exact hi.reached f hf
        · exact ⟨_, hi.flight e he, hheard e.1 hnamed.1, hfe⟩
      exact hreached.mono (fun _ h => hpk ▸ h) fun _ h => hh ▸ h

theorem step_inv (hi : Inv s) {e : Event} (hg : Guarded s e) :
    ∃ s', step cfg cbrt short s e = some s' ∧ Inv s' := by
  cases e with
  | own e => exact own_inv hi hg
  | deliver i recvTime shouldAck => exact deliver_inv hi i recvTime shouldAck
  | generate mem now => exact generate_inv hi hg
  | acknowledge i rest type recvTime clock => exact acknowledge_inv hi i rest type recvTime clock

/-! ## what is acknowledged -/

/-- what is reported as acknowledged has reached the other peer -/
structure Truthful (s : State) : Prop where
  packets : ∀ n ∈ s.told, n ∈ numbers s.heard
  frames : ∀ f ∈ s.own.acked, Reached s f
  /-- a number names one packet -/
  distinct : (s.packets.map Prod.fst).Nodup

theorem Inv.truthful (h : Inv s) : Truthful s := ⟨h.told, h.reached, h.distinct⟩

/-- an ACK frame, whenever it arrives, acknowledges the packets in flight that it names -/
def NamesRight (cfg : Config) (cbrt : Nat → Nat) (short : Bool) (s : State) : Prop :=
  ∀ i x, s.flying[i]? = some x → ∀ rest type recvTime clock, ∃ s' ns,
    step cfg cbrt short s (.acknowledge i rest type recvTime clock) = some s' ∧
    s'.told = s.told ++ ns ∧
    ∀ n, n ∈ ns ↔ (∃ pkt, (n, pkt) ∈ s.own.m.rtx.sentMem.entries) ∧ Named x.2 n

theorem Inv.namesRight (h : Inv s) : NamesRight cfg cbrt short s := by
  intro i x hx rest type recvTime clock
  obtain ⟨b, hsays, hstep⟩ := acknowledge_step cfg cbrt short
    (h.flying x (List.mem_of_getElem? hx)).1 hx rest type recvTime clock
  obtain ⟨s', hres, _, _, _, _, _, _, _, _, ⟨ns, htold, hns⟩, _⟩ :=
    handleAck_spec cfg cbrt short clock h.live hsays
  exact ⟨s', ns, hstep.trans hres, htold, hns⟩

/-! ## nothing is lost -/

/-- the frames are kept, and all of them can be sent again -/
structure KeptInv (s : State) : Prop where
  kept : FrameLedger.Inv s.own
  recoverable : ∀ f ∈ s.own.handed, f.isAck = true ∨ f.onLost = true

/-- each frame is in flight, waits to be sent again, or was in a packet that the other peer has -/
def NothingLost (s : State) : Prop :=
  ∀ f : Frame, f.isAck = false → s.own.handed.count f =
      (sentFrames s.own.m.rtx.sentMem.entries).count f +
        s.own.m.rtx.retransmissionQueue.count f + s.own.acked.count f ∧
    (f ∈ s.own.acked → Reached s f)

theorem KeptInv.nothingLost (h : KeptInv s) (hi : Inv s) : NothingLost s :=
  fun f hf => ⟨h.kept.kept f hf, hi.reached f⟩

/-- the invariant of the ledger looks at three fields of the module -/
theorem inv_congr {l : FrameLedger.State} {m : Recovery} (hi : FrameLedger.Inv l)
    (h1 : m.rtx.sentMem = l.m.rtx.sentMem)
    (h2 : m.rtx.retransmissionQueue = l.m.rtx.retransmissionQueue)
    (h3 : m.rtx.dropped = l.m.rtx.dropped) : FrameLedger.Inv { l with m := m } := by
  refine ⟨fun f hf => ?_, h3.trans hi.live, ?_⟩
  · have hk := hi.kept f hf
    dsimp only
    rw [h1, h2]
    exact hk
  · dsimp only
    rw [h1]
    exact hi.sent

/-- a frame in flight was handed over -/
theorem KeptInv.lost_guarded (h : KeptInv s) {l : FrameLedger.State} (hk : FrameLedger.Inv l)
    (hh : l.handed = s.own.handed) (now : Time) : FrameLedger.Guarded l (.lost now) := by
  intro e he _ f hf
  cases hfa : f.isAck with
  | true => exact Or.inl rfl
  | false =>
    have hcount := hk.kept f hfa
    have hpos : 0 < (sentFrames l.m.rtx.sentMem.entries).count f :=
      List.count_pos_iff.mpr (List.mem_flatMap.mpr ⟨e, he, hf⟩)
    have hin : f ∈ l.handed := List.count_pos_iff.mp (by omega)
    rw [hh] at hin
    exact (h.recoverable f hin).imp_left fun h => absurd h (by rw [hfa]; decide)

theorem own_kept (h : KeptInv s) {e : FrameLedger.Event} (hg : Guarded s (.own e))
    (hr : Recoverable s (.own e)) (hs : step cfg cbrt short s (.own e) = some s') : KeptInv s' := by
  rw [step, Option.map_eq_some_iff] at hs
  obtain ⟨own', hown, rfl⟩ := hs
  have hfresh : Fresh s.own e := by
    cases e with
    | send num largestAck sentTime pktLen includedUnacked ops => exact hg.1
    | _ => trivial
  have hguard : FrameLedger.Guarded s.own e := by
    cases e with
    | acked a => exact absurd hg id
    | lost now => exact h.lost_guarded h.kept rfl now
    | _ => trivial
  obtain ⟨l, hl, hinv⟩ := FrameLedger.step_inv cfg cbrt h.kept hfresh hguard
  cases hown.symm.trans hl
  refine ⟨hinv, ?_⟩
  cases e with
  | send num largestAck sentTime pktLen includedUnacked ops =>
    unfold FrameLedger.step at hown
    dsimp only at hown
    split at hown
    · cases hown
      exact h.recoverable
    · cases hown
      exact List.forall_mem_append.mpr ⟨h.recoverable, hr⟩
  | acked a => exact absurd hg id
  | lost now =>
    rw [FrameLedger.step, Option.map_eq_some_iff] at hown
    obtain ⟨x, _, rfl⟩ := hown
    exact h.recoverable
  | other o =>
    cases hown
    exact h.recoverable

theorem handleAck_kept (h : KeptInv s) {a : AckFrame} (ha : WellFormed a) {clock : Time}
    (hs : handleAck cfg cbrt short s a clock = some s') : KeptInv s' := by
  obtain ⟨m1, cs1, m2, cs2, ⟨h1, _, h2, hp2⟩, hres⟩ := handleAckFrame_passed cfg cbrt
    (fun _ => allocated) allocated s.own.m short a clock h.kept.live
    fun e _ => ackedOnce_of_wellFormed ha e.1
  obtain ⟨hsm, _, _, hq, hdrop⟩ := sampleAck_frame s.own.m short a
  have hk0 := inv_congr h.kept hsm hq hdrop
  -- the acknowledgement pass
  obtain ⟨l1, hl1, hk1⟩ := acked_inv cfg cbrt hk0 fun e _ => ackedOnce_of_wellFormed ha e.1
  rw [FrameLedger.step, h1, Option.map_some] at hl1
  cases hl1
  -- the loss pass
  obtain ⟨l2, hl2, hk2⟩ := lost_inv cfg cbrt hk1 (h.lost_guarded hk1 rfl clock)
  rw [FrameLedger.step, h2, Option.map_some] at hl2
  cases hl2
  have hnone : cs2.filterMap doneFrame = [] := by
    rw [hp2.calls, List.filterMap_flatMap]
    simp only [(lostCalls_done _ _).1]
    simp
  obtain ⟨ha1, _, _, ha4, ha5, _⟩ :=
    updateAlarm_frame { m2 with rtx := { m2.rtx with ptoCount := 0 } }
  rw [handleAck, hres, Option.map_some] at hs
  cases hs
  dsimp only
  rw [List.filterMap_append, hnone, List.append_nil]
  exact ⟨inv_congr hk2 ha1 ha4 ha5, h.recoverable⟩

theorem step_kept (hi : Inv s) (h : KeptInv s) {e : Event} (hg : Guarded s e)
    (hr : Recoverable s e) (hs : step cfg cbrt short s e = some s') : KeptInv s' := by
  cases e with
  | own e => exact own_kept h hg hr hs
  | deliver i recvTime shouldAck =>
    rw [step] at hs
    split at hs
    · cases hs
      exact h
    · obtain ⟨g, _, rfl⟩ := Option.map_eq_some_iff.mp hs
      exact ⟨h.kept, h.recoverable⟩
  | generate mem now =>
    rw [step, Option.map_eq_some_iff] at hs
    obtain ⟨x, _, rfl⟩ := hs
    exact ⟨h.kept, h.recoverable⟩
  | acknowledge i rest type recvTime clock =>
    cases hx : s.flying[i]? with
    | none =>
      rw [step, hx] at hs
      cases hs
      exact h
    | some x =>
      obtain ⟨b, hsays, hstep⟩ := acknowledge_step cfg cbrt short
        (hi.flying x (List.mem_of_getElem? hx)).1 hx rest type recvTime clock
      rw [hstep] at hs
      exact handleAck_kept h hsays.wellFormed hs

end

/-! ## runs -/

/-- two packets, of which the second is received twice and the first never; the ACK frame for the
second arrives twice; the first is lost and its frame sent again in a third packet, which is received
and acknowledged -/
def reordered : List Event :=
  [.own (.send 0 0 10 1200 true [.produce ⟨0x0a, some 4, true, .stream 4 0 [1, 2]⟩]),
    .own (.send 1 0 20 1200 true [.produce ⟨0x0a, some 8, true, .stream 8 0 [3]⟩]),
    .deliver 1 30 true, .deliver 1 40 true, .generate true 50,
    .acknowledge 0 [] 0x40 60 60, .acknowledge 0 [] 0x40 70 70,
    .own (.lost 9000000), .own (.send 2 0 9000010 1200 true [.retransmit 1000]),
    .deliver 2 9000020 true, .generate true 9000030, .acknowledge 1 [] 0x40 9000040 9000040]

theorem reordered_guarded : Along (step serverCfg id true) (fun s e => Guarded s e ∧ Recoverable s e)
    (start (Congestion.init serverCfg)) reordered := by
  decide +kernel

section
variable (cfg : Config) (cbrt : Nat → Nat) (short : Bool) (cong : Congestion)

/-- **Truthful.**  Whatever the network loses, doubles or reorders, the sender takes nothing for
acknowledged that has not reached the other peer. -/
theorem truthful_run (es : List Event) (hg : Along (step cfg cbrt short) Guarded (start cong) es) :
    ∃ s, run (step cfg cbrt short) (start cong) es = some s ∧ Truthful s := by
  obtain ⟨s, hs, hi⟩ := run_inv (I := fun _ => Inv) (start_inv cong)
    (fun _ _ _ hi hg => step_inv hi hg) es hg
  exact ⟨s, hs, hi.truthful⟩

/-- **Named.**  An ACK frame acknowledges the packets in flight that had been recorded when it was
made, but for those in the lowest run of numbers when that is not all of them. -/
theorem named_run (es : List Event) (hg : Along (step cfg cbrt short) Guarded (start cong) es) :
    ∃ s, run (step cfg cbrt short) (start cong) es = some s ∧ NamesRight cfg cbrt short s := by
  obtain ⟨s, hs, hi⟩ := run_inv (I := fun _ => Inv) (start_inv cong)
    (fun _ _ _ hi hg => step_inv hi hg) es hg
  exact ⟨s, hs, hi.namesRight⟩

/-- **Nothing is lost.**  Where every frame can be sent again, each is in flight, waits in the queue,
or has reached the other peer. -/
theorem nothing_lost_run (es : List Event)
    (hg : Along (step cfg cbrt short) (fun s e => Guarded s e ∧ Recoverable s e) (start cong) es) :
    ∃ s, run (step cfg cbrt short) (start cong) es = some s ∧ NothingLost s := by
  obtain ⟨s, hs, hi, hk⟩ := run_inv (I := fun _ s => Inv s ∧ KeptInv s)
    ⟨start_inv cong, FrameLedger.start_inv cong, List.forall_mem_nil _⟩
    (fun _ _ _ hi hg => by
      obtain ⟨s', hs, hi'⟩ := step_inv hi.1 hg.1
      exact ⟨s', hs, hi', step_kept hi.1 hi.2 hg.1 hg.2 hs⟩) es hg
  exact ⟨s, hs, hk.nothingLost hi⟩

end

theorem truthful_run_reordered : ∃ s, run (step serverCfg id true)
    (start (Congestion.init serverCfg)) reordered = some s ∧ Truthful s :=
  truthful_run serverCfg id true (Congestion.init serverCfg) reordered
    (reordered_guarded.mono _ fun _ _ h => h.1)

theorem named_run_reordered : ∃ s, run (step serverCfg id true)
    (start (Congestion.init serverCfg)) reordered = some s ∧ NamesRight serverCfg id true s :=
  named_run serverCfg id true (Congestion.init serverCfg) reordered
    (reordered_guarded.mono _ fun _ _ h => h.1)

theorem nothing_lost_run_reordered : ∃ s, run (step serverCfg id true)
    (start (Congestion.init serverCfg)) reordered = some s ∧ NothingLost s :=
  nothing_lost_run serverCfg id true (Congestion.init serverCfg) reordered reordered_guarded

end Acknowledge
end OpenQuic
