import OpenQuic.Lib.Runs
import OpenQuic.Modules.Stream

/-!
# The sending half of a stream

The runs of one send stream: turns of the application's writes, `quic_stream_close`, window updates
and `quic_send_stream_generate`, in any order.

* `State`              the stream, with the write that waits, the bytes that the finished writes handed
                       over, the results of the calls and the windows that the peer announced;
* `generate_cases`     what one call of `quic_send_stream_generate` does;
* `Carried`            the frames carry the bytes of the writes at consecutive offsets, inside the
                       window;
* `carried_run`        every run in which the writes come one after another is `Carried`;
* `FinOk`              a `FIN` bit is sent once, with the last byte, and before the framer forgets the
                       stream;
* `fin_ok_iff`         the runs in which that is so.
-/

namespace OpenQuic
namespace StreamSend
open Word

/-! ## runs -/

structure State where
  str : Stream
  /-- the bytes of the write that waits for its segments to be sent -/
  current : Option (List UInt8)
  /-- the bytes of the writes before it that were taken, in order -/
  taken : List UInt8
  results : List Generated
  windows : List Nat

inductive Event where
  | write (now : Time) (data : List UInt8)
  | woken (now : Time)
  | close
  | setDeadline (deadline : Time)
  | maxStreamData (maxData : Nat)
  | generate (mem : StreamAlloc) (bytes : Nat) (fill : Bool)

/-- the bytes of a write that are not in the reader any more: as many as its `pos` says -/
def sentPart (send : SendStream) (data : List UInt8) : List UInt8 :=
  data.take (data.length - send.readerLen)

def step (sid : Nat) (s : State) : Event → Option State
  | .write now data =>
    let x := s.str.send.write now data
    some { s with
      str := { s.str with send := x.1 }
      current := if x.2 then some data else none }
  | .woken now =>
    match s.current with
    | none => some s
    | some data =>
      let ends := s.str.send.stops now
      some { s with
        str := { s.str with send := s.str.send.woken now }
        current := if ends then none else some data
        taken := if ends then s.taken ++ sentPart s.str.send data else s.taken }
  | .close => some { s with str := { s.str with send := { s.str.send with closed := true } } }
  | .setDeadline deadline =>
    some { s with str := { s.str with send := { s.str.send with deadline := deadline } } }
  | .maxStreamData maxData =>
    some { s with
      str := { s.str with flowctrl := s.str.flowctrl.updateSwnd maxData }
      windows := s.windows ++ [maxData] }
  | .generate mem bytes fill =>
    let g := s.str.generate mem sid bytes fill
    some { s with str := g.stream, results := s.results ++ [g] }

def start (cfg : Config) : State := ⟨Stream.create cfg, none, [], [], []⟩

theorem step_isSome (sid : Nat) (s : State) (e : Event) : ∃ s', step sid s e = some s' := by
  cases e with
  | woken now =>
    rw [step]
    split <;> exact ⟨_, rfl⟩
  | _ => exact ⟨_, rfl⟩

/-! ## one call of `generate` -/

/-- what a call that makes a frame with `n` bytes leaves -/
structure Made (sid n : Nat) (fill : Bool) (str : Stream) (g : Generated) : Prop where
  frame : g.frame = some ⟨streamFirstByte str.send.off fill (str.send.takesFin n), some sid, false,
    .stream sid str.send.off (str.send.readerBuf.take n)⟩
  empty : g.empty = (str.send.readerLen = 0 || str.send.readerLen ≤ n || str.send.takesFin n)
  reader : g.stream.send.readerBuf = str.send.readerBuf.drop n
  off : g.stream.send.off = add64 str.send.off n
  sentFin : g.stream.send.sentFin = (str.send.sentFin || str.send.takesFin n)
  closed : g.stream.send.closed = str.send.closed
  flowctrl : g.stream.flowctrl =
    if str.send.readerLen = 0 then str.flowctrl else str.flowctrl.sent n

theorem newlyBlocked_frame (fc : StreamFlowctrl) :
    fc.newlyBlocked.2.swnd = fc.swnd ∧ fc.newlyBlocked.2.sentBytes = fc.sentBytes := by
  unfold StreamFlowctrl.newlyBlocked
  split <;> exact ⟨rfl, rfl⟩

/-- A call makes no frame and leaves the sending half and its counters as they are, or it makes
one. -/
theorem generate_cases (mem : StreamAlloc) (str : Stream) (sid bytes : Nat) (fill : Bool) :
    ((str.generate mem sid bytes fill).frame = none ∧
        (str.generate mem sid bytes fill).empty = false ∧
        (str.generate mem sid bytes fill).stream.send = str.send ∧
        (str.generate mem sid bytes fill).stream.flowctrl.swnd = str.flowctrl.swnd ∧
        (str.generate mem sid bytes fill).stream.flowctrl.sentBytes = str.flowctrl.sentBytes ∧
        (str.send.closed = true → mem.frame = false)) ∨
      (mem.frame = true ∧
        Made sid (str.payloadSize sid bytes fill) fill str (str.generate mem sid bytes fill)) := by
  unfold Stream.generate
  by_cases h : str.payloadSize sid bytes fill = 0 ∧ (!str.send.closed) = true
  · rw [if_pos h]
    obtain ⟨h1, h2⟩ := newlyBlocked_frame str.flowctrl
    refine Or.inl ⟨rfl, rfl, rfl, h1, h2, fun hc => ?_⟩
    rw [hc] at h
    exact absurd h.2 (by decide)
  · rw [if_neg h]
    cases hm : mem.frame with
    | false => exact Or.inl ⟨rfl, rfl, rfl, rfl, rfl, fun _ => rfl⟩
    | true => exact Or.inr ⟨rfl, ⟨rfl, rfl, rfl, rfl, rfl, rfl, rfl⟩⟩

/-! ## the frames carry the bytes -/

/-- the offset and the payload of a STREAM frame -/
def segment (f : Frame) : Nat × List UInt8 :=
  match f.body with
  | .stream _ off data => (off, data)
  | _ => (0, [])

def frames (s : State) : List Frame := s.results.filterMap Generated.frame

/-- ranges that start at `off`, each where the one before ends, up to `fin` -/
def Consecutive : Nat → List (Nat × List UInt8) → Nat → Prop
  | off, [], fin => off = fin
  | off, x :: xs, fin => x.1 = off ∧ Consecutive (off + x.2.length) xs fin

theorem Consecutive.concat {off fin : Nat} {xs : List (Nat × List UInt8)}
    (h : Consecutive off xs fin) (data : List UInt8) :
    Consecutive off (xs ++ [(fin, data)]) (fin + data.length) := by
  induction xs generalizing off with
  | nil => exact ⟨h.symm, by rw [h]; rfl⟩
  | cons x xs ih => exact ⟨h.1, ih h.2⟩

/-- the bytes that the writes have handed over so far -/
def consumed (s : State) : List UInt8 :=
  s.taken ++ match s.current with
    | none => []
    | some data => sentPart s.str.send data

structure Carried (cfg : Config) (s : State) : Prop where
  consecutive : Consecutive 0 ((frames s).map segment) s.str.send.off
  payload : ((frames s).map fun f => (segment f).2).flatten = consumed s
  offBit : ∀ f ∈ frames s, (segment f).1 ≠ 0 → hasOff f.firstByte = true
  counters : s.str.send.off = s.str.flowctrl.sentBytes
  window : s.str.flowctrl.sentBytes ≤ s.str.flowctrl.swnd
  largest : s.str.flowctrl.swnd = s.windows.foldl max cfg.streamFlowctrlInitialSwnd

/-- a write is issued when the one before has ended -/
def OneByOne (s : State) : Event → Prop
  | .write _ _ => s.current = none
  | .maxStreamData maxData => maxData < 2 ^ 64
  | _ => True

/-- what is in the reader is the end of the write that waits -/
structure CarriedInv (cfg : Config) (s : State) : Prop extends Carried cfg s where
  reader : s.str.send.readerBuf <:+ s.current.getD []
  word : s.str.flowctrl.swnd < 2 ^ 64

theorem sentPart_drop {send send' : SendStream} {data : List UInt8}
    (h : send.readerBuf <:+ data) {n : Nat} (hn : n ≤ send.readerLen)
    (hs : send'.readerBuf = send.readerBuf.drop n) :
    sentPart send' data = sentPart send data ++ send.readerBuf.take n := by
  obtain ⟨pre, rfl⟩ := h
  have hlen : send'.readerLen = send.readerLen - n := by
    rw [SendStream.readerLen, hs, List.length_drop]
    rfl
  have hr : send.readerBuf.length = send.readerLen := rfl
  unfold sentPart
  rw [hlen, List.length_append, hr]
  have h1 : pre.length + send.readerLen - (send.readerLen - n) = pre.length + n := by omega
  have h2 : pre.length + send.readerLen - send.readerLen = pre.length := by omega
  rw [h1, h2, List.take_length_add_append, List.take_left]

theorem sentPart_whole {send : SendStream} {data : List UInt8} (h : send.readerBuf = data) :
    sentPart send data = [] := by
  have hr : send.readerLen = data.length := congrArg List.length h
  unfold sentPart
  rw [hr, Nat.sub_self, List.take_zero]

theorem getSwnd_le {fc : StreamFlowctrl} (h : fc.sentBytes ≤ fc.swnd) (hw : fc.swnd < 2 ^ 64) :
    fc.getSwnd = fc.swnd - fc.sentBytes := by
  unfold StreamFlowctrl.getSwnd
  rw [if_neg (by omega), sub64_of_le h hw]

theorem updateSwnd_frame (fc : StreamFlowctrl) (maxData : Nat) :
    (fc.updateSwnd maxData).swnd = max fc.swnd maxData ∧
      (fc.updateSwnd maxData).sentBytes = fc.sentBytes := by
  unfold StreamFlowctrl.updateSwnd
  split
  · rename_i h
    exact ⟨(Nat.max_eq_right (Nat.le_of_lt h)).symm, rfl⟩
  · rename_i h
    exact ⟨(Nat.max_eq_left (Nat.not_lt.mp h)).symm, rfl⟩

theorem start_carried (cfg : Config) (hw : cfg.streamFlowctrlInitialSwnd < 2 ^ 64) :
    CarriedInv cfg (start cfg) :=
  ⟨⟨rfl, rfl, List.forall_mem_nil _, rfl, Nat.zero_le _, rfl⟩, List.suffix_rfl, hw⟩

/-- a first turn ends the write or leaves it waiting with all its bytes -/
theorem write_cases (send : SendStream) (now : Time) (data : List UInt8) :
    send.write now data = ({ send with readerBuf := [] }, false) ∨
      send.write now data = ({ send with readerBuf := data }, true) := by
  unfold SendStream.write
  dsimp only
  split
  · exact Or.inl rfl
  · exact Or.inr rfl

theorem write_carried {cfg : Config} {sid : Nat} {s s' : State} (h : CarriedInv cfg s) {now : Time}
    {data : List UInt8} (hc : s.current = none) (hs : step sid s (.write now data) = some s') :
    CarriedInv cfg s' := by
  rw [step] at hs
  have hpay : ((frames s).map fun f => (segment f).2).flatten = s.taken := by
    have hp := h.payload
    unfold consumed at hp
    rw [hc] at hp
    exact hp.trans (List.append_nil _)
  rcases write_cases s.str.send now data with hw | hw
  · rw [hw] at hs
    cases hs
    exact ⟨⟨h.consecutive, hpay.trans (List.append_nil _).symm, h.offBit, h.counters, h.window,
      h.largest⟩, List.nil_suffix, h.word⟩
  · rw [hw] at hs
    cases hs
    refine ⟨⟨h.consecutive, hpay.trans ?_, h.offBit, h.counters, h.window, h.largest⟩,
      List.suffix_rfl, h.word⟩
    show _ = s.taken ++ sentPart { s.str.send with readerBuf := data } data
    rw [sentPart_whole rfl, List.append_nil]

theorem woken_carried {cfg : Config} {sid : Nat} {s s' : State} (h : CarriedInv cfg s) {now : Time}
    (hs : step sid s (.woken now) = some s') : CarriedInv cfg s' := by
  rw [step] at hs
  cases hc : s.current with
  | none =>
    rw [hc] at hs
    cases hs
    exact h
  | some data =>
    rw [hc] at hs
    cases hs
    have hpay := h.payload
    have hread := h.reader
    rw [consumed, hc] at hpay
    rw [hc] at hread
    have hoff : (s.str.send.woken now).off = s.str.send.off := by
      unfold SendStream.woken
      split <;> rfl
    refine ⟨⟨?_, hpay.trans ?_, h.offBit, hoff.trans h.counters, h.window, h.largest⟩, ?_, h.word⟩
    · show Consecutive 0 _ (s.str.send.woken now).off
      rw [hoff]
      exact h.consecutive
    · unfold consumed SendStream.woken
      dsimp only
      cases s.str.send.stops now with
      | true => exact (List.append_nil _).symm
      | false => rfl
    · unfold SendStream.woken
      dsimp only
      cases s.str.send.stops now with
      | true => exact List.nil_suffix
      | false => exact hread

theorem frames_results (s : State) (g : Generated) :
    frames { s with str := g.stream, results := s.results ++ [g] } = frames s ++ g.frame.toList := by
  show (s.results ++ [g]).filterMap Generated.frame =
    s.results.filterMap Generated.frame ++ g.frame.toList
  rw [List.filterMap_append]
  cases hg : g.frame <;> simp [hg]

/-- a call that makes no frame -/
theorem unmade_carried {cfg : Config} {s : State} (h : CarriedInv cfg s) {g : Generated}
    (hframe : g.frame = none) (hsend : g.stream.send = s.str.send)
    (hswnd : g.stream.flowctrl.swnd = s.str.flowctrl.swnd)
    (hsent : g.stream.flowctrl.sentBytes = s.str.flowctrl.sentBytes) :
    CarriedInv cfg { s with str := g.stream, results := s.results ++ [g] } := by
  have hfr := frames_results s g
  rw [hframe, Option.toList_none, List.append_nil] at hfr
  refine ⟨⟨?_, ?_, ?_, ?_, ?_, ?_⟩, ?_, ?_⟩
  · rw [hfr, hsend]
    exact h.consecutive
  · rw [hfr]
    unfold consumed
    dsimp only
    rw [hsend]
    exact h.payload
  · rw [hfr]
    exact h.offBit
  · show g.stream.send.off = _
    rw [hsend, hsent]
    exact h.counters
  · rw [hswnd, hsent]
    exact h.window
  · rw [hswnd]
    exact h.largest
  · show g.stream.send.readerBuf <:+ _
    rw [hsend]
    exact h.reader
  · rw [hswnd]
    exact h.word

/-- a call that makes a frame: the payload and the counters move by its `n` bytes alike -/
theorem made_carried {cfg : Config} {sid n : Nat} {fill : Bool} {s : State} (h : CarriedInv cfg s)
    {g : Generated} (hm : Made sid n fill s.str g) (hle : n ≤ s.str.send.readerBuf.length)
    (hwnd : n ≤ s.str.flowctrl.swnd - s.str.flowctrl.sentBytes) :
    CarriedInv cfg { s with str := g.stream, results := s.results ++ [g] } := by
  have hoff := h.counters
  have hwin := h.window
  have hword := h.word
  have hfr := frames_results s g
  rw [hm.frame, Option.toList_some] at hfr
  have hnew : add64 s.str.send.off n = s.str.send.off + n := add64_of_lt (by omega)
  have hsent : g.stream.flowctrl.sentBytes = s.str.flowctrl.sentBytes + n ∧
      g.stream.flowctrl.swnd = s.str.flowctrl.swnd := by
    rw [hm.flowctrl]
    split
    · rename_i h0
      have hzero : s.str.send.readerBuf.length = 0 := h0
      exact ⟨by omega, rfl⟩
    · refine ⟨?_, rfl⟩
      show add64 s.str.flowctrl.sentBytes n = _
      exact add64_of_lt (by omega)
  have hdata : (s.str.send.readerBuf.take n).length = n := by
    rw [List.length_take]
    exact Nat.min_eq_left hle
  refine ⟨⟨?_, ?_, ?_, ?_, ?_, ?_⟩, ?_, ?_⟩
  · rw [hfr, List.map_append, hm.off, hnew]
    have hc := h.consecutive.concat (s.str.send.readerBuf.take n)
    rw [hdata] at hc
    exact hc
  · rw [hfr, List.map_append, List.flatten_append, h.payload]
    show consumed s ++ (s.str.send.readerBuf.take n ++ []) = _
    rw [List.append_nil]
    unfold consumed
    dsimp only
    cases hcur : s.current with
    | none =>
      have hr := h.reader
      rw [hcur, Option.getD_none, List.suffix_nil] at hr
      rw [hr, List.take_nil, List.append_nil]
    | some data =>
      have hr := h.reader
      rw [hcur, Option.getD_some] at hr
      dsimp only
      rw [sentPart_drop hr hle hm.reader, List.append_assoc]
  · intro f hf hne
    rw [hfr] at hf
    rcases List.mem_append.mp hf with hf | hf
    · exact h.offBit f hf hne
    · rw [List.mem_singleton.mp hf] at hne ⊢
      rw [hasOff_streamFirstByte]
      exact decide_eq_true hne
  · show g.stream.send.off = g.stream.flowctrl.sentBytes
    rw [hm.off, hnew, hsent.1, hoff]
  · rw [hsent.1, hsent.2]
    omega
  · rw [hsent.2]
    exact h.largest
  · show g.stream.send.readerBuf <:+ _
    rw [hm.reader]
    exact (List.drop_suffix _ _).trans h.reader
  · rw [hsent.2]
    exact h.word

theorem generate_carried {cfg : Config} {sid : Nat} {s s' : State} (h : CarriedInv cfg s)
    {mem : StreamAlloc} {bytes : Nat} {fill : Bool}
    (hs : step sid s (.generate mem bytes fill) = some s') : CarriedInv cfg s' := by
  cases hs
  have hle := s.str.payloadSize_le sid bytes fill
  have hwnd := s.str.payloadSize_le_swnd sid bytes fill
  rw [getSwnd_le h.window h.word] at hwnd
  rcases generate_cases mem s.str sid bytes fill with ⟨h1, _, h3, h4, h5, _⟩ | ⟨_, hm⟩
  · exact unmade_carried h h1 h3 h4 h5
  · exact made_carried h hm hle hwnd

theorem step_carried {cfg : Config} {sid : Nat} {s s' : State} {e : Event} (h : CarriedInv cfg s)
    (ho : OneByOne s e) (hs : step sid s e = some s') : CarriedInv cfg s' := by
  cases e with
  | write now data => exact write_carried h ho hs
  | woken now => exact woken_carried h hs
  | close =>
    cases hs
    exact ⟨⟨h.consecutive, h.payload, h.offBit, h.counters, h.window, h.largest⟩, h.reader, h.word⟩
  | setDeadline deadline =>
    cases hs
    exact ⟨⟨h.consecutive, h.payload, h.offBit, h.counters, h.window, h.largest⟩, h.reader, h.word⟩
  | maxStreamData maxData =>
    cases hs
    obtain ⟨h1, h2⟩ := updateSwnd_frame s.str.flowctrl maxData
    refine ⟨⟨h.consecutive, h.payload, h.offBit, ?_, ?_, ?_⟩, h.reader, ?_⟩
    · exact h.counters.trans h2.symm
    · rw [h1, h2]
      exact h.window.trans (Nat.le_max_left _ _)
    · show (s.str.flowctrl.updateSwnd maxData).swnd = (s.windows ++ [maxData]).foldl max _
      rw [h1, List.foldl_append, ← h.largest]
      rfl
    · show (s.str.flowctrl.updateSwnd maxData).swnd < _
      rw [h1]
      exact Nat.max_lt.mpr ⟨h.word, ho⟩
  | generate mem bytes fill => exact generate_carried h hs

/-- **The frames carry the bytes of the writes, in order and inside the window.** -/
theorem carried_run (cfg : Config) (hw : cfg.streamFlowctrlInitialSwnd < 2 ^ 64) (sid : Nat)
    (es : List Event) (ho : Runs.Along (step sid) OneByOne (start cfg) es) :
    ∃ s, Runs.run (step sid) (start cfg) es = some s ∧ Carried cfg s := by
  obtain ⟨s, hs, hi⟩ := Runs.run_inv (I := fun _ s => CarriedInv cfg s) (start_carried cfg hw)
    (fun _ s e hi hg => by
      obtain ⟨s', hs'⟩ := step_isSome sid s e
      exact ⟨s', hs', step_carried hi hg hs'⟩) es ho
  exact ⟨s, hs, hi.toCarried⟩

instance decidableOneByOne (s : State) : (e : Event) → Decidable (OneByOne s e)
  | .write _ _ => inferInstanceAs (Decidable (s.current = none))
  | .woken _ => isTrue trivial
  | .close => isTrue trivial
  | .setDeadline _ => isTrue trivial
  | .maxStreamData maxData => inferInstanceAs (Decidable (maxData < 2 ^ 64))
  | .generate _ _ _ => isTrue trivial

/-- two writes in three frames, with a window update in between -/
theorem carried_run_three :
    Runs.Along (step 4) OneByOne (start serverCfg)
        [.write 0 [1, 2, 3], .generate .ok 5 false, .maxStreamData 9000, .generate .ok 100 false,
          .woken 1, .write 2 [4], .generate .ok 100 true] ∧
      ∃ s, Runs.run (step 4) (start serverCfg)
        [.write 0 [1, 2, 3], .generate .ok 5 false, .maxStreamData 9000, .generate .ok 100 false,
          .woken 1, .write 2 [4], .generate .ok 100 true] = some s ∧ Carried serverCfg s :=
  ⟨by decide +kernel, carried_run serverCfg (by decide) 4 _ (by decide +kernel)⟩

/-! ## the `FIN` bit -/

def sentFinIn (gs : List Generated) : Prop :=
  ∃ g ∈ gs, ∃ f ∈ g.frame, hasFin f.firstByte = true

/-- what is asked of a call of `generate` after those in `past` -/
structure FinRight (past : List Generated) (g : Generated) : Prop where
  last : ∀ f ∈ g.frame, hasFin f.firstByte = true →
    g.stream.send.closed = true ∧ ¬ sentFinIn past ∧ g.stream.send.readerLen = 0
  forgotten : g.empty = true → g.stream.send.closed = true → sentFinIn (past ++ [g])

def FinOk (s : State) : Prop := ∀ past g, past ++ [g] <+: s.results → FinRight past g

/-- A frame of a closed stream is made when the `FIN` is out, or nothing is left to send. -/
def FinGuarded (s : State) : Event → Prop
  | .generate mem _ _ => s.str.send.closed = true → s.str.send.sentFin = false →
      s.str.send.readerLen = 0 ∨ mem.frame = false
  | _ => True

structure FinInv (s : State) : Prop where
  ok : FinOk s
  sentFin : s.str.send.sentFin = true ↔ sentFinIn s.results

theorem sentFinIn_concat {past : List Generated} {g : Generated} :
    sentFinIn (past ++ [g]) ↔ sentFinIn past ∨ ∃ f ∈ g.frame, hasFin f.firstByte = true := by
  unfold sentFinIn
  simp only [List.mem_append, List.mem_singleton, or_and_right, exists_or, exists_eq_left]

theorem finOk_concat {s : State} {str : Stream} {g : Generated} :
    FinOk { s with str := str, results := s.results ++ [g] } ↔ FinOk s ∧ FinRight s.results g := by
  unfold FinOk
  simp only [List.prefix_concat_iff]
  constructor
  · intro h
    exact ⟨fun past g' hp => h past g' (Or.inr hp), h _ _ (Or.inl rfl)⟩
  · rintro ⟨h1, h2⟩ past g' (hp | hp)
    · obtain ⟨rfl, hg⟩ := List.append_inj' hp rfl
      cases hg
      exact h2
    · exact h1 past g' hp

/-- what is asked of a call that makes a frame, in terms of the stream before it -/
theorem made_right {sid n : Nat} {fill : Bool} {str : Stream} {g : Generated}
    {past : List Generated} (hm : Made sid n fill str g) (hn : n ≤ str.send.readerLen)
    (hp : str.send.sentFin = true ↔ sentFinIn past) :
    FinRight past g ↔
      (str.send.closed = true → str.send.sentFin = false → str.send.readerLen = 0) := by
  have hfin : (∃ f ∈ g.frame, hasFin f.firstByte = true) ↔ str.send.takesFin n = true := by
    rw [hm.frame]
    simp [hasFin_streamFirstByte]
  have hlen : g.stream.send.readerLen = str.send.readerLen - n := by
    rw [SendStream.readerLen, hm.reader, List.length_drop]
    rfl
  have htakes : str.send.takesFin n = true ↔ str.send.closed = true ∧ str.send.sentFin = false ∧
      (str.send.readerLen = 0 ∨ n < str.send.readerLen) := by
    simp [SendStream.takesFin, and_assoc]
  constructor
  · intro h hc hs
    by_contra h0
    rcases Nat.lt_or_ge n str.send.readerLen with hlt | hge
    · -- the bit goes out with bytes left over
      have ht := htakes.mpr ⟨hc, hs, Or.inr hlt⟩
      obtain ⟨f, hf, hb⟩ := hfin.mpr ht
      have := (h.last f hf hb).2.2
      omega
    · -- the last bytes go out without it
      have ht : str.send.takesFin n ≠ true := fun ht => by
        rcases (htakes.mp ht).2.2 with h1 | h1 <;> omega
      have he : g.empty = true := by
        rw [hm.empty]
        simp [hge]
      rcases sentFinIn_concat.mp (h.forgotten he (hm.closed.trans hc)) with h1 | h1
      · rw [hp.mpr h1] at hs
        cases hs
      · exact ht (hfin.mp h1)
  · intro h
    refine ⟨fun f hf hb => ?_, fun he hc => ?_⟩
    · obtain ⟨hc, hs, _⟩ := htakes.mp (hfin.mp ⟨f, hf, hb⟩)
      refine ⟨hm.closed.trans hc, fun hpast => ?_, ?_⟩
      · rw [hp.mpr hpast] at hs
        cases hs
      · rw [hlen, h hc hs, Nat.zero_sub]
    · have hc' := hm.closed.symm.trans hc
      rw [sentFinIn_concat]
      cases hs : str.send.sentFin with
      | true => exact Or.inl (hp.mp hs)
      | false => exact Or.inr (hfin.mpr (htakes.mpr ⟨hc', hs, Or.inl (h hc' hs)⟩))

/-- One call is right exactly when it is guarded. -/
theorem generate_fin (sid : Nat) {s : State} (h : FinInv s) (mem : StreamAlloc) (bytes : Nat)
    (fill : Bool) :
    (FinGuarded s (.generate mem bytes fill) ↔
        FinRight s.results (s.str.generate mem sid bytes fill)) ∧
      ((s.str.generate mem sid bytes fill).stream.send.sentFin = true ↔
        sentFinIn (s.results ++ [s.str.generate mem sid bytes fill])) := by
  rw [sentFinIn_concat, ← h.sentFin]
  rcases generate_cases mem s.str sid bytes fill with ⟨h1, h2, h3, _, _, h6⟩ | ⟨hmem, hm⟩
  · refine ⟨⟨fun _ => ⟨fun f hf => ?_, fun he => ?_⟩, fun _ hc _ => Or.inr (h6 hc)⟩, ?_⟩
    · rw [h1] at hf
      cases hf
    · rw [h2] at he
      cases he
    · rw [h1, h3]
      simp
  · refine ⟨?_, ?_⟩
    · rw [made_right hm (s.str.payloadSize_le sid bytes fill) h.sentFin, FinGuarded, hmem]
      simp
    · rw [hm.sentFin, hm.frame]
      simp [hasFin_streamFirstByte]

theorem step_fin (sid : Nat) {s : State} (e : Event) (h : FinInv s) :
    ∃ s', step sid s e = some s' ∧ (FinGuarded s e → FinInv s') ∧ (FinOk s' → FinGuarded s e) := by
  cases e with
  | write now data =>
    have hsame : (s.str.send.write now data).1.sentFin = s.str.send.sentFin := by
      rcases write_cases s.str.send now data with hw | hw <;> rw [hw]
    exact ⟨_, rfl, fun _ => ⟨h.ok, by rw [← h.sentFin, ← hsame]⟩, fun _ => trivial⟩
  | woken now =>
    rw [step]
    split
    · exact ⟨_, rfl, fun _ => h, fun _ => trivial⟩
    · refine ⟨_, rfl, fun _ => ⟨h.ok, ?_⟩, fun _ => trivial⟩
      rw [← h.sentFin]
      unfold SendStream.woken
      dsimp only
      split <;> rfl
  | close => exact ⟨_, rfl, fun _ => ⟨h.ok, h.sentFin⟩, fun _ => trivial⟩
  | setDeadline deadline => exact ⟨_, rfl, fun _ => ⟨h.ok, h.sentFin⟩, fun _ => trivial⟩
  | maxStreamData maxData => exact ⟨_, rfl, fun _ => ⟨h.ok, h.sentFin⟩, fun _ => trivial⟩
  | generate mem bytes fill =>
    obtain ⟨h1, h2⟩ := generate_fin sid h mem bytes fill
    exact ⟨_, rfl, fun hg => ⟨finOk_concat.mpr ⟨h.ok, h1.mp hg⟩, h2⟩,
      fun ho => h1.mpr (finOk_concat.mp ho).2⟩

theorem start_fin (cfg : Config) : FinInv (start cfg) := by
  refine ⟨fun past g hp => ?_, ?_⟩
  · have := List.prefix_nil.mp hp
    simp at this
  · show false = true ↔ _
    simp [sentFinIn, start]

/-- **The `FIN` bit is right, exactly along the guarded runs.** -/
theorem fin_ok_iff (cfg : Config) (sid : Nat) (es : List Event) :
    (∀ past, past <+: es → ∃ s, Runs.run (step sid) (start cfg) past = some s ∧ FinOk s) ↔
      Runs.Along (step sid) FinGuarded (start cfg) es :=
  have hok : Runs.Along (step sid) (fun _ _ => True) (start cfg) es :=
    Runs.Along.of_mem (step sid) fun _ _ => trivial
  Runs.always_iff_along (I := FinInv) (fun _ h => h.ok)
    (fun s e h _ hg => by
      obtain ⟨s', hs', hi, _⟩ := step_fin sid e h
      exact ⟨s', hs', hi hg⟩)
    (fun s e s' h _ hs ho => by
      obtain ⟨s1, hs1, _, hg⟩ := step_fin sid e h
      cases hs.symm.trans hs1
      exact hg ho)
    es (start_fin cfg) hok

/-- Three bytes are written, the stream is closed, and all of them fit the next packet: the frame has
no `FIN` bit, and the framer forgets the stream. -/
theorem not_fin_ok :
    ¬ ∀ (cfg : Config) (sid : Nat) (es : List Event), ∀ past, past <+: es →
      ∃ s, Runs.run (step sid) (start cfg) past = some s ∧ FinOk s := by
  intro h
  have hres : (Runs.run (step 4) (start serverCfg) [.write 0 [1, 2, 3], .close,
      .generate .ok 1000 false]).map (fun s => s.results.map fun g =>
        (g.frame.map fun f => hasFin f.firstByte, g.empty, g.stream.send.closed)) =
      some [(some false, true, true)] := by decide +kernel
  obtain ⟨s, hs, ho⟩ := h serverCfg 4 _ _ List.prefix_rfl
  rw [hs, Option.map_some, Option.some_inj] at hres
  obtain ⟨g, hg, hval⟩ := List.map_eq_singleton_iff.mp hres
  simp only [Prod.mk.injEq] at hval
  have hr := (ho [] g (by rw [hg]; exact List.prefix_rfl)).forgotten hval.2.1 hval.2.2
  obtain ⟨g', hg', f, hf, hb⟩ := hr
  rw [List.nil_append, List.mem_singleton] at hg'
  subst hg'
  rw [hf, Option.map_some, hb] at hval
  exact absurd hval.1 (by decide)

end StreamSend
end OpenQuic
