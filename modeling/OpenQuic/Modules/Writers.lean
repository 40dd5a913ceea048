import OpenQuic.Lib.Blocks
import OpenQuic.Modules.StreamSend

/-!
# Several writes on one stream

The coroutines of several `quic_stream_write` requests share `reader_buf` and `reader_len`.

* `State`             the stream, the requests, the frames, and a log of the bytes in the frames, each
                      with the request whose buffer it was copied from;
* `Served`            what is asked of a request that has ended;
* `Guarded`           a request starts with an empty reader, and one that gives up leaves no bytes of
                      another behind;
* `served_run`        along guarded runs every request that has ended is served.
-/

namespace OpenQuic
namespace Writers
open Word Blocks StreamSend

/-! ## runs -/

inductive Phase where
  /-- the coroutine has not run yet -/
  | issued
  | waiting
  /-- `done_cb` was called; `cut` says that the stream was closed or the deadline was over with bytes
  left in the reader -/
  | ended (cut : Bool)
  deriving DecidableEq

structure Request where
  data : List UInt8
  pos : Nat
  phase : Phase

structure State where
  str : Stream
  requests : List Request
  frames : List Frame
  /-- the request whose buffer `reader_buf` points into -/
  owner : Nat
  log : List (Nat × UInt8)

inductive Event where
  /-- `quic_stream_write`, and whether there is memory for the coroutine -/
  | issue (mem : Bool) (data : List UInt8)
  /-- the coroutine of a request starts -/
  | first (i : Nat) (now : Time)
  /-- the coroutine of a request runs on after its wait -/
  | wake (i : Nat) (now : Time)
  | generate (mem : StreamAlloc) (bytes : Nat) (fill : Bool)
  | close
  | setDeadline (deadline : Time)
  | maxStreamData (maxData : Nat)

def State.start (s : State) (i : Nat) (now : Time) (r : Request) : State :=
  let x := s.str.send.write now r.data
  { s with
    str := { s.str with send := x.1 }
    requests := s.requests.set i
      { r with phase := if x.2 then .waiting else .ended (decide (r.data ≠ [])) }
    owner := i }

def State.resume (s : State) (i : Nat) (now : Time) (r : Request) : State :=
  let left := s.str.send.readerLen
  { s with
    str := { s.str with send := s.str.send.woken now }
    requests := s.requests.set i
      { r with
        pos := sub64 r.data.length left
        phase := if s.str.send.stops now then .ended (decide (left ≠ 0)) else .waiting } }

def State.generate (s : State) (g : Generated) : State :=
  { s with
    str := g.stream
    frames := s.frames ++ g.frame.toList
    log := s.log ++ g.frame.elim [] fun f => tag s.owner (segment f).2 }

def step (sid : Nat) (s : State) : Event → Option State
  | .issue mem data =>
    if s.str.send.closed || !mem then some s
    else some { s with requests := s.requests ++ [⟨data, 0, .issued⟩] }
  | .first i now => some <| (s.requests[i]?).elim s fun r =>
      if r.phase = .issued then s.start i now r else s
  | .wake i now => some <| (s.requests[i]?).elim s fun r =>
      if r.phase = .waiting then s.resume i now r else s
  | .generate mem bytes fill => some (s.generate (s.str.generate mem sid bytes fill))
  | .close => some { s with str := { s.str with send := { s.str.send with closed := true } } }
  | .setDeadline deadline =>
    some { s with str := { s.str with send := { s.str.send with deadline := deadline } } }
  | .maxStreamData maxData =>
    some { s with str := { s.str with flowctrl := s.str.flowctrl.updateSwnd maxData } }

def start (cfg : Config) : State := ⟨Stream.create cfg, [], [], 0, []⟩

/-- a length is a word -/
def Event.Fits : Event → Prop
  | .issue _ data => data.length < 2 ^ 64
  | _ => True

/-! ## what is asked -/

/-- A request that has ended: the first `pos` of its bytes stand one after another in the payload, they
are all of its bytes that do, and without a close and a deadline they are all that it has. -/
structure Served (log : List (Nat × UInt8)) (i : Nat) (r : Request) (cut : Bool) : Prop where
  block : Block log i (r.data.take r.pos)
  counted : r.pos = (log.filter fun x => x.1 = i).length
  whole : cut = false → r.pos = r.data.length

structure AllServed (s : State) : Prop where
  payload : (s.frames.map fun f => (segment f).2).flatten = s.log.map Prod.snd
  served : ∀ i r cut, s.requests[i]? = some r → r.phase = .ended cut → Served s.log i r cut

/-- A request starts when the reader is empty, and one that gives up finds the reader empty or its own
bytes in it. -/
def Guarded (s : State) : Event → Prop
  | .first i _ => ∀ r ∈ s.requests[i]?, r.phase = .issued → s.str.send.readerBuf = []
  | .wake i now => ∀ r ∈ s.requests[i]?, r.phase = .waiting → s.str.send.stops now = true →
      s.str.send.readerBuf = [] ∨ s.owner = i
  | _ => True

/-! ## the invariant -/

/-- what the log holds of a request whose bytes are not in the reader -/
structure Settled (log : List (Nat × UInt8)) (i : Nat) (r : Request) : Prop where
  issued : r.phase = .issued → Absent log i ∧ r.pos = 0
  waiting : r.phase = .waiting → Block log i r.data
  ended : ∀ cut, r.phase = .ended cut → Served log i r cut

/-- the request whose bytes are in the reader: those before them end the log -/
structure Reading (s : State) (r : Request) : Prop where
  request : s.requests[s.owner]? = some r
  waiting : r.phase = .waiting
  sent : ∃ bs, r.data = bs ++ s.str.send.readerBuf ∧ Open s.log s.owner bs

structure Inv (s : State) : Prop where
  payload : (s.frames.map fun f => (segment f).2).flatten = s.log.map Prod.snd
  known : ∀ x ∈ s.log, x.1 < s.requests.length
  word : ∀ r ∈ s.requests, r.data.length < 2 ^ 64
  reading : s.str.send.readerBuf ≠ [] → ∃ r, Reading s r
  settled : ∀ i r, s.requests[i]? = some r → (s.str.send.readerBuf = [] ∨ s.owner ≠ i) →
    Settled s.log i r

theorem start_inv (cfg : Config) : Inv (start cfg) where
  payload := rfl
  known := nofun
  word := nofun
  reading := fun h => absurd rfl h
  settled := nofun

/-- no request that has ended has bytes in the reader -/
theorem Inv.allServed {s : State} (hi : Inv s) : AllServed s := by
  refine ⟨hi.payload, fun i r cut hr hended => ?_⟩
  refine (hi.settled i r hr ?_).ended cut hended
  by_cases hbuf : s.str.send.readerBuf = []
  · exact Or.inl hbuf
  · refine Or.inr fun howner => ?_
    obtain ⟨r', hr'⟩ := hi.reading hbuf
    have hsame := hr'.request
    rw [howner, hr] at hsame
    rw [Option.some.inj hsame, hr'.waiting] at hended
    cases hended

/-! ## the steps -/

/-- bytes of another request settle nothing anew -/
theorem Settled.other {log : List (Nat × UInt8)} {i j : Nat} {r : Request} (h : Settled log i r)
    (hne : j ≠ i) (bs : List UInt8) : Settled (log ++ tag j bs) i r := by
  refine ⟨fun hp => ⟨(h.issued hp).1.append (absent_tag hne bs), (h.issued hp).2⟩,
    fun hp => (h.waiting hp).other hne bs, fun cut hp => ?_⟩
  have hs := h.ended cut hp
  have hblock := hs.block.other hne bs
  refine ⟨hblock, ?_, hs.whole⟩
  rw [hblock.count, ← hs.block.count]
  exact hs.counted

/-- a request with its first `pos` bytes in one block is served -/
theorem served_of_block {log : List (Nat × UInt8)} {i : Nat} {r : Request} {cut : Bool}
    (h : Block log i (r.data.take r.pos)) (hle : r.pos ≤ r.data.length)
    (hw : cut = false → r.pos = r.data.length) : Served log i r cut := by
  refine ⟨h, ?_, hw⟩
  rw [h.count, List.length_take, Nat.min_eq_left hle]

theorem settled_ended {log : List (Nat × UInt8)} {i : Nat} {r : Request} {cut : Bool}
    (hp : r.phase = .ended cut) (h : Served log i r cut) : Settled log i r := by
  refine ⟨fun hp' => ?_, fun hp' => ?_, fun cut' hp' => ?_⟩ <;> rw [hp] at hp'
  · cases hp'
  · cases hp'
  · cases hp'
    exact h

/-- a new request has no bytes anywhere -/
theorem issue_inv {s : State} (hi : Inv s) {data : List UInt8} (hlen : data.length < 2 ^ 64) :
    Inv { s with requests := s.requests ++ [⟨data, 0, .issued⟩] } where
  payload := hi.payload
  known := fun x hx => by
    rw [List.length_append]
    exact Nat.lt_of_lt_of_le (hi.known x hx) (Nat.le_add_right _ _)
  word := fun r hr => by
    rcases List.mem_append.mp hr with hr | hr
    · exact hi.word r hr
    · rw [List.mem_singleton.mp hr]
      exact hlen
  reading := fun hbuf => by
    obtain ⟨r, hr⟩ := hi.reading hbuf
    refine ⟨r, ⟨?_, hr.waiting, hr.sent⟩⟩
    have hlt := (List.getElem?_eq_some_iff.mp hr.request).1
    exact (List.getElem?_append_left hlt).trans hr.request
  settled := fun i r hr hout => by
    have hr : (s.requests ++ [⟨data, 0, .issued⟩])[i]? = some r := hr
    rcases Nat.lt_or_ge i s.requests.length with hlt | hge
    · rw [List.getElem?_append_left hlt] at hr
      exact hi.settled i r hr hout
    · rw [List.getElem?_append_right hge] at hr
      obtain rfl := List.mem_singleton.mp (List.mem_of_getElem? hr)
      refine ⟨fun _ => ⟨fun x hx he => ?_, rfl⟩, nofun, nofun⟩
      have := hi.known x hx
      omega

theorem set_cases {l : List Request} {i j : Nat} {r q : Request} (h : (l.set i r)[j]? = some q) :
    (i = j ∧ q = r) ∨ (i ≠ j ∧ l[j]? = some q) := by
  rw [List.getElem?_set] at h
  by_cases hij : i = j
  · rw [if_pos hij] at h
    split at h
    · exact Or.inl ⟨hij, (Option.some.inj h).symm⟩
    · cases h
  · rw [if_neg hij] at h
    exact Or.inr ⟨hij, h⟩

theorem word_set {l : List Request} {i : Nat} {r r' : Request} (hw : ∀ q ∈ l, q.data.length < 2 ^ 64)
    (hr : l[i]? = some r) (hd : r'.data = r.data) : ∀ q ∈ l.set i r', q.data.length < 2 ^ 64 := by
  intro q hq
  rcases List.mem_or_eq_of_mem_set hq with hq | rfl
  · exact hw q hq
  · rw [hd]
    exact hw r (List.mem_of_getElem? hr)

/-- a request that waits has bytes to send -/
theorem write_waits (send : SendStream) (now : Time) (data : List UInt8)
    (h : (send.write now data).2 = true) : data ≠ [] := by
  rintro rfl
  have hstops : SendStream.stops { send with readerBuf := [] } now = true := by
    unfold SendStream.stops
    simp [SendStream.readerLen]
  unfold SendStream.write at h
  dsimp only at h
  rw [if_pos hstops] at h
  cases h

/-- a request starts while the reader is empty -/
theorem start_step {s : State} (hi : Inv s) {i : Nat} {now : Time} {r : Request}
    (hr : s.requests[i]? = some r) (hp : r.phase = .issued) (hbuf : s.str.send.readerBuf = []) :
    Inv (s.start i now r) := by
  obtain ⟨habsent, hpos⟩ := (hi.settled i r hr (Or.inl hbuf)).issued hp
  have hknown : ∀ x ∈ s.log, ∀ r', x.1 < (s.requests.set i r').length := fun x hx r' => by
    rw [List.length_set]
    exact hi.known x hx
  have hlt := (List.getElem?_eq_some_iff.mp hr).1
  unfold State.start
  dsimp only
  have hwaits := write_waits s.str.send now r.data
  rcases write_cases s.str.send now r.data with hw | hw <;> rw [hw] at hwaits ⊢
  · refine ⟨hi.payload, fun x hx => hknown x hx _, word_set hi.word hr rfl,
      fun hne => absurd rfl hne, fun j q hq _ => ?_⟩
    rcases set_cases hq with ⟨rfl, rfl⟩ | ⟨hij, hq⟩
    · refine settled_ended rfl (served_of_block ?_ ?_ fun hcut => ?_)
      · show Block s.log i (r.data.take r.pos)
        rw [hpos, List.take_zero]
        exact habsent.opened.block
      · show r.pos ≤ r.data.length
        rw [hpos]
        exact Nat.zero_le _
      · show r.pos = r.data.length
        have hnil : r.data = [] := by simpa using hcut
        rw [hpos, hnil]
        rfl
    · exact hi.settled j q hq (Or.inl hbuf)
  · have hne : r.data ≠ [] := hwaits rfl
    refine ⟨hi.payload, fun x hx => hknown x hx _, word_set hi.word hr rfl, fun _ => ?_,
      fun j q hq hout => ?_⟩
    · exact ⟨_, List.getElem?_set_self hlt, rfl, [], rfl, habsent.opened⟩
    · have hij : i ≠ j := hout.resolve_left hne
      rcases set_cases hq with ⟨heq, _⟩ | ⟨_, hq⟩
      · exact absurd heq hij
      · exact hi.settled j q hq (Or.inl hbuf)

theorem woken_cases (send : SendStream) (now : Time) :
    (send.stops now = true ∧ send.woken now = { send with readerBuf := [] }) ∨
      (send.stops now = false ∧ send.woken now = send) := by
  unfold SendStream.woken
  cases send.stops now with
  | true => exact Or.inl ⟨rfl, rfl⟩
  | false => exact Or.inr ⟨rfl, rfl⟩

theorem stops_of_empty {send : SendStream} (h : send.readerBuf = []) (now : Time) :
    send.stops now = true := by
  unfold SendStream.stops
  simp [SendStream.readerLen, h]

/-- the request whose bytes are in the reader is the one with the index of the owner -/
theorem Reading.unique {s : State} {i : Nat} {r q : Request} (h : Reading s q) (howner : s.owner = i)
    (hr : s.requests[i]? = some r) : q = r := by
  have hq := h.request
  rw [howner, hr] at hq
  exact (Option.some.inj hq).symm

/-- a request runs on while the reader is empty: all its bytes are sent, and it ends -/
theorem resume_empty {s : State} (hi : Inv s) {i : Nat} {now : Time} {r : Request}
    (hr : s.requests[i]? = some r) (hp : r.phase = .waiting) (hbuf : s.str.send.readerBuf = []) :
    Inv (s.resume i now r) := by
  have hblock := (hi.settled i r hr (Or.inl hbuf)).waiting hp
  have hleft : s.str.send.readerLen = 0 := by rw [SendStream.readerLen, hbuf, List.length_nil]
  have hpos : sub64 r.data.length 0 = r.data.length :=
    sub64_of_le (Nat.zero_le _) (hi.word r (List.mem_of_getElem? hr))
  unfold State.resume
  dsimp only
  rw [hleft, hpos, stops_of_empty hbuf now]
  have hwoken : (s.str.send.woken now).readerBuf = [] := by
    rcases woken_cases s.str.send now with ⟨_, hw⟩ | ⟨_, hw⟩ <;> rw [hw]
    exact hbuf
  refine ⟨hi.payload, fun x hx => ?_, word_set hi.word hr rfl, fun hne => absurd hwoken hne,
    fun j q hq _ => ?_⟩
  · rw [List.length_set]
    exact hi.known x hx
  · rcases set_cases hq with ⟨rfl, rfl⟩ | ⟨hij, hq⟩
    · refine settled_ended rfl (served_of_block ?_ (Nat.le_refl _) fun _ => rfl)
      show Block s.log i (r.data.take r.data.length)
      rw [List.take_length]
      exact hblock
    · exact hi.settled j q hq (Or.inl hbuf)

/-- a request gives up with bytes of its own in the reader -/
theorem resume_cut {s : State} (hi : Inv s) {i : Nat} {now : Time} {r : Request}
    (hr : s.requests[i]? = some r) (hbuf : s.str.send.readerBuf ≠ []) (howner : s.owner = i)
    (hstops : s.str.send.stops now = true) : Inv (s.resume i now r) := by
  obtain ⟨q, hq⟩ := hi.reading hbuf
  obtain rfl := hq.unique howner hr
  obtain ⟨bs, hdata, hopen⟩ := hq.sent
  have hword := hi.word q (List.mem_of_getElem? hr)
  have hlen : q.data.length = bs.length + s.str.send.readerLen := by
    rw [hdata, List.length_append]
    rfl
  have hleft : s.str.send.readerLen ≠ 0 := fun h0 => hbuf (List.eq_nil_of_length_eq_zero h0)
  have hpos : sub64 q.data.length s.str.send.readerLen = bs.length := by
    rw [sub64_of_le (by omega) hword, hlen, Nat.add_sub_cancel]
  unfold State.resume
  dsimp only
  rw [hpos, hstops, decide_eq_true hleft]
  have hwoken : (s.str.send.woken now).readerBuf = [] := by
    rcases woken_cases s.str.send now with ⟨_, hw⟩ | ⟨hs, _⟩
    · rw [hw]
    · exact absurd (hstops.symm.trans hs) (by decide)
  refine ⟨hi.payload, fun x hx => ?_, word_set hi.word hr rfl, fun hne => absurd hwoken hne,
    fun j p hp _ => ?_⟩
  · rw [List.length_set]
    exact hi.known x hx
  · rcases set_cases hp with ⟨rfl, rfl⟩ | ⟨hij, hp⟩
    · refine settled_ended rfl (served_of_block ?_ ?_ nofun)
      · show Block s.log i (q.data.take bs.length)
        rw [hdata, List.take_left, ← howner]
        exact hopen.block
      · show bs.length ≤ q.data.length
        omega
    · exact hi.settled j p hp (Or.inr fun h => hij (howner.symm.trans h))

/-- a request waits again -/
theorem resume_wait {s : State} (hi : Inv s) {i : Nat} {now : Time} {r : Request}
    (hr : s.requests[i]? = some r) (hp : r.phase = .waiting)
    (hstops : s.str.send.stops now = false) : Inv (s.resume i now r) := by
  have hlt := (List.getElem?_eq_some_iff.mp hr).1
  unfold State.resume
  dsimp only
  rw [hstops]
  have hwoken : s.str.send.woken now = s.str.send := by
    rcases woken_cases s.str.send now with ⟨hs, _⟩ | ⟨_, hw⟩
    · exact absurd (hstops.symm.trans hs) (by decide)
    · exact hw
  rw [hwoken]
  refine ⟨hi.payload, fun x hx => ?_, word_set hi.word hr rfl, fun hne => ?_, fun j q hq hout => ?_⟩
  · rw [List.length_set]
    exact hi.known x hx
  · obtain ⟨q, hq⟩ := hi.reading hne
    by_cases howner : s.owner = i
    · obtain rfl := hq.unique howner hr
      let q' : Request :=
        { q with pos := sub64 q.data.length s.str.send.readerLen, phase := .waiting }
      have hset : (s.requests.set i q')[s.owner]? = some q' := by
        rw [howner]
        exact List.getElem?_set_self hlt
      exact ⟨q', hset, rfl, hq.sent⟩
    · refine ⟨q, ?_, hq.waiting, hq.sent⟩
      exact (List.getElem?_set_ne (Ne.symm howner)).trans hq.request
  · rcases set_cases hq with ⟨rfl, rfl⟩ | ⟨_, hq⟩
    · have hblock := (hi.settled i r hr hout).waiting hp
      exact ⟨nofun, fun _ => hblock, nofun⟩
    · exact hi.settled j q hq hout

/-- bytes move from the reader to the end of the log -/
theorem generate_step {s : State} (hi : Inv s) {sid n : Nat} {fill : Bool} {g : Generated}
    (hm : Made sid n fill s.str g) : Inv (s.generate g) := by
  have hlog : (s.generate g).log = s.log ++ tag s.owner (s.str.send.readerBuf.take n) := by
    unfold State.generate
    rw [hm.frame]
    rfl
  have hframes : (s.generate g).frames.map (fun f => (segment f).2) =
      s.frames.map (fun f => (segment f).2) ++ [s.str.send.readerBuf.take n] := by
    unfold State.generate
    rw [hm.frame, Option.toList_some, List.map_append]
    rfl
  have hreader : (s.generate g).str.send.readerBuf = s.str.send.readerBuf.drop n := hm.reader
  by_cases hbuf : s.str.send.readerBuf = []
  · -- a frame without payload
    rw [hbuf, List.take_nil] at hlog hframes
    rw [hbuf, List.drop_nil] at hreader
    have hlog : (s.generate g).log = s.log := hlog.trans (List.append_nil _)
    refine ⟨?_, ?_, hi.word, fun hne => absurd hreader hne, fun j q hq _ => ?_⟩
    · rw [hframes, List.flatten_append, hi.payload, hlog]
      exact List.append_nil _
    · rw [hlog]
      exact hi.known
    · rw [hlog]
      exact hi.settled j q hq (Or.inl hbuf)
  · obtain ⟨r, hr⟩ := hi.reading hbuf
    obtain ⟨bs, hdata, hopen⟩ := hr.sent
    have hopen' : Open (s.generate g).log s.owner (bs ++ s.str.send.readerBuf.take n) := by
      rw [hlog]
      exact hopen.extend _
    refine ⟨?_, ?_, hi.word, fun _ => ?_, fun j q hq hout => ?_⟩
    · rw [hframes, List.flatten_append, hi.payload, hlog, List.map_append, map_snd_tag]
      exact congrArg _ (List.append_nil _)
    · rw [hlog]
      intro x hx
      rcases List.mem_append.mp hx with hx | hx
      · exact hi.known x hx
      · rw [mem_tag hx]
        exact (List.getElem?_eq_some_iff.mp hr.request).1
    · refine ⟨r, hr.request, hr.waiting, _, ?_, hopen'⟩
      rw [hreader, List.append_assoc, List.take_append_drop]
      exact hdata
    · by_cases hj : s.owner = j
      · -- the last bytes of the owner
        obtain rfl := hr.unique hj hq
        have hempty := hout.resolve_right (fun h => h hj)
        rw [hreader, List.drop_eq_nil_iff] at hempty
        rw [List.take_of_length_le hempty, ← hdata, hj] at hopen'
        exact ⟨fun hp => absurd (hr.waiting.symm.trans hp) nofun, fun _ => hopen'.block,
          fun cut hp => absurd (hr.waiting.symm.trans hp) nofun⟩
      · rw [hlog]
        exact (hi.settled j q hq (Or.inr hj)).other hj _

/-- what leaves the reader alone leaves the rest as it is -/
theorem inv_of_reader {s : State} (hi : Inv s) {str : Stream}
    (h : str.send.readerBuf = s.str.send.readerBuf) : Inv { s with str := str } := by
  refine ⟨hi.payload, hi.known, hi.word, fun hne => ?_, fun j q hq hout => ?_⟩
  · have hne : str.send.readerBuf ≠ [] := hne
    obtain ⟨r, hr⟩ := hi.reading (h ▸ hne)
    obtain ⟨bs, hdata, hopen⟩ := hr.sent
    exact ⟨r, hr.request, hr.waiting, bs, hdata.trans (congrArg (bs ++ ·) h.symm), hopen⟩
  · have hout : str.send.readerBuf = [] ∨ s.owner ≠ j := hout
    exact hi.settled j q hq (h ▸ hout)

theorem wake_step {s : State} (hi : Inv s) {i : Nat} {now : Time} {r : Request}
    (hr : s.requests[i]? = some r) (hp : r.phase = .waiting)
    (hg : s.str.send.stops now = true → s.str.send.readerBuf = [] ∨ s.owner = i) :
    Inv (s.resume i now r) := by
  by_cases hbuf : s.str.send.readerBuf = []
  · exact resume_empty hi hr hp hbuf
  · cases hstops : s.str.send.stops now with
    | true => exact resume_cut hi hr hbuf ((hg hstops).resolve_left hbuf) hstops
    | false => exact resume_wait hi hr hp hstops

theorem step_inv {sid : Nat} {s s' : State} {e : Event} (hi : Inv s) (hf : e.Fits)
    (hg : Guarded s e) (h : step sid s e = some s') : Inv s' := by
  cases e with
  | issue mem data =>
    rw [step] at h
    split at h <;> rw [← Option.some.inj h]
    · exact hi
    · exact issue_inv hi hf
  | first i now =>
    rw [← Option.some.inj h]
    cases hr : s.requests[i]? with
    | none => exact hi
    | some r =>
      rw [Option.elim_some]
      split
      · rename_i hp
        exact start_step hi hr hp (hg r hr hp)
      · exact hi
  | wake i now =>
    rw [← Option.some.inj h]
    cases hr : s.requests[i]? with
    | none => exact hi
    | some r =>
      rw [Option.elim_some]
      split
      · rename_i hp
        exact wake_step hi hr hp (hg r hr hp)
      · exact hi
  | generate mem bytes fill =>
    rw [← Option.some.inj h]
    rcases generate_cases mem s.str sid bytes fill with ⟨hnone, _, hsend, _⟩ | ⟨_, hm⟩
    · have hgen : s.generate (s.str.generate mem sid bytes fill) =
          { s with str := (s.str.generate mem sid bytes fill).stream } := by
        unfold State.generate
        rw [hnone, Option.toList_none, Option.elim_none, List.append_nil, List.append_nil]
      rw [hgen]
      exact inv_of_reader hi (congrArg SendStream.readerBuf hsend)
    · exact generate_step hi hm
  | _ =>
    rw [← Option.some.inj h]
    exact inv_of_reader hi rfl

theorem step_isSome (sid : Nat) (s : State) (e : Event) : ∃ s', step sid s e = some s' := by
  cases e with
  | issue mem data =>
    rw [step]
    split <;> exact ⟨_, rfl⟩
  | _ => exact ⟨_, rfl⟩

/-- **Every request is served.**  In a guarded run the bytes of each request that has ended stand
one after another in the payload, and its position counts them. -/
theorem served_run (cfg : Config) (sid : Nat) (es : List Event) (hf : ∀ e ∈ es, e.Fits)
    (hg : Runs.Along (step sid) Guarded (start cfg) es) :
    ∃ s, Runs.run (step sid) (start cfg) es = some s ∧ AllServed s := by
  obtain ⟨s, hs, hi⟩ := Runs.run_inv (I := fun _ s => Inv s) (start_inv cfg)
    (fun _ s e hi hge => by
      obtain ⟨s', hs'⟩ := step_isSome sid s e
      exact ⟨s', hs', step_inv hi hge.1 hge.2 hs'⟩) es (hg.and_mem _ hf)
  exact ⟨s, hs, hi.allServed⟩

instance decidableFits : (e : Event) → Decidable e.Fits
  | .issue _ data => inferInstanceAs (Decidable (data.length < 2 ^ 64))
  | .first _ _ | .wake _ _ | .generate _ _ _ | .close | .setDeadline _ | .maxStreamData _ =>
    isTrue trivial

instance decidableGuarded (s : State) : (e : Event) → Decidable (Guarded s e)
  | .first i _ => inferInstanceAs (Decidable (∀ r ∈ s.requests[i]?, _ = _ → _ = _))
  | .wake i _ => inferInstanceAs (Decidable (∀ r ∈ s.requests[i]?, _ = _ → _ = _ → _ = _ ∨ _ = i))
  | .issue _ _ | .generate _ _ _ | .close | .setDeadline _ | .maxStreamData _ => isTrue trivial

/-- the second request starts when the bytes of the first are sent, and before the first has ended -/
def overlapping : List Event :=
  [.issue true [1, 2, 3], .issue true [4], .first 0 1, .generate .ok 100 false, .first 1 1,
    .wake 0 2, .generate .ok 100 false, .wake 0 3, .wake 1 3]

theorem served_run_overlapping : (∀ e ∈ overlapping, e.Fits) ∧
    Runs.Along (step 4) Guarded (start serverCfg) overlapping ∧
    ∃ s, Runs.run (step 4) (start serverCfg) overlapping = some s ∧ AllServed s := by
  have hf : ∀ e ∈ overlapping, e.Fits := by decide
  have hg : Runs.Along (step 4) Guarded (start serverCfg) overlapping := by decide +kernel
  exact ⟨hf, hg, served_run serverCfg 4 overlapping hf hg⟩

/-- A request starts while the bytes of another wait: the other reports all its bytes as sent, and
none of them is. -/
theorem not_served_run : ¬ ∀ (cfg : Config) (sid : Nat) (es : List Event), (∀ e ∈ es, e.Fits) →
    ∃ s, Runs.run (step sid) (start cfg) es = some s ∧ AllServed s := by
  intro h
  obtain ⟨s, hs, hall⟩ := h serverCfg 4 [.issue true [1, 2], .issue true [3], .first 0 1, .first 1 1,
    .generate .ok 100 false, .wake 0 2] (by decide)
  have hrun : (Runs.run (step 4) (start serverCfg) [.issue true [1, 2], .issue true [3], .first 0 1,
      .first 1 1, .generate .ok 100 false, .wake 0 2]).map (fun s =>
        (s.requests[0]?.map fun r => (r.phase, r.pos), s.log)) =
      some (some (.ended false, 2), [(1, 3)]) := by decide +kernel
  rw [hs, Option.map_some] at hrun
  obtain ⟨hreq, hlog⟩ := Prod.mk.inj (Option.some.inj hrun)
  obtain ⟨r, hr, hv⟩ := Option.map_eq_some_iff.mp hreq
  obtain ⟨hphase, hpos⟩ := Prod.mk.inj hv
  have hcounted := (hall.served 0 r false hr hphase).counted
  rw [hpos, hlog] at hcounted
  exact absurd hcounted (by decide)

end Writers
end OpenQuic
