import OpenQuic.Lib.Runs
import OpenQuic.Modules.Stream

/-!
# The receive windows

The runs of reads at the connection's flow control and at that of one stream.

* `ConnWindow.Roomy`     more than three quarters of the window are left, or it was renewed;
* `ConnWindow.Guarded`   a read that leaves enough, or one that the code renews the window for without
                         halving it;
* `ConnWindow.window_iff`   the guarded runs are those in which the connection's window is right;
* `StreamWindow.Guarded`   the products and sums of a read that has to renew the window fit;
* `StreamWindow.window_run`   along guarded runs the stream's window is right.
-/

namespace OpenQuic
open Word

/-- the product of the code's test is at most three quarters of the size -/
theorem three_quarters (s : Nat) : mul64 s 3 / 4 ≤ 3 * s / 4 := by
  rw [Nat.mul_comm 3 s]
  exact Nat.div_le_div_right (Nat.mod_le _ _)

/-! ## the connection -/

namespace ConnWindow

structure CfgOk (cfg : Config) : Prop where
  initial_pos : 0 < cfg.connFlowctrlInitialRwnd
  initial_lt : cfg.connFlowctrlInitialRwnd < 2 ^ 64
  max_pos : 0 < cfg.connFlowctrlMaxRwndSize
  max_lt : cfg.connFlowctrlMaxRwndSize < 2 ^ 64

inductive Event where
  | read (bytes rtt now : Nat)
  | ensureMinRwndSize (rwndSize now : Nat)

def step (cfg : Config) (m : ConnFlowctrl) : Event → Option ConnFlowctrl
  | .read bytes rtt now => m.read cfg rtt now bytes
  | .ensureMinRwndSize rwndSize now => some (m.ensureMinRwndSize cfg now rwndSize)

/-- the record with the bytes of a read counted -/
def counted (m : ConnFlowctrl) (now bytes : Nat) : ConnFlowctrl :=
  let m := if m.readOff = 0 then { m with epochOff := 0, epochTime := now } else m
  { m with readOff := add64 m.readOff bytes }

/-- the test before the window is adjusted -/
def Asks (m : ConnFlowctrl) : Prop := sub64 m.rwnd m.readOff ≤ mul64 m.rwndSize 3 / 4

/-- what is left is more than three quarters of the size -/
def Enough (m : ConnFlowctrl) : Prop :=
  m.readOff ≤ m.rwnd ∧ 3 * m.rwndSize / 4 < m.rwnd - m.readOff

def Roomy (m : ConnFlowctrl) : Prop := Enough m ∨ m.rwnd = m.readOff + m.rwndSize

/-- neither the limit nor the size falls -/
structure Grows (m m' : ConnFlowctrl) : Prop where
  rwnd : m.rwnd ≤ m'.rwnd
  rwndSize : m.rwndSize ≤ m'.rwndSize

/-- a read: the difference to the start of the epoch does not wrap when it is taken, and the window
is right then -/
structure ReadOk (cfg : Config) (m : ConnFlowctrl) (bytes rtt now : Nat) : Prop where
  result : ∃ m', m.read cfg rtt now bytes = some m' ∧ Grows m m' ∧ Roomy m'
  epoch : Asks (counted m now bytes) →
    (counted m now bytes).epochOff ≤ (counted m now bytes).readOff

def StepOk (cfg : Config) (m : ConnFlowctrl) : Event → Prop
  | .read bytes rtt now => ReadOk cfg m bytes rtt now
  | .ensureMinRwndSize rwndSize now => Grows m (m.ensureMinRwndSize cfg now rwndSize)

/-- more than half of the size was read since the epoch started, the reader is not taken for a fast
one, and the new limit fits -/
structure Renews (m : ConnFlowctrl) (rtt now : Nat) : Prop where
  asks : Asks m
  epoch : m.epochOff ≤ m.readOff
  half : m.rwndSize / 2 < m.readOff - m.epochOff
  sampled : rtt ≠ 0
  slow : m.fastReader rtt now = false
  fits : m.readOff + m.rwndSize < 2 ^ 64

def Guarded (m : ConnFlowctrl) : Event → Prop
  | .read bytes rtt now => Enough (counted m now bytes) ∨ Renews (counted m now bytes) rtt now
  | .ensureMinRwndSize _ _ => True

/-- the size is the configured one all along -/
structure Inv (cfg : Config) (m : ConnFlowctrl) : Prop where
  size : m.rwndSize = cfg.connFlowctrlMaxRwndSize
  rwnd_lt : m.rwnd < 2 ^ 64

theorem read_eq (cfg : Config) (rtt now : Nat) (m : ConnFlowctrl) (bytes : Nat) :
    m.read cfg rtt now bytes =
      if sub64 (counted m now bytes).rwnd (counted m now bytes).readOff ≤
          mul64 (counted m now bytes).rwndSize 3 / 4 then
        (ConnFlowctrl.adjustRwnd cfg rtt now (counted m now bytes)).map ConnFlowctrl.updateRwnd
      else some (counted m now bytes) := rfl

theorem counted_spec (m : ConnFlowctrl) (now bytes : Nat) :
    (counted m now bytes).rwnd = m.rwnd ∧ (counted m now bytes).rwndSize = m.rwndSize ∧
      (counted m now bytes).readOff = add64 m.readOff bytes := by
  unfold counted
  dsimp only
  split <;> exact ⟨rfl, rfl, rfl⟩

/-- with enough left the window is not adjusted -/
theorem Enough.not_asks {m : ConnFlowctrl} (h : Enough m) (hlt : m.rwnd < 2 ^ 64) : ¬ Asks m := by
  unfold Asks
  rw [sub64_of_le h.1 hlt]
  have hq := three_quarters m.rwndSize
  have hm := h.2
  omega

theorem Inv.init {cfg : Config} (hcfg : CfgOk cfg) : Inv cfg (ConnFlowctrl.init cfg) :=
  ⟨rfl, hcfg.initial_lt⟩

theorem Inv.counted {cfg : Config} {m : ConnFlowctrl} (hi : Inv cfg m) (now bytes : Nat) :
    Inv cfg (counted m now bytes) := by
  obtain ⟨h1, h2, _⟩ := counted_spec m now bytes
  exact ⟨h2.trans hi.size, h1 ▸ hi.rwnd_lt⟩

/-- a window that is renewed -/
theorem Renews.adjust {cfg : Config} {rtt now : Nat} {m : ConnFlowctrl} (hr : Renews m rtt now)
    (hpos : 0 < m.rwndSize) : ConnFlowctrl.adjustRwnd cfg rtt now m =
      some { m with
        epochTime := now
        epochOff := m.readOff
        rwnd := m.readOff + m.rwndSize } := by
  have hsub : sub64 m.readOff m.epochOff = m.readOff - m.epochOff :=
    sub64_of_le hr.epoch (by have := hr.fits; omega)
  unfold ConnFlowctrl.adjustRwnd
  dsimp only
  rw [hsub, if_neg (not_or.mpr ⟨Nat.not_le.mpr hr.half, hr.sampled⟩), if_neg hpos.ne', hr.slow,
    if_neg Bool.false_ne_true, add64_of_lt hr.fits]

/-- what an adjustment does that does not renew the window: nothing, or it halves the size -/
theorem adjust_cases {cfg : Config} {rtt now : Nat} {m m' : ConnFlowctrl}
    (h : ConnFlowctrl.adjustRwnd cfg rtt now m = some m') :
    (m' = m ∧ (sub64 m.readOff m.epochOff ≤ m.rwndSize / 2 ∨ rtt = 0)) ∨
      (m.fastReader rtt now = true ∧ m'.rwndSize = min (m.rwndSize / 2) cfg.connFlowctrlMaxRwndSize) ∨
      (m.fastReader rtt now = false ∧ ¬ (sub64 m.readOff m.epochOff ≤ m.rwndSize / 2 ∨ rtt = 0) ∧
        m'.rwnd = add64 m.readOff m.rwndSize ∧ m'.readOff = m.readOff ∧ m'.rwndSize = m.rwndSize) := by
  unfold ConnFlowctrl.adjustRwnd at h
  split at h
  · rename_i hearly
    exact Or.inl ⟨(Option.some.inj h).symm, hearly⟩
  · rename_i hlate
    split at h
    · cases h
    · rw [← Option.some.inj h]
      cases hfast : m.fastReader rtt now with
      | true => exact Or.inr (Or.inl ⟨rfl, rfl⟩)
      | false => exact Or.inr (Or.inr ⟨rfl, hlate, rfl, rfl, rfl⟩)

theorem add64_lt_left {a b : Nat} (ha : a < 2 ^ 64) (hb : b < 2 ^ 64) (h : 2 ^ 64 ≤ a + b) :
    add64 a b < a := by
  show (a + b) % 2 ^ 64 < a
  omega

theorem roomy_enough {m : ConnFlowctrl} (hpos : 0 < m.rwndSize) (h : Roomy m) : Enough m := by
  rcases h with h | h
  · exact h
  · refine ⟨?_, ?_⟩ <;> omega

/-- the window that a renewal leaves is not below the old one -/
theorem Asks.rwnd_le {m : ConnFlowctrl} (h : Asks m) (hlt : m.rwnd < 2 ^ 64) :
    m.rwnd ≤ m.readOff + m.rwndSize := by
  by_contra hover
  unfold Asks at h
  rw [sub64_of_le (by omega) hlt] at h
  have hq := three_quarters m.rwndSize
  omega

/-- a read that is guarded keeps the size, and does what is asked of it -/
theorem read_guarded {cfg : Config} (hcfg : CfgOk cfg) {m : ConnFlowctrl} (hi : Inv cfg m)
    {bytes rtt now : Nat} (hg : Guarded m (.read bytes rtt now)) :
    ReadOk cfg m bytes rtt now ∧ ∀ m', m.read cfg rtt now bytes = some m' → Inv cfg m' := by
  obtain ⟨h1, h2, _⟩ := counted_spec m now bytes
  have hic := hi.counted now bytes
  have hpos : 0 < (counted m now bytes).rwndSize := hic.size ▸ hcfg.max_pos
  rcases hg with hen | hre
  · have hnot : ¬ Asks (counted m now bytes) := hen.not_asks hic.rwnd_lt
    have hread : m.read cfg rtt now bytes = some (counted m now bytes) := by
      rw [read_eq]
      exact if_neg hnot
    refine ⟨⟨⟨_, hread, ⟨h1.ge, h2.ge⟩, Or.inl hen⟩, fun h => absurd h hnot⟩, fun m' hm' => ?_⟩
    rw [← Option.some.inj (hread.symm.trans hm')]
    exact hic
  · have hread := (read_eq cfg rtt now m bytes).trans (if_pos hre.asks)
    rw [hre.adjust hpos, Option.map_some] at hread
    have hle := hre.asks.rwnd_le hic.rwnd_lt
    refine ⟨⟨⟨_, hread, ⟨?_, h2.ge⟩, Or.inr rfl⟩, fun _ => hre.epoch⟩, fun m' hm' => ?_⟩
    · exact h1 ▸ hle
    · rw [← Option.some.inj (hread.symm.trans hm')]
      exact ⟨hic.size, hre.fits⟩

/-- a read that does what is asked of it is guarded -/
theorem guarded_of_readOk {cfg : Config} (hcfg : CfgOk cfg) {m : ConnFlowctrl} (hi : Inv cfg m)
    {bytes rtt now : Nat} (h : ReadOk cfg m bytes rtt now) : Guarded m (.read bytes rtt now) := by
  obtain ⟨⟨m', hread, hgrow, hroom⟩, hepoch⟩ := h
  obtain ⟨_, h2, h3⟩ := counted_spec m now bytes
  have hic := hi.counted now bytes
  have hpos : 0 < (counted m now bytes).rwndSize := hic.size ▸ hcfg.max_pos
  have hlt : (counted m now bytes).readOff < 2 ^ 64 := h3 ▸ Word.add_lt 64 _ _
  have hsize := hgrow.rwndSize
  rw [← h2] at hsize
  rw [read_eq] at hread
  clear hgrow h2 h3
  show Enough (counted m now bytes) ∨ Renews (counted m now bytes) rtt now
  generalize counted m now bytes = c at *
  by_cases hasks : Asks c
  · rw [if_pos (show sub64 c.rwnd c.readOff ≤ mul64 c.rwndSize 3 / 4 from hasks)] at hread
    obtain ⟨m1, hm1, rfl⟩ := Option.map_eq_some_iff.mp hread
    rcases adjust_cases hm1 with ⟨rfl, _⟩ | ⟨_, hhalf⟩ | ⟨hslow, hlate, hrwnd, hoff, hsz⟩
    · exact absurd hasks ((roomy_enough hpos hroom).not_asks hic.rwnd_lt)
    · have hsize : c.rwndSize ≤ m1.rwndSize := hsize
      rw [hhalf] at hsize
      omega
    · obtain ⟨hnl, hrtt⟩ := not_or.mp hlate
      have he := hepoch hasks
      rw [sub64_of_le he hlt] at hnl
      refine Or.inr ⟨hasks, he, Nat.not_le.mp hnl, hrtt, hslow, ?_⟩
      by_contra hwrap
      -- a limit that has wrapped is below what was read
      have hlow : m1.rwnd < m1.readOff := by
        rw [hrwnd, hoff]
        exact add64_lt_left hlt (hic.size ▸ hcfg.max_lt) (Nat.not_lt.mp hwrap)
      have hle := (roomy_enough (m := ConnFlowctrl.updateRwnd m1) (hsz ▸ hpos) hroom).1
      exact absurd hle (Nat.not_le.mpr hlow)
  · rw [if_neg (show ¬ sub64 c.rwnd c.readOff ≤ mul64 c.rwndSize 3 / 4 from hasks)] at hread
    rw [← Option.some.inj hread] at hroom
    exact Or.inl (roomy_enough hpos hroom)

theorem stepOk_iff {cfg : Config} (hcfg : CfgOk cfg) {m : ConnFlowctrl} {e : Event} (hi : Inv cfg m) :
    StepOk cfg m e ↔ Guarded m e := by
  cases e with
  | read bytes rtt now =>
    exact ⟨guarded_of_readOk hcfg hi, fun hg => (read_guarded hcfg hi hg).1⟩
  | ensureMinRwndSize rwndSize now =>
    refine iff_of_true ?_ trivial
    show Grows m _
    unfold ConnFlowctrl.ensureMinRwndSize
    split
    · rename_i hlt
      refine ⟨Nat.le_refl _, Nat.le_min.mpr ⟨hlt.le, ?_⟩⟩
      exact hi.size.le
    · exact ⟨Nat.le_refl _, Nat.le_refl _⟩

theorem step_inv {cfg : Config} (hcfg : CfgOk cfg) {m m' : ConnFlowctrl} {e : Event} (hi : Inv cfg m)
    (hg : Guarded m e) (h : step cfg m e = some m') : Inv cfg m' := by
  cases e with
  | read bytes rtt now => exact (read_guarded hcfg hi hg).2 m' h
  | ensureMinRwndSize rwndSize now =>
    rw [← Option.some.inj h]
    unfold ConnFlowctrl.ensureMinRwndSize
    split
    · rename_i hlt
      refine ⟨Nat.min_eq_right ?_, hi.rwnd_lt⟩
      exact hi.size ▸ hlt.le
    · exact hi

/-- **The connection's receive window.**  The guarded runs are exactly those all of whose steps leave
the window right. -/
theorem window_iff (cfg : Config) (hcfg : CfgOk cfg) (es : List Event) :
    (∀ past e, past ++ [e] <+: es → ∀ m, Runs.run (step cfg) (ConnFlowctrl.init cfg) past = some m →
      StepOk cfg m e) ↔ Runs.Along (step cfg) Guarded (ConnFlowctrl.init cfg) es := by
  have hok : Runs.Along (step cfg) (fun _ _ => True) (ConnFlowctrl.init cfg) es :=
    Runs.Along.of_mem _ fun _ _ => trivial
  exact Runs.steps_iff_along (I := Inv cfg) (fun m e hi _ => stepOk_iff hcfg hi)
    (fun m e m' hi _ hg h => step_inv hcfg hi hg h) es (Inv.init hcfg) hok

theorem serverCfg_ok : CfgOk serverCfg := ⟨by decide, by decide, by decide, by decide⟩

theorem window_iff_serverCfg : CfgOk serverCfg ∧ ∀ es,
    ((∀ past e, past ++ [e] <+: es → ∀ m,
      Runs.run (step serverCfg) (ConnFlowctrl.init serverCfg) past = some m →
        StepOk serverCfg m e) ↔
      Runs.Along (step serverCfg) Guarded (ConnFlowctrl.init serverCfg) es) :=
  ⟨serverCfg_ok, window_iff serverCfg serverCfg_ok⟩

/-- The first byte that the application reads asks for a renewal, and does not get it. -/
theorem not_window : ¬ ∀ (cfg : Config), CfgOk cfg → ∀ es : List Event,
    ∀ past e, past ++ [e] <+: es → ∀ m,
      Runs.run (step cfg) (ConnFlowctrl.init cfg) past = some m → StepOk cfg m e := by
  intro h
  have hok := h serverCfg serverCfg_ok [.read 1 100000 5] [] _ List.prefix_rfl _ rfl
  rcases (stepOk_iff serverCfg_ok (Inv.init serverCfg_ok)).mp hok with hen | hre
  · exact absurd hen.2 (by decide)
  · exact absurd hre.half (by decide)

end ConnWindow

/-! ## a stream -/

namespace StreamWindow

structure CfgOk (cfg : Config) : Prop where
  initial_pos : 0 < cfg.streamFlowctrlInitialRwnd
  initial_le : cfg.streamFlowctrlInitialRwnd ≤ cfg.streamFlowctrlMaxRwndSize
  max_lt : cfg.streamFlowctrlMaxRwndSize < 2 ^ 64

structure State where
  fc : StreamFlowctrl
  conn : ConnFlowctrl
  /-- the MAX_STREAM_DATA frames of the stream -/
  frames : List Frame

inductive Event where
  | read (bytes rtt now : Nat)
  /-- a STREAM frame with its end, and whether it is the `FIN` -/
  | frame (off : Nat) (fin : Bool)
  /-- `quic_stream_module_process_rwnd` comes to the stream -/
  | report (sid : Nat)
  /-- what other streams do to the connection -/
  | others (conn : ConnFlowctrl)

def Event.bytes : Event → Nat
  | .read bytes _ _ => bytes
  | _ => 0

def step (cfg : Config) (s : State) : Event → Option State
  | .read bytes rtt now =>
    (s.fc.read cfg rtt now s.conn bytes).map fun x => ⟨x.1, x.2.1, s.frames⟩
  | .frame off fin =>
    some ⟨(s.fc.updateRwnd s.conn off fin).1, (s.fc.updateRwnd s.conn off fin).2, s.frames⟩
  | .report sid =>
    some { s with frames := s.frames ++ [.init 0x11 (.maxStreamData sid s.fc.rwnd)] }
  | .others conn => some { s with conn := conn }

def start (cfg : Config) : State := ⟨.init cfg, .init cfg, []⟩

/-- the event `report` is what the module does with a stream whose window has grown -/
theorem processRwndVisit_frame {cfg : Config} {mem : StreamAlloc} {st : Streams} {sid : Nat}
    {name : SetName} {str : Stream} (hname : (Streams.recvRelationStream cfg st sid).1 = some name)
    (hf : ((Streams.recvRelationStream cfg st sid).2.streams name).find sid = some str)
    (hmem : mem.ctrl sid = true) :
    (Streams.processRwndVisit cfg mem st sid).framer.ctrls =
      (Streams.recvRelationStream cfg st sid).2.framer.ctrls ++
        [.init 0x11 (.maxStreamData sid str.flowctrl.rwnd)] := by
  unfold Streams.processRwndVisit
  extract_lets x st1 st2
  have hf2 : (st2.streams name).find sid = some str := hf
  rw [show x.1 = some name from hname, Option.bind_some, hf2]
  dsimp only
  rw [if_pos hmem]
  rfl

def maxData (f : Frame) : Option Nat :=
  match f.body with
  | .maxStreamData _ maxData => some maxData
  | _ => none

/-- the record with the bytes of a read counted -/
def counted (fc : StreamFlowctrl) (now bytes : Nat) : StreamFlowctrl :=
  let fc := if fc.readOff = 0 then { fc with epochOff := 0, epochTime := now } else fc
  { fc with readOff := add64 fc.readOff bytes }

def Enough (fc : StreamFlowctrl) : Prop :=
  fc.readOff ≤ fc.rwnd ∧ 3 * fc.rwndSize / 4 < fc.rwnd - fc.readOff

def Roomy (fc : StreamFlowctrl) : Prop := Enough fc ∨ fc.rwnd = fc.readOff + fc.rwndSize

/-- **What a step leaves.** -/
structure StepOk (cfg : Config) (s : State) (e : Event) (s' : State) : Prop where
  rwnd : s.fc.rwnd ≤ s'.fc.rwnd
  rwndSize : s.fc.rwndSize ≤ s'.fc.rwndSize
  size_le : s'.fc.rwndSize ≤ cfg.streamFlowctrlMaxRwndSize
  rwnd_le : s'.fc.rwnd ≤ s'.fc.readOff + s'.fc.rwndSize
  roomy : ∀ bytes rtt now, e = .read bytes rtt now → s.fc.finFlag = false → Roomy s'.fc
  reported : (s'.frames.filterMap maxData).Pairwise (· ≤ ·)

/-- the reader is taken for a fast one, so that the size doubles -/
def Doubles (rtt now : Nat) (fc : StreamFlowctrl) : Prop :=
  fc.rwndSize / 2 < sub64 fc.readOff fc.epochOff ∧ rtt ≠ 0 ∧
    sub64 now fc.epochTime < mul64 (shl64 rtt 2) (sub64 fc.readOff fc.epochOff) / fc.rwndSize

instance decidableDoubles (rtt now : Nat) (fc : StreamFlowctrl) : Decidable (Doubles rtt now fc) :=
  inferInstanceAs (Decidable (_ ∧ _ ∧ _))

/-- the product of the test, the double of the size and the new limit fit into a word -/
structure Fits (cfg : Config) (rtt now : Nat) (fc : StreamFlowctrl) : Prop where
  asks : fc.rwnd ≤ fc.readOff + mul64 fc.rwndSize 3 / 4
  limit : fc.readOff + fc.rwndSize < 2 ^ 64
  double : Doubles rtt now fc → 2 * fc.rwndSize < 2 ^ 64
  doubled : Doubles rtt now fc →
    fc.readOff + min (2 * fc.rwndSize) cfg.streamFlowctrlMaxRwndSize < 2 ^ 64

/-- a read that leaves three quarters of the window or less, before the `FIN` -/
def Guarded (cfg : Config) (s : State) : Event → Prop
  | .read bytes rtt now => s.fc.finFlag = false →
      (counted s.fc now bytes).rwnd ≤
        (counted s.fc now bytes).readOff + 3 * (counted s.fc now bytes).rwndSize / 4 →
      Fits cfg rtt now (counted s.fc now bytes)
  | _ => True

structure Inv (cfg : Config) (s : State) : Prop where
  pos : 0 < s.fc.rwndSize
  size_le : s.fc.rwndSize ≤ cfg.streamFlowctrlMaxRwndSize
  rwnd_le : s.fc.rwnd ≤ s.fc.readOff + s.fc.rwndSize
  rwnd_lt : s.fc.rwnd < 2 ^ 64
  reported : (s.frames.filterMap maxData).Pairwise (· ≤ ·)
  reported_le : ∀ d ∈ s.frames.filterMap maxData, d ≤ s.fc.rwnd

theorem start_inv {cfg : Config} (hcfg : CfgOk cfg) : Inv cfg (start cfg) :=
  ⟨hcfg.initial_pos, hcfg.initial_le, Nat.le_add_left _ _,
    Nat.lt_of_le_of_lt hcfg.initial_le hcfg.max_lt, .nil, fun _ hd => absurd hd List.not_mem_nil⟩

instance decidableGuarded (cfg : Config) (s : State) (e : Event) : Decidable (Guarded cfg s e) := by
  have hfits : ∀ rtt now fc, Decidable (Fits cfg rtt now fc) := fun rtt now fc =>
    decidable_of_iff (fc.rwnd ≤ fc.readOff + mul64 fc.rwndSize 3 / 4 ∧
        fc.readOff + fc.rwndSize < 2 ^ 64 ∧ (Doubles rtt now fc → 2 * fc.rwndSize < 2 ^ 64) ∧
        (Doubles rtt now fc →
          fc.readOff + min (2 * fc.rwndSize) cfg.streamFlowctrlMaxRwndSize < 2 ^ 64))
      ⟨fun ⟨h1, h2, h3, h4⟩ => ⟨h1, h2, h3, h4⟩, fun h => ⟨h.asks, h.limit, h.double, h.doubled⟩⟩
  cases e with
  | read bytes rtt now =>
    have := hfits rtt now (counted s.fc now bytes)
    exact inferInstanceAs (Decidable (_ → _ → _))
  | _ => exact instDecidableTrue

/-! ### a read -/

theorem counted_spec (fc : StreamFlowctrl) (now bytes : Nat) :
    (counted fc now bytes).rwnd = fc.rwnd ∧ (counted fc now bytes).rwndSize = fc.rwndSize ∧
      (counted fc now bytes).readOff = add64 fc.readOff bytes ∧
      (counted fc now bytes).finFlag = fc.finFlag := by
  unfold counted
  dsimp only
  split <;> exact ⟨rfl, rfl, rfl, rfl⟩

/-- an adjustment changes the size where the reader is a fast one -/
theorem adjust_size {cfg : Config} {rtt now : Nat} {fc : StreamFlowctrl} {conn : ConnFlowctrl}
    {x : StreamFlowctrl × ConnFlowctrl} (h : fc.adjustRwnd cfg rtt now conn = some x) :
    x.1.rwndSize = if Doubles rtt now fc then
      min (shl64 fc.rwndSize 1) cfg.streamFlowctrlMaxRwndSize else fc.rwndSize := by
  unfold StreamFlowctrl.adjustRwnd at h
  extract_lets bytes fast size at h
  split at h
  · rename_i hearly
    rw [← Option.some.inj h, if_neg]
    rintro ⟨hlate, hrtt, _⟩
    exact hearly.elim (fun hle => absurd hle (Nat.not_le.mpr hlate)) hrtt
  · rename_i hlate
    obtain ⟨hbytes, hrtt⟩ := not_or.mp hlate
    split at h
    · cases h
    · rw [← Option.some.inj h]
      show (if fast then _ else _) = _
      refine if_congr ?_ rfl rfl
      exact ⟨fun hf => ⟨Nat.not_le.mp hbytes, hrtt, hf⟩, fun hd => hd.2.2⟩

/-- **What a read does to the window.**  It is renewed by the test of the code, or left. -/
theorem read_cases {cfg : Config} {rtt now bytes : Nat} {fc : StreamFlowctrl} {conn : ConnFlowctrl}
    {x : StreamFlowctrl × ConnFlowctrl × Bool} (h : fc.read cfg rtt now conn bytes = some x) :
    ((counted fc now bytes).finFlag = false ∧
        ((counted fc now bytes).rwnd ≤ (counted fc now bytes).readOff ∨
          sub64 (counted fc now bytes).rwnd (counted fc now bytes).readOff ≤
            mul64 (counted fc now bytes).rwndSize 3 / 4) ∧
        x.1.rwndSize = (if Doubles rtt now (counted fc now bytes) then
          min (shl64 (counted fc now bytes).rwndSize 1) cfg.streamFlowctrlMaxRwndSize
          else (counted fc now bytes).rwndSize) ∧
        x.1.readOff = (counted fc now bytes).readOff ∧
        x.1.rwnd = add64 x.1.readOff x.1.rwndSize) ∨
      (((counted fc now bytes).finFlag = false →
          (counted fc now bytes).readOff < (counted fc now bytes).rwnd ∧
          mul64 (counted fc now bytes).rwndSize 3 / 4 <
            sub64 (counted fc now bytes).rwnd (counted fc now bytes).readOff) ∧
        x.1 = counted fc now bytes) := by
  unfold StreamFlowctrl.read at h
  extract_lets fc1 fc2 update jp at h
  have hfc2 : counted fc now bytes = fc2 := rfl
  rw [hfc2]
  have hupdate : update = (!fc2.finFlag &&
      (decide (fc2.rwnd ≤ fc2.readOff) || decide (sub64 fc2.rwnd fc2.readOff ≤
        mul64 fc2.rwndSize 3 / 4))) := rfl
  have hjp : ∀ y : StreamFlowctrl × ConnFlowctrl, jp y = some x → x.1 = y.1 := by
    intro y hy
    obtain ⟨conn', _, hx⟩ := Option.bind_eq_some_iff.mp hy
    rw [← Option.some.inj hx]
  clear_value jp update
  clear hfc2
  clear_value fc2
  subst hupdate
  split at h
  · rename_i hup
    obtain ⟨hfin, hask⟩ := (Bool.and_eq_true_iff).mp hup
    obtain ⟨y, hy, hrest⟩ := Option.bind_eq_some_iff.mp h
    obtain ⟨z, hz, hzy⟩ := Option.map_eq_some_iff.mp hy
    have hx := hjp y hrest
    left
    refine ⟨by simpa using hfin, by simpa using hask, ?_, ?_, ?_⟩ <;> rw [hx, ← hzy]
    · show z.1.rwndSize = _
      exact adjust_size hz
    · exact (StreamFlowctrl.adjustRwnd_spec hz).2.1
  · rename_i hup
    right
    refine ⟨fun hfin => ?_, hjp _ h⟩
    rw [hfin] at hup
    simpa using hup

/-! ### the steps -/

/-- the size that a renewal leaves is the old one or more, and the new limit fits -/
theorem Fits.size {cfg : Config} {rtt now : Nat} {fc : StreamFlowctrl} (hf : Fits cfg rtt now fc)
    (hmax : fc.rwndSize ≤ cfg.streamFlowctrlMaxRwndSize) {size : Nat}
    (h : size = if Doubles rtt now fc then
      min (shl64 fc.rwndSize 1) cfg.streamFlowctrlMaxRwndSize else fc.rwndSize) :
    fc.rwndSize ≤ size ∧ size ≤ cfg.streamFlowctrlMaxRwndSize ∧
      add64 fc.readOff size = fc.readOff + size := by
  by_cases hd : Doubles rtt now fc
  · have hshl : shl64 fc.rwndSize 1 = 2 * fc.rwndSize := by
      show (fc.rwndSize <<< 1) % 2 ^ 64 = _
      rw [Nat.shiftLeft_eq, pow_one, Nat.mul_comm, Nat.mod_eq_of_lt (hf.double hd)]
    rw [if_pos hd, hshl] at h
    rw [h]
    refine ⟨Nat.le_min.mpr ⟨by omega, hmax⟩, Nat.min_le_right _ _, ?_⟩
    exact add64_of_lt (hf.doubled hd)
  · rw [if_neg hd] at h
    rw [h]
    exact ⟨Nat.le_refl _, hmax, add64_of_lt hf.limit⟩

/-- what one step does to the window, and what it leaves -/
structure Kept (cfg : Config) (s s' : State) : Prop extends Inv cfg s' where
  rwnd : s.fc.rwnd ≤ s'.fc.rwnd
  rwndSize : s.fc.rwndSize ≤ s'.fc.rwndSize

/-- a record with a window that has not fallen, in the place of the old one -/
theorem Inv.kept {cfg : Config} {s : State} (hi : Inv cfg s) {fc : StreamFlowctrl}
    (conn : ConnFlowctrl) (hrwnd : s.fc.rwnd ≤ fc.rwnd) (hsize : s.fc.rwndSize ≤ fc.rwndSize)
    (hmax : fc.rwndSize ≤ cfg.streamFlowctrlMaxRwndSize) (hle : fc.rwnd ≤ fc.readOff + fc.rwndSize)
    (hlt : fc.rwnd < 2 ^ 64) : Kept cfg s ⟨fc, conn, s.frames⟩ where
  pos := Nat.lt_of_lt_of_le hi.pos hsize
  size_le := hmax
  rwnd_le := hle
  rwnd_lt := hlt
  reported := hi.reported
  reported_le := fun d hd => (hi.reported_le d hd).trans hrwnd
  rwnd := hrwnd
  rwndSize := hsize

/-- a record that asks for a renewal has at most three quarters of the window left -/
theorem asks_le {fc : StreamFlowctrl} (hlt : fc.rwnd < 2 ^ 64)
    (h : fc.rwnd ≤ fc.readOff ∨ sub64 fc.rwnd fc.readOff ≤ mul64 fc.rwndSize 3 / 4) :
    fc.rwnd ≤ fc.readOff + 3 * fc.rwndSize / 4 := by
  have hq := three_quarters fc.rwndSize
  rcases h with h | h
  · exact h.trans (Nat.le_add_right _ _)
  · by_contra hover
    rw [sub64_of_le (by omega) hlt] at h
    omega

/-- a guarded record that does not ask for a renewal has enough left -/
theorem enough_of_not_asks {cfg : Config} {rtt now : Nat} {fc : StreamFlowctrl}
    (hlt : fc.rwnd < 2 ^ 64)
    (hg : fc.rwnd ≤ fc.readOff + 3 * fc.rwndSize / 4 → Fits cfg rtt now fc)
    (h : fc.readOff < fc.rwnd ∧ mul64 fc.rwndSize 3 / 4 < sub64 fc.rwnd fc.readOff) :
    Enough fc := by
  obtain ⟨hbelow, htest⟩ := h
  rw [sub64_of_le hbelow.le hlt] at htest
  have hroom : 3 * fc.rwndSize / 4 < fc.rwnd - fc.readOff := by
    by_contra hover
    have hasks := (hg (by omega)).asks
    omega
  exact ⟨hbelow.le, hroom⟩

/-- a guarded read -/
theorem read_kept {cfg : Config} {s s' : State} {bytes rtt now : Nat}
    (hi : Inv cfg s) (hb : s.fc.readOff + bytes < 2 ^ 62) (hg : Guarded cfg s (.read bytes rtt now))
    (h : step cfg s (.read bytes rtt now) = some s') :
    Kept cfg s s' ∧ (s.fc.finFlag = false → Roomy s'.fc) := by
  obtain ⟨x, hx, rfl⟩ := Option.map_eq_some_iff.mp h
  obtain ⟨h1, h2, h3, h4⟩ := counted_spec s.fc now bytes
  rw [add64_of_lt (by omega)] at h3
  have hcases := read_cases hx
  have hg : s.fc.finFlag = false → (counted s.fc now bytes).rwnd ≤
      (counted s.fc now bytes).readOff + 3 * (counted s.fc now bytes).rwndSize / 4 →
      Fits cfg rtt now (counted s.fc now bytes) := hg
  have hle := hi.rwnd_le
  have hlt := hi.rwnd_lt
  have hmax := hi.size_le
  rw [← h4] at hg ⊢
  rw [← h1] at hle hlt
  rw [← h2] at hle hmax
  have hoff : s.fc.readOff ≤ (counted s.fc now bytes).readOff := by omega
  generalize counted s.fc now bytes = c at *
  rcases hcases with ⟨hfin, hask, hsize, hread, hrwnd⟩ | ⟨hnot, hx1⟩
  · -- the window is renewed
    have hlow := asks_le hlt hask
    obtain ⟨hs, hm, hadd⟩ := (hg hfin hlow).size hmax hsize
    rw [hread, hadd] at hrwnd
    have hadd_lt : c.readOff + x.1.rwndSize < 2 ^ 64 := by
      rw [← hadd]
      exact Word.add_lt 64 _ _
    have hrw : x.1.rwnd = x.1.readOff + x.1.rwndSize := by rw [hrwnd, hread]
    refine ⟨hi.kept x.2.1 ?_ ?_ hm hrw.le (hrwnd ▸ hadd_lt), fun _ => Or.inr hrw⟩
    · omega
    · exact h2 ▸ hs
  · -- the window is left as it is
    show Kept cfg s ⟨x.1, x.2.1, s.frames⟩ ∧ (_ → Roomy x.1)
    rw [hx1]
    refine ⟨hi.kept x.2.1 h1.ge h2.ge hmax (by omega) hlt, fun hfin => Or.inl ?_⟩
    exact enough_of_not_asks hlt (hg hfin) (hnot hfin)

/-- the limits in the frames stay in order where the new one is not below them -/
theorem pairwise_concat {l : List Nat} {d : Nat} (hl : l.Pairwise (· ≤ ·)) (hd : ∀ a ∈ l, a ≤ d) :
    (l ++ [d]).Pairwise (· ≤ ·) := by
  rw [List.pairwise_append]
  exact ⟨hl, List.pairwise_singleton _ _, fun a ha b hb => List.mem_singleton.mp hb ▸ hd a ha⟩

theorem step_kept {cfg : Config} {s s' : State} {e : Event} (hi : Inv cfg s)
    (hb : s.fc.readOff + e.bytes < 2 ^ 62) (hg : Guarded cfg s e) (h : step cfg s e = some s') :
    Kept cfg s s' := by
  cases e with
  | read bytes rtt now => exact (read_kept hi hb hg h).1
  | frame off fin =>
    rw [← Option.some.inj h]
    obtain ⟨hw, hs, hr⟩ : (s.fc.updateRwnd s.conn off fin).1.rwnd = s.fc.rwnd ∧
        (s.fc.updateRwnd s.conn off fin).1.rwndSize = s.fc.rwndSize ∧
        (s.fc.updateRwnd s.conn off fin).1.readOff = s.fc.readOff := by
      unfold StreamFlowctrl.updateRwnd
      split
      · exact ⟨rfl, rfl, rfl⟩
      · dsimp only
        split <;> exact ⟨rfl, rfl, rfl⟩
    refine hi.kept _ hw.ge hs.ge (hs ▸ hi.size_le) ?_ (hw ▸ hi.rwnd_lt)
    rw [hw, hs, hr]
    exact hi.rwnd_le
  | report sid =>
    rw [← Option.some.inj h]
    have hframes : (s.frames ++ [Frame.init 0x11 (.maxStreamData sid s.fc.rwnd)]).filterMap maxData =
        s.frames.filterMap maxData ++ [s.fc.rwnd] := by
      rw [List.filterMap_append]
      rfl
    refine ⟨⟨hi.pos, hi.size_le, hi.rwnd_le, hi.rwnd_lt, ?_, ?_⟩, Nat.le_refl _, Nat.le_refl _⟩
    · rw [hframes]
      exact pairwise_concat hi.reported hi.reported_le
    · rw [hframes]
      intro d hd
      rcases List.mem_append.mp hd with hd | hd
      · exact hi.reported_le d hd
      · exact (List.mem_singleton.mp hd).le
  | others conn =>
    rw [← Option.some.inj h]
    exact hi.kept conn (Nat.le_refl _) (Nat.le_refl _) hi.size_le hi.rwnd_le hi.rwnd_lt

theorem step_ok {cfg : Config} {s s' : State} {e : Event} (hi : Inv cfg s)
    (hb : s.fc.readOff + e.bytes < 2 ^ 62) (hg : Guarded cfg s e) (h : step cfg s e = some s') :
    StepOk cfg s e s' := by
  have hk := step_kept hi hb hg h
  refine ⟨hk.rwnd, hk.rwndSize, hk.size_le, hk.rwnd_le, ?_, hk.reported⟩
  rintro bytes rtt now rfl
  exact (read_kept hi hb hg h).2

/-! ### the runs -/

theorem step_readOff {cfg : Config} {s s' : State} {e : Event}
    (hb : s.fc.readOff + e.bytes < 2 ^ 62) (h : step cfg s e = some s') :
    s'.fc.readOff = s.fc.readOff + e.bytes := by
  cases e with
  | read bytes rtt now =>
    obtain ⟨x, hx, rfl⟩ := Option.map_eq_some_iff.mp h
    have hb : s.fc.readOff + bytes < 2 ^ 62 := hb
    exact (StreamFlowctrl.read_spec hx).2.2.1.trans (add64_of_lt (by omega))
  | frame off fin =>
    rw [← Option.some.inj h]
    exact (StreamFlowctrl.updateRwnd_spec s.fc s.conn off fin).2.1
  | _ =>
    rw [← Option.some.inj h]
    rfl

/-- no read of the run goes beyond the bound on all of them -/
theorem along_bytes {cfg : Config} (es : List Event) {s : State}
    (h : s.fc.readOff + (es.map Event.bytes).sum < 2 ^ 62) :
    Runs.Along (step cfg) (fun s e => s.fc.readOff + e.bytes < 2 ^ 62) s es := by
  induction es generalizing s with
  | nil => trivial
  | cons e es ih =>
    rw [List.map_cons, List.sum_cons] at h
    have hb : s.fc.readOff + e.bytes < 2 ^ 62 := by omega
    refine ⟨hb, fun s' hs' => ih ?_⟩
    rw [step_readOff hb hs']
    omega

/-- **The stream's receive window.**  Every step of a guarded run leaves the window right. -/
theorem window_run (cfg : Config) (hcfg : CfgOk cfg) (es : List Event)
    (hsum : (es.map Event.bytes).sum < 2 ^ 62)
    (hg : Runs.Along (step cfg) (Guarded cfg) (start cfg) es) :
    ∀ past e, past ++ [e] <+: es → ∀ s s', Runs.run (step cfg) (start cfg) past = some s →
      step cfg s e = some s' → StepOk cfg s e s' := by
  intro past e hpast s s' hs hs'
  have hb0 : (start cfg).fc.readOff + (es.map Event.bytes).sum < 2 ^ 62 := by
    rw [show (start cfg).fc.readOff = 0 from rfl, Nat.zero_add]
    exact hsum
  obtain ⟨hi, hb, hge⟩ := Runs.run_met (J := Inv cfg)
    (fun _ _ _ hi hbg h1 => (step_kept hi hbg.1 hbg.2 h1).toInv)
    (start_inv hcfg) ((along_bytes es hb0).and _ hg) hpast hs
  exact step_ok hi hb hge hs'

theorem serverCfg_ok : CfgOk serverCfg := ⟨by decide, by decide, by decide⟩

/-- a read of most of the first window, the report of the new limit, and a read that finishes the
stream -/
def readTwice : List Event :=
  [.read 1000 100000 5, .report 4, .frame 1460 true, .read 460 100000 6]

theorem window_run_readTwice : CfgOk serverCfg ∧ (readTwice.map Event.bytes).sum < 2 ^ 62 ∧
    Runs.Along (step serverCfg) (Guarded serverCfg) (start serverCfg) readTwice ∧
    ∀ past e, past ++ [e] <+: readTwice → ∀ s s',
      Runs.run (step serverCfg) (start serverCfg) past = some s → step serverCfg s e = some s' →
        StepOk serverCfg s e s' := by
  have hsum : (readTwice.map Event.bytes).sum < 2 ^ 62 := by decide
  have hg : Runs.Along (step serverCfg) (Guarded serverCfg) (start serverCfg) readTwice := by
    decide +kernel
  exact ⟨serverCfg_ok, hsum, hg, window_run serverCfg serverCfg_ok readTwice hsum hg⟩

/-- A window of a third of a word: three times its size is 2. -/
def wideCfg : Config :=
  { serverCfg with
    streamFlowctrlInitialRwnd := 6148914691236517206
    streamFlowctrlMaxRwndSize := 6148914691236517206 }

/-- Less than three quarters of the window are left, and it is not renewed. -/
theorem not_window_run : ¬ ∀ (cfg : Config), CfgOk cfg → ∀ es : List Event,
    (es.map Event.bytes).sum < 2 ^ 62 → ∀ past e, past ++ [e] <+: es → ∀ s s',
      Runs.run (step cfg) (start cfg) past = some s → step cfg s e = some s' →
        StepOk cfg s e s' := by
  intro h
  have hstep : step wideCfg (start wideCfg) (.read (2 ^ 61) 100000 5) ≠ none := by decide +kernel
  obtain ⟨s', hs'⟩ := Option.ne_none_iff_exists'.mp hstep
  have hok := h wideCfg ⟨by decide, by decide, by decide⟩ [.read (2 ^ 61) 100000 5] (by decide) []
    _ List.prefix_rfl _ _ rfl hs'
  have hfc : ((step wideCfg (start wideCfg) (.read (2 ^ 61) 100000 5)).map fun s =>
      (s.fc.rwnd, s.fc.readOff, s.fc.rwndSize)) =
        some (6148914691236517206, 2 ^ 61, 6148914691236517206) := by decide +kernel
  rw [hs', Option.map_some] at hfc
  obtain ⟨hrwnd, hrest⟩ := Prod.mk.inj (Option.some.inj hfc)
  obtain ⟨hoff, hsize⟩ := Prod.mk.inj hrest
  rcases hok.roomy _ _ _ rfl rfl with ⟨_, hroom⟩ | hroom <;> rw [hrwnd, hoff, hsize] at hroom <;>
    exact absurd hroom (by decide)

end StreamWindow
end OpenQuic
