import OpenQuic.Modules.CongestionBounds

/-!
# The growth of the window

Acknowledgements outside recovery and above the slow-start threshold, in epochs that start with
`max_cwnd <= cwnd`.

* `begun`, `grown`    the two halves of the cubic function;
* `offset`, `growth`  the time since the epoch started in units of 1 / 1024 s, and the cubic term;
* `grown_spec`        what the cubic function computes where nothing wraps;
* `Guarded`           nothing wraps, and the time since the epoch started does not fall;
* `grows_run`         along guarded runs the window never falls.
-/

namespace OpenQuic
open Word

namespace CubicGrowth

/-! ## the cubic function -/

/-- the record with its epoch started -/
def begun (cbrt : Nat → Nat) (m : Cubic) (ackedBytes cwnd eventTime : Nat) : Cubic :=
  if m.epoch = 0 then
    if m.maxCwnd ≤ cwnd then
      { m with epoch := eventTime, ackedBytes := u32 ackedBytes, renoCwnd := cwnd,
               originTimePoint := 0, originCwndPoint := cwnd }
    else
      { m with epoch := eventTime, ackedBytes := u32 ackedBytes, renoCwnd := cwnd,
               originTimePoint := u64 (cbrt (m.maxCwnd - cwnd)), originCwndPoint := m.maxCwnd }
  else { m with ackedBytes := u32 (m.ackedBytes + ackedBytes) }

/-- the cubic estimate -/
def estimate (m : Cubic) (delayMin eventTime : Nat) : Nat :=
  let elapsedTime := shl64 (sub64 (add64 eventTime delayMin) m.epoch) 10 / (1000 * 1000)
  let offset := if m.originTimePoint < elapsedTime then sub64 elapsedTime m.originTimePoint
    else sub64 m.originTimePoint elapsedTime
  let deltaCwnd := mul64 (mul64 (mul64 (mul64 410 offset) offset) offset) 1460 / 2 ^ 40
  if m.originTimePoint < elapsedTime then add64 m.originCwndPoint deltaCwnd
    else sub64 m.originCwndPoint deltaCwnd

/-- the Reno estimate after an acknowledgement -/
def reno (m : Cubic) : Nat :=
  add64 m.renoCwnd (mul32 (mul32 m.ackedBytes 1460) 9 / mul64 17 m.renoCwnd)

def grown (m : Cubic) (cwnd delayMin eventTime : Nat) : Nat :=
  max (min (estimate m delayMin eventTime) (add64 cwnd (m.ackedBytes / 2))) (reno m)

theorem cubicOnAcked_eq (cbrt : Nat → Nat) (m : Cubic) (ackedBytes cwnd delayMin eventTime : Nat) :
    Congestion.cubicOnAcked cbrt m ackedBytes cwnd delayMin eventTime =
      (grown (begun cbrt m ackedBytes cwnd eventTime) cwnd delayMin eventTime,
        { begun cbrt m ackedBytes cwnd eventTime with
          renoCwnd := reno (begun cbrt m ackedBytes cwnd eventTime), ackedBytes := 0 },
        mul64 17 (begun cbrt m ackedBytes cwnd eventTime).renoCwnd) := rfl

/-! ## the cubic term -/

/-- microseconds in units of 1 / 1024 s -/
def offset (elapsed : Nat) : Nat := elapsed * 1024 / 1000000

/-- `410 * 1460` is 598600 -/
def growth (o : Nat) : Nat := 598600 * o ^ 3 / 2 ^ 40

theorem offset_mono {a b : Nat} (h : a ≤ b) : offset a ≤ offset b :=
  Nat.div_le_div_right (Nat.mul_le_mul_right _ h)

theorem growth_mono {a b : Nat} (h : a ≤ b) : growth a ≤ growth b :=
  Nat.div_le_div_right (Nat.mul_le_mul_left _ (Nat.pow_le_pow_left h 3))

/-- the cube fits into a word for the first 30.6 seconds of an epoch -/
theorem offset_lt {o : Nat} (h : 598600 * o ^ 3 < 2 ^ 64) : o < 31352 := by
  by_contra hge
  have hcube : 31352 ^ 3 ≤ o ^ 3 := Nat.pow_le_pow_left (Nat.not_lt.mp hge) 3
  omega

theorem cube_eq {o : Nat} (h : 598600 * o ^ 3 < 2 ^ 64) :
    mul64 (mul64 (mul64 (mul64 410 o) o) o) 1460 = 598600 * o ^ 3 := by
  have he : 410 * o * o * o * 1460 = 598600 * o ^ 3 := by ring
  show (410 * o % 2 ^ 64 * o % 2 ^ 64 * o % 2 ^ 64) * 1460 % 2 ^ 64 = _
  simp only [Nat.mod_mul_mod]
  rw [he, Nat.mod_eq_of_lt h]

theorem elapsed_eq {epoch delayMin t : Nat} (hle : epoch ≤ t)
    (h : 598600 * offset (t + delayMin - epoch) ^ 3 < 2 ^ 64) :
    shl64 (sub64 (add64 t delayMin) epoch) 10 / (1000 * 1000) = offset (t + delayMin - epoch) := by
  have ho := offset_lt h
  unfold offset at ho ⊢
  have hsub : sub64 (add64 t delayMin) epoch = t + delayMin - epoch := by
    show ((t + delayMin) % 2 ^ 64 + (2 ^ 64 - epoch % 2 ^ 64)) % 2 ^ 64 = _
    omega
  have hshl : shl64 (t + delayMin - epoch) 10 = (t + delayMin - epoch) * 1024 := by
    show ((t + delayMin - epoch) <<< 10) % 2 ^ 64 = _
    rw [Nat.shiftLeft_eq]
    omega
  rw [hsub, hshl]

/-- what the code computes of the cubic curve while its products fit into a word -/
theorem estimate_eq {m : Cubic} {delayMin t : Nat} (h0 : m.originTimePoint = 0) (hle : m.epoch ≤ t)
    (h : 598600 * offset (t + delayMin - m.epoch) ^ 3 < 2 ^ 64)
    (hsum : m.originCwndPoint + growth (offset (t + delayMin - m.epoch)) < 2 ^ 64) :
    estimate m delayMin t = m.originCwndPoint + growth (offset (t + delayMin - m.epoch)) := by
  have ho := offset_lt h
  unfold estimate
  rw [elapsed_eq hle h, h0]
  dsimp only
  generalize offset (t + delayMin - m.epoch) = o at h hsum ho ⊢
  by_cases hpos : 0 < o
  · rw [if_pos hpos, if_pos hpos, sub64_of_le (Nat.zero_le o) (by omega), Nat.sub_zero, cube_eq h]
    exact add64_of_lt hsum
  · obtain rfl : o = 0 := by omega
    rw [if_neg hpos, if_neg hpos]
    exact sub64_of_le (Nat.zero_le _) (by omega)

theorem reno_ge {m : Cubic} (h0 : 0 < m.renoCwnd) (hlt : m.renoCwnd < 2 ^ 64)
    (ha : m.ackedBytes ≤ 1460) : m.renoCwnd ≤ reno m ∧ reno m < 2 ^ 64 := by
  have hmul : mul32 (mul32 m.ackedBytes 1460) 9 = m.ackedBytes * 1460 * 9 := by
    rw [mul32_of_lt (a := m.ackedBytes) (by omega), mul32_of_lt (by omega)]
  obtain ⟨_, hgrow⟩ :=
    Congestion.reno_grow (a := m.ackedBytes * 1460 * 9) h0 hlt (by omega)
  unfold reno
  rw [hmul, add64_of_lt hgrow]
  exact ⟨Nat.le_add_right _ _, hgrow⟩

/-! ## runs -/

structure Ack where
  /-- the round-trip estimate at the acknowledgement -/
  minRtt : Nat
  ackedBytes : Nat
  unackedBytes : Nat
  time : Time

structure State where
  c : Congestion
  /-- of the last acknowledgement -/
  time : Time

namespace State

def cwnd (s : State) : Nat := s.c.base.cwnd
def cubic (s : State) : Cubic := s.c.cubic

/-- the time since the epoch started, as the last acknowledgement saw it -/
def elapsed (s : State) : Nat := s.time + s.c.rtt.minRtt - s.cubic.epoch

end State

/-- the state with another round-trip estimate -/
def withRtt (c : Congestion) (minRtt : Nat) : Congestion :=
  { c with rtt := { c.rtt with minRtt := minRtt } }

def step (cfg : Config) (cbrt : Nat → Nat) (s : State) (e : Ack) : Option State :=
  some ⟨Congestion.increaseCwnd cfg cbrt (withRtt s.c e.minRtt) e.ackedBytes e.unackedBytes e.time,
    e.time⟩

/-- the packets have 1 to 1460 bytes, and the times do not fall -/
structure Ordered (s : State) (e : Ack) : Prop where
  pos : 1 ≤ e.ackedBytes
  le : e.ackedBytes ≤ 1460
  time : s.time ≤ e.time

/-- the acknowledgement takes the cubic function -/
def Grows (cfg : Config) (s : State) (e : Ack) : Prop :=
  Congestion.cwndLimited s.c e.unackedBytes = true ∧ s.cwnd < cfg.maxCwnd

/-- the time since the epoch started; the acknowledgement may be the one that starts it -/
def elapsedAt (s : State) (e : Ack) : Nat :=
  if s.cubic.epoch = 0 then e.minRtt else e.time + e.minRtt - s.cubic.epoch

/-- where the cubic curve of the epoch starts -/
def originAt (s : State) : Nat := if s.cubic.epoch = 0 then s.cwnd else s.cubic.originCwndPoint

/-- the products and the sums of the cubic function fit into a word, and the time since the epoch
started has not fallen with the round-trip estimate -/
structure Fits (s : State) (e : Ack) : Prop where
  cube : 598600 * offset (elapsedAt s e) ^ 3 < 2 ^ 64
  origin : originAt s + growth (offset (elapsedAt s e)) < 2 ^ 64
  half : s.cwnd + e.ackedBytes / 2 < 2 ^ 64
  elapsed : s.cubic.epoch ≠ 0 → s.time + s.c.rtt.minRtt ≤ e.time + e.minRtt

def Guarded (cfg : Config) (s : State) (e : Ack) : Prop := Grows cfg s e → Fits s e

/-- a window above the slow-start threshold, with an epoch to start -/
structure Starts (s : State) : Prop where
  pos : 0 < s.cwnd
  lt : s.cwnd < 2 ^ 64
  threshold : s.c.slowstart.threshold ≤ s.cwnd
  epoch : s.cubic.epoch = 0
  maxCwnd : s.cubic.maxCwnd ≤ s.cwnd

/-- what holds within an epoch: the window is below the cubic curve or the Reno estimate -/
structure Epoch (s : State) : Prop where
  origin : s.cubic.originTimePoint = 0
  acked : s.cubic.ackedBytes = 0
  le : s.cubic.epoch ≤ s.time
  reno_pos : 0 < s.cubic.renoCwnd
  reno_lt : s.cubic.renoCwnd < 2 ^ 64
  cwnd_le : s.cwnd ≤ max (s.cubic.originCwndPoint + growth (offset s.elapsed)) s.cubic.renoCwnd

structure Inv (cfg : Config) (s : State) : Prop where
  pos : 0 < s.cwnd
  lt : s.cwnd < 2 ^ 64
  threshold : s.c.slowstart.threshold ≤ s.cwnd
  maxCwnd : s.cubic.maxCwnd ≤ s.cwnd
  epoch : s.cubic.epoch ≠ 0 → s.cwnd < cfg.maxCwnd → Epoch s

theorem Starts.inv {cfg : Config} {s : State} (h : Starts s) : Inv cfg s :=
  ⟨h.pos, h.lt, h.threshold, h.maxCwnd, fun he => absurd h.epoch he⟩

/-- the record of an epoch in which the acknowledgement `e` is counted -/
structure Begun (s : State) (e : Ack) (m : Cubic) : Prop where
  origin : m.originTimePoint = 0
  acked : m.ackedBytes = e.ackedBytes
  maxCwnd : m.maxCwnd = s.cubic.maxCwnd
  le : m.epoch ≤ e.time
  elapsed : e.time + e.minRtt - m.epoch = elapsedAt s e
  point : m.originCwndPoint = originAt s
  reno_pos : 0 < m.renoCwnd
  reno_lt : m.renoCwnd < 2 ^ 64
  cwnd_le : s.cwnd ≤ max (originAt s + growth (offset (elapsedAt s e))) m.renoCwnd

theorem begun_spec {cfg : Config} (cbrt : Nat → Nat) {s : State} {e : Ack} (hi : Inv cfg s)
    (ho : Ordered s e) (hmax : s.cwnd < cfg.maxCwnd) (hf : Fits s e) :
    Begun s e (begun cbrt s.cubic e.ackedBytes s.cwnd e.time) := by
  have hu : u32 e.ackedBytes = e.ackedBytes := u32_of_lt (by have := ho.le; omega)
  unfold begun
  by_cases he : s.cubic.epoch = 0
  · rw [if_pos he, if_pos hi.maxCwnd]
    refine ⟨rfl, hu, rfl, Nat.le_refl _, ?_, ?_, hi.pos, hi.lt, Nat.le_max_right _ _⟩
    · show e.time + e.minRtt - e.time = elapsedAt s e
      rw [elapsedAt, if_pos he, Nat.add_sub_cancel_left]
    · rw [originAt, if_pos he]
  · have hep := hi.epoch he hmax
    have hfall := hf.elapsed he
    have helapsed : e.time + e.minRtt - s.cubic.epoch = elapsedAt s e := by
      rw [elapsedAt, if_neg he]
    have hpoint : s.cubic.originCwndPoint = originAt s := by rw [originAt, if_neg he]
    rw [if_neg he]
    refine ⟨hep.origin, ?_, rfl, hep.le.trans ho.time, helapsed, hpoint, hep.reno_pos, hep.reno_lt, ?_⟩
    · show u32 (s.cubic.ackedBytes + e.ackedBytes) = e.ackedBytes
      rw [hep.acked, Nat.zero_add, hu]
    · -- the curve has risen since the last acknowledgement
      have hmono : growth (offset s.elapsed) ≤ growth (offset (elapsedAt s e)) := by
        refine growth_mono (offset_mono ?_)
        rw [← helapsed]
        exact Nat.sub_le_sub_right hfall _
      have hle : s.cwnd ≤ max (s.cubic.originCwndPoint + growth (offset s.elapsed))
          s.cubic.renoCwnd := hep.cwnd_le
      show s.cwnd ≤ max (originAt s + _) s.cubic.renoCwnd
      rw [← hpoint]
      omega

/-- The cubic function does not lower the window, and stays below the curve or the Reno estimate. -/
theorem grown_spec {s : State} {e : Ack} {m : Cubic} (ho : Ordered s e) (hf : Fits s e)
    (hb : Begun s e m) : s.cwnd ≤ grown m s.cwnd e.minRtt e.time ∧
      grown m s.cwnd e.minRtt e.time < 2 ^ 64 ∧ grown m s.cwnd e.minRtt e.time ≤
        max (originAt s + growth (offset (elapsedAt s e))) (reno m) := by
  have hcube := hf.cube
  have hsum := hf.origin
  have hhalf := hf.half
  have hcwnd := hb.cwnd_le
  rw [← hb.elapsed] at hcube
  rw [← hb.point, ← hb.elapsed] at hsum
  have hest : estimate m e.minRtt e.time = originAt s + growth (offset (elapsedAt s e)) := by
    rw [estimate_eq hb.origin hb.le hcube hsum, hb.point, hb.elapsed]
  have hsum' := hf.origin
  obtain ⟨hreno, hrenoLt⟩ := reno_ge hb.reno_pos hb.reno_lt (hb.acked.trans_le ho.le)
  unfold grown
  rw [hest, hb.acked, add64_of_lt hhalf]
  omega

/-- the state after the cubic function has run -/
theorem grown_inv {cfg : Config} {s s' : State} {e : Ack} {m : Cubic} {cwnd : Nat}
    (hi : Inv cfg s) (ho : Ordered s e) (hf : Fits s e) (hb : Begun s e m) (hlow : s.cwnd ≤ cwnd)
    (hle : cwnd ≤ grown m s.cwnd e.minRtt e.time) (hcwnd : s'.cwnd = cwnd)
    (hcubic : s'.cubic = { m with renoCwnd := reno m, ackedBytes := 0 })
    (hslow : s'.c.slowstart = s.c.slowstart) (helapsed : s'.time + s'.c.rtt.minRtt = e.time + e.minRtt)
    (htime : s'.time = e.time) : Inv cfg s' := by
  obtain ⟨_, hlt, hcurve⟩ := grown_spec ho hf hb
  obtain ⟨hreno, hrenoLt⟩ := reno_ge hb.reno_pos hb.reno_lt (hb.acked.trans_le ho.le)
  refine ⟨?_, ?_, ?_, ?_, fun _ _ => ?_⟩
  · exact hcwnd ▸ Nat.lt_of_lt_of_le hi.pos hlow
  · exact hcwnd ▸ Nat.lt_of_le_of_lt hle hlt
  · rw [hslow, hcwnd]
    exact hi.threshold.trans hlow
  · rw [hcubic, hcwnd]
    exact hb.maxCwnd.trans_le (hi.maxCwnd.trans hlow)
  · have hel : s'.elapsed = elapsedAt s e := by
      rw [State.elapsed, helapsed, hcubic]
      exact hb.elapsed
    refine ⟨?_, ?_, ?_, ?_, ?_, ?_⟩
    · rw [hcubic]
      exact hb.origin
    · rw [hcubic]
    · rw [hcubic, htime]
      exact hb.le
    · rw [hcubic]
      exact Nat.lt_of_lt_of_le hb.reno_pos hreno
    · rw [hcubic]
      exact hrenoLt
    · rw [hel, hcwnd, hcubic]
      show cwnd ≤ max (m.originCwndPoint + _) (reno m)
      rw [hb.point]
      exact hle.trans hcurve

/-- what leaves the window alone -/
theorem idle_inv {cfg : Config} {s s' : State} (hi : Inv cfg s) (hcwnd : s'.cwnd = s.cwnd)
    (hslow : s'.c.slowstart = s.c.slowstart) (hmax : s'.cubic.maxCwnd = s.cubic.maxCwnd)
    (hepoch : s'.cubic.epoch ≠ 0 → s'.cwnd < cfg.maxCwnd → Epoch s') : Inv cfg s' := by
  refine ⟨?_, ?_, ?_, ?_, hepoch⟩
  · exact hcwnd ▸ hi.pos
  · exact hcwnd ▸ hi.lt
  · rw [hslow, hcwnd]
    exact hi.threshold
  · rw [hmax, hcwnd]
    exact hi.maxCwnd

/-- above the slow-start threshold the window is left alone, or it is the cubic function's -/
theorem increaseCwnd_cases (cfg : Config) (cbrt : Nat → Nat) (c : Congestion)
    (ackedBytes unackedBytes eventTime : Nat) (hth : c.slowstart.threshold ≤ c.base.cwnd)
    {c' : Congestion} (h : Congestion.increaseCwnd cfg cbrt c ackedBytes unackedBytes eventTime = c') :
    (c'.slowstart = c.slowstart ∧ c'.rtt = c.rtt) ∧
    ((c'.base.cwnd = c.base.cwnd ∧ c'.cubic = { c.cubic with epoch := 0 }) ∨
      (c'.base.cwnd = c.base.cwnd ∧ c'.cubic = c.cubic ∧ cfg.maxCwnd ≤ c.base.cwnd) ∨
      ((Congestion.cwndLimited c unackedBytes = true ∧ c.base.cwnd < cfg.maxCwnd) ∧
        c'.base.cwnd = min cfg.maxCwnd (grown (begun cbrt c.cubic ackedBytes c.base.cwnd eventTime)
          c.base.cwnd c.rtt.minRtt eventTime) ∧
        c'.cubic = { begun cbrt c.cubic ackedBytes c.base.cwnd eventTime with
          renoCwnd := reno (begun cbrt c.cubic ackedBytes c.base.cwnd eventTime)
          ackedBytes := 0 })) := by
  unfold Congestion.increaseCwnd at h
  dsimp only at h
  split at h
  · rw [← h]
    exact ⟨⟨rfl, rfl⟩, Or.inl ⟨rfl, rfl⟩⟩
  · rename_i hlim
    split at h
    · rename_i hmax
      rw [← h]
      exact ⟨⟨rfl, rfl⟩, Or.inr (Or.inl ⟨rfl, rfl, hmax⟩)⟩
    · rename_i hmax
      rw [if_neg (Nat.not_lt.mpr hth), cubicOnAcked_eq] at h
      rw [← h]
      refine ⟨⟨rfl, rfl⟩, Or.inr (Or.inr ⟨⟨by simpa using hlim, Nat.not_le.mp hmax⟩, ?_, rfl⟩)⟩
      show (if cfg.maxCwnd < grown _ _ _ _ then _ else grown _ _ _ _) = min _ (grown _ _ _ _)
      rw [Nat.min_def]
      split <;> split <;> omega

/-- an acknowledgement keeps the invariant and does not lower the window -/
theorem step_inv {cfg : Config} {cbrt : Nat → Nat} {s s' : State} {e : Ack} (hi : Inv cfg s)
    (ho : Ordered s e) (hg : Guarded cfg s e) (h : step cfg cbrt s e = some s') :
    Inv cfg s' ∧ s.cwnd ≤ s'.cwnd := by
  have htime : s'.time = e.time := by rw [← Option.some.inj h]
  obtain ⟨⟨hslow, hrtt⟩, hcases⟩ := increaseCwnd_cases cfg cbrt (withRtt s.c e.minRtt) e.ackedBytes
    e.unackedBytes e.time hi.threshold (congrArg State.c (Option.some.inj h))
  have hrtt : s'.c.rtt.minRtt = e.minRtt := by rw [hrtt]; rfl
  rcases hcases with hidle | hfull | ⟨hgrows, hcwnd, hcubic⟩
  · refine ⟨idle_inv hi hidle.1 hslow (by rw [State.cubic, hidle.2]; rfl) fun he => absurd ?_ he,
      hidle.1.ge⟩
    rw [State.cubic, hidle.2]
  · refine ⟨idle_inv hi hfull.1 hslow (by rw [State.cubic, hfull.2.1]; rfl) fun _ hlt => ?_,
      hfull.1.ge⟩
    exact absurd (hfull.1 ▸ hlt) (Nat.not_lt.mpr hfull.2.2)
  · have hf := hg hgrows
    have hb := begun_spec cbrt hi ho hgrows.2 hf
    have hlow : s.cwnd ≤ s'.cwnd := by
      rw [State.cwnd, State.cwnd, hcwnd]
      exact Nat.le_min.mpr ⟨Nat.le_of_lt hgrows.2, (grown_spec ho hf hb).1⟩
    refine ⟨grown_inv hi ho hf hb hlow ?_ rfl hcubic hslow (by rw [htime, hrtt]) htime, hlow⟩
    rw [State.cwnd, hcwnd]
    exact Nat.min_le_right _ _

instance decidableOrdered (s : State) (e : Ack) : Decidable (Ordered s e) :=
  decidable_of_iff (1 ≤ e.ackedBytes ∧ e.ackedBytes ≤ 1460 ∧ s.time ≤ e.time)
    ⟨fun h => ⟨h.1, h.2.1, h.2.2⟩, fun h => ⟨h.pos, h.le, h.time⟩⟩

instance decidableFits (s : State) (e : Ack) : Decidable (Fits s e) :=
  decidable_of_iff (598600 * offset (elapsedAt s e) ^ 3 < 2 ^ 64 ∧
      originAt s + growth (offset (elapsedAt s e)) < 2 ^ 64 ∧ s.cwnd + e.ackedBytes / 2 < 2 ^ 64 ∧
      (s.cubic.epoch ≠ 0 → s.time + s.c.rtt.minRtt ≤ e.time + e.minRtt))
    ⟨fun h => ⟨h.1, h.2.1, h.2.2.1, h.2.2.2⟩, fun h => ⟨h.cube, h.origin, h.half, h.elapsed⟩⟩

instance decidableGuarded (cfg : Config) (s : State) (e : Ack) : Decidable (Guarded cfg s e) :=
  inferInstanceAs (Decidable (_ ∧ _ → _))

/-- **The window does not fall.**  Along guarded runs no acknowledgement lowers it. -/
theorem grows_run (cfg : Config) (cbrt : Nat → Nat) {s : State} (hs : Starts s) (es : List Ack)
    (ho : Runs.Along (step cfg cbrt) Ordered s es)
    (hg : Runs.Along (step cfg cbrt) (Guarded cfg) s es) :
    ∀ past e, past ++ [e] <+: es → ∀ s1 s2, Runs.run (step cfg cbrt) s past = some s1 →
      step cfg cbrt s1 e = some s2 → s1.cwnd ≤ s2.cwnd := by
  intro past e hpast s1 s2 h1 h2
  obtain ⟨hi, hoe, hge⟩ := Runs.run_met (fun _ _ _ hi hoe h => (step_inv hi hoe.1 hoe.2 h).1)
    hs.inv (ho.and (step cfg cbrt) hg) hpast h1
  exact (step_inv hi hoe hge h2).2

/-- a path of the server that has left slow start with its first window -/
def outOfSlowstart : State :=
  ⟨{ Congestion.init serverCfg with slowstart := ⟨1460, 0, 0, false, 0, 0, true, 0⟩ }, 0⟩

theorem outOfSlowstart_starts : Starts outOfSlowstart :=
  ⟨by decide, by decide, by decide, rfl, by decide⟩

/-- an acknowledgement that starts the epoch, and five twenty seconds later -/
def steady : List Ack :=
  ⟨0, 1460, 14600, 1⟩ :: List.replicate 5 ⟨0, 1460, 14600, 20000000⟩

theorem grows_run_steady :
    Runs.Along (step serverCfg id) Ordered outOfSlowstart steady ∧
    Runs.Along (step serverCfg id) (Guarded serverCfg) outOfSlowstart steady ∧
    ∀ past e, past ++ [e] <+: steady → ∀ s1 s2,
      Runs.run (step serverCfg id) outOfSlowstart past = some s1 →
      step serverCfg id s1 e = some s2 → s1.cwnd ≤ s2.cwnd :=
  have ho : Runs.Along (step serverCfg id) Ordered outOfSlowstart steady := by decide +kernel
  have hg : Runs.Along (step serverCfg id) (Guarded serverCfg) outOfSlowstart steady := by
    decide +kernel
  ⟨ho, hg, grows_run serverCfg id outOfSlowstart_starts steady ho hg⟩

/-- 30.6 seconds into an epoch the cube does not fit into a word any more. -/
theorem not_grows_run :
    ¬ ∀ (cfg : Config) (cbrt : Nat → Nat) (s : State), Starts s → ∀ es : List Ack,
      Runs.Along (step cfg cbrt) Ordered s es →
      ∀ past e, past ++ [e] <+: es → ∀ s1 s2, Runs.run (step cfg cbrt) s past = some s1 →
        step cfg cbrt s1 e = some s2 → s1.cwnd ≤ s2.cwnd := by
  intro h
  have ho : Runs.Along (step serverCfg id) Ordered outOfSlowstart
      (steady ++ [⟨0, 1460, 14600, 30618000⟩]) := by decide +kernel
  have h1 : (Runs.run (step serverCfg id) outOfSlowstart steady).map State.cwnd = some 5882 := by
    decide +kernel
  have h2 : (Runs.run (step serverCfg id) outOfSlowstart
      (steady ++ [⟨0, 1460, 14600, 30618000⟩])).map State.cwnd = some 4395 := by decide +kernel
  obtain ⟨s1, hs1, hc1⟩ := Option.map_eq_some_iff.mp h1
  obtain ⟨s2, hs2, hc2⟩ := Option.map_eq_some_iff.mp h2
  rw [Runs.run_concat _ hs1] at hs2
  have hle := h serverCfg id outOfSlowstart outOfSlowstart_starts _ ho steady _ List.prefix_rfl s1 s2
    hs1 hs2
  rw [hc1, hc2] at hle
  exact absurd hle (by decide)

end CubicGrowth
end OpenQuic
