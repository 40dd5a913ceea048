import OpenQuic.Modules.Congestion
import OpenQuic.Lib.Runs
import Mathlib.Tactic.NormNum

/-!
# The bounds of the congestion window

The events of one path, and what they keep: `min_cwnd ≤ cwnd ≤ max_cwnd`, no subtraction with the
window wraps, and the cubic function never divides by zero.

* `Bounded`           the property of a state;
* `Guarded`           the states in which an event keeps it: the slow-start increase and the three
                      subtractions of the loss handler are not clamped by the code;
* `reno_grow`         the reno estimate neither wraps nor reaches a multiple of `2 ^ 64`;
* `Inv`, `step_inv`   the invariant, and that a guarded step keeps it;
* `bounded_iff`       the runs in which every state is bounded are the guarded ones.
-/

set_option linter.unusedSimpArgs false

namespace OpenQuic
open Word

/-- `0 < min_cwnd ≤ initial_cwnd ≤ max_cwnd`, all `uint64_t` -/
structure Config.CwndOk (cfg : Config) : Prop where
  min_pos : 0 < cfg.minCwnd
  min_le : cfg.minCwnd ≤ cfg.initialCwnd
  le_max : cfg.initialCwnd ≤ cfg.maxCwnd
  max_lt : cfg.maxCwnd < 2 ^ 64

namespace Congestion

/-! ## events -/

inductive Event where
  | sent (sentTime num bytes : Nat) (includedUnacked : Bool)
  | acked (num bytes unackedBytes eventTime : Nat)
  | lost (num bytes unackedBytes : Nat)
  | update (recvTime sentTime delay : Nat)

/-- the packets have 1 to 1460 bytes -/
def Event.PacketSize : Event → Prop
  | .sent _ _ bytes _ => 1 ≤ bytes ∧ bytes ≤ 1460
  | .acked _ bytes _ _ => 1 ≤ bytes ∧ bytes ≤ 1460
  | .lost _ bytes _ => 1 ≤ bytes ∧ bytes ≤ 1460
  | .update _ _ _ => True

def step (cfg : Config) (cbrt : Nat → Nat) (c : Congestion) : Event → Option Congestion
  | .sent sentTime num bytes includedUnacked => some (onSent c sentTime num bytes includedUnacked)
  | .acked num bytes unackedBytes eventTime =>
    some (onAcked cfg cbrt c num bytes unackedBytes eventTime)
  | .lost num bytes unackedBytes => some (onLost cfg c num bytes unackedBytes)
  | .update recvTime sentTime delay => some (update c recvTime sentTime delay)

/-! ## the property and its condition -/

structure Bounded (cfg : Config) (c : Congestion) : Prop where
  min_le : cfg.minCwnd ≤ c.base.cwnd
  le_max : c.base.cwnd ≤ cfg.maxCwnd
  subs : ∀ p ∈ c.log.subs, p.2 ≤ p.1
  divisors : ∀ d ∈ c.log.divisors, d ≠ 0

/-- the acknowledgement takes the slow-start increase of the window -/
def SlowstartGrows (cfg : Config) (c : Congestion) (num unackedBytes : Nat) : Prop :=
  inRecovery (ackedNum c.base num) = false ∧ cwndLimited c unackedBytes = true ∧
    c.base.cwnd < cfg.maxCwnd ∧ c.base.cwnd < c.slowstart.threshold

/-- what the code does not check by itself: the increase of slow start stays below `max_cwnd` (or
comes round above `min_cwnd`), and a large reduction stays above zero and, where no clamp follows,
above `min_cwnd` -/
def Guarded (cfg : Config) (c : Congestion) : Event → Prop
  | .acked num _ unackedBytes _ => SlowstartGrows cfg c num unackedBytes →
      c.base.cwnd + 1460 ≤ cfg.maxCwnd ∨ cfg.minCwnd + 2 ^ 64 ≤ c.base.cwnd + 1460
  | .lost num bytes _ =>
    if c.base.lost ∧ num ≤ c.base.atLossLargestSentNum then
      c.base.atLossInSlowstart ∧ cfg.slowstartLargeReduction →
        bytes ≤ c.base.cwnd ∧ cfg.minCwnd ≤ max (c.base.cwnd - bytes) c.slowstart.minExitCwnd
    else cfg.slowstartLargeReduction ∧ c.base.cwnd < c.slowstart.threshold → 1460 ≤ c.base.cwnd
  | _ => True

structure Inv (cfg : Config) (c : Congestion) : Prop extends Bounded cfg c where
  acked_zero : c.cubic.ackedBytes = 0
  reno_ge : c.cubic.epoch ≠ 0 → cfg.minCwnd ≤ c.cubic.renoCwnd ∧ c.cubic.renoCwnd < 2 ^ 64
  exit_le : c.slowstart.minExitCwnd ≤ cfg.maxCwnd

/-! ## sending and round-trip updates -/

/-- what an event leaves alone when the window, the cubic state, the exit window and the log are
what they were -/
theorem Inv.congr {cfg : Config} {c c' : Congestion} (hi : Inv cfg c)
    (hcwnd : c'.base.cwnd = c.base.cwnd) (hcubic : c'.cubic = c.cubic)
    (hexit : c'.slowstart.minExitCwnd = c.slowstart.minExitCwnd) (hlog : c'.log = c.log) :
    Inv cfg c' := by
  refine ⟨⟨?_, ?_, ?_, ?_⟩, ?_, ?_, ?_⟩
  · rw [hcwnd]; exact hi.min_le
  · rw [hcwnd]; exact hi.le_max
  · rw [hlog]; exact hi.subs
  · rw [hlog]; exact hi.divisors
  · rw [hcubic]; exact hi.acked_zero
  · rw [hcubic]; exact hi.reno_ge
  · rw [hexit]; exact hi.exit_le

theorem onSent_inv {cfg : Config} {c : Congestion} (hi : Inv cfg c) (sentTime num bytes : Nat)
    (includedUnacked : Bool) : Inv cfg (onSent c sentTime num bytes includedUnacked) := by
  cases includedUnacked with
  | false => exact hi.congr rfl rfl rfl rfl
  | true => exact hi.congr rfl rfl rfl rfl

theorem update_inv {cfg : Config} {c : Congestion} (hi : Inv cfg c) (recvTime sentTime delay : Nat) :
    Inv cfg (update c recvTime sentTime delay) := by
  -- every branch writes the round-trip estimate and the slow-start record only
  have hframe : ∀ s : Slowstart, s.minExitCwnd = c.slowstart.minExitCwnd →
      Inv cfg { c with rtt := rttUpdate c.rtt recvTime sentTime delay, slowstart := s } :=
    fun s hs => hi.congr rfl rfl hs rfl
  rw [update]
  dsimp only
  split
  · exact hi.congr rfl rfl rfl rfl
  · cases c.slowstart.started <;> simp only [Bool.not_true, Bool.not_false, Bool.false_eq_true,
        ↓reduceIte] <;>
      split <;> first
        | exact hframe _ rfl
        | (split <;> exact hframe _ rfl)

/-! ## the cubic function -/

theorem mul_seventeen_mod {r : Nat} (h0 : 0 < r) (hr : r < 2 ^ 64) : 17 * r % 2 ^ 64 ≠ 0 := by
  intro h
  have hco : Nat.Coprime (2 ^ 64) 17 := Nat.Coprime.pow_left 64 (by decide)
  exact Nat.not_dvd_of_pos_of_lt h0 hr (hco.dvd_of_dvd_mul_left (Nat.dvd_of_mod_eq_zero h))

/-- close to the top the multiple by 17 is close to the top as well -/
theorem lt_mul_seventeen_mod {r a : Nat} (hr : r < 2 ^ 64) (htop : 2 ^ 64 ≤ r + 19184400)
    (ha : a ≤ 19184400) : a < 17 * r % 2 ^ 64 := by
  have hq : 17 * r = 17 * r - 16 * 2 ^ 64 + 16 * 2 ^ 64 := by omega
  rw [hq, Nat.add_mul_mod_self_right, Nat.mod_eq_of_lt (by omega)]
  omega

/-- the reno estimate stays a word and its multiple by 17 is not a multiple of `2 ^ 64` -/
theorem reno_grow {r a : Nat} (h0 : 0 < r) (hr : r < 2 ^ 64) (ha : a ≤ 19184400) :
    mul64 17 r ≠ 0 ∧ r + a / mul64 17 r < 2 ^ 64 := by
  refine ⟨mul_seventeen_mod h0 hr, ?_⟩
  rcases Nat.lt_or_ge (r + 19184400) (2 ^ 64) with hlow | htop
  · have hle : a / mul64 17 r ≤ a := Nat.div_le_self _ _
    generalize a / mul64 17 r = q at hle ⊢
    omega
  · have hz : a / mul64 17 r = 0 := Nat.div_eq_of_lt (lt_mul_seventeen_mod hr htop ha)
    rw [hz]
    exact hr

theorem cubicOnLost_fst_le (m : Cubic) (cwnd : Nat) : (cubicOnLost m cwnd).1 ≤ cwnd := by
  show mul64 cwnd 7 / 10 ≤ cwnd
  have hle : mul64 cwnd 7 ≤ cwnd * 7 := Nat.mod_le _ _
  omega

/-- the state of the cubic function after the epoch has started -/
theorem cubicOnAcked_spec {cfg : Config} (cbrt : Nat → Nat) {m : Cubic} {bytes cwnd : Nat}
    (hmin : 0 < cfg.minCwnd) (hcwnd : cfg.minCwnd ≤ cwnd) (hlt : cwnd < 2 ^ 64)
    (hz : m.ackedBytes = 0)
    (hreno : m.epoch ≠ 0 → cfg.minCwnd ≤ m.renoCwnd ∧ m.renoCwnd < 2 ^ 64) (hb : bytes ≤ 1460)
    (delayMin eventTime : Nat) :
    cfg.minCwnd ≤ (cubicOnAcked cbrt m bytes cwnd delayMin eventTime).1 ∧
      (cubicOnAcked cbrt m bytes cwnd delayMin eventTime).2.1.ackedBytes = 0 ∧
      (cfg.minCwnd ≤ (cubicOnAcked cbrt m bytes cwnd delayMin eventTime).2.1.renoCwnd ∧
        (cubicOnAcked cbrt m bytes cwnd delayMin eventTime).2.1.renoCwnd < 2 ^ 64) ∧
      (cubicOnAcked cbrt m bytes cwnd delayMin eventTime).2.2 ≠ 0 := by
  rw [cubicOnAcked]
  dsimp only
  -- the record that the epoch branch leaves
  generalize hm' : (if m.epoch = 0 then _ else _ : Cubic) = m'
  have hspec : m'.ackedBytes ≤ 1460 ∧ cfg.minCwnd ≤ m'.renoCwnd ∧ m'.renoCwnd < 2 ^ 64 := by
    have hu : u32 bytes = bytes := u32_of_lt (by omega)
    subst hm'
    split
    · split
      · exact ⟨by show u32 bytes ≤ 1460; rw [hu]; exact hb, hcwnd, hlt⟩
      · exact ⟨by show u32 bytes ≤ 1460; rw [hu]; exact hb, hcwnd, hlt⟩
    · rename_i he
      refine ⟨?_, hreno he⟩
      show u32 (m.ackedBytes + bytes) ≤ 1460
      rw [hz, Nat.zero_add, hu]
      exact hb
  obtain ⟨hacked, hge, hrlt⟩ := hspec
  have hmul : mul32 (mul32 m'.ackedBytes 1460) 9 = m'.ackedBytes * 1460 * 9 := by
    rw [mul32_of_lt (a := m'.ackedBytes) (by omega), mul32_of_lt (by omega)]
  obtain ⟨hne, hgrow⟩ :=
    reno_grow (a := m'.ackedBytes * 1460 * 9) (by omega : 0 < m'.renoCwnd) hrlt (by omega)
  rw [hmul, add64_of_lt hgrow]
  have hge' : cfg.minCwnd ≤ m'.renoCwnd + m'.ackedBytes * 1460 * 9 / mul64 17 m'.renoCwnd :=
    Nat.le_trans hge (Nat.le_add_right _ _)
  exact ⟨Nat.le_trans hge' (Nat.le_max_right _ _), rfl, ⟨hge', hgrow⟩, hne⟩

/-! ## an acknowledgement -/

theorem cwndLimitedSubs_le (c : Congestion) (unackedBytes : Nat) :
    ∀ p ∈ cwndLimitedSubs c unackedBytes, p.2 ≤ p.1 := by
  intro p hp
  rw [cwndLimitedSubs] at hp
  split at hp
  · cases hp
  · split at hp
    · cases hp
    · rw [List.mem_singleton.mp hp]
      show unackedBytes ≤ c.base.cwnd
      omega

theorem cubicSubs_le {m : Cubic} {cwnd : Nat} : ∀ p ∈ cubicSubs m cwnd, p.2 ≤ p.1 := by
  intro p hp
  rw [cubicSubs] at hp
  split at hp
  · rename_i h
    rw [List.mem_singleton.mp hp]
    exact Nat.le_of_lt h.2
  · cases hp

/-- the increase outside slow start -/
theorem cubic_inv {cfg : Config} (hcfg : cfg.CwndOk) (cbrt : Nat → Nat) {c : Congestion}
    (hi : Inv cfg c) {bytes : Nat} (hb : bytes ≤ 1460) (eventTime : Nat) :
    Inv cfg
      { c with
        base := { c.base with
          cwnd :=
            if cfg.maxCwnd < (cubicOnAcked cbrt c.cubic bytes c.base.cwnd c.rtt.minRtt eventTime).1
            then cfg.maxCwnd
            else (cubicOnAcked cbrt c.cubic bytes c.base.cwnd c.rtt.minRtt eventTime).1 }
        cubic := (cubicOnAcked cbrt c.cubic bytes c.base.cwnd c.rtt.minRtt eventTime).2.1
        log := ⟨cubicSubs c.cubic c.base.cwnd ++ c.log.subs,
          (cubicOnAcked cbrt c.cubic bytes c.base.cwnd c.rtt.minRtt eventTime).2.2 ::
            c.log.divisors⟩ } := by
  have hlt : c.base.cwnd < 2 ^ 64 := Nat.lt_of_le_of_lt hi.le_max hcfg.max_lt
  have hmm : cfg.minCwnd ≤ cfg.maxCwnd := Nat.le_trans hcfg.min_le hcfg.le_max
  obtain ⟨hmin, hz, hreno, hd⟩ := cubicOnAcked_spec cbrt hcfg.min_pos hi.min_le hlt hi.acked_zero
    hi.reno_ge hb c.rtt.minRtt eventTime
  refine ⟨⟨?_, ?_, ?_, ?_⟩, hz, fun _ => hreno, hi.exit_le⟩
  · dsimp only
    split
    · exact hmm
    · exact hmin
  · dsimp only
    split <;> omega
  · intro p hp
    rcases List.mem_append.mp hp with h | h
    · exact cubicSubs_le p h
    · exact hi.subs p h
  · intro d hd'
    rcases List.mem_cons.mp hd' with h | h
    · rw [h]; exact hd
    · exact hi.divisors d h

theorem addSubs_inv {cfg : Config} {c : Congestion} (hi : Inv cfg c) {subs : List (Nat × Nat)}
    (hs : ∀ p ∈ subs, p.2 ≤ p.1) :
    Inv cfg { c with log := { c.log with subs := subs ++ c.log.subs } } := by
  refine ⟨⟨hi.min_le, hi.le_max, ?_, hi.divisors⟩, hi.acked_zero, hi.reno_ge, hi.exit_le⟩
  intro p hp
  rcases List.mem_append.mp hp with h | h
  · exact hs p h
  · exact hi.subs p h

theorem increaseCwnd_inv {cfg : Config} (hcfg : cfg.CwndOk) (cbrt : Nat → Nat) {c : Congestion}
    (hi : Inv cfg c) {bytes : Nat} (unackedBytes : Nat) (hb : bytes ≤ 1460) (eventTime : Nat)
    (hg : cwndLimited c unackedBytes = true → c.base.cwnd < cfg.maxCwnd →
      c.base.cwnd < c.slowstart.threshold →
      c.base.cwnd + 1460 ≤ cfg.maxCwnd ∨ cfg.minCwnd + 2 ^ 64 ≤ c.base.cwnd + 1460) :
    Inv cfg (increaseCwnd cfg cbrt c bytes unackedBytes eventTime) := by
  have hi' := addSubs_inv hi (cwndLimitedSubs_le c unackedBytes)
  have hmax := hcfg.max_lt
  rw [increaseCwnd]
  dsimp only
  split
  · exact ⟨⟨hi'.min_le, hi'.le_max, hi'.subs, hi'.divisors⟩, hi'.acked_zero,
      fun h => absurd rfl h, hi'.exit_le⟩
  · rename_i hlim
    split
    · exact hi'
    · split
      · rename_i hlt hth
        have hle := hi.le_max
        have hadd : cfg.minCwnd ≤ add64 c.base.cwnd 1460 ∧ add64 c.base.cwnd 1460 ≤ cfg.maxCwnd := by
          have he : add64 c.base.cwnd 1460 = (c.base.cwnd + 1460) % 2 ^ 64 := rfl
          have hge := hi.min_le
          rcases hg (by simpa using hlim) (by omega) hth with h | h <;> omega
        exact ⟨⟨hadd.1, hadd.2, hi'.subs, hi'.divisors⟩, hi'.acked_zero, hi'.reno_ge, hi'.exit_le⟩
      · exact cubic_inv hcfg cbrt hi' hb eventTime

theorem ackedNum_cwnd (b : CongestionBase) (num : Nat) : (ackedNum b num).cwnd = b.cwnd := by
  rw [ackedNum]
  split
  · rfl
  · split <;> rfl

theorem onAcked_inv {cfg : Config} (hcfg : cfg.CwndOk) (cbrt : Nat → Nat) {c : Congestion}
    (hi : Inv cfg c) {num bytes unackedBytes : Nat} (hb : bytes ≤ 1460) (eventTime : Nat)
    (hg : Guarded cfg c (.acked num bytes unackedBytes eventTime)) :
    Inv cfg (onAcked cfg cbrt c num bytes unackedBytes eventTime) := by
  have hi' : Inv cfg { c with base := ackedNum c.base num } :=
    hi.congr (ackedNum_cwnd c.base num) rfl rfl rfl
  rw [onAcked]
  dsimp only
  split
  · split
    · exact hi'.congr rfl rfl rfl rfl
    · exact hi'
  · rename_i hrec
    have hinc := increaseCwnd_inv hcfg cbrt hi' unackedBytes hb eventTime (by
      rw [cwndLimited]
      dsimp only
      rw [ackedNum_cwnd]
      intro hlim hlt hth
      exact hg ⟨by simpa using hrec, by rw [cwndLimited]; exact hlim, hlt, hth⟩)
    split
    · exact hinc.congr rfl rfl rfl rfl
    · exact hinc

/-! ## a loss -/

theorem onLostAgain_inv {cfg : Config} (hcfg : cfg.CwndOk) {c : Congestion} (hi : Inv cfg c)
    {bytes : Nat}
    (hg : c.base.atLossInSlowstart ∧ cfg.slowstartLargeReduction →
      bytes ≤ c.base.cwnd ∧ cfg.minCwnd ≤ max (c.base.cwnd - bytes) c.slowstart.minExitCwnd) :
    Inv cfg (onLostAgain cfg c bytes) := by
  have hlt : c.base.cwnd < 2 ^ 64 := Nat.lt_of_le_of_lt hi.le_max hcfg.max_lt
  have hexit := hi.exit_le
  have hle := hi.le_max
  rw [onLostAgain]
  split
  · rename_i hslow
    dsimp only
    split
    · rename_i hlarge
      obtain ⟨hbytes, hmin⟩ := hg ⟨hslow, hlarge⟩
      rw [sub64_of_le hbytes hlt]
      refine ⟨⟨?_, ?_, ?_, hi.divisors⟩, hi.acked_zero, hi.reno_ge, hi.exit_le⟩
      · dsimp only
        split <;> omega
      · dsimp only
        split <;> omega
      · intro p hp
        rcases List.mem_cons.mp hp with h | h
        · rw [h]; exact hbytes
        · exact hi.subs p h
    · exact hi.congr rfl rfl rfl rfl
  · exact hi

/-- the reduction leaves a window that the clamp below completes -/
theorem reduceCwnd_spec {cfg : Config} (hcfg : cfg.CwndOk) {c : Congestion} (hi : Inv cfg c)
    (hg : cfg.slowstartLargeReduction ∧ c.base.atLossInSlowstart → 1460 ≤ c.base.cwnd) :
    (reduceCwnd cfg c).base.cwnd ≤ cfg.maxCwnd ∧
      (∀ p ∈ (reduceCwnd cfg c).log.subs, p.2 ≤ p.1) ∧
      (reduceCwnd cfg c).log.divisors = c.log.divisors ∧
      (reduceCwnd cfg c).cubic.ackedBytes = 0 ∧
      ((reduceCwnd cfg c).cubic.epoch ≠ 0 →
        (reduceCwnd cfg c).cubic.renoCwnd = c.cubic.renoCwnd ∧ c.cubic.epoch ≠ 0) ∧
      (reduceCwnd cfg c).slowstart.minExitCwnd ≤ cfg.maxCwnd := by
  have hlt : c.base.cwnd < 2 ^ 64 := Nat.lt_of_le_of_lt hi.le_max hcfg.max_lt
  have hle := hi.le_max
  have hexit := hi.exit_le
  rw [reduceCwnd]
  split
  · rename_i h
    have h1460 := hg (by simpa using h)
    rw [sub64_of_le h1460 hlt]
    refine ⟨by show c.base.cwnd - 1460 ≤ _; omega, ?_, rfl, hi.acked_zero, fun h => ⟨rfl, h⟩, ?_⟩
    · intro p hp
      rcases List.mem_cons.mp hp with h | h
      · rw [h]; exact h1460
      · exact hi.subs p h
    · dsimp only
      split <;> omega
  · exact ⟨Nat.le_trans (cubicOnLost_fst_le c.cubic _) hle, hi.subs, rfl, hi.acked_zero,
      fun h => absurd rfl h, hexit⟩

theorem onLostFirst_inv {cfg : Config} (hcfg : cfg.CwndOk) {c : Congestion} (hi : Inv cfg c)
    (unackedBytes : Nat)
    (hg : cfg.slowstartLargeReduction ∧ c.base.cwnd < c.slowstart.threshold → 1460 ≤ c.base.cwnd) :
    Inv cfg (onLostFirst cfg c unackedBytes) := by
  have hmm : cfg.minCwnd ≤ cfg.maxCwnd := Nat.le_trans hcfg.min_le hcfg.le_max
  rw [onLostFirst]
  dsimp only
  generalize hc1 : (if (!cfg.disablePrr) = true then _ else _ : Congestion) = c1
  have hi1 : Inv cfg c1 := by
    subst hc1
    split <;> exact hi.congr rfl rfl rfl rfl
  have hbase : c1.base.cwnd = c.base.cwnd ∧
      c1.base.atLossInSlowstart = decide (c.base.cwnd < c.slowstart.threshold) ∧
      c1.cubic = c.cubic ∧ c1.log = c.log := by
    subst hc1
    split <;> exact ⟨rfl, rfl, rfl, rfl⟩
  obtain ⟨hcwnd, hslow, hcubic, hlog⟩ := hbase
  obtain ⟨hmax, hsubs, hdiv, hacked, hreno, hexit⟩ := reduceCwnd_spec hcfg hi1 (by
    rw [hcwnd, hslow, decide_eq_true_eq]
    exact hg)
  refine ⟨⟨?_, ?_, hsubs, ?_⟩, hacked, ?_, hexit⟩
  · dsimp only
    split <;> omega
  · dsimp only
    split <;> omega
  · show ∀ d ∈ (reduceCwnd cfg c1).log.divisors, d ≠ 0
    rw [hdiv]
    exact hi1.divisors
  · intro h
    obtain ⟨he, hne⟩ := hreno h
    show cfg.minCwnd ≤ (reduceCwnd cfg c1).cubic.renoCwnd ∧
      (reduceCwnd cfg c1).cubic.renoCwnd < 2 ^ 64
    rw [he]
    exact hi1.reno_ge hne

/-! ## steps and runs -/

theorem init_inv {cfg : Config} (hcfg : cfg.CwndOk) : Inv cfg (init cfg) :=
  ⟨⟨hcfg.min_le, hcfg.le_max, List.forall_mem_nil _, List.forall_mem_nil _⟩, rfl,
    fun h => absurd rfl h, Nat.zero_le _⟩

theorem step_inv {cfg : Config} (hcfg : cfg.CwndOk) (cbrt : Nat → Nat) {c : Congestion} {e : Event}
    (hi : Inv cfg c) (hsize : e.PacketSize) (hg : Guarded cfg c e) :
    ∃ c', step cfg cbrt c e = some c' ∧ Inv cfg c' := by
  cases e with
  | sent sentTime num bytes includedUnacked =>
    exact ⟨_, rfl, onSent_inv hi sentTime num bytes includedUnacked⟩
  | acked num bytes unackedBytes eventTime =>
    exact ⟨_, rfl, onAcked_inv hcfg cbrt hi hsize.2 eventTime hg⟩
  | lost num bytes unackedBytes =>
    refine ⟨_, rfl, ?_⟩
    rw [Guarded] at hg
    rw [onLost]
    split
    · rename_i h
      rw [if_pos h] at hg
      exact onLostAgain_inv hcfg hi hg
    · rename_i h
      rw [if_neg h] at hg
      exact onLostFirst_inv hcfg hi unackedBytes hg
  | update recvTime sentTime delay => exact ⟨_, rfl, update_inv hi recvTime sentTime delay⟩

/-! ## a step that is not guarded -/

theorem increaseCwnd_cwnd (cfg : Config) (cbrt : Nat → Nat) {c : Congestion} {unackedBytes : Nat}
    (hlim : cwndLimited c unackedBytes = true) (hmax : c.base.cwnd < cfg.maxCwnd)
    (hth : c.base.cwnd < c.slowstart.threshold) (bytes eventTime : Nat) :
    (increaseCwnd cfg cbrt c bytes unackedBytes eventTime).base.cwnd = add64 c.base.cwnd 1460 := by
  rw [increaseCwnd]
  dsimp only
  rw [hlim, if_neg (by decide), if_neg (Nat.not_le.mpr hmax), if_pos hth]

theorem onAcked_cwnd {cfg : Config} (cbrt : Nat → Nat) {c : Congestion} {num unackedBytes : Nat}
    (hg : SlowstartGrows cfg c num unackedBytes) (bytes eventTime : Nat) :
    (onAcked cfg cbrt c num bytes unackedBytes eventTime).base.cwnd = add64 c.base.cwnd 1460 := by
  obtain ⟨hrec, hlim, hmax, hth⟩ := hg
  have hinc := increaseCwnd_cwnd cfg cbrt (c := { c with base := ackedNum c.base num })
    (by rw [cwndLimited] at hlim ⊢; dsimp only; rw [ackedNum_cwnd]; exact hlim)
    (by dsimp only; rw [ackedNum_cwnd]; exact hmax)
    (by dsimp only; rw [ackedNum_cwnd]; exact hth) bytes eventTime
  dsimp only at hinc
  rw [ackedNum_cwnd] at hinc
  rw [onAcked]
  dsimp only
  rw [hrec, if_neg (by decide)]
  split <;> exact hinc

/-- an increase that leaves the bounds shows in the window -/
theorem acked_guarded {cfg : Config} (hcfg : cfg.CwndOk) (cbrt : Nat → Nat) {c : Congestion}
    {num bytes unackedBytes eventTime : Nat} (hle : c.base.cwnd ≤ cfg.maxCwnd)
    (hb : Bounded cfg (onAcked cfg cbrt c num bytes unackedBytes eventTime)) :
    Guarded cfg c (.acked num bytes unackedBytes eventTime) := by
  intro hg
  have hmax := hcfg.max_lt
  have hlo := hb.min_le
  have hhi := hb.le_max
  rw [onAcked_cwnd cbrt hg] at hlo hhi
  have he : add64 c.base.cwnd 1460 = (c.base.cwnd + 1460) % 2 ^ 64 := rfl
  rw [he] at hlo hhi
  omega

/-- a second reduction that leaves the bounds shows in the log or in the window -/
theorem lostAgain_guarded {cfg : Config} {c : Congestion} {bytes : Nat}
    (hlt : c.base.cwnd < 2 ^ 64) (hb : Bounded cfg (onLostAgain cfg c bytes))
    (hslow : c.base.atLossInSlowstart = true) (hlarge : cfg.slowstartLargeReduction = true) :
    bytes ≤ c.base.cwnd ∧ cfg.minCwnd ≤ max (c.base.cwnd - bytes) c.slowstart.minExitCwnd := by
  have hlog := hb.subs
  have hmin := hb.min_le
  rw [onLostAgain, if_pos hslow] at hlog hmin
  dsimp only at hlog hmin
  rw [if_pos hlarge] at hlog hmin
  have hbytes : bytes ≤ c.base.cwnd := hlog (c.base.cwnd, bytes) List.mem_cons_self
  refine ⟨hbytes, Nat.le_trans hmin ?_⟩
  dsimp only
  rw [sub64_of_le hbytes hlt]
  split <;> omega

/-- so does a first one -/
theorem lostFirst_guarded {cfg : Config} {c : Congestion} {unackedBytes : Nat}
    (hb : Bounded cfg (onLostFirst cfg c unackedBytes)) (hlarge : cfg.slowstartLargeReduction = true)
    (hslow : c.base.cwnd < c.slowstart.threshold) : 1460 ≤ c.base.cwnd := by
  have hlog := hb.subs
  rw [onLostFirst] at hlog
  dsimp only at hlog
  have hmem : (c.base.cwnd, 1460) ∈ (onLostFirst cfg c unackedBytes).log.subs := by
    rw [onLostFirst]
    dsimp only
    cases cfg.disablePrr <;>
      simp only [Bool.not_true, Bool.not_false, Bool.false_eq_true, ↓reduceIte, reduceCwnd, hlarge,
        hslow, decide_true, Bool.and_self, List.mem_cons, true_or]
  exact hb.subs _ hmem

theorem step_guarded {cfg : Config} (hcfg : cfg.CwndOk) (cbrt : Nat → Nat) {c c' : Congestion}
    {e : Event} (hi : Inv cfg c) (h : step cfg cbrt c e = some c') (hb : Bounded cfg c') :
    Guarded cfg c e := by
  have hlt : c.base.cwnd < 2 ^ 64 := Nat.lt_of_le_of_lt hi.le_max hcfg.max_lt
  cases e with
  | sent sentTime num bytes includedUnacked => trivial
  | acked num bytes unackedBytes eventTime =>
    cases h
    exact acked_guarded hcfg cbrt hi.le_max hb
  | lost num bytes unackedBytes =>
    cases h
    rw [onLost] at hb
    rw [Guarded]
    split
    · rename_i hagain
      rw [if_pos hagain] at hb
      exact fun hg => lostAgain_guarded hlt hb hg.1 hg.2
    · rename_i hfirst
      rw [if_neg hfirst] at hb
      exact fun hg => lostFirst_guarded hb hg.1 hg.2
  | update recvTime sentTime delay => trivial

/-! ## the runs that stay bounded -/

/-- **The window stays bounded exactly along the guarded runs.** -/
theorem bounded_iff {cfg : Config} (hcfg : cfg.CwndOk) (cbrt : Nat → Nat) (es : List Event)
    (hsize : ∀ e ∈ es, e.PacketSize) :
    (∀ past, past <+: es → ∃ c, Runs.run (step cfg cbrt) (init cfg) past = some c ∧ Bounded cfg c) ↔
      Runs.Along (step cfg cbrt) (Guarded cfg) (init cfg) es :=
  Runs.always_iff_along (I := Inv cfg) (P := Bounded cfg) (fun _ hi => hi.toBounded)
    (fun _ e hi hs hg => step_inv (e := e) hcfg cbrt hi hs hg)
    (fun _ e _ hi _ h hb => step_guarded (e := e) hcfg cbrt hi h hb) es (init_inv hcfg)
    (Runs.Along.of_mem _ hsize)

instance (cfg : Config) (c : Congestion) (num unackedBytes : Nat) :
    Decidable (SlowstartGrows cfg c num unackedBytes) :=
  inferInstanceAs (Decidable (_ ∧ _ ∧ _ ∧ _))

instance decidableGuarded (cfg : Config) (c : Congestion) : (e : Event) → Decidable (Guarded cfg c e)
  | .acked _ _ _ _ => inferInstanceAs (Decidable (_ → _))
  | .lost _ _ _ => inferInstanceAs (Decidable (ite _ _ _))
  | .sent _ _ _ _ => isTrue trivial
  | .update _ _ _ => isTrue trivial

theorem serverCfg_ok : serverCfg.CwndOk := ⟨by decide, by decide, by decide, by decide⟩

/-- one packet is acknowledged and the next one lost -/
theorem bounded_ack_lost :
    Runs.Along (step serverCfg id) (Guarded serverCfg) (init serverCfg)
        [.sent 10 1 1200 true, .sent 20 2 1200 true, .update 5000 10 0,
          .acked 1 1200 1200 5000, .lost 2 1200 0] ∧
      ∀ past, past <+: [.sent 10 1 1200 true, .sent 20 2 1200 true, .update 5000 10 0,
          .acked 1 1200 1200 5000, .lost 2 1200 0] →
        ∃ c, Runs.run (step serverCfg id) (init serverCfg) past = some c ∧ Bounded serverCfg c :=
  ⟨by decide, (bounded_iff serverCfg_ok id _ (by simp [Event.PacketSize])).mpr (by decide)⟩

/-- three packets of 1200 bytes lost in one pass: the second reduction goes below `min_cwnd`, the
third one below zero -/
theorem not_bounded :
    ¬ ∀ (cfg : Config) (cbrt : Nat → Nat) (es : List Event), cfg.CwndOk →
      (∀ e ∈ es, e.PacketSize) → ∀ past, past <+: es →
        ∃ c, Runs.run (step cfg cbrt) (init cfg) past = some c ∧ Bounded cfg c := by
  intro h
  obtain ⟨c, hc, hb⟩ := h serverCfg id
    [.sent 10 1 1200 true, .sent 20 2 1200 true, .sent 30 3 1200 true,
      .lost 1 1200 2400, .lost 2 1200 1200, .lost 3 1200 0]
    serverCfg_ok (by simp [Event.PacketSize]) _ List.prefix_rfl
  have hcwnd : (Runs.run (step serverCfg id) (init serverCfg)
      [.sent 10 1 1200 true, .sent 20 2 1200 true, .sent 30 3 1200 true,
        .lost 1 1200 2400, .lost 2 1200 1200, .lost 3 1200 0]).map (·.base.cwnd) =
      some (2 ^ 64 - 940) := by decide
  rw [hc] at hcwnd
  have hle := hb.le_max
  have he : c.base.cwnd = 2 ^ 64 - 940 := Option.some.inj hcwnd
  rw [he] at hle
  exact absurd hle (by decide)

end Congestion

end OpenQuic
