import OpenQuic.Lib.Bucket
import OpenQuic.Lib.Runs
import OpenQuic.Modules.Congestion

/-!
# Pacing

The packets of one path while the window and the round-trip estimate stay as they are.

* `Packet`            a packet, with the time at which the sender asked for budget before it;
* `Paced`             the packets that the sender's loop sends;
* `takes`             the token bucket that the packets are taken from;
* `takes_chain`       it is a bucket that fills with the bandwidth;
* `paced_run`         the bytes of any interval of time.
-/

namespace OpenQuic
open Word

namespace Pacing

structure Packet where
  /-- when `has_budget` was true -/
  asked : Time
  time : Time
  bytes : Nat

def step (c : Congestion) (p : Packet) : Option Congestion :=
  some (c.tbpSentPacket p.time p.bytes)

/-- the sender has asked after the last packet was recorded, and sends then -/
structure Paced (c : Congestion) (p : Packet) : Prop where
  bytes : p.bytes ≤ 14600
  pos : 0 < p.time
  after : c.tbp.lastSentTime ≤ p.asked
  before : p.asked ≤ p.time
  budget : c.hasBudget p.asked = true

instance decidablePaced (c : Congestion) (p : Packet) : Decidable (Paced c p) :=
  decidable_of_iff (p.bytes ≤ 14600 ∧ 0 < p.time ∧ c.tbp.lastSentTime ≤ p.asked ∧
      p.asked ≤ p.time ∧ c.hasBudget p.asked = true)
    ⟨fun h => ⟨h.1, h.2.1, h.2.2.1, h.2.2.2.1, h.2.2.2.2⟩,
      fun h => ⟨h.bytes, h.pos, h.after, h.before, h.budget⟩⟩

/-- the bytes that are sent in an interval -/
def sentBytes (s t : Time) (ps : List Packet) : Nat :=
  ((ps.filter fun p => s ≤ p.time ∧ p.time ≤ t).map Packet.bytes).sum

/-! ## the bucket -/

/-- what comes in during `d` microseconds -/
def refill (c : Congestion) (d : Nat) : Nat := c.tbpBandwidth * d / 1000000

theorem refill_add (c : Congestion) (a b : Nat) :
    refill c a + refill c b ≤ refill c (a + b) := by
  unfold refill
  rw [Nat.mul_add]
  exact Nat.div_add_div_le_add_div

theorem refill_mono (c : Congestion) {a b : Nat} (h : a ≤ b) : refill c a ≤ refill c b :=
  Nat.div_le_div_right (Nat.mul_le_mul_left _ h)

/-- Truncation, the cap and the wrapping operations only lower the budget. -/
theorem tbpBudget_le {c : Congestion} {t : Time} (h0 : c.tbp.lastSentTime ≠ 0)
    (ht : c.tbp.lastSentTime ≤ t) :
    c.tbpBudget t ≤ c.tbp.budget + refill c (t - c.tbp.lastSentTime) := by
  unfold Congestion.tbpBudget
  rw [if_neg h0]
  refine (Nat.min_le_right _ _).trans ((Nat.mod_le _ _).trans (Nat.add_le_add_left ?_ _))
  exact Nat.div_le_div_right ((Nat.mod_le _ _).trans (Nat.mul_le_mul_left _ (sub64_le ht)))

theorem tbpBudget_le_burst (c : Congestion) (t : Time) : c.tbpBudget t ≤ c.tbpMaxBurstSize := by
  unfold Congestion.tbpBudget
  split
  · exact Nat.le_refl _
  · exact Nat.min_le_left _ _

theorem tbpMaxBurstSize_ge (c : Congestion) : 14600 ≤ c.tbpMaxBurstSize := Nat.le_max_right _ _

/-- a packet takes its bytes out of the budget, and empties it when there are not enough -/
theorem tbpSentPacket_budget (c : Congestion) (t : Time) (bytes : Nat) :
    bytes + (c.tbpSentPacket t bytes).tbp.budget ≤ max bytes (c.tbpBudget t) := by
  show bytes + (if c.tbpBudget t < bytes then 0 else sub64 (c.tbpBudget t) bytes) ≤ _
  split
  · exact Nat.le_max_left _ _
  · have := sub64_le (Nat.not_lt.mp ‹_›)
    omega

@[simp] theorem tbpSentPacket_lastSentTime (c : Congestion) (t : Time) (bytes : Nat) :
    (c.tbpSentPacket t bytes).tbp.lastSentTime = t := rfl

@[simp] theorem tbpSentPacket_burst (c : Congestion) (t : Time) (bytes : Nat) :
    (c.tbpSentPacket t bytes).tbpMaxBurstSize = c.tbpMaxBurstSize := rfl

@[simp] theorem tbpSentPacket_refill (c : Congestion) (t : Time) (bytes : Nat) :
    refill (c.tbpSentPacket t bytes) = refill c := rfl

/-- a packet as it is taken out of the bucket -/
def take (c : Congestion) (p : Packet) : Bucket.Take :=
  ⟨p.time, p.bytes, (c.tbpSentPacket p.time p.bytes).tbp.budget⟩

def takes : Congestion → List Packet → List Bucket.Take
  | _, [] => []
  | c, p :: ps => take c p :: takes (c.tbpSentPacket p.time p.bytes) ps

theorem taken_takes (c : Congestion) (ps : List Packet) (s t : Time) :
    Bucket.taken s t (takes c ps) = sentBytes s t ps := by
  induction ps generalizing c with
  | nil => rfl
  | cons p ps ih =>
    have ih' := ih (c.tbpSentPacket p.time p.bytes)
    unfold Bucket.taken sentBytes at ih' ⊢
    rw [takes, List.filter_cons, List.filter_cons]
    show (List.map _ (if decide (s ≤ p.time ∧ p.time ≤ t) = true then _ else _)).sum = _
    split
    · rw [List.map_cons, List.map_cons, List.sum_cons, List.sum_cons, ih']
      rfl
    · exact ih'

theorem take_le_burst {c : Congestion} {p : Packet} (hp : p.bytes ≤ 14600) :
    (take c p).amount + (take c p).left ≤ c.tbpMaxBurstSize := by
  have h1 : p.bytes + (c.tbpSentPacket p.time p.bytes).tbp.budget ≤ _ :=
    tbpSentPacket_budget c p.time p.bytes
  have h2 := tbpBudget_le_burst c p.time
  have h3 := tbpMaxBurstSize_ge c
  show p.bytes + (c.tbpSentPacket p.time p.bytes).tbp.budget ≤ _
  omega

theorem takes_le_burst {c : Congestion} {ps : List Packet} (h : Runs.Along step Paced c ps) :
    ∀ x ∈ takes c ps, x.amount + x.left ≤ c.tbpMaxBurstSize := by
  induction ps generalizing c with
  | nil => exact fun x hx => absurd hx List.not_mem_nil
  | cons p ps ih =>
    intro x hx
    rcases List.mem_cons.mp hx with rfl | hx
    · exact take_le_burst h.1.bytes
    · exact ih (h.2 _ rfl) x hx

/-- Between two packets the budget was at least one packet's size, so that the second is covered by
what the first one left and by what came in. -/
theorem take_follows {c : Congestion} {p : Packet} {last : Bucket.Take} (hp : Paced c p)
    (htime : c.tbp.lastSentTime = last.time) (hleft : c.tbp.budget = last.left)
    (hlast : last.time ≠ 0) : Bucket.Follows (refill c) last (take c p) := by
  have hle : last.time ≤ p.time := htime ▸ hp.after.trans hp.before
  refine ⟨hle, ?_⟩
  show p.bytes + (c.tbpSentPacket p.time p.bytes).tbp.budget ≤ last.left + refill c (p.time - last.time)
  have h0 : c.tbp.lastSentTime ≠ 0 := htime ▸ hlast
  have hbudget := tbpBudget_le h0 (hp.after.trans hp.before)
  have hasked : 14600 ≤ c.tbpBudget p.asked := of_decide_eq_true hp.budget
  have hrefill : refill c (p.asked - c.tbp.lastSentTime) ≤ refill c (p.time - c.tbp.lastSentTime) :=
    refill_mono c (Nat.sub_le_sub_right hp.before _)
  have hbytes := hp.bytes
  have hcover := tbpBudget_le h0 hp.after
  have htake := tbpSentPacket_budget c p.time p.bytes
  rw [htime, hleft] at hbudget hcover
  rw [htime] at hrefill
  omega

theorem takes_chain {c : Congestion} {ps : List Packet} (h : Runs.Along step Paced c ps) :
    (takes c ps).IsChain (Bucket.Follows (refill c)) := by
  induction ps generalizing c with
  | nil => exact List.isChain_nil
  | cons p ps ih =>
    have hrest := h.2 _ rfl
    have htail := ih hrest
    rw [tbpSentPacket_refill] at htail
    cases ps with
    | nil => exact List.isChain_singleton _
    | cons q qs =>
      have hq : Bucket.Follows (refill c) (take c p) (take (c.tbpSentPacket p.time p.bytes) q) :=
        take_follows hrest.1 rfl rfl (Nat.pos_iff_ne_zero.mp h.1.pos)
      exact List.isChain_cons_cons.mpr ⟨hq, htail⟩

/-- **The pacing bound.**  The bytes of the packets that are sent in an interval are at most one burst
and what the bandwidth gives while it lasts. -/
theorem paced_run (c : Congestion) (ps : List Packet) (h : Runs.Along step Paced c ps) (s t : Time) :
    sentBytes s t ps ≤ c.tbpMaxBurstSize + c.tbpBandwidth * (t - s) / 1000000 := by
  rw [← taken_takes c ps s t]
  exact Bucket.sum_window_le (refill_add c) (takes_chain h) (takes_le_burst h) s t

/-- three packets of a new path: the third one waits until the bucket is full again -/
def burst : List Packet := [⟨1, 1, 0⟩, ⟨1, 2, 1200⟩, ⟨300000, 300001, 14600⟩]

theorem paced_run_burst :
    Runs.Along step Paced (Congestion.init serverCfg) burst ∧ ∀ s t, sentBytes s t burst ≤
      (Congestion.init serverCfg).tbpMaxBurstSize +
        (Congestion.init serverCfg).tbpBandwidth * (t - s) / 1000000 :=
  have h : Runs.Along step Paced (Congestion.init serverCfg) burst := by decide +kernel
  ⟨h, paced_run (Congestion.init serverCfg) burst h⟩

end Pacing
end OpenQuic
