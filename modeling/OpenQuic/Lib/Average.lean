import Mathlib.Algebra.Order.Ring.Nat
import Mathlib.Tactic.Ring

/-!
# Weighted averages

An average of natural numbers in which the old value has the weight `w` and a new sample the weight
1, rounded down.

* `le_average`, `average_le`   it lies between the value and the sample;
* `foldl_average_within`       the averages of some samples stay between their bounds;
* `foldl_average_zero`         where all samples are 0, the average fades.
-/

namespace Averages

def average (w a x : Nat) : Nat := (w * a + x) / (w + 1)

theorem le_average {lo a x : Nat} (w : Nat) (ha : lo ≤ a) (hx : lo ≤ x) : lo ≤ average w a x := by
  apply (Nat.le_div_iff_mul_le (Nat.succ_pos w)).mpr
  calc lo * (w + 1) = w * lo + lo := by ring
    _ ≤ w * a + x := Nat.add_le_add (Nat.mul_le_mul_left w ha) hx

theorem average_le {hi a x : Nat} (w : Nat) (ha : a ≤ hi) (hx : x ≤ hi) : average w a x ≤ hi := by
  apply Nat.div_le_of_le_mul
  calc w * a + x ≤ w * hi + hi := Nat.add_le_add (Nat.mul_le_mul_left w ha) hx
    _ = (w + 1) * hi := by ring

theorem foldl_average_within {lo hi : Nat} (w : Nat) {xs : List Nat}
    (hxs : ∀ x ∈ xs, lo ≤ x ∧ x ≤ hi) {a : Nat} (hlo : lo ≤ a) (hhi : a ≤ hi) :
    lo ≤ xs.foldl (average w) a ∧ xs.foldl (average w) a ≤ hi := by
  induction xs generalizing a with
  | nil => exact ⟨hlo, hhi⟩
  | cons x xs ih =>
    obtain ⟨hx, hxs⟩ := List.forall_mem_cons.mp hxs
    exact ih hxs (le_average w hlo hx.1) (average_le w hhi hx.2)

theorem average_zero (w a : Nat) : (w + 1) * average w a 0 ≤ w * a := by
  rw [average, Nat.add_zero]
  exact Nat.mul_div_le (w * a) (w + 1)

theorem foldl_average_zero (w : Nat) (xs : List Nat) (a : Nat) :
    (w + 1) ^ xs.length * xs.foldl (fun a _ => average w a 0) a ≤ w ^ xs.length * a := by
  induction xs generalizing a with
  | nil => exact le_refl _
  | cons x xs ih =>
    have hrest := ih (average w a 0)
    rw [List.foldl_cons, List.length_cons, Nat.pow_succ, Nat.pow_succ]
    generalize xs.foldl (fun a _ => average w a 0) (average w a 0) = b at hrest ⊢
    calc (w + 1) ^ xs.length * (w + 1) * b = (w + 1) * ((w + 1) ^ xs.length * b) := by ring
      _ ≤ (w + 1) * (w ^ xs.length * average w a 0) := Nat.mul_le_mul_left _ hrest
      _ = w ^ xs.length * ((w + 1) * average w a 0) := by ring
      _ ≤ w ^ xs.length * (w * a) := Nat.mul_le_mul_left _ (average_zero w a)
      _ = w ^ xs.length * w * a := by ring

end Averages
