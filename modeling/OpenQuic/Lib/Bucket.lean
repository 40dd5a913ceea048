import Mathlib.Algebra.GroupWithZero.Nat
import Mathlib.Data.List.Chain

/-!
# Token buckets

Amounts are taken out of a bucket that fills up with time.  `refill d` bounds what comes in during
`d` units of time.

* `Take`              an amount that is taken, and what is left in the bucket then;
* `Follows`           a take is covered by what the one before it left and by what has come in since;
* `sum_le_left`       what is taken after a take, up to a point of time;
* `sum_window_le`     what is taken in any interval of time.
-/

namespace Bucket

structure Take where
  time : Nat
  amount : Nat
  left : Nat

section
variable (refill : Nat → Nat)

structure Follows (x y : Take) : Prop where
  time : x.time ≤ y.time
  covered : y.amount + y.left ≤ x.left + refill (y.time - x.time)

/-- what is taken in an interval -/
def taken (s t : Nat) (xs : List Take) : Nat :=
  ((xs.filter fun x => s ≤ x.time ∧ x.time ≤ t).map Take.amount).sum

theorem taken_cons_of_mem {s t : Nat} {x : Take} (xs : List Take) (hs : s ≤ x.time)
    (ht : x.time ≤ t) : taken s t (x :: xs) = x.amount + taken s t xs := by
  rw [taken, List.filter_cons_of_pos (by simp [hs, ht]), List.map_cons, List.sum_cons, taken]

theorem taken_cons_of_not_mem {s t : Nat} {x : Take} (xs : List Take)
    (h : ¬ (s ≤ x.time ∧ x.time ≤ t)) : taken s t (x :: xs) = taken s t xs := by
  rw [taken, List.filter_cons_of_neg (by simpa using h), taken]

variable {refill}

theorem le_time {x : Take} {xs : List Take} (h : (x :: xs).IsChain (Follows refill)) :
    ∀ y ∈ xs, x.time ≤ y.time := by
  induction xs generalizing x with
  | nil => exact fun y hy => absurd hy List.not_mem_nil
  | cons z xs ih =>
    obtain ⟨hxz, hz⟩ := List.isChain_cons_cons.mp h
    intro y hy
    rcases List.mem_cons.mp hy with rfl | hy
    · exact hxz.time
    · exact hxz.time.trans (ih hz y hy)

theorem taken_eq_zero {s t : Nat} {xs : List Take} (h : ∀ y ∈ xs, t < y.time) :
    taken s t xs = 0 := by
  rw [taken, List.filter_eq_nil_iff.mpr, List.map_nil, List.sum_nil]
  intro y hy
  have := h y hy
  simp
  omega

section
variable (hadd : ∀ a b, refill a + refill b ≤ refill (a + b))
include hadd

/-- what is taken after a take comes out of what it left and of what has come in since -/
theorem sum_le_left {s t : Nat} {x : Take} {xs : List Take}
    (h : (x :: xs).IsChain (Follows refill)) (ht : x.time ≤ t) :
    taken s t xs ≤ x.left + refill (t - x.time) := by
  induction xs generalizing x with
  | nil => exact Nat.zero_le _
  | cons y ys ih =>
    obtain ⟨hxy, hy⟩ := List.isChain_cons_cons.mp h
    by_cases hyt : y.time ≤ t
    · have hrest := ih hy hyt
      have hcov := hxy.covered
      have htime := hxy.time
      have hsplit := hadd (y.time - x.time) (t - y.time)
      rw [show y.time - x.time + (t - y.time) = t - x.time by omega] at hsplit
      have hle : taken s t (y :: ys) ≤ y.amount + taken s t ys := by
        by_cases hs : s ≤ y.time
        · rw [taken_cons_of_mem ys hs hyt]
        · rw [taken_cons_of_not_mem ys (fun hc => hs hc.1)]
          exact Nat.le_add_left _ _
      omega
    · have hlt : t < y.time := Nat.not_le.mp hyt
      rw [taken_cons_of_not_mem ys (fun hc => hyt hc.2),
        taken_eq_zero fun z hz => Nat.lt_of_lt_of_le hlt (le_time hy z hz)]
      exact Nat.zero_le _

/-- **The bound over an interval.**  No more is taken in it than the bucket holds and what comes in
while it lasts. -/
theorem sum_window_le {capa : Nat} {xs : List Take} (h : xs.IsChain (Follows refill))
    (hcapa : ∀ x ∈ xs, x.amount + x.left ≤ capa) (s t : Nat) :
    taken s t xs ≤ capa + refill (t - s) := by
  induction xs with
  | nil => exact Nat.zero_le _
  | cons x xs ih =>
    by_cases hx : s ≤ x.time ∧ x.time ≤ t
    · rw [taken_cons_of_mem xs hx.1 hx.2]
      have hrest : taken s t xs ≤ _ := sum_le_left hadd h hx.2
      have hx0 := hcapa x List.mem_cons_self
      have hmono : refill (t - x.time) ≤ refill (t - s) := by
        have hsplit := hadd (t - x.time) (x.time - s)
        rw [show t - x.time + (x.time - s) = t - s by omega] at hsplit
        omega
      omega
    · rw [taken_cons_of_not_mem xs hx]
      exact ih h.tail fun y hy => hcapa y (List.mem_cons_of_mem _ hy)

end
end

end Bucket
