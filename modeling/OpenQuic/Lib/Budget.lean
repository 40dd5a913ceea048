import OpenQuic.Lib.Word

/-!
# Budgets in machine words

A counter of `w` bits is reduced by one amount after the other, without a check.

* `Budget.steps`     the counter before each reduction, with the amount;
* `steps_within_iff` no amount is more than what is left if and only if their sum is not more than
                     the counter at the start.
-/

namespace Budget
open Word

def steps (w : Nat) : (b : Nat) → List Nat → List (Nat × Nat)
  | _, [] => []
  | b, n :: ns => (b, n) :: steps w (sub w b (trunc w n)) ns

theorem sub_trunc_of_le {w b n : Nat} (hb : b < 2 ^ w) (hn : n ≤ b) : sub w b (trunc w n) = b - n := by
  rw [trunc_of_lt (Nat.lt_of_le_of_lt hn hb), sub_of_le hn hb]

/-- **No reduction wraps if and only if the sum fits.** -/
theorem steps_within_iff {w b : Nat} (hb : b < 2 ^ w) (ns : List Nat) :
    (∀ x ∈ steps w b ns, x.2 ≤ x.1) ↔ ns.sum ≤ b := by
  induction ns generalizing b with
  | nil => exact iff_of_true (List.forall_mem_nil _) (Nat.zero_le b)
  | cons n ns ih =>
    rw [steps, List.forall_mem_cons, List.sum_cons]
    constructor
    · rintro ⟨hn, hns⟩
      have hn' : n ≤ b := hn
      rw [sub_trunc_of_le hb hn', ih (by omega)] at hns
      omega
    · intro hsum
      have hn : n ≤ b := by omega
      refine ⟨hn, ?_⟩
      rw [sub_trunc_of_le hb hn, ih (by omega)]
      omega

end Budget
