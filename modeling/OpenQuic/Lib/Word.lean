import Mathlib.Data.Nat.Basic
import Mathlib.Tactic.Ring

/-!
# Machine words as naturals

An unsigned machine integer of width `w` is a natural number below `2 ^ w`, and its operations
wrap.

* `Word.add`, `Word.sub`, `Word.mul`   the operations of a C unsigned type of width `w`;
* `add_of_lt`, `sub_of_le`, `mul_of_lt`   they are the operations of `Nat` as long as nothing wraps;
* `sub_of_lt`        what a subtraction that wraps leaves;
* `signed64`         a 64-bit word taken as a signed one.
-/

namespace Word

def trunc (w a : Nat) : Nat := a % 2 ^ w
def add (w a b : Nat) : Nat := (a + b) % 2 ^ w
def sub (w a b : Nat) : Nat := (a + (2 ^ w - b % 2 ^ w)) % 2 ^ w
def mul (w a b : Nat) : Nat := (a * b) % 2 ^ w

theorem trunc_of_lt {w a : Nat} (h : a < 2 ^ w) : trunc w a = a := Nat.mod_eq_of_lt h

theorem add_of_lt {w a b : Nat} (h : a + b < 2 ^ w) : add w a b = a + b := Nat.mod_eq_of_lt h

theorem mul_of_lt {w a b : Nat} (h : a * b < 2 ^ w) : mul w a b = a * b := Nat.mod_eq_of_lt h

theorem trunc_lt (w a : Nat) : trunc w a < 2 ^ w := Nat.mod_lt _ (Nat.two_pow_pos w)
theorem add_lt (w a b : Nat) : add w a b < 2 ^ w := Nat.mod_lt _ (Nat.two_pow_pos w)
theorem sub_lt (w a b : Nat) : sub w a b < 2 ^ w := Nat.mod_lt _ (Nat.two_pow_pos w)

theorem sub_of_le {w a b : Nat} (h : b ≤ a) (ha : a < 2 ^ w) : sub w a b = a - b := by
  have hb : b % 2 ^ w = b := Nat.mod_eq_of_lt (lt_of_le_of_lt h ha)
  have he : a + (2 ^ w - b) = (a - b) + 2 ^ w := by omega
  rw [sub, hb, he, Nat.add_mod_right, Nat.mod_eq_of_lt (by omega)]

/-- a subtraction that stays above zero is at most the one of `Nat` -/
theorem sub_le {w a b : Nat} (h : b ≤ a) : sub w a b ≤ a - b := by
  have he : a + (2 ^ w - b % 2 ^ w) = (a - b) + 2 ^ w * (b / 2 ^ w + 1) := by
    have hdiv := Nat.div_add_mod b (2 ^ w)
    have hlt := Nat.mod_lt b (Nat.two_pow_pos w)
    rw [Nat.mul_succ]
    omega
  rw [sub, he, Nat.add_mul_mod_self_left]
  exact Nat.mod_le _ _

/-- a subtraction that goes below zero comes round from the top -/
theorem sub_of_lt {w a b : Nat} (h : a < b) (hb : b < 2 ^ w) : sub w a b = a + 2 ^ w - b := by
  rw [sub, Nat.mod_eq_of_lt hb, Nat.mod_eq_of_lt (by omega)]
  omega

/-! ## `uint64_t` and `uint32_t` -/

def u64 (a : Nat) : Nat := trunc 64 a
def u32 (a : Nat) : Nat := trunc 32 a
def add64 (a b : Nat) : Nat := add 64 a b
def sub64 (a b : Nat) : Nat := sub 64 a b
def mul64 (a b : Nat) : Nat := mul 64 a b
def shl64 (a k : Nat) : Nat := trunc 64 (a <<< k)
def add32 (a b : Nat) : Nat := add 32 a b
def sub32 (a b : Nat) : Nat := sub 32 a b
def mul32 (a b : Nat) : Nat := mul 32 a b
def signed64 (a : Nat) : Int := if a < 2 ^ 63 then a else (a : Int) - 2 ^ 64

theorem signed64_of_lt {a : Nat} (h : a < 2 ^ 63) : signed64 a = a := if_pos h

theorem u32_of_lt {a : Nat} (h : a < 2 ^ 32) : u32 a = a := trunc_of_lt h
theorem add64_of_lt {a b : Nat} (h : a + b < 2 ^ 64) : add64 a b = a + b := add_of_lt h
theorem add32_of_lt {a b : Nat} (h : a + b < 2 ^ 32) : add32 a b = a + b := add_of_lt h
theorem mul32_of_lt {a b : Nat} (h : a * b < 2 ^ 32) : mul32 a b = a * b := mul_of_lt h
theorem sub64_of_le {a b : Nat} (h : b ≤ a) (ha : a < 2 ^ 64) : sub64 a b = a - b := sub_of_le h ha
theorem sub32_of_le {a b : Nat} (h : b ≤ a) (ha : a < 2 ^ 32) : sub32 a b = a - b := sub_of_le h ha
theorem sub64_of_lt {a b : Nat} (h : a < b) (hb : b < 2 ^ 64) : sub64 a b = a + 2 ^ 64 - b :=
  sub_of_lt h hb

theorem sub64_le {a b : Nat} (h : b ≤ a) : sub64 a b ≤ a - b := sub_le h

theorem u32_lt (a : Nat) : u32 a < 2 ^ 32 := trunc_lt 32 a
theorem add32_lt (a b : Nat) : add32 a b < 2 ^ 32 := add_lt 32 a b

end Word
