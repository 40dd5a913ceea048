import Mathlib.Data.Nat.Bitwise
import Mathlib.Data.List.Basic
import Mathlib.Tactic.Ring

/-!
# Words in memory

The bytes of an unsigned word in memory order on a little-endian host, and the byte swap that turns
it into network order.

* `leBytes n v`, `leNat bs`   a word of `n` bytes as a list of bytes and back;
* `bswap n v`                 the word with its bytes in the other order;
* `leBytes_bswap`             a swapped word has the bytes of the word in reverse;
* `leNat_or`, `leNat_and`     a bit operation on the lowest byte of a word.
-/

namespace Bytes

def leBytes : Nat → Nat → List UInt8
  | 0, _ => []
  | n + 1, v => UInt8.ofNat v :: leBytes n (v / 256)

def leNat : List UInt8 → Nat
  | [] => 0
  | b :: bs => b.toNat + 256 * leNat bs

def bswap (n v : Nat) : Nat := leNat (leBytes n v).reverse

@[simp] theorem length_leBytes (n v : Nat) : (leBytes n v).length = n := by
  induction n generalizing v with
  | zero => rfl
  | succ n ih => rw [leBytes, List.length_cons, ih]

theorem leNat_lt (bs : List UInt8) : leNat bs < 256 ^ bs.length := by
  induction bs with
  | nil => exact Nat.one_pos
  | cons b bs ih =>
    have hb : b.toNat < 256 := b.toNat_lt
    rw [leNat, List.length_cons, Nat.pow_succ]
    omega

theorem leNat_leBytes (n v : Nat) : leNat (leBytes n v) = v % 256 ^ n := by
  induction n generalizing v with
  | zero => rw [leBytes, leNat, Nat.pow_zero, Nat.mod_one]
  | succ n ih =>
    have hb : (UInt8.ofNat v).toNat = v % 256 := UInt8.toNat_ofNat'
    rw [leBytes, leNat, ih, hb, Nat.pow_succ, Nat.mul_comm (256 ^ n), Nat.mod_mul]

theorem leBytes_leNat (bs : List UInt8) : leBytes bs.length (leNat bs) = bs := by
  induction bs with
  | nil => rfl
  | cons b bs ih =>
    have hb : b.toNat < 256 := b.toNat_lt
    have h1 : UInt8.ofNat (b.toNat + 256 * leNat bs) = b := by
      apply UInt8.toNat_inj.mp
      rw [UInt8.toNat_ofNat']
      omega
    have h2 : (b.toNat + 256 * leNat bs) / 256 = leNat bs := by omega
    rw [List.length_cons, leNat, leBytes, h1, h2, ih]

theorem leNat_append (as bs : List UInt8) :
    leNat (as ++ bs) = leNat as + 256 ^ as.length * leNat bs := by
  induction as with
  | nil => simp [leNat]
  | cons a as ih =>
    rw [List.cons_append, leNat, leNat, ih, List.length_cons]
    ring

theorem leBytes_bswap (n v : Nat) : leBytes n (bswap n v) = (leBytes n v).reverse := by
  have h := leBytes_leNat (leBytes n v).reverse
  rwa [List.length_reverse, length_leBytes] at h

/-- what a swapped word that is stored is read as -/
theorem leNat_leBytes_bswap (n v : Nat) : leNat (leBytes n (bswap n v)) = bswap n v := by
  rw [leBytes_bswap, bswap]

theorem bswap_bswap {n v : Nat} (h : v < 256 ^ n) : bswap n (bswap n v) = v := by
  rw [bswap, leBytes_bswap, List.reverse_reverse, leNat_leBytes, Nat.mod_eq_of_lt h]

theorem bswap_leNat (bs : List UInt8) : bswap bs.length (leNat bs) = leNat bs.reverse := by
  rw [bswap, leBytes_leNat]

/-! ## bit operations on the lowest byte -/

theorem leNat_or (b c : UInt8) (bs : List UInt8) :
    leNat (b :: bs) ||| c.toNat = leNat ((b ||| c) :: bs) := by
  have hb : b.toNat < 2 ^ 8 := b.toNat_lt
  have hc : c.toNat < 2 ^ 8 := c.toNat_lt
  have hbc : b.toNat ||| c.toNat < 2 ^ 8 := Nat.or_lt_two_pow hb hc
  rw [leNat, leNat, UInt8.toNat_or, Nat.add_comm, Nat.add_comm (b.toNat ||| c.toNat)]
  refine Nat.eq_of_testBit_eq fun j => ?_
  rw [Nat.testBit_or, show 256 = 2 ^ 8 from rfl, Nat.testBit_two_pow_mul_add _ hb,
    Nat.testBit_two_pow_mul_add _ hbc]
  split
  · rw [Nat.testBit_or]
  · rename_i hj
    have : c.toNat < 2 ^ j := lt_of_lt_of_le hc (Nat.pow_le_pow_right (by omega) (by omega))
    rw [Nat.testBit_lt_two_pow this, Bool.or_false]

/-- `& ~m` on a word, for a mask of one byte -/
theorem leNat_and (b m : UInt8) (bs : List UInt8) :
    leNat (b :: bs) &&& (256 ^ (bs.length + 1) - 1 - m.toNat) = leNat ((b &&& ~~~m) :: bs) := by
  have hb : b.toNat < 2 ^ 8 := b.toNat_lt
  have hm : m.toNat < 2 ^ 8 := m.toNat_lt
  have hbm : (b &&& ~~~m).toNat < 2 ^ 8 := (b &&& ~~~m).toNat_lt
  have hnot : (~~~m).toNat = 255 - m.toNat := by
    rw [UInt8.toNat_not]
    rfl
  have hbs := leNat_lt bs
  have hmask : 256 ^ (bs.length + 1) - 1 - m.toNat
      = 2 ^ 8 * (256 ^ bs.length - 1) + (255 - m.toNat) := by
    have : 0 < 256 ^ bs.length := Nat.pow_pos (by omega)
    rw [Nat.pow_succ]
    omega
  have hmask' : 255 - m.toNat < 2 ^ 8 := by omega
  rw [leNat, leNat, Nat.add_comm, Nat.add_comm (b &&& ~~~m).toNat, hmask]
  refine Nat.eq_of_testBit_eq fun j => ?_
  rw [Nat.testBit_and, show 256 = 2 ^ 8 from rfl, Nat.testBit_two_pow_mul_add _ hb,
    Nat.testBit_two_pow_mul_add _ hmask', Nat.testBit_two_pow_mul_add _ hbm]
  split
  · rw [UInt8.toNat_and, Nat.testBit_and, hnot]
  · have hall : leNat bs &&& (256 ^ bs.length - 1) = leNat bs := by
      have hp : 256 ^ bs.length = 2 ^ (8 * bs.length) := by
        rw [Nat.pow_mul]
      rw [hp, Nat.and_two_pow_sub_one_eq_mod, Nat.mod_eq_of_lt (hp ▸ hbs)]
    rw [← Nat.testBit_and, ← show 256 = 2 ^ 8 from rfl, hall]

end Bytes
