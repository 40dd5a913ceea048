import OpenQuic.Lib.Bytes

/-!
# Variable-length integers

`utils/varint.h`, on a little-endian host: the first byte of the encoding is the lowest byte of the
word that is stored, so the two bits of the length go there after the byte swap.

* `varintLen`, `varintR`               the length and the value of what is in a buffer;
* `varintFormatLen`, `varintFormatR`   the length and the bytes of a value;
* `varintFormatR_length`, `varintR_formatR`   the two sides agree up to `varintMax`.
-/

namespace OpenQuic
open Bytes

/-- `quic_varint_len` of the byte in front -/
def varintLen (b : UInt8) : Nat := 1 <<< ((b &&& 0xc0) >>> 6).toNat

/-- `*(uintN_t *) payload & ~0xC0`, swapped, for a word of `n` bytes -/
def varintWord (n : Nat) (payload : List UInt8) : Nat :=
  bswap n (leNat (payload.take n) &&& (256 ^ n - 1 - 0xC0))

/-- `quic_varint_r` -/
def varintR (payload : List UInt8) : Nat :=
  match payload with
  | [] => 0
  | b :: _ =>
    if varintLen b = 1 then b.toNat
    else if varintLen b = 2 then varintWord 2 payload
    else if varintLen b = 4 then varintWord 4 payload
    else varintWord 8 payload

/-- `quic_varint_format_len` -/
def varintFormatLen (v : Nat) : Nat :=
  if v ≤ 63 then 1
  else if v ≤ 16383 then 2
  else if v ≤ 1073741823 then 4
  else if v ≤ 4611686018427387903 then 8
  else 0

/-- what `quic_varint_format_r` stores at `pos` -/
def varintFormatR (v : Nat) : List UInt8 :=
  let len := varintFormatLen v
  if len = 1 then [UInt8.ofNat v]
  else if len = 2 then leBytes 2 (bswap 2 v ||| 0x40)
  else if len = 4 then leBytes 4 (bswap 4 v ||| 0x80)
  else if len = 8 then leBytes 8 (bswap 8 v ||| 0xC0)
  else []

def varintMax : Nat := 2 ^ 62 - 1

/-! ## the encoding of a value -/

/-- A value below `2 ^ (8 * n - 2)` has its highest byte below 64. -/
theorem swapped_bytes {n v : Nat} (h : v < 64 * 256 ^ n) :
    ∃ b bs, bs.length = n ∧ b.toNat < 64 ∧ (leBytes (n + 1) v).reverse = b :: bs ∧
      bswap (n + 1) v = leNat (b :: bs) := by
  rcases hl : (leBytes (n + 1) v).reverse with _ | ⟨b, bs⟩
  · have := congrArg List.length hl
    simp at this
  · have hlen : bs.length = n := by
      have := congrArg List.length hl
      simpa using this.symm
    have hle : leBytes (n + 1) v = bs.reverse ++ [b] := by
      rw [← List.reverse_reverse (leBytes (n + 1) v), hl, List.reverse_cons]
    have hv : leNat (leBytes (n + 1) v) = v := by
      rw [leNat_leBytes, Nat.mod_eq_of_lt]
      rw [Nat.pow_succ]
      omega
    rw [hle, leNat_append, List.length_reverse, hlen] at hv
    refine ⟨b, bs, hlen, ?_, rfl, ?_⟩
    · by_contra hb
      have h64 : 64 * 256 ^ n ≤ 256 ^ n * leNat [b] := by
        rw [Nat.mul_comm]
        refine Nat.mul_le_mul_left _ ?_
        simp only [leNat]
        omega
      omega
    · rw [bswap, hl]

theorem tagged_byte : ∀ b < 64, ∀ k ∈ [1, 2, 3],
    (b ||| 64 * k) &&& 63 = b ∧ ((b ||| 64 * k) &&& 192) >>> 6 = k := by decide

theorem tag_bits {b c : UInt8} {k : Nat} (hb : b.toNat < 64) (hk : k ∈ [1, 2, 3])
    (hc : c.toNat = 64 * k) :
    (b ||| c) &&& 0x3f = b ∧ varintLen (b ||| c) = 1 <<< k := by
  obtain ⟨h1, h2⟩ := tagged_byte b.toNat hb k hk
  constructor
  · apply UInt8.toNat_inj.mp
    rw [UInt8.toNat_and, UInt8.toNat_or, hc]
    exact h1
  · rw [varintLen, UInt8.toNat_shiftRight, UInt8.toNat_and, UInt8.toNat_or, hc]
    exact congrArg (1 <<< ·) h2

/-- A word of `n + 1` bytes with its tag reads back as the value it was made from. -/
theorem varintWord_tagged {n v : Nat} {c : UInt8} {k : Nat} (h : v < 64 * 256 ^ n)
    (hk : k ∈ [1, 2, 3]) (hc : c.toNat = 64 * k) (rest : List UInt8) :
    (∃ b bs, leBytes (n + 1) (bswap (n + 1) v ||| c.toNat) = b :: bs ∧ varintLen b = 1 <<< k) ∧
      varintWord (n + 1) (leBytes (n + 1) (bswap (n + 1) v ||| c.toNat) ++ rest) = v := by
  obtain ⟨b, bs, hlen, hb, hrev, hswap⟩ := swapped_bytes h
  obtain ⟨hmask, htag⟩ := tag_bits hb hk hc
  have hbytes : leBytes (n + 1) (bswap (n + 1) v ||| c.toNat) = (b ||| c) :: bs := by
    have hl : ((b ||| c) :: bs).length = n + 1 := by rw [List.length_cons, hlen]
    rw [hswap, leNat_or, ← hl, leBytes_leNat]
  have hlt : v < 256 ^ (n + 1) := by
    rw [Nat.pow_succ]
    omega
  refine ⟨⟨b ||| c, bs, hbytes, htag⟩, ?_⟩
  have htake : (leBytes (n + 1) (bswap (n + 1) v ||| c.toNat) ++ rest).take (n + 1)
      = (b ||| c) :: bs := by
    rw [List.take_left' (length_leBytes _ _), hbytes]
  have hand := leNat_and (b ||| c) 0xC0 bs
  rw [hlen] at hand
  rw [varintWord, htake]
  show bswap (n + 1) (leNat ((b ||| c) :: bs) &&& (256 ^ (n + 1) - 1 - (0xC0 : UInt8).toNat)) = v
  rw [hand, show (~~~(0xC0 : UInt8)) = 0x3f from rfl, hmask, ← hswap, bswap_bswap hlt]

theorem varintFormatR_length (v : Nat) : (varintFormatR v).length = varintFormatLen v := by
  unfold varintFormatR varintFormatLen
  dsimp only
  split_ifs <;> simp_all

theorem varintFormatLen_pos {v : Nat} (h : v ≤ varintMax) : 0 < varintFormatLen v := by
  have hm : varintMax = 4611686018427387903 := rfl
  unfold varintFormatLen
  split_ifs <;> omega

theorem varintFormatLen_le (v : Nat) : varintFormatLen v ≤ 8 := by
  unfold varintFormatLen
  split_ifs <;> omega

theorem varintFormatLen_mono {a b : Nat} (h : a ≤ b) (hb : b ≤ varintMax) :
    varintFormatLen a ≤ varintFormatLen b := by
  unfold varintMax at hb
  unfold varintFormatLen
  split_ifs <;> omega

/-- **Reading gives back the value**, whatever follows it, and the first byte says how long it is. -/
theorem varintR_formatR {v : Nat} (h : v ≤ varintMax) (rest : List UInt8) :
    (∃ b bs, varintFormatR v = b :: bs ∧ varintLen b = varintFormatLen v) ∧
      varintR (varintFormatR v ++ rest) = v := by
  have hm : varintMax = 4611686018427387903 := rfl
  unfold varintFormatR varintFormatLen
  by_cases h1 : v ≤ 63
  · rw [if_pos h1]
    have hn : (UInt8.ofNat v).toNat = v := by
      rw [UInt8.toNat_ofNat', Nat.mod_eq_of_lt (by omega)]
    have hlen : varintLen (UInt8.ofNat v) = 1 := by
      rw [varintLen, UInt8.toNat_shiftRight, UInt8.toNat_and, hn]
      have hall : ∀ v ≤ 63, 1 <<< ((v &&& 192) >>> 6) = 1 := by decide
      exact hall v h1
    refine ⟨⟨_, _, rfl, hlen⟩, ?_⟩
    show varintR (UInt8.ofNat v :: rest) = v
    rw [varintR, if_pos hlen, hn]
  · rw [if_neg h1]
    by_cases h2 : v ≤ 16383
    · obtain ⟨⟨b, bs, hb, htag⟩, hword⟩ := varintWord_tagged (n := 1) (v := v) (c := 0x40) (k := 1)
        (by omega) (by decide) rfl rest
      rw [if_pos h2]
      refine ⟨⟨b, bs, hb, htag⟩, ?_⟩
      change leBytes 2 (bswap 2 v ||| 64) = b :: bs at hb
      change varintWord 2 (leBytes 2 (bswap 2 v ||| 64) ++ rest) = v at hword
      show varintR (leBytes 2 (bswap 2 v ||| 64) ++ rest) = v
      rw [hb] at hword ⊢
      rw [List.cons_append, varintR, htag, if_neg (by decide), if_pos (by decide)]
      exact hword
    · rw [if_neg h2]
      by_cases h4 : v ≤ 1073741823
      · obtain ⟨⟨b, bs, hb, htag⟩, hword⟩ := varintWord_tagged (n := 3) (v := v) (c := 0x80)
          (k := 2) (by omega) (by decide) rfl rest
        rw [if_pos h4]
        refine ⟨⟨b, bs, hb, htag⟩, ?_⟩
        change leBytes 4 (bswap 4 v ||| 128) = b :: bs at hb
        change varintWord 4 (leBytes 4 (bswap 4 v ||| 128) ++ rest) = v at hword
        show varintR (leBytes 4 (bswap 4 v ||| 128) ++ rest) = v
        rw [hb] at hword ⊢
        rw [List.cons_append, varintR, htag, if_neg (by decide), if_neg (by decide),
          if_pos (by decide)]
        exact hword
      · obtain ⟨⟨b, bs, hb, htag⟩, hword⟩ := varintWord_tagged (n := 7) (v := v) (c := 0xC0)
          (k := 3) (by omega) (by decide) rfl rest
        have h8 : v ≤ 4611686018427387903 := hm ▸ h
        rw [if_neg h4, if_pos h8]
        refine ⟨⟨b, bs, hb, htag⟩, ?_⟩
        change leBytes 8 (bswap 8 v ||| 192) = b :: bs at hb
        change varintWord 8 (leBytes 8 (bswap 8 v ||| 192) ++ rest) = v at hword
        show varintR (leBytes 8 (bswap 8 v ||| 192) ++ rest) = v
        rw [hb] at hword ⊢
        rw [List.cons_append, varintR, htag, if_neg (by decide), if_neg (by decide),
          if_neg (by decide)]
        exact hword

end OpenQuic
