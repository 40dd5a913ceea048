import OpenQuic.Format.Codec
import OpenQuic.Lib.Grammar

/-!
# Frames on the wire

The encoding of each kind of frame, as a relation between bytes and structs; nothing here refers to
a parser, apart from the flag bits of a STREAM frame.

* `IsVarint e v`     the two highest bits of the first byte of `e` give the length of `e`, the other
                     bits are `v` in network order;
* `Kind`             the structs of `format/frame.h`, each with the parser that is written for it;
* `Encodes b e rest body`   behind the type byte `b`, the bytes `e` in front of `rest` are a
                     complete encoding of `body`;
* `readVarint_reads`   reading an integer is reading a word of `IsVarint`;
* `varint_exact`       what is written is the shortest word for its value.
-/

namespace OpenQuic
open Grammar Bytes

/-! ## integers -/

/-- the value of bytes in network order, behind a value that is already there -/
def beValue (n : Nat) (bs : List UInt8) : Nat := bs.foldl (fun n b => 256 * n + b.toNat) n

def IsVarint (e : List UInt8) (v : Nat) : Prop :=
  ∃ b bs, e = b :: bs ∧ e.length = 2 ^ (b.toNat / 64) ∧ v = beValue (b.toNat % 64) bs

/-- one integer behind the other -/
def Varints : List Nat → List UInt8 → Prop
  | [], e => e = []
  | v :: vs, e => ∃ e1 e2, e = e1 ++ e2 ∧ IsVarint e1 v ∧ Varints vs e2

theorem varintLen_eq (b : UInt8) : varintLen b = 2 ^ (b.toNat / 64) := by
  have hall : ∀ n < 256, 1 <<< ((n &&& 192) >>> 6) = 2 ^ (n / 64) := by decide +kernel
  rw [varintLen, UInt8.toNat_shiftRight, UInt8.toNat_and]
  exact hall b.toNat b.toNat_lt

theorem beValue_eq (n : Nat) (bs : List UInt8) :
    beValue n bs = leNat bs.reverse + 256 ^ bs.length * n := by
  induction bs generalizing n with
  | nil => simp [beValue, leNat]
  | cons b bs ih =>
    have hstep : beValue n (b :: bs) = beValue (256 * n + b.toNat) bs := rfl
    rw [hstep, ih, List.reverse_cons, leNat_append, List.length_reverse, List.length_cons]
    simp only [leNat]
    ring

/-- a word in memory, without the two bits of its length, swapped -/
theorem varintWord_eq (b : UInt8) (bs rest : List UInt8) :
    varintWord (bs.length + 1) (b :: (bs ++ rest)) = beValue (b.toNat % 64) bs := by
  have htake : (b :: (bs ++ rest)).take (bs.length + 1) = b :: bs := by
    rw [List.take_succ_cons, List.take_left]
  have hmask : (b &&& 0x3f).toNat = b.toNat % 64 := by
    rw [UInt8.toNat_and]
    exact Nat.and_two_pow_sub_one_eq_mod b.toNat 6
  have hand : leNat (b :: bs) &&& (256 ^ (bs.length + 1) - 1 - 0xC0) =
      leNat ((b &&& 0x3f) :: bs) := leNat_and b 0xC0 bs
  have hswap : bswap (bs.length + 1) (leNat ((b &&& 0x3f) :: bs)) =
      leNat ((b &&& 0x3f) :: bs).reverse := bswap_leNat ((b &&& 0x3f) :: bs)
  rw [varintWord, htake, hand, hswap, List.reverse_cons, leNat_append, List.length_reverse,
    beValue_eq, ← hmask]
  rfl

theorem varintR_eq {b : UInt8} {bs : List UInt8} (rest : List UInt8)
    (h : (b :: bs).length = varintLen b) :
    varintR (b :: (bs ++ rest)) = beValue (b.toNat % 64) bs := by
  rw [List.length_cons] at h
  have hcases : bs.length = 0 ∨ bs.length = 1 ∨ bs.length = 3 ∨ bs.length = 7 := by
    have hall : ∀ k < 4, 2 ^ k = 1 ∨ 2 ^ k = 2 ∨ 2 ^ k = 4 ∨ 2 ^ k = 8 := by decide
    have hb : b.toNat < 256 := b.toNat_lt
    have := hall (b.toNat / 64) (by omega)
    rw [← varintLen_eq, ← h] at this
    omega
  have hword := varintWord_eq b bs rest
  rw [varintR, ← h]
  rcases hcases with h0 | h1 | h3 | h7
  · rw [h0, if_pos rfl]
    obtain rfl := List.eq_nil_of_length_eq_zero h0
    have hlt : b.toNat / 64 = 0 := by
      by_contra hne
      have h2 : 2 ^ 1 ≤ 2 ^ (b.toNat / 64) := Nat.pow_le_pow_right (by omega) (by omega)
      rw [← varintLen_eq, ← h] at h2
      simp at h2
    show b.toNat = b.toNat % 64
    omega
  · rw [h1] at hword ⊢
    rw [if_neg (by decide), if_pos rfl]
    exact hword
  · rw [h3] at hword ⊢
    rw [if_neg (by decide), if_neg (by decide), if_pos rfl]
    exact hword
  · rw [h7] at hword ⊢
    rw [if_neg (by decide), if_neg (by decide), if_neg (by decide)]
    exact hword

theorem readVarint_reads : Reads readVarint (fun e _ v => IsVarint e v) := by
  intro bs v rest
  constructor
  · intro h
    cases bs with
    | nil => cases h
    | cons b bs =>
      rw [readVarint] at h
      by_cases hlen : (b :: bs).length < varintLen b
      · rw [if_pos hlen] at h
        cases h
      · rw [if_neg hlen] at h
        obtain ⟨hv, hrest⟩ := Prod.mk.inj (Except.ok.inj h)
        obtain ⟨k, hk⟩ : ∃ k, varintLen b = k + 1 :=
          Nat.exists_eq_succ_of_ne_zero (by rw [varintLen_eq]; exact (Nat.two_pow_pos _).ne')
        rw [hk, List.length_cons] at hlen
        rw [hk, List.drop_succ_cons] at hrest
        have hword : (b :: bs.take k).length = varintLen b := by
          rw [List.length_cons, List.length_take, hk]
          omega
        refine ⟨b :: bs.take k, ?_, b, bs.take k, rfl, ?_, ?_⟩
        · rw [List.cons_append, ← hrest, List.take_append_drop]
        · rw [hword, varintLen_eq]
        · rw [← hv, ← varintR_eq (bs.drop k) hword, List.take_append_drop]
  · rintro ⟨e, rfl, b, bs, rfl, hlen, rfl⟩
    rw [← varintLen_eq] at hlen
    have hroom : ¬ (b :: (bs ++ rest)).length < varintLen b := by
      rw [← hlen, List.length_cons, List.length_cons, List.length_append]
      omega
    rw [List.cons_append, readVarint, if_neg hroom, varintR_eq rest hlen, ← hlen,
      List.length_cons, List.drop_succ_cons, List.drop_left]

/-! ## the shortest encoding -/

theorem varintLen_mem (b : UInt8) : varintLen b ∈ [1, 2, 4, 8] := by
  have hall : ∀ k < 4, 2 ^ k ∈ [1, 2, 4, 8] := by decide
  have hb : b.toNat < 256 := b.toNat_lt
  rw [varintLen_eq]
  exact hall _ (by omega)

theorem beValue_lt {n : Nat} (h : n < 64) (bs : List UInt8) : beValue n bs < 64 * 256 ^ bs.length := by
  have hbs := leNat_lt bs.reverse
  rw [List.length_reverse] at hbs
  have hmul : 256 ^ bs.length * n ≤ 256 ^ bs.length * 63 := Nat.mul_le_mul_left _ (by omega)
  rw [beValue_eq]
  omega

/-- a value fits the encoding that it is read from, also one that is longer than needed -/
theorem varintR_lt {b : UInt8} {bs : List UInt8} (rest : List UInt8)
    (h : (b :: bs).length = varintLen b) :
    varintR (b :: (bs ++ rest)) < 2 ^ (8 * varintLen b - 2) := by
  have hpow : 2 ^ (8 * (bs.length + 1) - 2) = 64 * 256 ^ bs.length := by
    rw [show 8 * (bs.length + 1) - 2 = 6 + 8 * bs.length by omega, Nat.pow_add, Nat.pow_mul]
  rw [varintR_eq rest h, ← h, List.length_cons, hpow]
  exact beValue_lt (Nat.mod_lt _ (by decide)) bs

theorem varintFormatLen_le_of_lt {n v : Nat} (hn : n ∈ [1, 2, 4, 8]) (h : v < 2 ^ (8 * n - 2)) :
    varintFormatLen v ≤ n := by
  simp only [List.mem_cons, List.not_mem_nil, or_false] at hn
  unfold varintFormatLen
  rcases hn with rfl | rfl | rfl | rfl <;> norm_num at h <;> split_ifs <;> omega

/-- the bytes of a value have room for it -/
theorem varintFormatLen_holds {v : Nat} (h : v ≤ varintMax) :
    varintFormatLen v ∈ [1, 2, 4, 8] ∧ v < 2 ^ (8 * varintFormatLen v - 2) := by
  have hm : varintMax = 4611686018427387903 := rfl
  unfold varintFormatLen
  split_ifs
  · exact ⟨by decide, by norm_num; omega⟩
  · exact ⟨by decide, by norm_num; omega⟩
  · exact ⟨by decide, by norm_num; omega⟩
  · exact ⟨by decide, by norm_num; omega⟩
  · omega

/-- **Integers.**  A value is written in the fewest bytes that hold it and is read back from them,
whatever follows; and what is read from any encoding has one that is not longer. -/
theorem varint_exact :
    (∀ v ≤ varintMax, ∀ rest : List UInt8,
      (varintFormatR v).length = varintFormatLen v ∧
      (varintFormatLen v ∈ [1, 2, 4, 8] ∧ v < 2 ^ (8 * varintFormatLen v - 2) ∧
        ∀ n ∈ [1, 2, 4, 8], v < 2 ^ (8 * n - 2) → varintFormatLen v ≤ n) ∧
      (varintFormatR v ++ rest).head?.map varintLen = some (varintFormatLen v) ∧
      varintR (varintFormatR v ++ rest) = v) ∧
    ∀ (b : UInt8) (bs : List UInt8), (b :: bs).length = varintLen b →
      varintR (b :: bs) ≤ varintMax ∧ varintFormatLen (varintR (b :: bs)) ≤ varintLen b := by
  constructor
  · intro v hv rest
    obtain ⟨⟨b, bs, hb, hlen⟩, hread⟩ := varintR_formatR hv rest
    obtain ⟨hmem, hholds⟩ := varintFormatLen_holds hv
    refine ⟨varintFormatR_length v, ⟨hmem, hholds, fun n => varintFormatLen_le_of_lt⟩, ?_, hread⟩
    rw [hb, List.cons_append, List.head?_cons, Option.map_some, hlen]
  · intro b bs h
    have hlt := varintR_lt [] h
    rw [List.append_nil] at hlt
    have hmem := varintLen_mem b
    refine ⟨?_, varintFormatLen_le_of_lt hmem hlt⟩
    have hle : 8 * varintLen b - 2 ≤ 62 := by
      have hall : ∀ n ∈ [1, 2, 4, 8], 8 * n - 2 ≤ 62 := by decide
      exact hall _ hmem
    have hpow : 2 ^ (8 * varintLen b - 2) ≤ 2 ^ 62 := Nat.pow_le_pow_right (by decide) hle
    unfold varintMax
    omega

/-! ## one integer behind the other -/

theorem varints_one {v : Nat} {e : List UInt8} : Varints [v] e ↔ IsVarint e v := by
  constructor
  · rintro ⟨e1, e2, rfl, h, rfl⟩
    rwa [List.append_nil]
  · exact fun h => ⟨e, [], (List.append_nil e).symm, h, rfl⟩

theorem varints_append {vs ws : List Nat} {e : List UInt8} :
    Varints (vs ++ ws) e ↔ ∃ e1 e2, e = e1 ++ e2 ∧ Varints vs e1 ∧ Varints ws e2 := by
  induction vs generalizing e with
  | nil =>
    constructor
    · exact fun h => ⟨[], e, rfl, rfl, h⟩
    · rintro ⟨e1, e2, rfl, rfl, h⟩
      exact h
  | cons v vs ih =>
    constructor
    · rintro ⟨e1, e2, rfl, h1, h2⟩
      obtain ⟨e3, e4, rfl, h3, h4⟩ := ih.mp h2
      exact ⟨e1 ++ e3, e4, (List.append_assoc _ _ _).symm, ⟨e1, e3, rfl, h1, h3⟩, h4⟩
    · rintro ⟨e12, e3, rfl, ⟨e1, e2, rfl, h1, h2⟩, h3⟩
      exact ⟨e1, e2 ++ e3, List.append_assoc _ _ _, h1, ih.mpr ⟨e2, e3, rfl, h2, h3⟩⟩

/-- so many integers in front of a buffer are the same however they are read -/
theorem varints_unique {vs ws : List Nat} {e e' rest rest' : List UInt8} (h : Varints vs e)
    (h' : Varints ws e') (hlen : vs.length = ws.length) (heq : e ++ rest = e' ++ rest') :
    vs = ws ∧ rest = rest' := by
  induction vs generalizing ws e e' with
  | nil =>
    obtain rfl := List.eq_nil_of_length_eq_zero hlen.symm
    obtain rfl : e = [] := h
    obtain rfl : e' = [] := h'
    exact ⟨rfl, heq⟩
  | cons v vs ih =>
    cases ws with
    | nil => cases hlen
    | cons w ws =>
      obtain ⟨e1, e2, rfl, h1, h2⟩ := h
      obtain ⟨e3, e4, rfl, h3, h4⟩ := h'
      rw [List.append_assoc, List.append_assoc] at heq
      obtain ⟨rfl, htail⟩ := readVarint_reads.unique h1 h3 heq
      obtain ⟨rfl, hrest⟩ := ih h2 h4 (Nat.succ.inj hlen) htail
      exact ⟨rfl, hrest⟩

/-! ## frames -/

inductive Kind where
  | ping | ack | resetStream | stopSending | crypto | newToken | stream | maxData | maxStreamData
  | maxStreams | dataBlocked | streamDataBlocked | streamsBlocked | newConnectionId
  | retireConnectionId | pathChallenge | pathResponse | connectionClose | handshakeDone
  deriving DecidableEq, Repr

def Kind.parse : Kind → Parser
  | .ping => pingParse
  | .ack => ackParse
  | .resetStream => resetStreamParse
  | .stopSending => stopSendingParse
  | .crypto => cryptoParse
  | .newToken => newTokenParse
  | .stream => streamParse
  | .maxData => maxDataParse
  | .maxStreamData => maxStreamDataParse
  | .maxStreams => maxStreamsParse
  | .dataBlocked => dataBlockedParse
  | .streamDataBlocked => streamDataBlockedParse
  | .streamsBlocked => streamsBlockedParse
  | .newConnectionId => newConnectionIdParse
  | .retireConnectionId => retireConnectionIdParse
  | .pathChallenge => pathChallengeParse
  | .pathResponse => pathResponseParse
  | .connectionClose => connectionCloseParse
  | .handshakeDone => handshakeDoneParse

def Body.kind : Body → Kind
  | .ping => .ping
  | .ack _ => .ack
  | .resetStream _ _ _ => .resetStream
  | .stopSending _ _ => .stopSending
  | .crypto _ _ _ => .crypto
  | .newToken _ => .newToken
  | .stream _ _ _ => .stream
  | .maxData _ => .maxData
  | .maxStreamData _ _ => .maxStreamData
  | .maxStreams _ => .maxStreams
  | .dataBlocked _ => .dataBlocked
  | .streamDataBlocked _ _ => .streamDataBlocked
  | .streamsBlocked _ => .streamsBlocked
  | .newConnectionId _ _ _ _ => .newConnectionId
  | .retireConnectionId _ => .retireConnectionId
  | .pathChallenge _ => .pathChallenge
  | .pathResponse _ => .pathResponse
  | .connectionClose _ _ _ => .connectionClose
  | .handshakeDone => .handshakeDone

/-- an acknowledgement whose range count on the wire is `count`, in front of the ranges of `a`; the
fields that are not on the wire are zero -/
def AckWord (b : UInt8) (count : Nat) (e : List UInt8) (a : AckFrame) : Prop :=
  (∃ e1 e2 e3, e = e1 ++ (e2 ++ e3) ∧ Varints [a.largestAck, a.delay, count, a.firstRange] e1 ∧
    Varints (a.ranges.flatMap fun r => [r.gap, r.len]) e2 ∧
    Varints (if b = 0x03 then [a.ect0, a.ect1, a.ectCe] else []) e3) ∧
  (b ≠ 0x03 → a.ect0 = 0 ∧ a.ect1 = 0 ∧ a.ectCe = 0) ∧
  a.packetType = 0 ∧ a.recvTime = 0 ∧ a.count = a.ranges.length

/-- integers, and behind them data -/
def DataWord (vs : List Nat) (data e : List UInt8) : Prop := ∃ e1, e = e1 ++ data ∧ Varints vs e1

/-- A complete encoding behind the type byte `b`: as many ranges as the count says, as many bytes of
data as the length says, up to the end of the buffer for a STREAM frame without a length.  A field
that the type byte leaves out is zero. -/
def Encodes (b : UInt8) (e rest : List UInt8) : Body → Prop
  | .ping => e = []
  | .ack a => AckWord b a.count e a
  | .resetStream sid appErr finalSize => Varints [sid, appErr, finalSize] e
  | .stopSending sid appErr => Varints [sid, appErr] e
  | .crypto packetType off data => packetType = 0 ∧ DataWord [off, data.length] data e
  | .newToken data => DataWord [data.length] data e
  | .stream sid off data =>
    DataWord (sid :: ((if hasOff b then [off] else []) ++ if hasLen b then [data.length] else []))
      data e ∧ (hasOff b = false → off = 0) ∧ (hasLen b = false → rest = [])
  | .maxData a => Varints [a] e
  | .maxStreamData sid a => Varints [sid, a] e
  | .maxStreams a => Varints [a] e
  | .dataBlocked a => Varints [a] e
  | .streamDataBlocked sid a => Varints [sid, a] e
  | .streamsBlocked a => Varints [a] e
  | .newConnectionId seq retire conn token =>
    1 ≤ conn.1.length ∧
      DataWord [seq, retire] (UInt8.ofNat conn.1.length :: (conn.1 ++ token.1)) e
  | .retireConnectionId a => Varints [a] e
  | .pathChallenge data => e = data.1
  | .pathResponse data => e = data.1
  | .connectionClose err type data =>
    DataWord (err :: ((if b = 0x1c then [type] else []) ++ [data.length])) data e ∧
      (b ≠ 0x1c → type = 0)
  | .handshakeDone => e = []

end OpenQuic
