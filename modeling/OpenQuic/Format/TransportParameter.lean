import OpenQuic.Base
import OpenQuic.Format.Frame
import OpenQuic.Lib.Word

/-!
# Transport parameters

`format/transport_parameter.h`: the size of a set of parameters, the formatter and the parser.  A
block is two bytes with its length, themselves included, and entries of an identifier, a length and
a value, each number in two bytes.

* `TransportParameter`   the record; a byte string is what lies between the two cursors of its buffer,
                      and nothing where they were never set;
* `TransParam`, `Slot`   the identifiers that the parser knows, and the field that each of them sets;
* `size`, `format`    `quic_transport_parameter_size` and `quic_transport_parameter_format`, into a
                      buffer of the given bytes;
* `turn`, `parse`     one turn of the loop of `quic_transport_parameter_parse`, and the function.  A
                      read behind the end of the buffer has no result;
* `parseLoop_turn`    the loop is its first turn and the loop on what that leaves;
* `parse_of_length`   the function is the loop where the length of the block is right.
-/

namespace OpenQuic
open Bytes Word

structure TransportParameter where
  originalConnid : Option (List UInt8)
  idleTimeout : Nat
  statelessResetToken : Option (List UInt8)
  maxPktSize : Nat
  maxData : Nat
  maxStreamDataBidiLocal : Nat
  maxStreamDataBidiRemote : Nat
  maxStreamDataUni : Nat
  maxStreamBidi : Nat
  maxStreamUni : Nat
  ackDelayExponent : UInt8
  maxAckDelay : Nat
  disableMigration : Bool
  activeConnid : Nat
  deriving DecidableEq, Repr

/-- `quic_transport_parameter_init` -/
def TransportParameter.init : TransportParameter where
  originalConnid := some []
  idleTimeout := 0
  statelessResetToken := some []
  maxPktSize := 0
  maxData := 0
  maxStreamDataBidiLocal := 0
  maxStreamDataBidiRemote := 0
  maxStreamDataUni := 0
  maxStreamBidi := 0
  maxStreamUni := 0
  ackDelayExponent := 3
  maxAckDelay := 25000
  disableMigration := false
  activeConnid := 0

/-- `quic_transport_parameter_type_e` -/
inductive TransParam where
  | originalConnid
  | idleTimeout
  | statelessResetToken
  | maxPacketSize
  | maxData
  | maxStreamDataBidiLocal
  | maxStreamDataBidiRemote
  | maxStreamDataUni
  | maxStreamBidi
  | maxStreamUni
  | ackDelayExponent
  | maxAckDelay
  | disableMigration
  | activeConnidLimit
  deriving DecidableEq, Repr

namespace TransParam

def id : TransParam → Nat
  | .originalConnid => 0x00
  | .idleTimeout => 0x01
  | .statelessResetToken => 0x02
  | .maxPacketSize => 0x03
  | .maxData => 0x04
  | .maxStreamDataBidiLocal => 0x05
  | .maxStreamDataBidiRemote => 0x06
  | .maxStreamDataUni => 0x07
  | .maxStreamBidi => 0x08
  | .maxStreamUni => 0x09
  | .ackDelayExponent => 0x0a
  | .maxAckDelay => 0x0b
  | .disableMigration => 0x0c
  | .activeConnidLimit => 0x0e

/-- the cases of the parser's `switch`, which has no other one -/
def ofId : Nat → Option TransParam
  | 0x00 => some .originalConnid
  | 0x01 => some .idleTimeout
  | 0x02 => some .statelessResetToken
  | 0x03 => some .maxPacketSize
  | 0x04 => some .maxData
  | 0x05 => some .maxStreamDataBidiLocal
  | 0x06 => some .maxStreamDataBidiRemote
  | 0x07 => some .maxStreamDataUni
  | 0x08 => some .maxStreamBidi
  | 0x09 => some .maxStreamUni
  | 0x0a => some .ackDelayExponent
  | 0x0b => some .maxAckDelay
  | 0x0c => some .disableMigration
  | 0x0e => some .activeConnidLimit
  | _ => none

theorem ofId_id (t : TransParam) : ofId t.id = some t := by cases t <;> rfl

theorem ofId_eq {n : Nat} {t : TransParam} (h : ofId n = some t) : n = t.id := by
  unfold ofId at h
  split at h <;> cases h <;> rfl

theorem id_lt (t : TransParam) : t.id < 15 := by cases t <;> decide

end TransParam

/-- the function that reads a value, and the field that it is assigned to -/
inductive Slot where
  | string (set : Option (List UInt8) → TransportParameter → TransportParameter)
  | varint (set : Nat → TransportParameter → TransportParameter)
  | bool (set : Bool → TransportParameter → TransportParameter)

/-- the assignments of the `switch`; `ack_delay_exponent` is a `uint8_t` -/
def TransParam.slot : TransParam → Slot
  | .originalConnid => .string fun v p => { p with originalConnid := v }
  | .idleTimeout => .varint fun v p => { p with idleTimeout := v }
  | .statelessResetToken => .string fun v p => { p with statelessResetToken := v }
  | .maxPacketSize => .varint fun v p => { p with maxPktSize := v }
  | .maxData => .varint fun v p => { p with maxData := v }
  | .maxStreamDataBidiLocal => .varint fun v p => { p with maxStreamDataBidiLocal := v }
  | .maxStreamDataBidiRemote => .varint fun v p => { p with maxStreamDataBidiRemote := v }
  | .maxStreamDataUni => .varint fun v p => { p with maxStreamDataUni := v }
  | .maxStreamBidi => .varint fun v p => { p with maxStreamBidi := v }
  | .maxStreamUni => .varint fun v p => { p with maxStreamUni := v }
  | .ackDelayExponent => .varint fun v p => { p with ackDelayExponent := UInt8.ofNat v }
  | .maxAckDelay => .varint fun v p => { p with maxAckDelay := v }
  | .disableMigration => .bool fun v p => { p with disableMigration := v }
  | .activeConnidLimit => .varint fun v p => { p with activeConnid := v }

/-! ## numbers of two bytes -/

/-- `*(uint16_t *) pos = quic_bswap_16(v)` -/
def put16 (v : Nat) : List UInt8 := leBytes 2 (bswap 2 v)

/-- `quic_bswap_16(*(uint16_t *) pos)` -/
def get16 (bs : List UInt8) : Nat := bswap 2 (leNat (bs.take 2))

@[simp] theorem length_put16 (v : Nat) : (put16 v).length = 2 := length_leBytes _ _

theorem put16_eq (v : Nat) : put16 v = [UInt8.ofNat (v / 256), UInt8.ofNat v] := by
  unfold put16
  rw [leBytes_bswap]
  rfl

theorem get16_cons (a b : UInt8) (bs : List UInt8) :
    get16 (a :: b :: bs) = 256 * a.toNat + b.toNat := by
  show bswap [a, b].length (leNat [a, b]) = _
  rw [bswap_leNat]
  show b.toNat + 256 * (a.toNat + 256 * 0) = _
  omega

theorem get16_put16 {v : Nat} (h : v < 2 ^ 16) (bs : List UInt8) : get16 (put16 v ++ bs) = v := by
  have hhigh : (UInt8.ofNat (v / 256)).toNat = v / 256 := by
    rw [UInt8.toNat_ofNat', Nat.mod_eq_of_lt (by omega)]
  have hlow : (UInt8.ofNat v).toNat = v % 256 := UInt8.toNat_ofNat'
  rw [put16_eq]
  show get16 (UInt8.ofNat (v / 256) :: UInt8.ofNat v :: bs) = v
  rw [get16_cons, hhigh, hlow]
  omega

/-- an entry of a block -/
def entryBytes (id : Nat) (value : List UInt8) : List UInt8 :=
  put16 id ++ put16 value.length ++ value

theorem length_entryBytes (id : Nat) (value : List UInt8) :
    (entryBytes id value).length = 4 + value.length := by
  unfold entryBytes
  rw [List.length_append, List.length_append, length_put16, length_put16]

/-! ## formatting -/

namespace TransportParameter

/-- `quic_transport_parameter_size`; what is counted for `active_connid` is the length of its
thousandth part -/
def size (p : TransportParameter) : Option Nat := do
  let token ← p.statelessResetToken
  let connid ← p.originalConnid
  return 2
    + (4 + varintFormatLen p.idleTimeout)
    + (4 + varintFormatLen p.maxPktSize)
    + (4 + varintFormatLen p.maxData)
    + (4 + varintFormatLen p.maxStreamDataBidiLocal)
    + (4 + varintFormatLen p.maxStreamDataBidiRemote)
    + (4 + varintFormatLen p.maxStreamDataUni)
    + (4 + varintFormatLen p.maxStreamBidi)
    + (4 + varintFormatLen p.maxStreamUni)
    + (4 + varintFormatLen p.maxAckDelay)
    + (4 + varintFormatLen p.ackDelayExponent.toNat)
    + (4 + varintFormatLen (p.activeConnid / 1000))
    + (if p.disableMigration then 4 else 0)
    + (if token.length ≠ 0 then 4 + token.length else 0)
    + (if connid.length ≠ 0 then 4 + connid.length else 0)

end TransportParameter

/-- bytes that the caller has found room for -/
def Buf.write (b : Buf) (bytes : List UInt8) : Buf := ⟨b.written ++ bytes, b.room - bytes.length⟩

/-- `quic_transport_parameter_varint_format` -/
def paramVarintFormat (id : TransParam) (value : Nat) (b : Buf) : Buf × Bool :=
  let varintLen := varintFormatLen value
  if b.room < 4 + varintLen then (b, false)
  else (b.write (put16 id.id ++ put16 varintLen ++ varintFormatR value), true)

/-- `quic_transport_parameter_string_format` -/
def paramStringFormat (id : TransParam) (value : List UInt8) (b : Buf) : Buf × Bool :=
  if value.length ≠ 0 then
    if b.room < 4 + value.length then (b, false)
    else (b.write (put16 id.id ++ put16 value.length ++ value), true)
  else (b, true)

/-- `quic_transport_parameter_bool_format` -/
def paramBoolFormat (id : TransParam) (value : Bool) (b : Buf) : Buf × Bool :=
  if value then
    if b.room < 4 then (b, false)
    else (b.write (put16 id.id ++ [0x00, 0x00]), true)
  else (b, true)

/-- a chain of `&&` -/
def formatChain : List (Buf → Buf × Bool) → Buf → Buf × Bool
  | [], b => (b, true)
  | f :: fs, b => if (f b).2 then formatChain fs (f b).1 else f b

namespace TransportParameter

/-- the calls of `quic_transport_parameter_format`, in their order -/
def formatCalls (p : TransportParameter) (connid token : List UInt8) :
    List (Buf → Buf × Bool) :=
  [ paramVarintFormat .idleTimeout p.idleTimeout,
    paramVarintFormat .maxPacketSize p.maxPktSize,
    paramVarintFormat .maxData p.maxData,
    paramVarintFormat .maxStreamDataBidiLocal p.maxStreamDataBidiLocal,
    paramVarintFormat .maxStreamDataBidiRemote p.maxStreamDataBidiRemote,
    paramVarintFormat .maxStreamDataUni p.maxStreamDataUni,
    paramVarintFormat .maxStreamBidi p.maxStreamBidi,
    paramVarintFormat .maxStreamUni p.maxStreamUni,
    paramVarintFormat .ackDelayExponent p.ackDelayExponent.toNat,
    paramVarintFormat .maxAckDelay p.maxAckDelay,
    paramVarintFormat .activeConnidLimit p.activeConnid,
    paramStringFormat .originalConnid connid,
    paramStringFormat .statelessResetToken token,
    paramBoolFormat .disableMigration p.disableMigration ]

/-- `quic_transport_parameter_format` into a buffer of these bytes: the bytes after it, the cursor
and the result -/
def format (buf : List UInt8) (p : TransportParameter) : Option (List UInt8 × Nat × Err) := do
  let connid ← p.originalConnid
  let token ← p.statelessResetToken
  let x := formatChain (p.formatCalls connid token) ⟨buf.take 2, buf.length - 2⟩
  let pos := x.1.written.length
  if !x.2 then return (x.1.written ++ buf.drop pos, pos, .internalError)
  return (put16 pos ++ x.1.written.drop 2 ++ buf.drop pos, pos, .success)

end TransportParameter

/-! ## parsing -/

/-- `quic_transport_parameter_string_parse`; the cursors of the string are set last, and the value is
passed over only then -/
def paramStringParse (mem : Nat → Bool) (bs : List UInt8) : Option (List UInt8) × List UInt8 :=
  let capa := get16 bs
  let bs := bs.drop 2
  if capa > bs.length then (none, bs)
  else if !mem capa then (none, bs)
  else (some (bs.take capa), bs.drop capa)

/-- `quic_transport_parameter_varint_parse`, which does not look at the length of the value -/
def paramVarintParse (bs : List UInt8) : Option (Nat × List UInt8) :=
  match bs.drop 2 with
  | [] => none
  | b :: rest =>
    if (b :: rest).length < varintLen b then none
    else some (varintR (b :: rest), (b :: rest).drop (varintLen b))

/-- `quic_transport_parameter_bool_parse` -/
def paramBoolParse (bs : List UInt8) : Bool × List UInt8 := (true, bs.drop 2)

namespace TransportParameter

section
variable (mem : Nat → Bool)

/-- one turn of the loop.  An identifier without a case is passed over by itself. -/
def turn (ret : TransportParameter) (bs : List UInt8) :
    Option (TransportParameter × List UInt8) :=
  match TransParam.ofId (get16 bs) with
  | none => some (ret, bs.drop 2)
  | some t =>
    match t.slot with
    | .string set =>
      let x := paramStringParse mem (bs.drop 2)
      some (set x.1 ret, x.2)
    | .varint set => (paramVarintParse (bs.drop 2)).map fun x => (set x.1 ret, x.2)
    | .bool set =>
      let x := paramBoolParse (bs.drop 2)
      some (set x.1 ret, x.2)

/-- the loop, with fuel for its turns -/
def parseTurns : (fuel : Nat) → TransportParameter → List UInt8 → Option TransportParameter
  | 0, ret, bs => if bs.length < 4 then some ret else none
  | fuel + 1, ret, bs =>
    if bs.length < 4 then some ret
    else (turn mem ret bs).bind fun x => parseTurns fuel x.1 x.2

/-- the loop: every turn takes a byte at least -/
def parseLoop (ret : TransportParameter) (bs : List UInt8) : Option TransportParameter :=
  parseTurns mem bs.length ret bs

/-- `quic_transport_parameter_parse` of the bytes of a buffer; `mem n` is whether `malloc` succeeds
for `n` bytes -/
def parse (bs : List UInt8) : Option TransportParameter :=
  if bs.length < 2 then none
  else
    let len := Word.sub 16 (get16 bs) 2
    let rest := bs.drop 2
    if len ≠ rest.length then some init else parseLoop mem init rest

end

/-! ## the loop and its turns -/

section
variable {mem : Nat → Bool} {ret : TransportParameter} {bs : List UInt8}

theorem turn_length {x : TransportParameter × List UInt8} (h : turn mem ret bs = some x)
    (hlen : 4 ≤ bs.length) : x.2.length < bs.length := by
  have hdrop : (bs.drop 2).length = bs.length - 2 := List.length_drop
  unfold turn at h
  split at h
  · cases h
    show (bs.drop 2).length < bs.length
    omega
  · split at h
    · cases h
      show (paramStringParse mem (bs.drop 2)).2.length < bs.length
      unfold paramStringParse
      dsimp only
      split
      · rw [List.length_drop]
        omega
      · split
        · rw [List.length_drop]
          omega
        · rw [List.length_drop, List.length_drop]
          omega
    · obtain ⟨y, hy, rfl⟩ := Option.map_eq_some_iff.mp h
      unfold paramVarintParse at hy
      split at hy
      · cases hy
      · rename_i b rest hrest
        split at hy
        · cases hy
        · cases hy
          have := congrArg List.length hrest
          show ((b :: rest).drop (varintLen b)).length < bs.length
          rw [List.length_drop] at this ⊢
          omega
    · cases h
      show ((bs.drop 2).drop 2).length < bs.length
      rw [List.length_drop]
      omega

/-- fuel for every byte is enough -/
theorem parseTurns_of_le {fuel : Nat} (h : bs.length ≤ fuel) :
    parseTurns mem fuel ret bs = parseLoop mem ret bs := by
  unfold parseLoop
  induction fuel using Nat.strong_induction_on generalizing ret bs with
  | _ fuel ih =>
    cases bs with
    | nil =>
      cases fuel <;> rfl
    | cons b bs =>
      cases fuel with
      | zero => cases h
      | succ fuel =>
        rw [List.length_cons, parseTurns, parseTurns]
        by_cases hlen : (b :: bs).length < 4
        · rw [if_pos hlen, if_pos hlen]
        · rw [if_neg hlen, if_neg hlen]
          refine Option.bind_congr fun x hx => ?_
          have hlt := turn_length hx (Nat.le_of_not_lt hlen)
          rw [List.length_cons] at h hlt
          rw [ih fuel (Nat.lt_succ_self _) (by omega), ih bs.length (by omega) (by omega)]

theorem parseLoop_short (h : bs.length < 4) : parseLoop mem ret bs = some ret := by
  unfold parseLoop
  cases bs with
  | nil => rfl
  | cons b bs => rw [List.length_cons, parseTurns, if_pos h]

/-- **The loop.** -/
theorem parseLoop_turn (h : 4 ≤ bs.length) : parseLoop mem ret bs =
    (turn mem ret bs).bind fun x => parseLoop mem x.1 x.2 := by
  cases bs with
  | nil => cases h
  | cons b bs =>
    unfold parseLoop
    rw [List.length_cons, parseTurns, if_neg (by omega)]
    refine Option.bind_congr fun x hx => ?_
    have hlt := turn_length hx h
    rw [List.length_cons] at hlt
    exact parseTurns_of_le (by omega)

/-- behind a length that is right comes the loop -/
theorem parse_of_length (h : 2 + bs.length < 2 ^ 16) :
    parse mem (put16 (2 + bs.length) ++ bs) = parseLoop mem init bs := by
  have hlen : (put16 (2 + bs.length) ++ bs).length = 2 + bs.length := by
    rw [List.length_append, length_put16]
  unfold parse
  rw [hlen, if_neg (by omega), get16_put16 h, List.drop_left' (length_put16 _)]
  dsimp only
  rw [Word.sub_of_le (by omega) h, Nat.add_sub_cancel_left, if_neg (by simp)]

end

end TransportParameter

end OpenQuic
