import OpenQuic.Base
import OpenQuic.Utils.Varint

/-!
# Frames

The frame structs of `format/frame.h`, and the parsers, formatters and sizers of `format/frame.c`.

A frame is a type byte, the two callbacks and the struct behind them.  The functions of `frame.c`
cast the frame to the struct they are written for; `word1`, `word2`, `word3` are what such a cast
reads from a struct of integers, and a cast that reads past the struct has no result.

* `Buf`               a buffer that is being filled: what is in it and the room that is left;
* `Parser`            a parser of the bytes from `pos` to `last`; `Stop.fault` where the code
                      writes past the memory that it has allocated;
* `...Parse`, `...Format`, `...Size`   one function for each function of the source.
-/

namespace OpenQuic

/-! ## the structs -/

abbrev ByteVec (n : Nat) := { l : List UInt8 // l.length = n }

structure AckRange where
  gap : Nat
  len : Nat
  deriving DecidableEq, Repr

/-- `quic_frame_ack_t`; `count` is a field of its own, as it is in `quic_arr_t` -/
structure AckFrame where
  packetType : UInt8
  recvTime : Time
  largestAck : Nat
  delay : Nat
  firstRange : Nat
  ect0 : Nat
  ect1 : Nat
  ectCe : Nat
  count : Nat
  ranges : List AckRange
  deriving DecidableEq

/-- `quic_arr(&frame->ranges, i, quic_ack_range_t)` -/
def AckFrame.range (a : AckFrame) (i : Nat) : AckRange := a.ranges.getD i ⟨0, 0⟩

/-- the struct behind the type byte; the `len` of a struct with data is the length of the data -/
inductive Body where
  | ping
  | ack (a : AckFrame)
  | resetStream (sid appErr finalSize : Nat)
  | stopSending (sid appErr : Nat)
  | crypto (packetType : UInt8) (off : Nat) (data : List UInt8)
  | newToken (data : List UInt8)
  | stream (sid off : Nat) (data : List UInt8)
  | maxData (maxData : Nat)
  | maxStreamData (sid maxData : Nat)
  | maxStreams (maxStreams : Nat)
  | dataBlocked (maxData : Nat)
  | streamDataBlocked (sid maxData : Nat)
  | streamsBlocked (maxStreams : Nat)
  | newConnectionId (seq retire : Nat) (conn : { l : List UInt8 // l.length ≤ 20 })
      (token : ByteVec 16)
  | retireConnectionId (seq : Nat)
  | pathChallenge (data : ByteVec 8)
  | pathResponse (data : ByteVec 8)
  | connectionClose (err type : Nat) (data : List UInt8)
  | handshakeDone
  deriving DecidableEq

/-- `onAcked` is the stream that `quic_send_stream_on_acked` is to be called for, `onLost` whether
`quic_framer_stream_frame_on_lost` is set: no other callback is ever installed. -/
structure Frame where
  firstByte : UInt8
  onAcked : Option Nat
  onLost : Bool
  body : Body
  deriving DecidableEq

/-- `quic_frame_init` -/
def Frame.init (type : UInt8) (body : Body) : Frame := ⟨type, none, false, body⟩

/-! ## buffers -/

structure Buf where
  written : List UInt8
  room : Nat
  deriving DecidableEq

/-- one `quic_put_...`: it checks the room for its bytes before it writes them -/
def Buf.put (b : Buf) (bytes : List UInt8) : Buf × Err :=
  if b.room < bytes.length then (b, .badFormat)
  else (⟨b.written ++ bytes, b.room - bytes.length⟩, .success)

/-- the puts of a formatter, which returns at the first that fails -/
def Buf.puts (b : Buf) : List (List UInt8) → Buf × Err
  | [] => (b, .success)
  | bytes :: rest =>
    match b.put bytes with
    | (b, .success) => b.puts rest
    | (b, e) => (b, e)

/-! ## reading -/

/-- why a parser stops: with an error, or where the code writes outside its memory -/
inductive Stop where
  | err (e : Err)
  | fault
  deriving DecidableEq, Repr

/-- `mem n` is whether `malloc` succeeds for a struct with `n` more bytes behind it -/
abbrev Parser := (mem : Nat → Bool) → List UInt8 → Except Stop (Frame × List UInt8)

/-- `quic_first_byte`; a parser that finds no byte here fails at its next check -/
def readByte : List UInt8 → Except Stop (UInt8 × List UInt8)
  | [] => .error (.err .badFormat)
  | b :: bs => .ok (b, bs)

def readVarint : List UInt8 → Except Stop (Nat × List UInt8)
  | [] => .error (.err .badFormat)
  | b :: bs =>
    if (b :: bs).length < varintLen b then .error (.err .badFormat)
    else .ok (varintR (b :: bs), (b :: bs).drop (varintLen b))

/-- a field that is read when a bit of the type byte says so -/
def readOptional (there : Bool) (default : Nat) (bs : List UInt8) :
    Except Stop (Nat × List UInt8) :=
  if there then readVarint bs else .ok (default, bs)

/-- `memcpy` of `n` bytes after the check that they are there -/
def readBytes (n : Nat) (bs : List UInt8) : Except Stop (ByteVec n × List UInt8) :=
  if h : bs.length < n then .error (.err .badFormat)
  else .ok (⟨bs.take n, by rw [List.length_take]; omega⟩, bs.drop n)

/-- `quic_frame_alloc` with `n` bytes behind the struct -/
def alloc (mem : Nat → Bool) (n : Nat) : Except Stop Unit :=
  if mem n then .ok () else .error (.err .internalError)

/-- `quic_extend_data` of `len` bytes into an allocation with `room` bytes behind the struct -/
def extendData (room len : Nat) (bs : List UInt8) : Except Stop (List UInt8 × List UInt8) :=
  if bs.length < len then .error (.err .badFormat)
  else if room < len then .error .fault
  else .ok (bs.take len, bs.drop len)

/-! ## structs of integers -/

/-- the first word of a struct of integers -/
def Body.word1 : Body → Option Nat
  | .resetStream a _ _ => some a
  | .stopSending a _ => some a
  | .maxData a => some a
  | .maxStreamData a _ => some a
  | .maxStreams a => some a
  | .dataBlocked a => some a
  | .streamDataBlocked a _ => some a
  | .streamsBlocked a => some a
  | .retireConnectionId a => some a
  | _ => none

def Body.word2 : Body → Option Nat
  | .resetStream _ b _ => some b
  | .stopSending _ b => some b
  | .maxStreamData _ b => some b
  | .streamDataBlocked _ b => some b
  | _ => none

def Body.word3 : Body → Option Nat
  | .resetStream _ _ c => some c
  | _ => none

section
variable (mem : Nat → Bool) (bs : List UInt8)

/-- the parser of a struct of one integer -/
def parse1 (mk : Nat → Body) : Except Stop (Frame × List UInt8) := do
  let (first, bs) ← readByte bs
  let (a, bs) ← readVarint bs
  alloc mem 0
  return (.init first (mk a), bs)

/-- the parser of a struct of two integers, which it puts into an allocation for `words` -/
def parse2 (words : Nat) (mk : Nat → Nat → Body) : Except Stop (Frame × List UInt8) := do
  let (first, bs) ← readByte bs
  let (a, bs) ← readVarint bs
  let (b, bs) ← readVarint bs
  alloc mem 0
  if words < 2 then throw .fault
  return (.init first (mk a b), bs)

end

def format1 (f : Frame) : Option (List (List UInt8)) := do
  let a ← f.body.word1
  return [[f.firstByte], varintFormatR a]

def format2 (f : Frame) : Option (List (List UInt8)) := do
  let a ← f.body.word1
  let b ← f.body.word2
  return [[f.firstByte], varintFormatR a, varintFormatR b]

def size1 (f : Frame) : Option Nat := do
  let a ← f.body.word1
  return 1 + varintFormatLen a

def size2 (f : Frame) : Option Nat := do
  let a ← f.body.word1
  let b ← f.body.word2
  return 1 + varintFormatLen a + varintFormatLen b

def stopSendingParse : Parser := fun mem bs => parse2 mem bs 2 .stopSending
def maxDataParse : Parser := fun mem bs => parse1 mem bs .maxData
def maxStreamDataParse : Parser := fun mem bs => parse2 mem bs 2 .maxStreamData
def maxStreamsParse : Parser := fun mem bs => parse1 mem bs .maxStreams
def dataBlockedParse : Parser := fun mem bs => parse1 mem bs .dataBlocked
/-- allocates `sizeof(quic_frame_data_blocked_t)` -/
def streamDataBlockedParse : Parser := fun mem bs => parse2 mem bs 1 .streamDataBlocked
def streamsBlockedParse : Parser := fun mem bs => parse1 mem bs .streamsBlocked
def retireConnectionIdParse : Parser := fun mem bs => parse1 mem bs .retireConnectionId

def stopSendingFormat := format2
def maxDataFormat := format1
def maxStreamDataFormat := format2
def maxStreamsFormat := format1
def dataBlockedFormat := format1
def streamDataBlockedFormat := format2
def streamsBlockedFormat := format1
def retireConnectionIdFormat := format1

def stopSendingSize := size2
def maxDataSize := size1
def maxStreamDataSize := size2
def maxStreamsSize := size1
def dataBlockedSize := size1
def streamDataBlockedSize := size2
def streamsBlockedSize := size1
def retireConnectionIdSize := size1

def resetStreamParse : Parser := fun mem bs => do
  let (first, bs) ← readByte bs
  let (sid, bs) ← readVarint bs
  let (appErr, bs) ← readVarint bs
  let (finalSize, bs) ← readVarint bs
  alloc mem 0
  return (.init first (.resetStream sid appErr finalSize), bs)

def resetStreamFormat (f : Frame) : Option (List (List UInt8)) := do
  let sid ← f.body.word1
  let appErr ← f.body.word2
  let finalSize ← f.body.word3
  return [[f.firstByte], varintFormatR sid, varintFormatR appErr, varintFormatR finalSize]

def resetStreamSize (f : Frame) : Option Nat := do
  let sid ← f.body.word1
  let appErr ← f.body.word2
  let finalSize ← f.body.word3
  return 1 + varintFormatLen sid + varintFormatLen appErr + varintFormatLen finalSize

/-! ## structs without fields -/

def parse0 (body : Body) : Parser := fun mem bs => do
  let (first, bs) ← readByte bs
  alloc mem 0
  return (.init first body, bs)

def pingParse : Parser := parse0 .ping
def handshakeDoneParse : Parser := parse0 .handshakeDone

def format0 (f : Frame) : Option (List (List UInt8)) := some [[f.firstByte]]

def pingFormat := format0
def handshakeDoneFormat := format0

def pingSize (_ : Frame) : Option Nat := some 1
def handshakeDoneSize (_ : Frame) : Option Nat := some 1

/-! ## acknowledgements -/

def readRanges : Nat → List UInt8 → Except Stop (List AckRange × List UInt8)
  | 0, bs => .ok ([], bs)
  | n + 1, bs => do
    let (gap, bs) ← readVarint bs
    let (len, bs) ← readVarint bs
    let (ranges, bs) ← readRanges n bs
    return (⟨gap, len⟩ :: ranges, bs)

/-- `quic_ack_parse`; `ranges.count` is a `uint32_t`.  The ECN counts of a frame without them, and
the two fields that only the receiver sets, are left as they are in memory. -/
def ackParse : Parser := fun mem bs => do
  let (first, bs) ← readByte bs
  let (largestAck, bs) ← readVarint bs
  let (delay, bs) ← readVarint bs
  let (count, bs) ← readVarint bs
  let (firstRange, bs) ← readVarint bs
  alloc mem (Word.u32 count * 16)
  let (ranges, bs) ← readRanges (Word.u32 count) bs
  if first = 0x03 then
    let (ect0, bs) ← readVarint bs
    let (ect1, bs) ← readVarint bs
    let (ectCe, bs) ← readVarint bs
    return (.init first (.ack ⟨0, 0, largestAck, delay, firstRange, ect0, ect1, ectCe,
      Word.u32 count, ranges⟩), bs)
  else
    return (.init first (.ack ⟨0, 0, largestAck, delay, firstRange, 0, 0, 0,
      Word.u32 count, ranges⟩), bs)

def ackFormat (f : Frame) : Option (List (List UInt8)) :=
  match f.body with
  | .ack a => some ([[f.firstByte], varintFormatR a.largestAck, varintFormatR a.delay,
      varintFormatR a.count, varintFormatR a.firstRange]
    ++ (List.range a.count).flatMap (fun i =>
      [varintFormatR (a.range i).gap, varintFormatR (a.range i).len])
    ++ if f.firstByte = 0x03 then
        [varintFormatR a.ect0, varintFormatR a.ect1, varintFormatR a.ectCe]
      else [])
  | _ => none

def ackSize (f : Frame) : Option Nat :=
  match f.body with
  | .ack a => some (1 + varintFormatLen a.largestAck + varintFormatLen a.delay
    + varintFormatLen a.count + varintFormatLen a.firstRange
    + ((List.range a.count).map fun i =>
        varintFormatLen (a.range i).gap + varintFormatLen (a.range i).len).sum
    + if f.firstByte = 0x03 then
        varintFormatLen a.ect0 + varintFormatLen a.ect1 + varintFormatLen a.ectCe
      else 0)
  | _ => none

/-! ## structs with data -/

def cryptoParse : Parser := fun mem bs => do
  let (first, bs) ← readByte bs
  let (off, bs) ← readVarint bs
  let (len, bs) ← readVarint bs
  alloc mem len
  let (data, bs) ← extendData len len bs
  return (.init first (.crypto 0 off data), bs)

def cryptoFormat (f : Frame) : Option (List (List UInt8)) :=
  match f.body with
  | .crypto _ off data =>
    some [[f.firstByte], varintFormatR off, varintFormatR data.length, data]
  | _ => none

def cryptoSize (f : Frame) : Option Nat :=
  match f.body with
  | .crypto _ off data =>
    some (1 + varintFormatLen off + varintFormatLen data.length + data.length)
  | _ => none

def newTokenParse : Parser := fun mem bs => do
  let (first, bs) ← readByte bs
  let (len, bs) ← readVarint bs
  alloc mem len
  let (data, bs) ← extendData len len bs
  return (.init first (.newToken data), bs)

def newTokenFormat (f : Frame) : Option (List (List UInt8)) :=
  match f.body with
  | .newToken data => some [[f.firstByte], varintFormatR data.length, data]
  | _ => none

def newTokenSize (f : Frame) : Option Nat :=
  match f.body with
  | .newToken data => some (1 + varintFormatLen data.length + data.length)
  | _ => none

/-- `first_byte & quic_frame_stream_type_off` -/
def hasOff (first : UInt8) : Bool := first &&& 0x0c == 0x0c

/-- `first_byte & quic_frame_stream_type_len` -/
def hasLen (first : UInt8) : Bool := first &&& 0x0a == 0x0a

def streamParse : Parser := fun mem bs => do
  let (first, bs) ← readByte bs
  let (sid, bs) ← readVarint bs
  let (off, bs) ← readOptional (hasOff first) 0 bs
  let (len, bs) ← readOptional (hasLen first) bs.length bs
  alloc mem len
  let (data, bs) ← extendData len len bs
  return (.init first (.stream sid off data), bs)

def streamFormat (f : Frame) : Option (List (List UInt8)) :=
  match f.body with
  | .stream sid off data => some ([[f.firstByte], varintFormatR sid]
    ++ (if hasOff f.firstByte then [varintFormatR off] else [])
    ++ (if hasLen f.firstByte then [varintFormatR data.length] else []) ++ [data])
  | _ => none

def streamSize (f : Frame) : Option Nat :=
  match f.body with
  | .stream sid off data => some (1 + varintFormatLen sid
    + (if hasOff f.firstByte then varintFormatLen off else 0)
    + (if hasLen f.firstByte then varintFormatLen data.length else 0) + data.length)
  | _ => none

/-- `quic_connection_close_parse` allocates the struct alone, without room for the reason -/
def connectionCloseParse : Parser := fun mem bs => do
  let (first, bs) ← readByte bs
  let (err, bs) ← readVarint bs
  let (type, bs) ← readOptional (first == 0x1c) 0 bs
  let (len, bs) ← readVarint bs
  alloc mem 0
  let (data, bs) ← extendData 0 len bs
  return (.init first (.connectionClose err type data), bs)

def connectionCloseFormat (f : Frame) : Option (List (List UInt8)) :=
  match f.body with
  | .connectionClose err type data => some ([[f.firstByte], varintFormatR err]
    ++ (if f.firstByte == 0x1c then [varintFormatR type] else [])
    ++ [varintFormatR data.length, data])
  | _ => none

def connectionCloseSize (f : Frame) : Option Nat :=
  match f.body with
  | .connectionClose err type data => some (1 + varintFormatLen err
    + (if f.firstByte == 0x1c then varintFormatLen type else 0)
    + varintFormatLen data.length + data.length)
  | _ => none

/-! ## connection IDs and path data -/

/-- the connection ID, of the length that the frame gives, and the token -/
def readConn (len : Nat) (bs : List UInt8) :
    Except Stop ({ l : List UInt8 // l.length ≤ 20 } × ByteVec 16 × List UInt8) :=
  if h : 1 ≤ len ∧ len ≤ 20 then
    if bs.length < len + 16 then .error (.err .badFormat)
    else do
      let (token, rest) ← readBytes 16 (bs.drop len)
      return (⟨bs.take len, (List.length_take_le _ _).trans h.2⟩, token, rest)
  else .error (.err .badFormat)

def newConnectionIdParse : Parser := fun mem bs => do
  let (first, bs) ← readByte bs
  let (seq, bs) ← readVarint bs
  let (retire, bs) ← readVarint bs
  let (len, bs) ← readByte bs
  let (conn, token, bs) ← readConn len.toNat bs
  alloc mem 0
  return (.init first (.newConnectionId seq retire conn token), bs)

def newConnectionIdFormat (f : Frame) : Option (List (List UInt8)) :=
  match f.body with
  | .newConnectionId seq retire conn token => some [[f.firstByte], varintFormatR seq,
      varintFormatR retire, [UInt8.ofNat conn.1.length], conn.1, token.1]
  | _ => none

def newConnectionIdSize (f : Frame) : Option Nat :=
  match f.body with
  | .newConnectionId seq retire conn _ =>
    some (1 + varintFormatLen seq + varintFormatLen retire + 1 + conn.1.length + 16)
  | _ => none

/-- the parser of a struct of eight bytes -/
def parse8 (mk : ByteVec 8 → Body) : Parser := fun mem bs => do
  let (first, bs) ← readByte bs
  let (data, bs) ← readBytes 8 bs
  alloc mem 0
  return (.init first (mk data), bs)

def pathChallengeParse : Parser := parse8 .pathChallenge
def pathResponseParse : Parser := parse8 .pathResponse

def format8 (f : Frame) : Option (List (List UInt8)) :=
  match f.body with
  | .pathChallenge data => some [[f.firstByte], data.1]
  | .pathResponse data => some [[f.firstByte], data.1]
  | _ => none

def pathChallengeFormat := format8
def pathResponseFormat := format8

def pathChallengeSize (_ : Frame) : Option Nat := some (1 + 8)
def pathResponseSize (_ : Frame) : Option Nat := some (1 + 8)

end OpenQuic
