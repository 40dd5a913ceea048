import OpenQuic.Format.Frame

/-!
# The dispatch tables of frames

The three tables that `conf/frame.conf` generates, the three functions that dispatch through them
(`frame.h`), and the two loops over the frames of a packet: the one that fills the payload of a
sealed packet and the one that reads the payload of a received packet.

Rows `0x15` to `0x17` are one row ahead of the structs: they name the functions of `data_blocked`
and `stream_data_blocked`, and those of `streams_blocked` are in no row.
-/

namespace OpenQuic

def parser : Nat → Option Parser
  | 0x01 => some pingParse
  | 0x02 | 0x03 => some ackParse
  | 0x04 => some resetStreamParse
  | 0x05 => some stopSendingParse
  | 0x06 => some cryptoParse
  | 0x07 => some newTokenParse
  | 0x08 | 0x09 | 0x0a | 0x0b | 0x0c | 0x0d | 0x0e | 0x0f => some streamParse
  | 0x10 => some maxDataParse
  | 0x11 => some maxStreamDataParse
  | 0x12 | 0x13 => some maxStreamsParse
  | 0x14 | 0x15 => some dataBlockedParse
  | 0x16 | 0x17 => some streamDataBlockedParse
  | 0x18 => some newConnectionIdParse
  | 0x19 => some retireConnectionIdParse
  | 0x1a => some pathChallengeParse
  | 0x1b => some pathResponseParse
  | 0x1c | 0x1d => some connectionCloseParse
  | 0x1e => some handshakeDoneParse
  | _ => none

def formatter : Nat → Option (Frame → Option (List (List UInt8)))
  | 0x01 => some pingFormat
  | 0x02 | 0x03 => some ackFormat
  | 0x04 => some resetStreamFormat
  | 0x05 => some stopSendingFormat
  | 0x06 => some cryptoFormat
  | 0x07 => some newTokenFormat
  | 0x08 | 0x09 | 0x0a | 0x0b | 0x0c | 0x0d | 0x0e | 0x0f => some streamFormat
  | 0x10 => some maxDataFormat
  | 0x11 => some maxStreamDataFormat
  | 0x12 | 0x13 => some maxStreamsFormat
  | 0x14 | 0x15 => some dataBlockedFormat
  | 0x16 | 0x17 => some streamDataBlockedFormat
  | 0x18 => some newConnectionIdFormat
  | 0x19 => some retireConnectionIdFormat
  | 0x1a => some pathChallengeFormat
  | 0x1b => some pathResponseFormat
  | 0x1c | 0x1d => some connectionCloseFormat
  | 0x1e => some handshakeDoneFormat
  | _ => none

def sizer : Nat → Option (Frame → Option Nat)
  | 0x01 => some pingSize
  | 0x02 | 0x03 => some ackSize
  | 0x04 => some resetStreamSize
  | 0x05 => some stopSendingSize
  | 0x06 => some cryptoSize
  | 0x07 => some newTokenSize
  | 0x08 | 0x09 | 0x0a | 0x0b | 0x0c | 0x0d | 0x0e | 0x0f => some streamSize
  | 0x10 => some maxDataSize
  | 0x11 => some maxStreamDataSize
  | 0x12 | 0x13 => some maxStreamsSize
  | 0x14 | 0x15 => some dataBlockedSize
  | 0x16 | 0x17 => some streamDataBlockedSize
  | 0x18 => some newConnectionIdSize
  | 0x19 => some retireConnectionIdSize
  | 0x1a => some pathChallengeSize
  | 0x1b => some pathResponseSize
  | 0x1c | 0x1d => some connectionCloseSize
  | 0x1e => some handshakeDoneSize
  | _ => none

/-- `quic_frame_format_inner`; no result where the formatter reads past the struct -/
def frameFormat (b : Buf) (f : Frame) : Option (Buf × Err) :=
  match formatter f.firstByte.toNat with
  | none => some (b, .notImplemented)
  | some format => (format f).map b.puts

/-- `quic_frame_parse_inner` of a buffer that is not empty -/
def frameParse : Parser := fun mem bs =>
  match bs with
  | [] => .error .fault
  | first :: _ =>
    match parser first.toNat with
    | none => .error (.err .notImplemented)
    | some parse => parse mem bs

/-- `quic_frame_size_inner`; no result where the sizer reads past the struct -/
def frameSizeOf (f : Frame) : Option Nat :=
  match sizer f.firstByte.toNat with
  | none => some 0
  | some size => size f

/-- the size of a frame that is stored in the struct its sizer reads -/
def frameSize (f : Frame) : Nat := (frameSizeOf f).getD 0

/-- the total of `quic_sealer_seal`'s first loop -/
def framesSize : List Frame → Option Nat
  | [] => some 0
  | f :: fs => do
    let n ← frameSizeOf f
    let m ← framesSize fs
    return n + m

/-- its second loop: every frame is formatted, whatever becomes of the ones before -/
def formatFrames (b : Buf) : List Frame → Option (Buf × List Err)
  | [] => some (b, [])
  | f :: fs => do
    let (b, e) ← frameFormat b f
    let (b, es) ← formatFrames b fs
    return (b, e :: es)

/-- the frames that the receive loop parses, for at most `fuel` of them -/
def parseFrames (mem : Nat → Bool) : Nat → List UInt8 → Except Stop (List Frame)
  | _, [] => .ok []
  | 0, _ => .error .fault
  | fuel + 1, bs => do
    let (f, bs) ← frameParse mem bs
    let fs ← parseFrames mem fuel bs
    return f :: fs

end OpenQuic
