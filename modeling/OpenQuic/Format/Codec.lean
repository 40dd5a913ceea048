import OpenQuic.Format.Tables

/-!
# The rows of the frame tables

A frame that is stored in the struct of its type is formatted by the function in its row and parsed
again.

* `Frame.WellStored`   the frame is in the struct of its type, and its fields fit their encoding;
* `Codec`              one row of the three tables is right for one frame: the formatter writes
                       as many bytes as the sizer says, and the parser reads them back;
* `triple_codec`       the three functions of a struct fit together, unless the parser overflows;
* `frame_codec`        **the rows that are right**;
* `streamsBlocked_unsized`, `streamDataBlocked_codec`, `reason_codec`   what the others do.
-/

set_option linter.unusedSimpArgs false

namespace OpenQuic

/-! ## well-stored frames -/

/-- the type constants of a struct -/
def Body.types : Body → List Nat
  | .ping => [0x01]
  | .ack _ => [0x02, 0x03]
  | .resetStream _ _ _ => [0x04]
  | .stopSending _ _ => [0x05]
  | .crypto _ _ _ => [0x06]
  | .newToken _ => [0x07]
  | .stream _ _ _ => [0x08, 0x09, 0x0a, 0x0b, 0x0c, 0x0d, 0x0e, 0x0f]
  | .maxData _ => [0x10]
  | .maxStreamData _ _ => [0x11]
  | .maxStreams _ => [0x12, 0x13]
  | .dataBlocked _ => [0x14]
  | .streamDataBlocked _ _ => [0x15]
  | .streamsBlocked _ => [0x16, 0x17]
  | .newConnectionId _ _ _ _ => [0x18]
  | .retireConnectionId _ => [0x19]
  | .pathChallenge _ => [0x1a]
  | .pathResponse _ => [0x1b]
  | .connectionClose _ _ _ => [0x1c, 0x1d]
  | .handshakeDone => [0x1e]

/-- every integer field fits a variable-length integer, and a connection ID has 1 to 20 bytes -/
def Body.FieldsFit : Body → Prop
  | .ping => True
  | .ack a => (a.largestAck ≤ varintMax ∧ a.delay ≤ varintMax ∧ a.firstRange ≤ varintMax ∧
      a.ect0 ≤ varintMax ∧ a.ect1 ≤ varintMax ∧ a.ectCe ≤ varintMax) ∧
      a.count = a.ranges.length ∧ a.count < 2 ^ 32 ∧
      ∀ r ∈ a.ranges, r.gap ≤ varintMax ∧ r.len ≤ varintMax
  | .resetStream a b c => a ≤ varintMax ∧ b ≤ varintMax ∧ c ≤ varintMax
  | .stopSending a b => a ≤ varintMax ∧ b ≤ varintMax
  | .crypto _ off data => off ≤ varintMax ∧ data.length ≤ varintMax
  | .newToken data => data.length ≤ varintMax
  | .stream sid off data => sid ≤ varintMax ∧ off ≤ varintMax ∧ data.length ≤ varintMax
  | .maxData a => a ≤ varintMax
  | .maxStreamData a b => a ≤ varintMax ∧ b ≤ varintMax
  | .maxStreams a => a ≤ varintMax
  | .dataBlocked a => a ≤ varintMax
  | .streamDataBlocked a b => a ≤ varintMax ∧ b ≤ varintMax
  | .streamsBlocked a => a ≤ varintMax
  | .newConnectionId seq retire conn _ => seq ≤ varintMax ∧ retire ≤ varintMax ∧ 1 ≤ conn.1.length
  | .retireConnectionId a => a ≤ varintMax
  | .pathChallenge _ => True
  | .pathResponse _ => True
  | .connectionClose err type data => err ≤ varintMax ∧ type ≤ varintMax ∧ data.length ≤ varintMax
  | .handshakeDone => True

namespace Frame

/-- a STREAM frame has offset zero unless its OFF bit is set -/
def OffFits (f : Frame) : Prop :=
  match f.body with
  | .stream _ off _ => hasOff f.firstByte = false → off = 0
  | _ => True

structure WellStored (f : Frame) : Prop where
  type : f.firstByte.toNat ∈ f.body.types
  fields : f.body.FieldsFit
  off : f.OffFits

/-- a STREAM frame whose payload extends to the end of the packet -/
def Unbounded (f : Frame) : Prop :=
  match f.body with
  | .stream _ _ _ => hasLen f.firstByte = false
  | _ => False

/-- the type byte and the fields that the kind of the frame carries -/
def carried (f : Frame) : UInt8 × Body :=
  (f.firstByte, match f.body with
    | .ack a => if f.firstByte = 0x03 then .ack { a with packetType := 0, recvTime := 0 }
        else .ack { a with packetType := 0, recvTime := 0, ect0 := 0, ect1 := 0, ectCe := 0 }
    | .crypto _ off data => .crypto 0 off data
    | .connectionClose err type data =>
      .connectionClose err (if f.firstByte = 0x1c then type else 0) data
    | b => b)

/-- a frame whose row in the tables is not its own -/
def Misrouted (f : Frame) : Prop := f.firstByte.toNat ∈ [0x15, 0x16, 0x17]

/-- a connection close that gives a reason -/
def GivesReason (f : Frame) : Prop :=
  match f.body with
  | .connectionClose _ _ data => data ≠ []
  | _ => False

end Frame

/-- every allocation succeeds -/
def memOk (_ : Nat) : Bool := true

/-! ## reading back -/

theorem readVarint_format {v : Nat} (h : v ≤ varintMax) (rest : List UInt8) :
    readVarint (varintFormatR v ++ rest) = .ok (v, rest) := by
  obtain ⟨⟨b, bs, hb, hlen⟩, hval⟩ := varintR_formatR h rest
  have hl := varintFormatR_length v
  rw [hb, List.length_cons] at hl
  rw [hb, List.cons_append] at hval ⊢
  have hle : ¬ (b :: (bs ++ rest)).length < varintLen b := by
    rw [hlen, List.length_cons, List.length_append]
    omega
  rw [readVarint, if_neg hle, hval, hlen, ← hl, List.drop_succ_cons, List.drop_left]

theorem extendData_append {room : Nat} (data rest : List UInt8) (h : data.length ≤ room) :
    extendData room data.length (data ++ rest) = .ok (data, rest) := by
  have h1 : ¬ (data ++ rest).length < data.length := by
    rw [List.length_append]
    omega
  rw [extendData, if_neg h1, if_neg (not_lt.mpr h), List.take_left, List.drop_left]

theorem readBytes_append {n : Nat} (data : ByteVec n) (rest : List UInt8) :
    readBytes n (data.1 ++ rest) = .ok (data, rest) := by
  obtain ⟨l, rfl⟩ := data
  have h1 : ¬ (l ++ rest).length < l.length := by
    rw [List.length_append]
    omega
  rw [readBytes, dif_neg h1]
  simp only [List.take_left, List.drop_left]

theorem readConn_append (conn : { l : List UInt8 // l.length ≤ 20 }) (token : ByteVec 16)
    (rest : List UInt8) (h : 1 ≤ conn.1.length) :
    readConn conn.1.length (conn.1 ++ (token.1 ++ rest)) = .ok (conn, token, rest) := by
  obtain ⟨l, hl⟩ := conn
  have h1 : ¬ (l ++ (token.1 ++ rest)).length < l.length + 16 := by
    have := token.2
    simp only [List.length_append]
    omega
  rw [readConn, dif_pos ⟨h, hl⟩, if_neg h1]
  simp only [List.drop_left, List.take_left, readBytes_append]
  rfl

theorem readRanges_format (ranges : List AckRange) (rest : List UInt8)
    (h : ∀ r ∈ ranges, r.gap ≤ varintMax ∧ r.len ≤ varintMax) :
    readRanges ranges.length
        ((ranges.flatMap fun r => varintFormatR r.gap ++ varintFormatR r.len) ++ rest)
      = .ok (ranges, rest) := by
  induction ranges with
  | nil => rfl
  | cons r rs ih =>
    obtain ⟨h1, h2⟩ := h r List.mem_cons_self
    rw [List.length_cons, readRanges, List.flatMap_cons, List.append_assoc, List.append_assoc,
      readVarint_format h1]
    show (readVarint _ >>= _) = _
    rw [readVarint_format h2]
    show (readRanges _ _ >>= _) = _
    rw [ih fun s hs => h s (List.mem_cons_of_mem _ hs)]
    rfl

/-! ## one row of the tables -/

/-- The three functions of a row fit together on a frame: the formatter writes the type byte and
`chunks`, the sizer gives their length, and the parser reads the carried fields back. -/
def Codec (parse : Parser) (format : Frame → Option (List (List UInt8)))
    (size : Frame → Option Nat) (f : Frame) (rest : List UInt8) : Prop :=
  ∃ chunks, format f = some ([f.firstByte] :: chunks) ∧ size f = some (1 + chunks.flatten.length) ∧
    parse memOk (f.firstByte :: (chunks.flatten ++ rest)) =
      .ok (Frame.init f.firstByte f.carried.2, rest)

theorem bind_ok {α β : Type} (a : α) (k : α → Except Stop β) : (Except.ok a >>= k) = k a := rfl

theorem read_optional {there : Bool} {v d : Nat} {rest : List UInt8} (hv : v ≤ varintMax)
    (hd : there = false → d = v) :
    readOptional there d ((if there then [varintFormatR v] else []).flatten ++ rest) =
      .ok (v, rest) := by
  cases there with
  | true =>
    rw [readOptional, if_pos rfl, if_pos rfl, List.flatten_cons, List.flatten_nil, List.append_nil,
      readVarint_format hv]
  | false =>
    rw [readOptional, if_neg Bool.false_ne_true, if_neg Bool.false_ne_true, hd rfl]
    rfl

theorem alloc_memOk (n : Nat) : alloc memOk n = .ok () := rfl

section
variable {fb : UInt8} {oa : Option Nat} {ol : Bool} {rest : List UInt8}

theorem codec0 (body : Body) (h : (Frame.mk fb oa ol body).carried = (fb, body)) :
    Codec (parse0 body) format0 (fun _ => some 1) ⟨fb, oa, ol, body⟩ rest :=
  ⟨[], rfl, rfl, by rw [h]; rfl⟩

theorem codec1 (mk : Nat → Body) {a : Nat} (ha : a ≤ varintMax)
    (hw : (mk a).word1 = some a) (h : (Frame.mk fb oa ol (mk a)).carried = (fb, mk a)) :
    Codec (fun mem bs => parse1 mem bs mk) format1 size1 ⟨fb, oa, ol, mk a⟩ rest := by
  refine ⟨[varintFormatR a], ?_, ?_, ?_⟩
  · simp only [format1, hw]
    rfl
  · simp only [size1, hw, List.flatten_cons, List.flatten_nil, List.append_nil,
      varintFormatR_length]
    rfl
  · rw [h]
    simp only [parse1, readByte, bind_ok, List.flatten_cons, List.flatten_nil, List.append_nil,
      readVarint_format ha, alloc_memOk]
    rfl

theorem codec2 (mk : Nat → Nat → Body) {a b : Nat} (ha : a ≤ varintMax) (hb : b ≤ varintMax)
    (hw1 : (mk a b).word1 = some a) (hw2 : (mk a b).word2 = some b)
    (h : (Frame.mk fb oa ol (mk a b)).carried = (fb, mk a b)) :
    Codec (fun mem bs => parse2 mem bs 2 mk) format2 size2 ⟨fb, oa, ol, mk a b⟩ rest := by
  refine ⟨[varintFormatR a, varintFormatR b], ?_, ?_, ?_⟩
  · simp only [format2, hw1, hw2]
    rfl
  · simp only [size2, hw1, hw2, List.flatten_cons, List.flatten_nil, List.append_nil,
      List.length_append, varintFormatR_length, ← Nat.add_assoc]
    rfl
  · rw [h]
    simp only [parse2, readByte, bind_ok, List.flatten_cons, List.flatten_nil, List.append_nil,
      List.append_assoc, readVarint_format ha, readVarint_format hb, alloc_memOk]
    rfl

theorem codec3 {a b c : Nat} (ha : a ≤ varintMax) (hb : b ≤ varintMax) (hc : c ≤ varintMax) :
    Codec resetStreamParse resetStreamFormat resetStreamSize
      ⟨fb, oa, ol, .resetStream a b c⟩ rest := by
  refine ⟨[varintFormatR a, varintFormatR b, varintFormatR c], rfl, ?_, ?_⟩
  · simp only [List.flatten_cons, List.flatten_nil, List.append_nil, List.length_append,
      varintFormatR_length, ← Nat.add_assoc]
    rfl
  · simp only [resetStreamParse, readByte, bind_ok, List.flatten_cons, List.flatten_nil,
      List.append_nil, List.append_assoc, readVarint_format ha, readVarint_format hb,
      readVarint_format hc, alloc_memOk]
    rfl

theorem codec8 (mk : ByteVec 8 → Body) (data : ByteVec 8)
    (hf : format8 ⟨fb, oa, ol, mk data⟩ = some [[fb], data.1])
    (h : (Frame.mk fb oa ol (mk data)).carried = (fb, mk data)) :
    Codec (parse8 mk) format8 (fun _ => some (1 + 8)) ⟨fb, oa, ol, mk data⟩ rest := by
  refine ⟨[data.1], hf, ?_, ?_⟩
  · simp only [List.flatten_cons, List.flatten_nil, List.append_nil, data.2]
  · rw [h]
    simp only [parse8, readByte, bind_ok, List.flatten_cons, List.flatten_nil, List.append_nil,
      readBytes_append, alloc_memOk]
    rfl

theorem codec_crypto {pt : UInt8} {off : Nat} {data : List UInt8} (ho : off ≤ varintMax)
    (hd : data.length ≤ varintMax) :
    Codec cryptoParse cryptoFormat cryptoSize ⟨fb, oa, ol, .crypto pt off data⟩ rest := by
  refine ⟨[varintFormatR off, varintFormatR data.length, data], rfl, ?_, ?_⟩
  · simp only [cryptoSize, List.flatten_cons, List.flatten_nil, List.append_nil,
      List.length_append, varintFormatR_length, ← Nat.add_assoc]
  · simp only [cryptoParse, readByte, bind_ok, List.flatten_cons, List.flatten_nil,
      List.append_nil, List.append_assoc, readVarint_format ho, readVarint_format hd, alloc_memOk,
      extendData_append _ _ (le_refl _)]
    rfl

theorem codec_newToken {data : List UInt8} (hd : data.length ≤ varintMax) :
    Codec newTokenParse newTokenFormat newTokenSize ⟨fb, oa, ol, .newToken data⟩ rest := by
  refine ⟨[varintFormatR data.length, data], rfl, ?_, ?_⟩
  · simp only [newTokenSize, List.flatten_cons, List.flatten_nil, List.append_nil,
      List.length_append, varintFormatR_length, ← Nat.add_assoc]
  · simp only [newTokenParse, readByte, bind_ok, List.flatten_cons, List.flatten_nil,
      List.append_nil, List.append_assoc, readVarint_format hd, alloc_memOk,
      extendData_append _ _ (le_refl _)]
    rfl

theorem codec_stream {sid off : Nat} {data : List UInt8} (hs : sid ≤ varintMax)
    (ho : off ≤ varintMax) (hd : data.length ≤ varintMax) (hoff : hasOff fb = false → off = 0)
    (hrest : hasLen fb = false → rest = []) :
    Codec streamParse streamFormat streamSize ⟨fb, oa, ol, .stream sid off data⟩ rest := by
  refine ⟨varintFormatR sid :: ((if hasOff fb then [varintFormatR off] else [])
    ++ (if hasLen fb then [varintFormatR data.length] else []) ++ [data]), ?_, ?_, ?_⟩
  · simp only [streamFormat, List.cons_append, List.nil_append]
  · cases h1 : hasOff fb <;> cases h2 : hasLen fb <;>
      simp [streamSize, h1, h2, varintFormatR_length, Nat.add_assoc]
  · have hlen : hasLen fb = false →
        ((if hasLen fb then [varintFormatR data.length] else []).flatten ++ (data ++ rest)).length
          = data.length := fun h => by
      rw [hrest h, h, List.append_nil]
      rfl
    simp only [streamParse, readByte, bind_ok, List.flatten_cons, List.flatten_append,
      List.flatten_nil, List.append_nil, List.append_assoc, readVarint_format hs,
      read_optional ho fun h => (hoff h).symm, read_optional hd hlen, alloc_memOk,
      extendData_append _ _ (le_refl _)]
    rfl

theorem codec_connectionClose {err type : Nat} (he : err ≤ varintMax) (ht : type ≤ varintMax) :
    Codec connectionCloseParse connectionCloseFormat connectionCloseSize
      ⟨fb, oa, ol, .connectionClose err type []⟩ rest := by
  refine ⟨varintFormatR err :: ((if fb == 0x1c then [varintFormatR type] else [])
    ++ [varintFormatR 0, []]), ?_, ?_, ?_⟩
  · simp only [connectionCloseFormat, List.cons_append, List.nil_append, List.length_nil]
  · cases h1 : fb == 0x1c <;>
      simp only [connectionCloseSize, h1, if_true, if_false, Bool.false_eq_true, List.length_nil,
        List.flatten_cons, List.flatten_nil, List.append_nil, List.nil_append, List.cons_append,
        List.length_append, varintFormatR_length, ← Nat.add_assoc, Nat.add_zero]
  · have hcarried : (Frame.mk fb oa ol (.connectionClose err type [])).carried.2 =
        .connectionClose err (if fb == 0x1c then type else 0) [] := by
      by_cases h1 : fb = 0x1c <;> simp [Frame.carried, h1]
    rw [hcarried]
    simp only [connectionCloseParse, readByte, bind_ok, List.flatten_cons, List.flatten_append,
      List.flatten_nil, List.append_nil, List.append_assoc, readVarint_format he]
    cases h1 : fb == 0x1c with
    | true =>
      simp only [readOptional, bind_ok, if_true, List.flatten_cons, List.flatten_nil,
        List.append_nil, List.append_assoc, List.nil_append, readVarint_format ht,
        readVarint_format (Nat.zero_le varintMax), alloc_memOk]
      rfl
    | false =>
      simp only [readOptional, bind_ok, Bool.false_eq_true, if_false, List.flatten_nil,
        List.nil_append, readVarint_format (Nat.zero_le varintMax), alloc_memOk]
      rfl

theorem codec_newConnectionId {seq retire : Nat} {conn : { l : List UInt8 // l.length ≤ 20 }}
    {token : ByteVec 16} (hs : seq ≤ varintMax) (hr : retire ≤ varintMax)
    (hc : 1 ≤ conn.1.length) :
    Codec newConnectionIdParse newConnectionIdFormat newConnectionIdSize
      ⟨fb, oa, ol, .newConnectionId seq retire conn token⟩ rest := by
  have hlen : (UInt8.ofNat conn.1.length).toNat = conn.1.length := by
    have := conn.2
    rw [UInt8.toNat_ofNat', Nat.mod_eq_of_lt (by omega)]
  refine ⟨[varintFormatR seq, varintFormatR retire, [UInt8.ofNat conn.1.length], conn.1, token.1],
    rfl, ?_, ?_⟩
  · simp only [newConnectionIdSize, List.flatten_cons, List.flatten_nil, List.append_nil,
      List.length_append, List.length_singleton, varintFormatR_length, token.2, ← Nat.add_assoc]
  · simp only [newConnectionIdParse, readByte, bind_ok, List.flatten_cons, List.flatten_nil,
      List.append_nil, List.append_assoc, List.cons_append, List.nil_append, readVarint_format hs,
      readVarint_format hr, hlen, readConn_append conn token rest hc, alloc_memOk]
    rfl

/-- the ranges of a frame whose count is the length of its list -/
theorem ranges_eq {a : AckFrame} (h : a.count = a.ranges.length) :
    (List.range a.count).map a.range = a.ranges := by
  rw [h]
  refine List.ext_getElem (by simp) fun i h1 h2 => ?_
  rw [List.getElem_map, List.getElem_range, AckFrame.range, List.getD_eq_getElem _ _ h2]

theorem codec_ack {a : AckFrame} (hf : (Body.ack a).FieldsFit) :
    Codec ackParse ackFormat ackSize ⟨fb, oa, ol, .ack a⟩ rest := by
  obtain ⟨⟨h1, h2, h3, h4, h5, h6⟩, hcount, hlt, hr⟩ := hf
  have hmax : a.count ≤ varintMax := by
    have : varintMax = 2 ^ 62 - 1 := rfl
    omega
  have hu : Word.u32 a.count = a.ranges.length := by
    rw [Word.u32_of_lt hlt, hcount]
  have hchunks : (List.range a.count).flatMap (fun i =>
      [varintFormatR (a.range i).gap, varintFormatR (a.range i).len]) =
      a.ranges.flatMap fun r => [varintFormatR r.gap, varintFormatR r.len] := by
    conv_rhs => rw [← ranges_eq hcount, List.flatMap_map]
  have hsum : ((List.range a.count).map fun i =>
      varintFormatLen (a.range i).gap + varintFormatLen (a.range i).len) =
      a.ranges.map fun r => varintFormatLen r.gap + varintFormatLen r.len := by
    conv_rhs => rw [← ranges_eq hcount, List.map_map]
    rfl
  have hflat : (a.ranges.flatMap fun r => [varintFormatR r.gap, varintFormatR r.len]).flatten =
      a.ranges.flatMap fun r => varintFormatR r.gap ++ varintFormatR r.len := by
    induction a.ranges with
    | nil => rfl
    | cons r rs ih => simp [ih]
  have hlen : (a.ranges.flatMap fun r => varintFormatR r.gap ++ varintFormatR r.len).length =
      (a.ranges.map fun r => varintFormatLen r.gap + varintFormatLen r.len).sum := by
    simp only [List.length_flatMap, List.length_append, varintFormatR_length]
  refine ⟨[varintFormatR a.largestAck, varintFormatR a.delay, varintFormatR a.count,
    varintFormatR a.firstRange] ++ (a.ranges.flatMap fun r =>
      [varintFormatR r.gap, varintFormatR r.len]) ++ (if fb = 0x03 then
        [varintFormatR a.ect0, varintFormatR a.ect1, varintFormatR a.ectCe] else []), ?_, ?_, ?_⟩
  · simp only [ackFormat, hchunks, List.cons_append, List.nil_append]
  · rw [List.flatten_append, List.flatten_append, hflat]
    simp only [ackSize, hsum]
    by_cases hfb : fb = 0x03
    · simp only [if_pos hfb, List.length_append, hlen, List.flatten_cons, List.flatten_nil,
        List.length_nil, varintFormatR_length, Option.some.injEq]
      omega
    · simp only [if_neg hfb, List.length_append, hlen, List.flatten_cons, List.flatten_nil,
        List.length_nil, varintFormatR_length, Option.some.injEq]
      omega
  · rw [List.flatten_append, List.flatten_append, hflat]
    simp only [ackParse, readByte, bind_ok, List.flatten_cons, List.flatten_nil, List.append_nil,
      List.append_assoc, readVarint_format h1, readVarint_format h2, readVarint_format hmax,
      readVarint_format h3, hu, alloc_memOk, readRanges_format _ _ hr]
    by_cases hfb : fb = 0x03
    · simp only [if_pos hfb, List.flatten_cons, List.flatten_nil, List.append_nil,
        List.append_assoc, readVarint_format h4, readVarint_format h5, readVarint_format h6,
        bind_ok, Frame.carried, ← hcount]
      rfl
    · simp only [if_neg hfb, List.flatten_nil, List.nil_append, Frame.carried, ← hcount]
      rfl

end

/-! ## the functions of a struct -/

/-- the parser, the formatter and the sizer that are written for one struct -/
structure Triple where
  parse : Parser
  format : Frame → Option (List (List UInt8))
  size : Frame → Option Nat

def Body.triple : Body → Triple
  | .ping => ⟨pingParse, pingFormat, pingSize⟩
  | .ack _ => ⟨ackParse, ackFormat, ackSize⟩
  | .resetStream _ _ _ => ⟨resetStreamParse, resetStreamFormat, resetStreamSize⟩
  | .stopSending _ _ => ⟨stopSendingParse, stopSendingFormat, stopSendingSize⟩
  | .crypto _ _ _ => ⟨cryptoParse, cryptoFormat, cryptoSize⟩
  | .newToken _ => ⟨newTokenParse, newTokenFormat, newTokenSize⟩
  | .stream _ _ _ => ⟨streamParse, streamFormat, streamSize⟩
  | .maxData _ => ⟨maxDataParse, maxDataFormat, maxDataSize⟩
  | .maxStreamData _ _ => ⟨maxStreamDataParse, maxStreamDataFormat, maxStreamDataSize⟩
  | .maxStreams _ => ⟨maxStreamsParse, maxStreamsFormat, maxStreamsSize⟩
  | .dataBlocked _ => ⟨dataBlockedParse, dataBlockedFormat, dataBlockedSize⟩
  | .streamDataBlocked _ _ =>
    ⟨streamDataBlockedParse, streamDataBlockedFormat, streamDataBlockedSize⟩
  | .streamsBlocked _ => ⟨streamsBlockedParse, streamsBlockedFormat, streamsBlockedSize⟩
  | .newConnectionId _ _ _ _ =>
    ⟨newConnectionIdParse, newConnectionIdFormat, newConnectionIdSize⟩
  | .retireConnectionId _ =>
    ⟨retireConnectionIdParse, retireConnectionIdFormat, retireConnectionIdSize⟩
  | .pathChallenge _ => ⟨pathChallengeParse, pathChallengeFormat, pathChallengeSize⟩
  | .pathResponse _ => ⟨pathResponseParse, pathResponseFormat, pathResponseSize⟩
  | .connectionClose _ _ _ =>
    ⟨connectionCloseParse, connectionCloseFormat, connectionCloseSize⟩
  | .handshakeDone => ⟨handshakeDoneParse, handshakeDoneFormat, handshakeDoneSize⟩

/-- a frame whose parser writes behind the struct that it has allocated -/
def Frame.Overflows (f : Frame) : Prop :=
  match f.body with
  | .streamDataBlocked _ _ => True
  | .connectionClose _ _ data => data ≠ []
  | _ => False

/-- The functions of a struct fit together, unless the parser overflows. -/
theorem triple_codec {f : Frame} (rest : List UInt8) (h : f.WellStored) (hover : ¬ f.Overflows)
    (hrest : f.Unbounded → rest = []) :
    Codec f.body.triple.parse f.body.triple.format f.body.triple.size f rest := by
  obtain ⟨fb, oa, ol, body⟩ := f
  obtain ⟨_, hfit, hoff⟩ := h
  cases body with
  | ping => exact codec0 .ping rfl
  | handshakeDone => exact codec0 .handshakeDone rfl
  | ack a => exact codec_ack hfit
  | resetStream a b c => exact codec3 hfit.1 hfit.2.1 hfit.2.2
  | stopSending a b => exact codec2 .stopSending hfit.1 hfit.2 rfl rfl rfl
  | crypto pt off data => exact codec_crypto hfit.1 hfit.2
  | newToken data => exact codec_newToken hfit
  | stream sid off data => exact codec_stream hfit.1 hfit.2.1 hfit.2.2 hoff hrest
  | maxData a => exact codec1 .maxData hfit rfl rfl
  | maxStreamData a b => exact codec2 .maxStreamData hfit.1 hfit.2 rfl rfl rfl
  | maxStreams a => exact codec1 .maxStreams hfit rfl rfl
  | dataBlocked a => exact codec1 .dataBlocked hfit rfl rfl
  | streamDataBlocked a b => exact absurd trivial hover
  | streamsBlocked a => exact codec1 .streamsBlocked hfit rfl rfl
  | newConnectionId seq retire conn token =>
    exact codec_newConnectionId hfit.1 hfit.2.1 hfit.2.2
  | retireConnectionId a => exact codec1 .retireConnectionId hfit rfl rfl
  | pathChallenge data => exact codec8 .pathChallenge data rfl rfl
  | pathResponse data => exact codec8 .pathResponse data rfl rfl
  | connectionClose err type data =>
    have hdata : data = [] := by
      by_contra hne
      exact hover hne
    subst hdata
    exact codec_connectionClose hfit.1 hfit.2.1

/-! ## dispatch -/

/-- what the formatter of a frame writes -/
def frameChunks (f : Frame) : Option (List (List UInt8)) :=
  (formatter f.firstByte.toNat).bind fun format => format f

theorem codec_row {parse : Parser} {format : Frame → Option (List (List UInt8))}
    {size : Frame → Option Nat} {f : Frame} {rest : List UInt8} {t : Nat}
    (ht : f.firstByte.toNat = t) (hp : parser t = some parse) (hf : formatter t = some format)
    (hs : sizer t = some size) (h : Codec parse format size f rest) :
    Codec frameParse frameChunks frameSizeOf f rest := by
  obtain ⟨chunks, h1, h2, h3⟩ := h
  refine ⟨chunks, ?_, ?_, ?_⟩
  · rw [frameChunks, ht, hf, Option.bind_some, h1]
  · rw [frameSizeOf, ht, hs]
    exact h2
  · rw [frameParse, ht, hp]
    exact h3

/-- the row of a type names the functions of its struct -/
theorem row_triple {f : Frame} (h : f.firstByte.toNat ∈ f.body.types) (h1 : ¬ f.Misrouted) :
    parser f.firstByte.toNat = some f.body.triple.parse ∧
      formatter f.firstByte.toNat = some f.body.triple.format ∧
      sizer f.firstByte.toNat = some f.body.triple.size := by
  obtain ⟨fb, oa, ol, body⟩ := f
  unfold Frame.Misrouted at h1
  dsimp only at h h1 ⊢
  generalize fb.toNat = t at h h1
  cases body <;>
    simp only [Body.types, List.mem_cons, List.not_mem_nil, or_false] at h <;>
    rcases h with rfl | rfl | rfl | rfl | rfl | rfl | rfl | rfl <;>
    first
      | exact ⟨rfl, rfl, rfl⟩
      | exact absurd (by decide) h1

/-- **The rows that are right**: every type but `0x15`, `0x16` and `0x17`, and of the connection
closes those without a reason. -/
theorem frame_codec {f : Frame} (rest : List UInt8) (h : f.WellStored) (h1 : ¬ f.Misrouted)
    (h2 : ¬ f.GivesReason) (hrest : f.Unbounded → rest = []) :
    Codec frameParse frameChunks frameSizeOf f rest := by
  obtain ⟨hp, hf, hs⟩ := row_triple h.type h1
  refine codec_row rfl hp hf hs (triple_codec rest h (fun hover => ?_) hrest)
  obtain ⟨fb, oa, ol, body⟩ := f
  cases body with
  | streamDataBlocked a b =>
    have ht := List.mem_singleton.mp h.type
    exact h1 (by rw [Frame.Misrouted, ht]; decide)
  | connectionClose err type data => exact h2 hover
  | _ => exact hover

/-! ## the rows that are not -/

/-- a frame that is formatted into as many bytes as its sizer says -/
def Frame.Sized (f : Frame) : Prop :=
  ∃ chunks, frameChunks f = some ([f.firstByte] :: chunks) ∧
    frameSizeOf f = some (1 + chunks.flatten.length)

/-- The sizer of types `0x16` and `0x17` reads a second integer that their struct does not have. -/
theorem streamsBlocked_unsized {f : Frame} (h : f.WellStored)
    (ht : f.firstByte.toNat = 0x16 ∨ f.firstByte.toNat = 0x17) : frameSizeOf f = none := by
  obtain ⟨fb, oa, ol, body⟩ := f
  have hmem := h.type
  dsimp only at ht hmem
  have hs : sizer fb.toNat = some streamDataBlockedSize := by
    rcases ht with ht | ht <;> rw [ht] <;> rfl
  rw [frameSizeOf, hs]
  cases body <;> rcases ht with ht | ht <;> rw [ht] at hmem <;> first
    | rfl
    | exact absurd hmem (by simp [Body.types])

/-- Type `0x15` is formatted without its limit, and comes back as another struct. -/
theorem streamDataBlocked_codec {fb : UInt8} (oa : Option Nat) (ol : Bool) {sid : Nat} (maxData : Nat)
    (rest : List UInt8) (ht : fb.toNat = 0x15) (hs : sid ≤ varintMax) :
    (∃ chunks, frameChunks ⟨fb, oa, ol, .streamDataBlocked sid maxData⟩ = some ([fb] :: chunks) ∧
      frameSizeOf ⟨fb, oa, ol, .streamDataBlocked sid maxData⟩ = some (1 + chunks.flatten.length) ∧
      frameParse memOk (fb :: (chunks.flatten ++ rest)) =
        .ok (Frame.init fb (.dataBlocked sid), rest)) := by
  refine ⟨[varintFormatR sid], ?_, ?_, ?_⟩
  · rw [frameChunks]
    dsimp only
    rw [ht]
    rfl
  · rw [frameSizeOf]
    dsimp only
    rw [ht]
    simp only [List.flatten_cons, List.flatten_nil, List.append_nil, varintFormatR_length]
    rfl
  · rw [frameParse, ht]
    show dataBlockedParse memOk _ = _
    simp only [dataBlockedParse, parse1, readByte, bind_ok, List.flatten_cons, List.flatten_nil,
      List.append_nil, readVarint_format hs, alloc_memOk]
    rfl

/-- A connection close with a reason is written as it should be, and its parser writes the reason
behind the struct that it has allocated. -/
theorem reason_codec {fb : UInt8} (oa : Option Nat) (ol : Bool) {err type : Nat}
    {data : List UInt8} (rest : List UInt8) (ht : fb.toNat = 0x1c ∨ fb.toNat = 0x1d) (hne : data ≠ [])
    (he : err ≤ varintMax) (hty : type ≤ varintMax) (hd : data.length ≤ varintMax) :
    (∃ chunks, frameChunks ⟨fb, oa, ol, .connectionClose err type data⟩ = some ([fb] :: chunks) ∧
      frameSizeOf ⟨fb, oa, ol, .connectionClose err type data⟩ = some (1 + chunks.flatten.length) ∧
      frameParse memOk (fb :: (chunks.flatten ++ rest)) = .error .fault) := by
  have hf : formatter fb.toNat = some connectionCloseFormat := by
    rcases ht with ht | ht <;> rw [ht] <;> rfl
  have hs : sizer fb.toNat = some connectionCloseSize := by
    rcases ht with ht | ht <;> rw [ht] <;> rfl
  have hp : parser fb.toNat = some connectionCloseParse := by
    rcases ht with ht | ht <;> rw [ht] <;> rfl
  have hover : extendData 0 data.length (data ++ rest) = .error .fault := by
    have h1 : ¬ (data ++ rest).length < data.length := by
      rw [List.length_append]
      omega
    rw [extendData, if_neg h1, if_pos (List.length_pos_iff.mpr hne)]
  refine ⟨varintFormatR err :: ((if fb == 0x1c then [varintFormatR type] else [])
    ++ [varintFormatR data.length, data]), ?_, ?_, ?_⟩
  · rw [frameChunks, hf]
    simp only [Option.bind_some, connectionCloseFormat, List.cons_append, List.nil_append]
  · rw [frameSizeOf, hs]
    cases h1 : fb == 0x1c <;>
      simp only [connectionCloseSize, h1, if_true, if_false, Bool.false_eq_true,
        List.flatten_cons, List.flatten_nil, List.append_nil, List.nil_append, List.cons_append,
        List.length_append, varintFormatR_length, ← Nat.add_assoc, Nat.add_zero]
  · rw [frameParse, hp]
    simp only [connectionCloseParse, readByte, bind_ok, List.flatten_cons, List.flatten_append,
      List.flatten_nil, List.append_nil, List.append_assoc, readVarint_format he]
    cases h1 : fb == 0x1c <;>
      simp only [readOptional, bind_ok, if_true, if_false, Bool.false_eq_true, List.flatten_cons,
        List.flatten_nil, List.append_nil, List.append_assoc, List.nil_append,
        readVarint_format hty, readVarint_format hd, alloc_memOk, hover] <;>
      rfl

end OpenQuic
