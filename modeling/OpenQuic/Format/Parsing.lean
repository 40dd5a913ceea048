import OpenQuic.Format.Words

/-!
# What the parsers accept

* `Frames k b`         the frames of one kind behind their type byte, as words;
* `Parses k b bs`      the parser of a kind accepts the bytes exactly when they start with a complete
                       encoding, it takes that encoding off and returns what it stands for;
* `frames_reads`       the parsers of sixteen kinds do so on every buffer;
* `Misparsed k b bs`   the buffers on which the other three do not;
* `parses_iff`         **a parser is right exactly off these buffers**.
-/

namespace OpenQuic
open Grammar

/-! ## reading a piece -/

/-- every allocation succeeds, so it leaves no trace -/
theorem reads_alloc {α : Type} {p : Reader UInt8 Stop α} {G : Words UInt8 α} (n : Nat)
    (h : Reads p G) : Reads (fun bs => alloc memOk n >>= fun _ => p bs) G := h

/-- the type byte is there -/
theorem reads_first {α : Type} {f : UInt8 × List UInt8 → Except Stop (α × List UInt8)}
    {G : Words UInt8 α} {b : UInt8} (h : Reads (fun bs => f (b, bs)) G) :
    Reads (fun bs => readByte (b :: bs) >>= f) G := h

theorem readByte_reads : Reads readByte (fun e _ b => e = [b]) := by
  intro bs b rest
  constructor
  · intro h
    cases bs with
    | nil => cases h
    | cons c bs =>
      obtain ⟨rfl, rfl⟩ := Prod.mk.inj (Except.ok.inj h)
      exact ⟨[c], rfl, rfl⟩
  · rintro ⟨e, rfl, rfl⟩
    rfl

theorem readOptional_reads (there : Bool) (d : List UInt8 → Nat) :
    Reads (fun bs => readOptional there (d bs) bs) (fun e rest v =>
      Varints (if there then [v] else []) e ∧ (there = false → v = d rest)) := by
  cases there with
  | true =>
    refine readVarint_reads.congr fun e rest v => ?_
    rw [if_pos rfl, varints_one]
    exact ⟨fun h => ⟨h, fun hno => by cases hno⟩, fun h => h.1⟩
  | false =>
    intro bs v rest
    constructor
    · intro h
      obtain ⟨rfl, rfl⟩ := Prod.mk.inj (Except.ok.inj h)
      exact ⟨[], rfl, rfl, fun _ => rfl⟩
    · rintro ⟨e, rfl, he, hv⟩
      obtain rfl : e = [] := he
      rw [hv rfl]
      rfl

theorem readBytes_reads (n : Nat) :
    Reads (readBytes n) (fun e _ (data : ByteVec n) => e = data.1) := by
  intro bs data rest
  constructor
  · intro h
    unfold readBytes at h
    split at h
    · cases h
    · obtain ⟨rfl, rfl⟩ := Prod.mk.inj (Except.ok.inj h)
      exact ⟨bs.take n, (List.take_append_drop n bs).symm, rfl⟩
  · rintro ⟨e, rfl, rfl⟩
    exact readBytes_append data rest

/-- data is read where it is complete and where there is room for it -/
theorem extendData_reads (room len : Nat) :
    Reads (extendData room len) (fun e _ data => e = data ∧ data.length = len ∧ len ≤ room) := by
  intro bs data rest
  constructor
  · intro h
    unfold extendData at h
    split at h
    · cases h
    · rename_i h1
      split at h
      · cases h
      · rename_i h2
        obtain ⟨rfl, rfl⟩ := Prod.mk.inj (Except.ok.inj h)
        refine ⟨bs.take len, (List.take_append_drop len bs).symm, rfl, ?_, not_lt.mp h2⟩
        rw [List.length_take]
        omega
  · rintro ⟨e, rfl, rfl, rfl, hroom⟩
    exact extendData_append e rest hroom

theorem readRanges_reads (n : Nat) : Reads (readRanges n) (fun e _ ranges =>
    ranges.length = n ∧ Varints (ranges.flatMap fun r => [r.gap, r.len]) e) := by
  induction n with
  | zero =>
    refine (Reads.pure []).congr fun e rest ranges => ?_
    constructor
    · rintro ⟨rfl, rfl⟩
      exact ⟨rfl, rfl⟩
    · rintro ⟨hlen, he⟩
      obtain rfl := List.eq_nil_of_length_eq_zero hlen
      exact ⟨he, rfl⟩
  | succ n ih =>
    refine Reads.congr (Reads.bind readVarint_reads fun gap => Reads.bind readVarint_reads fun len =>
      Reads.bind ih fun ranges => Reads.pure (⟨gap, len⟩ :: ranges)) fun e rest ranges => ?_
    constructor
    · rintro ⟨gap, e1, e2, rfl, h1, len, e3, e4, rfl, h2, rs, e5, e6, rfl, ⟨hlen, h3⟩, rfl, rfl⟩
      rw [List.append_nil]
      exact ⟨congrArg Nat.succ hlen, e1, e3 ++ e5, rfl, h1, e3, e5, rfl, h2, h3⟩
    · rintro ⟨hlen, h⟩
      cases ranges with
      | nil => cases hlen
      | cons r rs =>
        obtain ⟨e1, e2, rfl, h1, e3, e5, rfl, h2, h3⟩ := h
        exact ⟨r.gap, e1, e3 ++ e5, rfl, h1, r.len, e3, e5, rfl, h2, rs, e5, [],
          (List.append_nil e5).symm, ⟨Nat.succ.inj hlen, h3⟩, rfl, rfl⟩

theorem readConn_iff {len : Nat} {bs rest : List UInt8} {conn : { l : List UInt8 // l.length ≤ 20 }}
    {token : ByteVec 16} : readConn len bs = .ok (conn, token, rest) ↔
      bs = conn.1 ++ (token.1 ++ rest) ∧ conn.1.length = len ∧ 1 ≤ len := by
  constructor
  · intro h
    unfold readConn at h
    by_cases hlen : 1 ≤ len ∧ len ≤ 20
    · rw [dif_pos hlen] at h
      by_cases hshort : bs.length < len + 16
      · rw [if_pos hshort] at h
        cases h
      · rw [if_neg hshort] at h
        cases hr : readBytes 16 (bs.drop len) with
        | error e =>
          rw [hr] at h
          cases h
        | ok x =>
          rw [hr] at h
          obtain ⟨rfl, htail⟩ := Prod.mk.inj (Except.ok.inj h)
          obtain ⟨rfl, rfl⟩ := Prod.mk.inj htail
          obtain ⟨e, hdrop, he⟩ := (readBytes_reads 16 _ x.1 x.2).mp hr
          refine ⟨?_, ?_, hlen.1⟩
          · rw [← he, ← hdrop, List.take_append_drop]
          · rw [List.length_take]
            omega
    · rw [dif_neg hlen] at h
      cases h
  · rintro ⟨rfl, rfl, hpos⟩
    exact readConn_append conn token rest hpos

/-! ## the parsers -/

/-- the frames of a kind behind the type byte `b` -/
def Frames (k : Kind) (b : UInt8) : Words UInt8 Frame := fun e rest f =>
  ∃ body, body.kind = k ∧ Encodes b e rest body ∧ f = Frame.init b body

section
variable (b : UInt8)

theorem parse0_reads (body : Body) : Reads (fun bs => parse0 body memOk (b :: bs))
    (fun e _ f => ∃ _ : Unit, e = [] ∧ f = Frame.init b body) := by
  refine Reads.congr (reads_first (reads_alloc 0 (Reads.pure (Frame.init b body))))
    fun e rest f => ?_
  exact ⟨fun h => ⟨(), h⟩, fun ⟨_, h⟩ => h⟩

theorem parse1_reads (mk : Nat → Body) : Reads (fun bs => parse1 memOk (b :: bs) mk)
    (fun e _ f => ∃ v, Varints [v] e ∧ f = Frame.init b (mk v)) := by
  refine Reads.congr (reads_first (Reads.bind readVarint_reads fun v =>
    reads_alloc 0 (Reads.pure (Frame.init b (mk v))))) fun e rest f => ?_
  constructor
  · rintro ⟨v, e1, e2, rfl, h1, h2, rfl⟩
    exact ⟨v, ⟨e1, e2, rfl, h1, h2⟩, rfl⟩
  · rintro ⟨v, ⟨e1, e2, rfl, h1, h2⟩, rfl⟩
    exact ⟨v, e1, e2, rfl, h1, h2, rfl⟩

theorem parse2_reads (mk : Nat → Nat → Body) : Reads (fun bs => parse2 memOk (b :: bs) 2 mk)
    (fun e _ f => ∃ i : Nat × Nat, Varints [i.1, i.2] e ∧ f = Frame.init b (mk i.1 i.2)) := by
  refine Reads.congr (reads_first (Reads.bind readVarint_reads fun v =>
    Reads.bind readVarint_reads fun w =>
      reads_alloc 0 (Reads.pure (Frame.init b (mk v w))))) fun e rest f => ?_
  constructor
  · rintro ⟨v, e1, e2, rfl, h1, w, e3, e4, rfl, h2, h3, rfl⟩
    exact ⟨(v, w), ⟨e1, _, rfl, h1, e3, e4, rfl, h2, h3⟩, rfl⟩
  · rintro ⟨⟨v, w⟩, ⟨e1, _, rfl, h1, e3, e4, rfl, h2, h3⟩, rfl⟩
    exact ⟨v, e1, _, rfl, h1, w, e3, e4, rfl, h2, h3, rfl⟩

theorem resetStreamParse_reads : Reads (fun bs => resetStreamParse memOk (b :: bs))
    (Frames .resetStream b) := by
  refine Reads.congr (reads_first (Reads.bind readVarint_reads fun u =>
    Reads.bind readVarint_reads fun v => Reads.bind readVarint_reads fun w =>
      reads_alloc 0 (Reads.pure (Frame.init b (.resetStream u v w))))) fun e rest f => ?_
  constructor
  · rintro ⟨u, e1, _, rfl, h1, v, e2, _, rfl, h2, w, e3, e4, rfl, h3, h4, rfl⟩
    exact ⟨.resetStream u v w, rfl, ⟨e1, _, rfl, h1, e2, _, rfl, h2, e3, e4, rfl, h3, h4⟩, rfl⟩
  · rintro ⟨body, hk, h, rfl⟩
    cases body <;> cases hk
    rename_i u v w
    obtain ⟨e1, _, rfl, h1, e2, _, rfl, h2, e3, e4, rfl, h3, h4⟩ := h
    exact ⟨u, e1, _, rfl, h1, v, e2, _, rfl, h2, w, e3, e4, rfl, h3, h4, rfl⟩

theorem parse8_reads (mk : ByteVec 8 → Body) : Reads (fun bs => parse8 mk memOk (b :: bs))
    (fun e _ f => ∃ data, e = data.1 ∧ f = Frame.init b (mk data)) := by
  refine Reads.congr (reads_first (Reads.bind (readBytes_reads 8) fun data =>
    reads_alloc 0 (Reads.pure (Frame.init b (mk data))))) fun e rest f => ?_
  constructor
  · rintro ⟨data, e1, e2, rfl, rfl, rfl, rfl⟩
    exact ⟨data, List.append_nil _, rfl⟩
  · rintro ⟨data, rfl, rfl⟩
    exact ⟨data, data.1, [], (List.append_nil _).symm, rfl, rfl, rfl⟩

theorem cryptoParse_reads : Reads (fun bs => cryptoParse memOk (b :: bs)) (Frames .crypto b) := by
  refine Reads.congr (reads_first (Reads.bind readVarint_reads fun off =>
    Reads.bind readVarint_reads fun len => reads_alloc len (Reads.bind (extendData_reads len len)
      fun data => Reads.pure (Frame.init b (.crypto 0 off data))))) fun e rest f => ?_
  constructor
  · rintro ⟨off, e1, _, rfl, h1, len, e2, _, rfl, h2, data, _, _, rfl, ⟨rfl, rfl, _⟩, rfl, rfl⟩
    refine ⟨.crypto 0 off _, rfl, ⟨rfl, e1 ++ e2, ?_, e1, e2, rfl, h1, varints_one.mpr h2⟩, rfl⟩
    rw [List.append_nil, List.append_assoc]
  · rintro ⟨body, hk, h, rfl⟩
    cases body <;> cases hk
    obtain ⟨rfl, _, rfl, e1, e2, rfl, h1, h2⟩ := h
    rename_i off data
    refine ⟨off, e1, e2 ++ data, List.append_assoc _ _ _, h1, data.length, e2, data, rfl,
      varints_one.mp h2, data, data, [], (List.append_nil _).symm, ⟨rfl, rfl, le_refl _⟩, rfl, rfl⟩

theorem newTokenParse_reads : Reads (fun bs => newTokenParse memOk (b :: bs))
    (Frames .newToken b) := by
  refine Reads.congr (reads_first (Reads.bind readVarint_reads fun len =>
    reads_alloc len (Reads.bind (extendData_reads len len)
      fun data => Reads.pure (Frame.init b (.newToken data))))) fun e rest f => ?_
  constructor
  · rintro ⟨len, e1, _, rfl, h1, data, _, _, rfl, ⟨rfl, rfl, _⟩, rfl, rfl⟩
    refine ⟨.newToken _, rfl, ⟨e1, ?_, varints_one.mpr h1⟩, rfl⟩
    rw [List.append_nil]
  · rintro ⟨body, hk, h, rfl⟩
    cases body <;> cases hk
    obtain ⟨e1, rfl, h1⟩ := h
    rename_i data
    exact ⟨data.length, e1, data, rfl, varints_one.mp h1, data, data, [],
      (List.append_nil _).symm, ⟨rfl, rfl, le_refl _⟩, rfl, rfl⟩

theorem streamParse_reads : Reads (fun bs => streamParse memOk (b :: bs)) (Frames .stream b) := by
  refine Reads.congr (reads_first (Reads.bind readVarint_reads fun sid =>
    Reads.bind (readOptional_reads (hasOff b) fun _ => 0) fun off =>
    Reads.bind (readOptional_reads (hasLen b) List.length) fun len =>
    reads_alloc len (Reads.bind (extendData_reads len len) fun data =>
      Reads.pure (Frame.init b (.stream sid off data))))) fun e rest f => ?_
  constructor
  · rintro ⟨sid, e1, _, rfl, h1, off, e2, _, rfl, ⟨h2, hoff⟩, len, e3, _, rfl, ⟨h3, hlen⟩,
      data, _, _, rfl, ⟨rfl, rfl, _⟩, rfl, rfl⟩
    refine ⟨.stream sid off _, rfl, ⟨⟨e1 ++ (e2 ++ e3), ?_, e1, e2 ++ e3, rfl, h1,
      varints_append.mpr ⟨e2, e3, rfl, h2, h3⟩⟩, hoff, fun hno => ?_⟩, rfl⟩
    · rw [List.append_nil, List.append_assoc, List.append_assoc]
    · have hl := hlen hno
      rw [List.append_nil, List.length_append] at hl
      exact List.eq_nil_of_length_eq_zero (by omega)
  · rintro ⟨body, hk, h, rfl⟩
    cases body <;> cases hk
    obtain ⟨⟨_, rfl, e1, _, rfl, h1, h23⟩, hoff, hlen⟩ := h
    obtain ⟨e2, e3, rfl, h2, h3⟩ := varints_append.mp h23
    rename_i sid off data
    refine ⟨sid, e1, e2 ++ (e3 ++ data), ?_, h1, off, e2, e3 ++ data, rfl, ⟨h2, hoff⟩,
      data.length, e3, data, rfl, ⟨h3, fun hno => ?_⟩, data, data, [],
      (List.append_nil _).symm, ⟨rfl, rfl, le_refl _⟩, rfl, rfl⟩
    · rw [List.append_assoc, List.append_assoc]
    · rw [hlen hno, List.append_nil]

theorem newConnectionIdParse_reads : Reads (fun bs => newConnectionIdParse memOk (b :: bs))
    (Frames .newConnectionId b) := by
  have htail : ∀ seq retire len, Reads (fun bs => readConn len bs >>= fun x => alloc memOk 0 >>=
      fun _ => pure (Frame.init b (.newConnectionId seq retire x.1 x.2.1), x.2.2))
      (fun e _ f => ∃ conn token, e = conn.1 ++ token.1 ∧ conn.1.length = len ∧ 1 ≤ len ∧
        f = Frame.init b (.newConnectionId seq retire conn token)) := by
    intro seq retire len bs f rest
    constructor
    · intro h
      replace h : (readConn len bs >>= fun x => alloc memOk 0 >>= fun _ =>
        pure (Frame.init b (.newConnectionId seq retire x.1 x.2.1), x.2.2)) = .ok (f, rest) := h
      cases hr : readConn len bs with
      | error e =>
        rw [hr] at h
        cases h
      | ok x =>
        rw [hr] at h
        obtain ⟨rfl, rfl⟩ := Prod.mk.inj (Except.ok.inj h)
        obtain ⟨conn, token, rest⟩ := x
        obtain ⟨rfl, hlen, hpos⟩ := readConn_iff.mp hr
        exact ⟨conn.1 ++ token.1, (List.append_assoc _ _ _).symm, conn, token, rfl, hlen, hpos, rfl⟩
    · rintro ⟨e, rfl, conn, token, rfl, hlen, hpos, rfl⟩
      have hr := readConn_iff.mpr ⟨List.append_assoc conn.1 token.1 rest, hlen, hpos⟩
      show (readConn len _ >>= _) = _
      rw [hr]
      rfl
  refine Reads.congr (reads_first (Reads.bind readVarint_reads fun seq =>
    Reads.bind readVarint_reads fun retire => Reads.bind readByte_reads fun len =>
      htail seq retire len.toNat)) fun e rest f => ?_
  constructor
  · rintro ⟨seq, e1, _, rfl, h1, retire, e2, _, rfl, h2, len, _, _, rfl, rfl, conn, token, rfl,
      hlen, hpos, rfl⟩
    refine ⟨.newConnectionId seq retire conn token, rfl, ⟨by omega, e1 ++ e2, ?_, e1, e2, rfl, h1,
      varints_one.mpr h2⟩, rfl⟩
    rw [hlen, UInt8.ofNat_toNat, List.append_assoc]
    rfl
  · rintro ⟨body, hk, h, rfl⟩
    cases body <;> cases hk
    rename_i seq retire conn token
    obtain ⟨hpos, _, rfl, e1, e2, rfl, h1, h2⟩ := h
    have hlen : (UInt8.ofNat conn.1.length).toNat = conn.1.length := by
      have := conn.2
      rw [UInt8.toNat_ofNat', Nat.mod_eq_of_lt (by omega)]
    refine ⟨seq, e1, _, List.append_assoc _ _ _, h1, retire, e2, _, rfl, varints_one.mp h2,
      UInt8.ofNat conn.1.length, [UInt8.ofNat conn.1.length], conn.1 ++ token.1, rfl, rfl,
      conn, token, rfl, hlen.symm, by rwa [hlen], rfl⟩

/-- the ECN counts, where the type byte announces them -/
theorem ecn_reads (mk : Nat → Nat → Nat → Frame) :
    Reads (fun bs => if b = 0x03 then
          (readVarint bs >>= fun x => match x with
            | (x, bs) => readVarint bs >>= fun y => match y with
              | (y, bs) => readVarint bs >>= fun z => match z with
                | (z, bs) => pure (mk x y z, bs) : Except Stop (Frame × List UInt8))
        else pure (mk 0 0 0, bs))
    (fun e _ f => ∃ x y z, Varints (if b = 0x03 then [x, y, z] else []) e ∧
      (b ≠ 0x03 → x = 0 ∧ y = 0 ∧ z = 0) ∧ f = mk x y z) := by
  refine Reads.congr (Reads.ite (Reads.bind readVarint_reads fun x => Reads.bind readVarint_reads
    fun y => Reads.bind readVarint_reads fun z => Reads.pure (mk x y z)) (Reads.pure (mk 0 0 0)))
    fun e rest f => ?_
  by_cases hb : b = 0x03
  · rw [if_pos hb]
    simp only [if_pos hb]
    constructor
    · rintro ⟨x, e1, _, rfl, h1, y, e2, _, rfl, h2, z, e3, e4, rfl, h3, h4, rfl⟩
      exact ⟨x, y, z, ⟨e1, _, rfl, h1, e2, _, rfl, h2, e3, e4, rfl, h3, h4⟩,
        fun hno => absurd hb hno, rfl⟩
    · rintro ⟨x, y, z, ⟨e1, _, rfl, h1, e2, _, rfl, h2, e3, e4, rfl, h3, h4⟩, _, rfl⟩
      exact ⟨x, e1, _, rfl, h1, y, e2, _, rfl, h2, z, e3, e4, rfl, h3, h4, rfl⟩
  · rw [if_neg hb]
    simp only [if_neg hb]
    constructor
    · rintro ⟨rfl, rfl⟩
      exact ⟨0, 0, 0, rfl, fun _ => ⟨rfl, rfl, rfl⟩, rfl⟩
    · rintro ⟨x, y, z, he, hzero, rfl⟩
      obtain ⟨rfl, rfl, rfl⟩ := hzero hb
      exact ⟨he, rfl⟩

/-- an acknowledgement is read with as many ranges as the low 32 bits of its count say -/
theorem ackParse_reads : Reads (fun bs => ackParse memOk (b :: bs)) (fun e _ f =>
    ∃ count a, AckWord b count e a ∧ a.count = Word.u32 count ∧ f = Frame.init b (.ack a)) := by
  refine Reads.congr (reads_first (Reads.bind readVarint_reads fun largestAck =>
    Reads.bind readVarint_reads fun delay => Reads.bind readVarint_reads fun count =>
    Reads.bind readVarint_reads fun firstRange => reads_alloc (Word.u32 count * 16)
      (Reads.bind (readRanges_reads (Word.u32 count)) fun ranges => ecn_reads b fun x y z =>
        Frame.init b (.ack ⟨0, 0, largestAck, delay, firstRange, x, y, z, Word.u32 count,
          ranges⟩)))) fun e rest f => ?_
  constructor
  · rintro ⟨largestAck, e1, _, rfl, h1, delay, e2, _, rfl, h2, count, e3, _, rfl, h3, firstRange,
      e4, _, rfl, h4, ranges, e5, e6, rfl, ⟨hlen, h5⟩, x, y, z, h6, hzero, rfl⟩
    refine ⟨count, ⟨0, 0, largestAck, delay, firstRange, x, y, z, Word.u32 count, ranges⟩,
      ⟨⟨e1 ++ (e2 ++ (e3 ++ e4)), e5, e6, ?_, ⟨e1, _, rfl, h1, e2, _, rfl, h2, e3, e4, rfl, h3,
        varints_one.mpr h4⟩, h5, h6⟩, hzero, rfl, rfl, hlen.symm⟩, rfl, rfl⟩
    simp only [List.append_assoc]
  · rintro ⟨count, a, ⟨⟨_, e5, e6, rfl, ⟨e1, _, rfl, h1, e2, _, rfl, h2, e3, e4, rfl, h3, h4⟩,
      h5, h6⟩, hzero, hpt, htime, hlen⟩, hcount, rfl⟩
    refine ⟨a.largestAck, e1, e2 ++ (e3 ++ (e4 ++ (e5 ++ e6))), ?_, h1, a.delay, e2, _, rfl, h2,
      count, e3, _, rfl, h3, a.firstRange, e4, _, rfl, varints_one.mp h4, a.ranges, e5, e6, rfl,
      ⟨hlen.symm.trans hcount, h5⟩, a.ect0, a.ect1, a.ectCe, h6, hzero, ?_⟩
    · simp only [List.append_assoc]
    · rw [← hcount, ← hpt, ← htime]

/-- a connection close is read when it gives no reason -/
theorem connectionCloseParse_reads : Reads (fun bs => connectionCloseParse memOk (b :: bs))
    (fun e _ f => ∃ err type, DataWord (err :: ((if b = 0x1c then [type] else []) ++ [0])) [] e ∧
      (b ≠ 0x1c → type = 0) ∧ f = Frame.init b (.connectionClose err type [])) := by
  refine Reads.congr (reads_first (Reads.bind readVarint_reads fun err =>
    Reads.bind (readOptional_reads (b == 0x1c) fun _ => 0) fun type =>
    Reads.bind readVarint_reads fun len => reads_alloc 0 (Reads.bind (extendData_reads 0 len)
      fun data => Reads.pure (Frame.init b (.connectionClose err type data))))) fun e rest f => ?_
  simp only [beq_iff_eq, beq_eq_false_iff_ne]
  constructor
  · rintro ⟨err, e1, _, rfl, h1, type, e2, _, rfl, ⟨h2, htype⟩, len, e3, _, rfl, h3,
      data, _, _, rfl, ⟨rfl, rfl, hlen⟩, rfl, rfl⟩
    obtain rfl := List.eq_nil_of_length_eq_zero (Nat.le_zero.mp hlen)
    refine ⟨err, type, ⟨e1 ++ (e2 ++ e3), ?_, e1, e2 ++ e3, rfl, h1,
      varints_append.mpr ⟨e2, e3, rfl, h2, varints_one.mpr h3⟩⟩, htype, rfl⟩
    simp only [List.append_nil]
  · rintro ⟨err, type, ⟨_, rfl, e1, _, rfl, h1, h23⟩, htype, rfl⟩
    obtain ⟨e2, e3, rfl, h2, h3⟩ := varints_append.mp h23
    refine ⟨err, e1, e2 ++ e3, List.append_nil _, h1, type, e2, e3, rfl, ⟨h2, htype⟩, 0, e3, [],
      (List.append_nil _).symm, varints_one.mp h3, [], [], [], rfl, ⟨rfl, rfl, le_refl _⟩, rfl, rfl⟩

/-- a complete STREAM_DATA_BLOCKED frame does not fit its allocation -/
theorem streamDataBlockedParse_reads :
    Reads (fun bs => streamDataBlockedParse memOk (b :: bs)) (fun _ _ _ => False) := by
  refine Reads.congr (reads_first (Reads.bind readVarint_reads fun v =>
    Reads.bind readVarint_reads fun w => reads_alloc 0 (Reads.never fun _ _ h => ?_)))
    fun e rest f => ?_
  · cases h
  · constructor
    · rintro ⟨_, _, _, _, _, _, _, _, _, _, hno⟩
      exact hno
    · exact False.elim

end

/-! ## the kinds -/

/-- The parser accepts the bytes behind the type byte `b` exactly when they start with a complete
encoding, takes that off, and returns the frame that it stands for. -/
def Parses (k : Kind) (b : UInt8) (bs : List UInt8) : Prop :=
  ∀ f rest, k.parse memOk (b :: bs) = .ok (f, rest) ↔ ∃ e, bs = e ++ rest ∧ Frames k b e rest f

/-- The three kinds of buffers that are parsed otherwise: an acknowledgement whose range count does
not fit 32 bits, in front of as many ranges as its low 32 bits say; every complete
STREAM_DATA_BLOCKED frame; every complete connection close with a reason. -/
def Misparsed (k : Kind) (b : UInt8) (bs : List UInt8) : Prop :=
  ∃ e rest, bs = e ++ rest ∧
    match k with
    | .ack => ∃ count a, AckWord b count e a ∧ 2 ^ 32 ≤ count ∧ a.count = count % 2 ^ 32
    | .streamDataBlocked => ∃ sid maxData, Varints [sid, maxData] e
    | .connectionClose => ∃ err type data, Encodes b e rest (.connectionClose err type data) ∧
        data ≠ []
    | _ => False

/-- the words of a parser whose struct is determined by one value -/
theorem reads_kind {ι : Type} {k : Kind} {b : UInt8} {p : Reader UInt8 Stop Frame} {mk : ι → Body}
    {G : ι → List UInt8 → Prop} (h : Reads p (fun e _ f => ∃ i, G i e ∧ f = Frame.init b (mk i)))
    (hk : ∀ i, (mk i).kind = k) (hG : ∀ i e rest, Encodes b e rest (mk i) ↔ G i e)
    (honto : ∀ body, body.kind = k → ∃ i, body = mk i) : Reads p (Frames k b) := by
  refine h.congr fun e rest f => ⟨?_, ?_⟩
  · rintro ⟨i, hg, rfl⟩
    exact ⟨mk i, hk i, (hG i e rest).mpr hg, rfl⟩
  · rintro ⟨body, hbody, he, rfl⟩
    obtain ⟨i, rfl⟩ := honto body hbody
    exact ⟨i, (hG i e rest).mp he, rfl⟩

theorem frames_reads {k : Kind} {b : UInt8}
    (h : k ∉ [.ack, .streamDataBlocked, .connectionClose]) :
    Reads (fun bs => k.parse memOk (b :: bs)) (Frames k b) := by
  cases k with
  | ack => exact absurd (by decide) h
  | streamDataBlocked => exact absurd (by decide) h
  | connectionClose => exact absurd (by decide) h
  | resetStream => exact resetStreamParse_reads b
  | crypto => exact cryptoParse_reads b
  | newToken => exact newTokenParse_reads b
  | stream => exact streamParse_reads b
  | newConnectionId => exact newConnectionIdParse_reads b
  | ping | handshakeDone =>
    refine reads_kind (parse0_reads b _) (fun _ => rfl) (fun _ _ _ => Iff.rfl) fun body hk => ?_
    cases body <;> cases hk
    exact ⟨(), rfl⟩
  | maxData | maxStreams | dataBlocked | streamsBlocked | retireConnectionId =>
    refine reads_kind (parse1_reads b _) (fun _ => rfl) (fun _ _ _ => Iff.rfl) fun body hk => ?_
    cases body <;> cases hk
    exact ⟨_, rfl⟩
  | stopSending | maxStreamData =>
    refine reads_kind (parse2_reads b _) (fun _ => rfl) (fun _ _ _ => Iff.rfl) fun body hk => ?_
    cases body <;> cases hk
    exact ⟨(_, _), rfl⟩
  | pathChallenge | pathResponse =>
    refine reads_kind (parse8_reads b _) (fun _ => rfl) (fun _ _ _ => Iff.rfl) fun body hk => ?_
    cases body <;> cases hk
    exact ⟨_, rfl⟩

/-! ## the three other kinds -/

/-- The integers in front of the ranges are the same on both readings, so the count is. -/
theorem ackWord_count {b : UInt8} {count count' : Nat} {e e' rest rest' : List UInt8}
    {a a' : AckFrame} (h : AckWord b count e a) (h' : AckWord b count' e' a')
    (heq : e ++ rest = e' ++ rest') : count = count' := by
  obtain ⟨⟨e1, e2, e3, rfl, h1, _, _⟩, _⟩ := h
  obtain ⟨⟨e4, e5, e6, rfl, h4, _, _⟩, _⟩ := h'
  rw [List.append_assoc, List.append_assoc e4] at heq
  have hvs := (varints_unique h1 h4 rfl heq).1
  simp only [List.cons.injEq] at hvs
  exact hvs.2.2.1

/-- Behind a longer list of ranges than a count says, the shorter list is complete as well. -/
theorem ackWord_shorten {b : UInt8} {count n : Nat} {e : List UInt8} {a : AckFrame}
    (h : AckWord b count e a) (hn : n + 2 ≤ a.ranges.length) :
    ∃ e1 e2 a', e = e1 ++ e2 ∧ AckWord b count e1 a' ∧ a'.count = n := by
  obtain ⟨⟨e1, e2, e3, rfl, h1, h2, _⟩, _⟩ := h
  obtain ⟨rs, r1, r2, rs', hranges, hlen⟩ : ∃ rs r1 r2 rs', a.ranges = rs ++ r1 :: r2 :: rs' ∧
      rs.length = n := by
    refine ⟨a.ranges.take n, a.ranges[n], a.ranges[n + 1], a.ranges.drop (n + 2), ?_, ?_⟩
    · rw [← List.drop_eq_getElem_cons, ← List.drop_eq_getElem_cons, List.take_append_drop]
    · rw [List.length_take]
      omega
  rw [hranges, List.flatMap_append, varints_append] at h2
  obtain ⟨e4, e5, rfl, h4, e6, _, rfl, h6, e7, _, rfl, h7, e8, e9, rfl, h8, _⟩ := h2
  by_cases hb : b = 0x03
  · refine ⟨e1 ++ (e4 ++ (e6 ++ (e7 ++ e8))), e9 ++ e3, ⟨0, 0, a.largestAck, a.delay, a.firstRange,
      r1.gap, r1.len, r2.gap, n, rs⟩, ?_, ⟨⟨e1, e4, e6 ++ (e7 ++ e8), rfl, h1, h4, ?_⟩,
      fun hno => absurd hb hno, rfl, rfl, hlen.symm⟩, rfl⟩
    · simp only [List.append_assoc]
    · rw [if_pos hb]
      exact ⟨e6, e7 ++ e8, rfl, h6, e7, e8, rfl, h7, varints_one.mpr h8⟩
  · refine ⟨e1 ++ (e4 ++ []), e6 ++ (e7 ++ (e8 ++ e9)) ++ e3, ⟨0, 0, a.largestAck, a.delay,
      a.firstRange, 0, 0, 0, n, rs⟩, ?_, ⟨⟨e1, e4, [], rfl, h1, h4, ?_⟩,
      fun _ => ⟨rfl, rfl, rfl⟩, rfl, rfl, hlen.symm⟩, rfl⟩
    · simp only [List.append_assoc, List.append_nil]
    · rw [if_neg hb]
      rfl

theorem ack_misparsed {b : UInt8} {bs : List UInt8} (h : Misparsed .ack b bs) :
    ¬ Parses .ack b bs := by
  intro hp
  obtain ⟨e, rest, rfl, count, a, ha, hbig, hcount⟩ := h
  have hok : ackParse memOk (b :: (e ++ rest)) = .ok (Frame.init b (.ack a), rest) :=
    (ackParse_reads b _ _ rest).mpr ⟨e, rfl, count, a, ha, hcount, rfl⟩
  obtain ⟨e', heq, body, hk, he', hf⟩ := (hp _ rest).mp hok
  obtain rfl : Body.ack a = body := congrArg Frame.body hf
  have hsame : count = a.count := ackWord_count ha he' heq
  omega

theorem ack_parses {b : UInt8} {bs : List UInt8} (h : ¬ Misparsed .ack b bs) :
    Parses .ack b bs := by
  have hsmall : ∀ {e rest count a}, bs = e ++ rest → AckWord b count e a →
      a.count = Word.u32 count → count < 2 ^ 32 := by
    intro e rest count a hbs ha hcount
    by_contra hbig
    exact h ⟨e, rest, hbs, count, a, ha, not_lt.mp hbig, hcount⟩
  intro f rest
  constructor
  · intro hok
    obtain ⟨e, hbs, count, a, ha, hcount, rfl⟩ := (ackParse_reads b bs f rest).mp hok
    have hlt := hsmall hbs ha hcount
    rw [Word.u32_of_lt hlt] at hcount
    refine ⟨e, hbs, .ack a, rfl, ?_, rfl⟩
    show AckWord b a.count e a
    rwa [hcount]
  · rintro ⟨e, hbs, body, hk, he, rfl⟩
    cases body <;> cases hk
    rename_i a
    replace he : AckWord b a.count e a := he
    refine (ackParse_reads b bs _ rest).mpr ⟨e, hbs, a.count, a, he, ?_, rfl⟩
    refine (Word.u32_of_lt ?_).symm
    by_contra hbig
    have hlen : a.count = a.ranges.length := he.2.2.2.2
    have hroom : Word.u32 a.count + 2 ≤ a.ranges.length := by
      have := Word.u32_lt a.count
      have hsub : Word.u32 a.count = a.count % 2 ^ 32 := rfl
      omega
    -- the list of ranges goes on behind what the parser takes
    obtain ⟨e1, e2, a', rfl, ha', hcount⟩ := ackWord_shorten he hroom
    exact hbig (hsmall (hbs.trans (List.append_assoc _ _ _)) ha' hcount)

theorem streamDataBlocked_parses {b : UInt8} {bs : List UInt8} :
    Parses .streamDataBlocked b bs ↔ ¬ Misparsed .streamDataBlocked b bs := by
  constructor
  · rintro hp ⟨e, rest, hbs, sid, maxData, he⟩
    have hok := (hp (Frame.init b (.streamDataBlocked sid maxData)) rest).mpr
      ⟨e, hbs, .streamDataBlocked sid maxData, rfl, he, rfl⟩
    obtain ⟨_, _, hno⟩ := (streamDataBlockedParse_reads b bs _ rest).mp hok
    exact hno
  · intro h f rest
    constructor
    · intro hok
      obtain ⟨_, _, hno⟩ := (streamDataBlockedParse_reads b bs f rest).mp hok
      exact hno.elim
    · rintro ⟨e, hbs, body, hk, he, rfl⟩
      cases body <;> cases hk
      exact absurd ⟨e, rest, hbs, _, _, he⟩ h

theorem connectionClose_parses {b : UInt8} {bs : List UInt8} :
    Parses .connectionClose b bs ↔ ¬ Misparsed .connectionClose b bs := by
  constructor
  · rintro hp ⟨e, rest, hbs, err, type, data, he, hdata⟩
    have hok := (hp (Frame.init b (.connectionClose err type data)) rest).mpr
      ⟨e, hbs, _, rfl, he, rfl⟩
    obtain ⟨_, _, err', type', _, _, hf⟩ := (connectionCloseParse_reads b bs _ rest).mp hok
    have hbody : Body.connectionClose err type data = .connectionClose err' type' [] :=
      congrArg Frame.body hf
    exact hdata (Body.connectionClose.inj hbody).2.2
  · intro h f rest
    constructor
    · intro hok
      obtain ⟨e, hbs, err, type, he, htype, rfl⟩ := (connectionCloseParse_reads b bs f rest).mp hok
      exact ⟨e, hbs, .connectionClose err type [], rfl, ⟨he, htype⟩, rfl⟩
    · rintro ⟨e, hbs, body, hk, he, rfl⟩
      cases body <;> cases hk
      rename_i err type data
      have hdata : data = [] := by
        by_contra hne
        exact h ⟨e, rest, hbs, err, type, data, he, hne⟩
      subst hdata
      exact (connectionCloseParse_reads b bs _ rest).mpr ⟨e, hbs, err, type, he.1, he.2, rfl⟩

/-- **A parser accepts exactly the complete encodings of its kind**, on every buffer that is not one
of the three. -/
theorem parses_iff (k : Kind) (b : UInt8) (bs : List UInt8) :
    Parses k b bs ↔ ¬ Misparsed k b bs := by
  by_cases hk : k ∈ [.ack, .streamDataBlocked, .connectionClose]
  · simp only [List.mem_cons, List.not_mem_nil, or_false] at hk
    rcases hk with rfl | rfl | rfl
    · exact ⟨fun hp hmis => ack_misparsed hmis hp, ack_parses⟩
    · exact streamDataBlocked_parses
    · exact connectionClose_parses
  · refine iff_of_true (frames_reads hk bs) ?_
    rintro ⟨e, rest, _, hmis⟩
    cases k <;> first | exact hmis | exact hk (by decide)

/-- an acknowledgement that announces `2 ^ 32` ranges and has none -/
theorem not_parses : ¬ ∀ (k : Kind) (b : UInt8) (bs : List UInt8), Parses k b bs := by
  intro h
  have hcount : Varints [0, 0, 2 ^ 32, 0]
      [0x00, 0x00, 0xc0, 0x00, 0x00, 0x01, 0x00, 0x00, 0x00, 0x00, 0x00] :=
    ⟨[0x00], _, rfl, ⟨0x00, [], rfl, rfl, rfl⟩, [0x00], _, rfl, ⟨0x00, [], rfl, rfl, rfl⟩,
      [0xc0, 0x00, 0x00, 0x01, 0x00, 0x00, 0x00, 0x00], [0x00], rfl,
      ⟨0xc0, [0x00, 0x00, 0x01, 0x00, 0x00, 0x00, 0x00], rfl, rfl, rfl⟩,
      varints_one.mpr ⟨0x00, [], rfl, rfl, rfl⟩⟩
  have hword : AckWord 0x02 (2 ^ 32)
      [0x00, 0x00, 0xc0, 0x00, 0x00, 0x01, 0x00, 0x00, 0x00, 0x00, 0x00]
      ⟨0, 0, 0, 0, 0, 0, 0, 0, 0, []⟩ :=
    ⟨⟨_, [], [], (List.append_nil _).symm, hcount, rfl, rfl⟩, fun _ => ⟨rfl, rfl, rfl⟩,
      rfl, rfl, rfl⟩
  exact ack_misparsed ⟨_, [], (List.append_nil _).symm, 2 ^ 32, _, hword, le_refl _, rfl⟩
    (h .ack 0x02 _)

end OpenQuic
