import OpenQuic.Format.TransportParameter

/-!
# The round trip of the transport parameters

* `Writes`           a formatter writes these bytes if there is room for them, and nothing otherwise;
* `entries`          the entries of a set of parameters, in the order of the calls;
* `format_of_room`, `format_of_not_room`   the formatter writes them all, or it fails;
* `parseLoop_entries`   the loop of the parser takes them back to the parameters;
* `roundTrips_iff`    the size is the right one for the block, and the block comes back as what it was
                      made of, if and only if `active_connid` is as long as its thousandth part.
-/

namespace OpenQuic
open Bytes Word

theorem length_flatten_le {bss : List (List UInt8)} {k : Nat} (h : ∀ bytes ∈ bss, bytes.length ≤ k) :
    bss.flatten.length ≤ bss.length * k := by
  induction bss with
  | nil => exact Nat.zero_le _
  | cons bytes bss ih =>
    have hhead := h bytes List.mem_cons_self
    have htail := ih fun b hb => h b (List.mem_cons_of_mem _ hb)
    rw [List.flatten_cons, List.length_append, List.length_cons, Nat.succ_mul]
    omega

/-! ## what the formatters write -/

def Writes (f : Buf → Buf × Bool) (bytes : List UInt8) : Prop :=
  ∀ b, f b = if b.room < bytes.length then (b, false) else (b.write bytes, true)

theorem Buf.write_write (b : Buf) (xs ys : List UInt8) :
    (b.write xs).write ys = b.write (xs ++ ys) := by
  unfold Buf.write
  simp only [Buf.mk.injEq, List.append_assoc, List.length_append, true_and]
  omega

theorem Buf.write_nil (b : Buf) : b.write [] = b := by
  unfold Buf.write
  rw [List.append_nil]
  rfl

theorem writes_nothing {f : Buf → Buf × Bool} (h : ∀ b, f b = (b, true)) : Writes f [] := by
  intro b
  rw [h, List.length_nil, if_neg (Nat.not_lt_zero _), Buf.write_nil]

theorem writes_varint (t : TransParam) (v : Nat) :
    Writes (paramVarintFormat t v) (entryBytes t.id (varintFormatR v)) := by
  intro b
  rw [length_entryBytes, varintFormatR_length]
  unfold paramVarintFormat entryBytes
  rw [varintFormatR_length]

theorem writes_string (t : TransParam) (v : List UInt8) :
    Writes (paramStringFormat t v) (if v.length ≠ 0 then entryBytes t.id v else []) := by
  by_cases hv : v.length ≠ 0
  · rw [if_pos hv]
    intro b
    rw [length_entryBytes]
    unfold paramStringFormat entryBytes
    rw [if_pos hv]
  · rw [if_neg hv]
    exact writes_nothing fun b => if_neg hv

theorem writes_bool (t : TransParam) (v : Bool) :
    Writes (paramBoolFormat t v) (if v then entryBytes t.id [] else []) := by
  cases v with
  | false => exact writes_nothing fun b => rfl
  | true =>
    intro b
    rw [if_pos rfl, length_entryBytes]
    unfold paramBoolFormat entryBytes
    rw [if_pos rfl, List.append_nil]
    rfl

/-- a chain writes everything, or it fails -/
theorem formatChain_writes {fs : List (Buf → Buf × Bool)} {bss : List (List UInt8)}
    (h : List.Forall₂ Writes fs bss) (b : Buf) :
    (bss.flatten.length ≤ b.room → formatChain fs b = (b.write bss.flatten, true)) ∧
      (b.room < bss.flatten.length → (formatChain fs b).2 = false) := by
  induction h generalizing b with
  | nil =>
    refine ⟨fun _ => ?_, fun hlt => absurd hlt (Nat.not_lt_zero _)⟩
    rw [List.flatten_nil, Buf.write_nil]
    rfl
  | @cons f bytes fs bss hf _ ih =>
    rw [List.flatten_cons, List.length_append]
    unfold formatChain
    rw [hf b]
    by_cases hlt : b.room < bytes.length
    · rw [if_pos hlt]
      exact ⟨fun hle => by omega, fun _ => rfl⟩
    · rw [if_neg hlt, if_pos rfl, ← Buf.write_write]
      have hroom : (b.write bytes).room = b.room - bytes.length := rfl
      obtain ⟨hfits, hfails⟩ := ih (b.write bytes)
      rw [hroom] at hfits hfails
      exact ⟨fun hle => hfits (by omega), fun hle => hfails (by omega)⟩

namespace TransportParameter

/-! ## the block -/

section
variable (p : TransportParameter) (connid token : List UInt8)

/-- the entries of a block, in the order of the calls -/
def entries : List (List UInt8) :=
  [ entryBytes TransParam.idleTimeout.id (varintFormatR p.idleTimeout),
    entryBytes TransParam.maxPacketSize.id (varintFormatR p.maxPktSize),
    entryBytes TransParam.maxData.id (varintFormatR p.maxData),
    entryBytes TransParam.maxStreamDataBidiLocal.id (varintFormatR p.maxStreamDataBidiLocal),
    entryBytes TransParam.maxStreamDataBidiRemote.id (varintFormatR p.maxStreamDataBidiRemote),
    entryBytes TransParam.maxStreamDataUni.id (varintFormatR p.maxStreamDataUni),
    entryBytes TransParam.maxStreamBidi.id (varintFormatR p.maxStreamBidi),
    entryBytes TransParam.maxStreamUni.id (varintFormatR p.maxStreamUni),
    entryBytes TransParam.ackDelayExponent.id (varintFormatR p.ackDelayExponent.toNat),
    entryBytes TransParam.maxAckDelay.id (varintFormatR p.maxAckDelay),
    entryBytes TransParam.activeConnidLimit.id (varintFormatR p.activeConnid),
    if connid.length ≠ 0 then entryBytes TransParam.originalConnid.id connid else [],
    if token.length ≠ 0 then entryBytes TransParam.statelessResetToken.id token else [],
    if p.disableMigration then entryBytes TransParam.disableMigration.id [] else [] ]

theorem formatCalls_writes : List.Forall₂ Writes (p.formatCalls connid token)
    (p.entries connid token) := by
  unfold formatCalls entries
  repeat first
    | exact List.Forall₂.nil
    | refine List.Forall₂.cons (writes_varint _ _) ?_
    | refine List.Forall₂.cons (writes_string _ _) ?_
    | refine List.Forall₂.cons (writes_bool _ _) ?_

/-- the bytes behind the length -/
def encoded : List UInt8 := (p.entries connid token).flatten

variable {p connid token} (hconnid : p.originalConnid = some connid)
  (htoken : p.statelessResetToken = some token)
include hconnid htoken

theorem format_of_room {buf : List UInt8} (h : 2 + (p.encoded connid token).length ≤ buf.length) :
    format buf p = some (put16 (2 + (p.encoded connid token).length) ++ p.encoded connid token ++
        buf.drop (2 + (p.encoded connid token).length),
      2 + (p.encoded connid token).length, .success) := by
  have hchain := (formatChain_writes (p.formatCalls_writes connid token)
    ⟨buf.take 2, buf.length - 2⟩).1 (by
      show (p.encoded connid token).length ≤ buf.length - 2
      omega)
  have htake : (buf.take 2).length = 2 := by
    rw [List.length_take]
    omega
  have hpos : (buf.take 2 ++ p.encoded connid token).length =
      2 + (p.encoded connid token).length := by
    rw [List.length_append, htake]
  have hdrop : (buf.take 2 ++ p.encoded connid token).drop 2 = p.encoded connid token :=
    List.drop_left' htake
  unfold format
  rw [hconnid, htoken]
  simp only [Option.bind_eq_bind, Option.bind_some, hchain, Bool.not_true, Bool.false_eq_true,
    if_false]
  show some (put16 (buf.take 2 ++ p.encoded connid token).length ++
    (buf.take 2 ++ p.encoded connid token).drop 2 ++
      buf.drop (buf.take 2 ++ p.encoded connid token).length,
    (buf.take 2 ++ p.encoded connid token).length, Err.success) = _
  rw [hpos, hdrop]

theorem format_of_not_room {buf : List UInt8} {x : List UInt8 × Nat × Err}
    (hlt : buf.length < 2 + (p.encoded connid token).length) (hpos : 0 < (p.encoded connid token).length)
    (h : format buf p = some x) : x.2.2 = .internalError := by
  have hchain := (formatChain_writes (p.formatCalls_writes connid token)
    ⟨buf.take 2, buf.length - 2⟩).2 (by
      show buf.length - 2 < (p.encoded connid token).length
      omega)
  unfold format at h
  rw [hconnid, htoken] at h
  simp only [Option.bind_eq_bind, Option.bind_some, hchain, Bool.not_false, if_true] at h
  cases h
  rfl

end

/-! ## parsing -/

section
variable {mem : Nat → Bool} {ret : TransportParameter} {t : TransParam}

/-- the parser finds the identifier of an entry -/
theorem turn_entry (value rest : List UInt8) : turn mem ret (entryBytes t.id value ++ rest) =
    match t.slot with
    | .string set =>
      let x := paramStringParse mem (put16 value.length ++ value ++ rest)
      some (set x.1 ret, x.2)
    | .varint set =>
      (paramVarintParse (put16 value.length ++ value ++ rest)).map fun x => (set x.1 ret, x.2)
    | .bool set =>
      let x := paramBoolParse (put16 value.length ++ value ++ rest)
      some (set x.1 ret, x.2) := by
  have hlt := t.id_lt
  have hsplit : entryBytes t.id value ++ rest = put16 t.id ++ (put16 value.length ++ value ++ rest) := by
    unfold entryBytes
    rw [List.append_assoc, List.append_assoc, List.append_assoc]
  have hid : TransParam.ofId (get16 (entryBytes t.id value ++ rest)) = some t := by
    rw [hsplit, get16_put16 (by omega), TransParam.ofId_id]
  have hdrop : (entryBytes t.id value ++ rest).drop 2 = put16 value.length ++ value ++ rest := by
    rw [hsplit, List.drop_left' (length_put16 _)]
  cases hslot : t.slot <;> simp only [turn, hid, hdrop, hslot]

theorem length_entry_ge (id : Nat) (value rest : List UInt8) :
    4 ≤ (entryBytes id value ++ rest).length := by
  rw [List.length_append, length_entryBytes]
  omega

theorem paramVarintParse_format {v : Nat} (h : v ≤ varintMax) (len : Nat) (rest : List UInt8) :
    paramVarintParse (put16 len ++ varintFormatR v ++ rest) = some (v, rest) := by
  obtain ⟨⟨b, bs, hb, hlen⟩, hr⟩ := varintR_formatR h rest
  have hbs : (b :: bs).length = varintFormatLen v := by rw [← hb, varintFormatR_length]
  unfold paramVarintParse
  rw [List.append_assoc, List.drop_left' (length_put16 _)]
  rw [hb] at hr ⊢
  show (if (b :: (bs ++ rest)).length < varintLen b then none else _) = _
  rw [hlen, if_neg (by
    rw [← hbs, List.length_cons, List.length_cons, List.length_append]
    omega)]
  show some (varintR (b :: bs ++ rest), (b :: bs ++ rest).drop (varintFormatLen v)) = _
  rw [hr, List.drop_left' hbs]

/-- the loop takes these bytes in, whatever follows them -/
def Takes (mem : Nat → Bool) (bytes : List UInt8) (f : TransportParameter → TransportParameter) :
    Prop := ∀ ret rest, parseLoop mem ret (bytes ++ rest) = parseLoop mem (f ret) rest

theorem takes_varint {set : Nat → TransportParameter → TransportParameter}
    (ht : t.slot = .varint set) {v : Nat} (hv : v ≤ varintMax) :
    Takes mem (entryBytes t.id (varintFormatR v)) (set v) := by
  intro ret rest
  rw [parseLoop_turn (length_entry_ge _ _ _), turn_entry, ht]
  show ((paramVarintParse _).map _).bind _ = _
  rw [paramVarintParse_format hv]
  rfl

theorem paramStringParse_format {value : List UInt8} (hlen : value.length < 2 ^ 16)
    (hmem : mem value.length = true) (rest : List UInt8) :
    paramStringParse mem (put16 value.length ++ value ++ rest) = (some value, rest) := by
  unfold paramStringParse
  rw [List.append_assoc, get16_put16 hlen, List.drop_left' (length_put16 _)]
  dsimp only
  rw [if_neg (by rw [List.length_append]; omega), hmem, List.take_left, List.drop_left]
  rfl

theorem takes_string {set : Option (List UInt8) → TransportParameter → TransportParameter}
    (ht : t.slot = .string set) {value : List UInt8} (hlen : value.length < 2 ^ 16)
    (hmem : mem value.length = true) :
    Takes mem (entryBytes t.id value) (set (some value)) := by
  intro ret rest
  rw [parseLoop_turn (length_entry_ge _ _ _), turn_entry, ht]
  show Option.bind (some (set (paramStringParse _ _).1 ret, (paramStringParse _ _).2)) _ = _
  rw [paramStringParse_format hlen hmem]
  rfl

theorem takes_bool {set : Bool → TransportParameter → TransportParameter}
    (ht : t.slot = .bool set) : Takes mem (entryBytes t.id []) (set true) := by
  intro ret rest
  rw [parseLoop_turn (length_entry_ge _ _ _), turn_entry, ht]
  show Option.bind (some (set true ret, ((put16 0 ++ [] ++ rest).drop 2))) _ = _
  rw [List.append_nil, List.drop_left' (length_put16 _)]
  rfl

theorem takes_if {c : Prop} [Decidable c] {bytes : List UInt8}
    {f : TransportParameter → TransportParameter} (h : c → Takes mem bytes f) :
    Takes mem (if c then bytes else []) (if c then f else fun ret => ret) := by
  by_cases hc : c
  · rw [if_pos hc, if_pos hc]
    exact h hc
  · rw [if_neg hc, if_neg hc]
    exact fun _ _ => rfl

theorem parseLoop_takes {bss : List (List UInt8)}
    {fs : List (TransportParameter → TransportParameter)} (h : List.Forall₂ (Takes mem) bss fs)
    (ret : TransportParameter) :
    parseLoop mem ret bss.flatten = some (fs.foldl (fun ret f => f ret) ret) := by
  induction h generalizing ret with
  | nil => exact parseLoop_short (by decide)
  | cons hf _ ih => rw [List.flatten_cons, hf, ih, List.foldl_cons]

end

/-- A set of parameters in its range: the integers are varints, and the byte strings are set and have
up to 20 bytes. -/
structure InRange (p : TransportParameter) (connid token : List UInt8) : Prop where
  connidSet : p.originalConnid = some connid
  connidLen : connid.length ≤ 20
  tokenSet : p.statelessResetToken = some token
  tokenLen : token.length ≤ 20
  idleTimeout : p.idleTimeout ≤ varintMax
  maxPktSize : p.maxPktSize ≤ varintMax
  maxData : p.maxData ≤ varintMax
  maxStreamDataBidiLocal : p.maxStreamDataBidiLocal ≤ varintMax
  maxStreamDataBidiRemote : p.maxStreamDataBidiRemote ≤ varintMax
  maxStreamDataUni : p.maxStreamDataUni ≤ varintMax
  maxStreamBidi : p.maxStreamBidi ≤ varintMax
  maxStreamUni : p.maxStreamUni ≤ varintMax
  maxAckDelay : p.maxAckDelay ≤ varintMax
  activeConnid : p.activeConnid ≤ varintMax

section
variable {p : TransportParameter} {connid token : List UInt8} {mem : Nat → Bool}
  (h : InRange p connid token)
include h

/-- the assignments that the parser makes for the entries -/
theorem entries_takes (hmem : ∀ n, 0 < n → mem n = true) :
    List.Forall₂ (Takes mem) (p.entries connid token)
      [ fun ret => { ret with idleTimeout := p.idleTimeout },
        fun ret => { ret with maxPktSize := p.maxPktSize },
        fun ret => { ret with maxData := p.maxData },
        fun ret => { ret with maxStreamDataBidiLocal := p.maxStreamDataBidiLocal },
        fun ret => { ret with maxStreamDataBidiRemote := p.maxStreamDataBidiRemote },
        fun ret => { ret with maxStreamDataUni := p.maxStreamDataUni },
        fun ret => { ret with maxStreamBidi := p.maxStreamBidi },
        fun ret => { ret with maxStreamUni := p.maxStreamUni },
        fun ret => { ret with ackDelayExponent := UInt8.ofNat p.ackDelayExponent.toNat },
        fun ret => { ret with maxAckDelay := p.maxAckDelay },
        fun ret => { ret with activeConnid := p.activeConnid },
        if connid.length ≠ 0 then fun ret => { ret with originalConnid := some connid }
          else fun ret => ret,
        if token.length ≠ 0 then fun ret => { ret with statelessResetToken := some token }
          else fun ret => ret,
        if p.disableMigration then fun ret => { ret with disableMigration := true }
          else fun ret => ret ] := by
  obtain ⟨_, hconnid, _, htoken, h1, h2, h3, h4, h5, h6, h7, h8, h9, h10⟩ := h
  have hexp : p.ackDelayExponent.toNat ≤ varintMax := by
    have := p.ackDelayExponent.toNat_lt
    unfold varintMax
    omega
  refine .cons (takes_varint (t := .idleTimeout) rfl h1) <|
    .cons (takes_varint (t := .maxPacketSize) rfl h2) <|
    .cons (takes_varint (t := .maxData) rfl h3) <|
    .cons (takes_varint (t := .maxStreamDataBidiLocal) rfl h4) <|
    .cons (takes_varint (t := .maxStreamDataBidiRemote) rfl h5) <|
    .cons (takes_varint (t := .maxStreamDataUni) rfl h6) <|
    .cons (takes_varint (t := .maxStreamBidi) rfl h7) <|
    .cons (takes_varint (t := .maxStreamUni) rfl h8) <|
    .cons (takes_varint (t := .ackDelayExponent) rfl hexp) <|
    .cons (takes_varint (t := .maxAckDelay) rfl h9) <|
    .cons (takes_varint (t := .activeConnidLimit) rfl h10) <|
    .cons (takes_if fun hc => ?_) <| .cons (takes_if fun hc => ?_) <|
    .cons (takes_if fun _ => takes_bool (t := .disableMigration) rfl) .nil
  · exact takes_string (t := .originalConnid) rfl (by omega) (hmem _ (Nat.pos_of_ne_zero hc))
  · exact takes_string (t := .statelessResetToken) rfl (by omega) (hmem _ (Nat.pos_of_ne_zero hc))

theorem parseLoop_entries (hmem : ∀ n, 0 < n → mem n = true) :
    parseLoop mem init (p.encoded connid token) = some p := by
  unfold encoded
  rw [parseLoop_takes (entries_takes h hmem), UInt8.ofNat_toNat]
  obtain ⟨hconnid, _, htoken, _⟩ := h
  cases p with
  | mk originalConnid _ statelessResetToken _ _ _ _ _ _ _ _ _ disableMigration _ =>
    cases hconnid
    cases htoken
    -- what is left out of a block is what the parser starts with
    cases connid <;> cases token <;> cases disableMigration <;> rfl

/-- what is counted, and what is written -/
theorem size_encoded : ∃ n, p.size = some n ∧ n + varintFormatLen p.activeConnid =
    2 + (p.encoded connid token).length + varintFormatLen (p.activeConnid / 1000) := by
  unfold size
  rw [h.connidSet, h.tokenSet]
  refine ⟨_, rfl, ?_⟩
  unfold encoded entries
  simp only [List.flatten_cons, List.flatten_nil, List.length_append, length_entryBytes,
    varintFormatR_length, List.length_nil, apply_ite List.length, Nat.add_zero]
  omega

theorem encoded_length_lt : 2 + (p.encoded connid token).length < 2 ^ 16 := by
  have hentry : ∀ bytes ∈ p.entries connid token, bytes.length ≤ 24 := by
    obtain ⟨_, hconnid, _, htoken, _⟩ := h
    have hvarint : ∀ (t : TransParam) v, (entryBytes t.id (varintFormatR v)).length ≤ 24 := by
      intro t v
      have hle := varintFormatLen_le v
      rw [length_entryBytes, varintFormatR_length]
      omega
    have hif : ∀ {c : Prop} [Decidable c] (t : TransParam) {value : List UInt8}, value.length ≤ 20 →
        (if c then entryBytes t.id value else []).length ≤ 24 := by
      intro c _ t value hle
      split
      · rw [length_entryBytes]
        omega
      · exact Nat.zero_le _
    unfold entries
    simp only [List.forall_mem_cons, hvarint, hif _ hconnid, hif _ htoken, true_and]
    exact ⟨hif _ (Nat.zero_le _), fun _ hmem => absurd hmem List.not_mem_nil⟩
  have hsum := length_flatten_le hentry
  have hcount : (p.entries connid token).length = 14 := rfl
  unfold encoded
  omega

omit h in
theorem encoded_length_pos : 0 < (p.encoded connid token).length := by
  unfold encoded entries
  rw [List.flatten_cons, List.length_append, length_entryBytes]
  omega

/-- a block that has been formatted is read back -/
theorem parse_encoded (hmem : ∀ n, 0 < n → mem n = true) :
    parse mem (put16 (2 + (p.encoded connid token).length) ++ p.encoded connid token) = some p := by
  rw [parse_of_length (encoded_length_lt h), parseLoop_entries h hmem]

end

/-- the block of exactly the size is written, fills it, and is read back -/
def RoundTrips (mem : Nat → Bool) (p : TransportParameter) : Prop :=
  ∃ n, p.size = some n ∧ ∀ buf : List UInt8, buf.length = n →
    ∃ bytes, format buf p = some (bytes, n, .success) ∧ bytes.length = n ∧ parse mem bytes = some p

/-- the values of `active_connid` whose thousandth part is a varint of the same length -/
def SameWidth (v : Nat) : Prop := v ≤ 63 ∨ 16384000 ≤ v ∧ v ≤ 1073741823 ∨ 1073741824000 ≤ v

theorem sameWidth_iff {v : Nat} (h : v ≤ varintMax) :
    varintFormatLen (v / 1000) = varintFormatLen v ↔ SameWidth v := by
  unfold varintMax at h
  unfold varintFormatLen SameWidth
  split_ifs <;> omega

/-- **The round trip.**  It succeeds, in the buffer of exactly the size, if and only if the thousandth
part of `active_connid` is written in as many bytes as `active_connid`. -/
theorem roundTrips_iff {p : TransportParameter} {connid token : List UInt8} {mem : Nat → Bool}
    (h : InRange p connid token) (hmem : ∀ n, 0 < n → mem n = true) :
    RoundTrips mem p ↔ SameWidth p.activeConnid := by
  obtain ⟨n, hn, hcount⟩ := size_encoded h
  have hmono := varintFormatLen_mono (Nat.div_le_self p.activeConnid 1000) h.activeConnid
  rw [← sameWidth_iff h.activeConnid]
  constructor
  · intro hround
    obtain ⟨n', hn', hbuf⟩ := hround
    cases hn.symm.trans hn'
    obtain ⟨bytes, hformat, _⟩ := hbuf (List.replicate n 0) List.length_replicate
    -- the bytes that were not counted have no room
    by_contra hne
    have hfail := format_of_not_room h.connidSet h.tokenSet
      (show (List.replicate n (0 : UInt8)).length < 2 + (p.encoded connid token).length by
        rw [List.length_replicate]; omega) encoded_length_pos hformat
    cases hfail
  · intro heq
    have hsize : n = 2 + (p.encoded connid token).length := by omega
    refine ⟨n, hn, fun buf hlen => ⟨_, ?_, ?_, parse_encoded h hmem⟩⟩
    · rw [format_of_room h.connidSet h.tokenSet (by omega), ← hsize,
        List.drop_eq_nil_of_le (by omega), List.append_nil]
    · rw [List.length_append, length_put16, hsize]

theorem init_inRange : InRange init [] [] := by
  constructor <;> first | rfl | decide

theorem InRange.setActiveConnid {p : TransportParameter} {connid token : List UInt8} {v : Nat}
    (h : InRange p connid token) (hv : v ≤ varintMax) :
    InRange { p with activeConnid := v } connid token := { h with activeConnid := hv }

/-- the defaults, with 20000000 for `active_connid` -/
theorem roundTrips_iff_default :
    RoundTrips (fun _ => true) { init with activeConnid := 20000000 } ↔ SameWidth 20000000 :=
  roundTrips_iff (init_inRange.setActiveConnid (by decide)) fun _ _ => rfl

/-- With 64 for `active_connid` one byte is missing. -/
theorem not_roundTrips : ¬ ∀ (p : TransportParameter) (connid token : List UInt8)
    (mem : Nat → Bool), InRange p connid token → (∀ n, 0 < n → mem n = true) →
    RoundTrips mem p := by
  intro h
  obtain ⟨n, hn, hbuf⟩ := h { init with activeConnid := 64 } [] [] (fun _ => true)
    (init_inRange.setActiveConnid (by decide)) fun _ _ => rfl
  have hsize : ({ init with activeConnid := 64 } : TransportParameter).size = some 60 := by
    decide +kernel
  cases hsize.symm.trans hn
  obtain ⟨bytes, hformat, _⟩ := hbuf (List.replicate 60 0) List.length_replicate
  have hfail : (format (List.replicate 60 0) { init with activeConnid := 64 }).map
      (fun x => x.2.2) = some .internalError := by decide +kernel
  rw [hformat] at hfail
  cases hfail

end TransportParameter

end OpenQuic
