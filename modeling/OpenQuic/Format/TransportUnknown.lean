import OpenQuic.Format.TransportRoundTrip
import OpenQuic.Format.Words

/-!
# Unknown transport parameters

What `quic_transport_parameter_parse` makes of entries whose identifier it does not know.  It passes
over the identifier, and takes the length and the value for identifiers, two bytes at a time.

* `Entry`, `block`    an entry, and the block of a list of entries;
* `Transparent`       the length of the entry and each two bytes of its value are no identifier that
                      is known, and the length is even;
* `Aligned`           an entry that the parser leaves where it ends;
* `Inserted`          a block and the same with entries of a set put in, behind aligned ones;
* `parseLoop_inserted`   transparent entries make no difference;
* `turn_absorbs`      a known identifier makes the value that its field had forgotten;
* `tolerates_transparent`   the parser tolerates the entries of a set if they are transparent, and
                      only then.
-/

namespace OpenQuic
open Bytes Word Grammar

structure Entry where
  id : UInt16
  value : List UInt8
  short : value.length < 2 ^ 16

namespace Entry

def bytes (e : Entry) : List UInt8 := entryBytes e.id.toNat e.value

def Unknown (e : Entry) : Prop := TransParam.ofId e.id.toNat = none

theorem length_bytes (e : Entry) : e.bytes.length = 4 + e.value.length := length_entryBytes _ _

theorem bytes_eq (e : Entry) : e.bytes = put16 e.id.toNat ++ (put16 e.value.length ++ e.value) :=
  List.append_assoc _ _ _

end Entry

/-- the bytes of entries, one behind the other -/
def blockBytes (es : List Entry) : List UInt8 := (es.map Entry.bytes).flatten

/-- the block, with its length in front -/
def block (es : List Entry) : List UInt8 := put16 (2 + (blockBytes es).length) ++ blockBytes es

/-- the length of the block is a number of two bytes -/
def Fits (es : List Entry) : Prop := 2 + (blockBytes es).length < 2 ^ 16

theorem blockBytes_cons (e : Entry) (es : List Entry) :
    blockBytes (e :: es) = e.bytes ++ blockBytes es := rfl

/-- no two bytes are an identifier that is known, and no byte is left over -/
def skipped : List UInt8 → Bool
  | [] => true
  | [_] => false
  | a :: b :: bs => (TransParam.ofId (get16 [a, b])).isNone && skipped bs

def Entry.Transparent (e : Entry) : Prop := skipped (put16 e.value.length ++ e.value) = true

/-- The value of a known identifier is one value of its kind, and an unknown one is transparent. -/
def Entry.Aligned (e : Entry) : Prop :=
  match TransParam.ofId e.id.toNat with
  | none => e.Transparent
  | some t =>
    match t.slot with
    | .string _ => True
    | .varint _ => ∃ v, IsVarint e.value v
    | .bool _ => e.value = []

/-- Entries of `U` are put into a block, at its start or behind an entry that is aligned. -/
inductive Inserted (U : Entry → Prop) : List Entry → List Entry → Prop
  | done (es : List Entry) : Inserted U es es
  | keep {a : Entry} {as bs : List Entry} : a.Aligned → Inserted U as bs →
      Inserted U (a :: as) (a :: bs)
  | put {e : Entry} {as bs : List Entry} : U e → Inserted U as bs → Inserted U as (e :: bs)

namespace TransportParameter

/-! ## what is passed over -/

section
variable {mem : Nat → Bool} {ret : TransportParameter}

theorem turn_unknown {a b : UInt8} (h : TransParam.ofId (get16 [a, b]) = none) (bs : List UInt8) :
    turn mem ret (a :: b :: bs) = some (ret, bs) := by
  have hget : get16 (a :: b :: bs) = get16 [a, b] := by rw [get16_cons, get16_cons]
  unfold turn
  rw [hget, h]
  rfl

theorem takes_skipped {w : List UInt8} (h : skipped w = true) : Takes mem w fun ret => ret := by
  intro ret rest
  induction w using skipped.induct with
  | case1 => rfl
  | case2 => cases h
  | case3 a b w ih =>
    unfold skipped at h
    rw [Bool.and_eq_true, Option.isNone_iff_eq_none] at h
    have hlen : (a :: b :: w ++ rest).length = 2 + (w.length + rest.length) := by
      simp only [List.cons_append, List.length_cons, List.length_append]
      omega
    by_cases hle : 4 ≤ (a :: b :: w ++ rest).length
    · rw [parseLoop_turn hle]
      show (turn mem ret (a :: b :: (w ++ rest))).bind _ = _
      rw [turn_unknown h.1, Option.bind_some, ih h.2]
    · -- the loop ends in front of its last bytes
      rw [parseLoop_short (by omega), parseLoop_short (by omega)]

theorem put16_pair {v : Nat} (h : v < 2 ^ 16) : ∃ a b, put16 v = [a, b] ∧ get16 [a, b] = v := by
  refine ⟨UInt8.ofNat (v / 256), UInt8.ofNat v, put16_eq v, ?_⟩
  have hget := get16_put16 h []
  rwa [List.append_nil, put16_eq] at hget

/-- an unknown identifier is passed over with the bytes behind it -/
theorem skipped_id {id : Nat} (hlt : id < 2 ^ 16) (hu : TransParam.ofId id = none) {w : List UInt8}
    (h : skipped w = true) : skipped (put16 id ++ w) = true := by
  obtain ⟨a, b, hput, hget⟩ := put16_pair hlt
  rw [hput]
  show ((TransParam.ofId (get16 [a, b])).isNone && skipped w) = true
  rw [hget, hu, h]
  rfl

theorem takes_transparent {e : Entry} (hu : e.Unknown) (h : e.Transparent) :
    Takes mem e.bytes fun ret => ret := by
  rw [e.bytes_eq]
  exact takes_skipped (skipped_id e.id.toNat_lt hu h)

theorem paramVarintParse_eq (bs : List UInt8) :
    paramVarintParse bs = (readVarint (bs.drop 2)).toOption := by
  unfold paramVarintParse
  cases bs.drop 2 with
  | nil => rfl
  | cons b rest =>
    unfold readVarint
    dsimp only
    split
    · rfl
    · rfl

theorem takes_isVarint {t : TransParam} {set : Nat → TransportParameter → TransportParameter}
    (ht : t.slot = .varint set) {value : List UInt8} {v : Nat} (hv : IsVarint value v) :
    Takes mem (entryBytes t.id value) (set v) := by
  intro ret rest
  rw [parseLoop_turn (length_entry_ge _ _ _), turn_entry, ht]
  show ((paramVarintParse _).map _).bind _ = _
  rw [paramVarintParse_eq, List.append_assoc, List.drop_left' (length_put16 _),
    (readVarint_reads (value ++ rest) v rest).mpr ⟨value, rfl, hv⟩]
  rfl

/-- an empty string whose allocation fails -/
theorem takes_empty {t : TransParam}
    {set : Option (List UInt8) → TransportParameter → TransportParameter} (ht : t.slot = .string set)
    (hmem : mem 0 = false) : Takes mem (entryBytes t.id []) (set none) := by
  intro ret rest
  have hparse : paramStringParse mem (put16 0 ++ [] ++ rest) = (none, rest) := by
    unfold paramStringParse
    rw [List.append_nil, get16_put16 (by decide), List.drop_left' (length_put16 _)]
    dsimp only
    rw [if_neg (Nat.not_lt_zero _), hmem]
    rfl
  rw [parseLoop_turn (length_entry_ge _ _ _), turn_entry, ht]
  show Option.bind (some (set (paramStringParse _ (put16 0 ++ [] ++ rest)).1 ret,
    (paramStringParse _ (put16 0 ++ [] ++ rest)).2)) _ = _
  rw [hparse]
  rfl

/-- **An aligned entry is taken in as a whole.** -/
theorem takes_aligned (hmem : ∀ n, 0 < n → mem n = true) {e : Entry} (h : e.Aligned) :
    ∃ f, Takes mem e.bytes f := by
  unfold Entry.Aligned at h
  cases hid : TransParam.ofId e.id.toNat with
  | none =>
    rw [hid] at h
    exact ⟨_, takes_transparent hid h⟩
  | some t =>
    rw [hid] at h
    unfold Entry.bytes
    rw [TransParam.ofId_eq hid]
    cases hslot : t.slot with
    | string set =>
      by_cases hm : mem e.value.length = true
      · exact ⟨_, takes_string hslot e.short hm⟩
      · have hnil : e.value = [] := by
          refine List.eq_nil_of_length_eq_zero (Nat.eq_zero_of_not_pos fun hpos => ?_)
          exact hm (hmem _ hpos)
        rw [hnil] at hm ⊢
        exact ⟨_, takes_empty hslot (Bool.not_eq_true _ ▸ hm)⟩
    | varint set =>
      replace h : match t.slot with
        | .string _ => True
        | .varint _ => ∃ v, IsVarint e.value v
        | .bool _ => e.value = [] := h
      rw [hslot] at h
      obtain ⟨v, hv⟩ := h
      exact ⟨_, takes_isVarint hslot hv⟩
    | bool set =>
      replace h : match t.slot with
        | .string _ => True
        | .varint _ => ∃ v, IsVarint e.value v
        | .bool _ => e.value = [] := h
      rw [hslot] at h
      rw [show e.value = [] from h]
      exact ⟨_, takes_bool hslot⟩

/-- transparent entries make no difference -/
theorem parseLoop_inserted (hmem : ∀ n, 0 < n → mem n = true) {U : Entry → Prop}
    (hU : ∀ e, U e → e.Unknown ∧ e.Transparent) {as bs : List Entry} (h : Inserted U as bs) :
    parseLoop mem ret (blockBytes bs) = parseLoop mem ret (blockBytes as) := by
  induction h generalizing ret with
  | done => rfl
  | keep ha _ ih =>
    obtain ⟨f, hf⟩ := takes_aligned hmem ha
    rw [blockBytes_cons, blockBytes_cons, hf, hf, ih]
  | put he _ ih =>
    obtain ⟨hu, ht⟩ := hU _ he
    rw [blockBytes_cons, takes_transparent hu ht, ih]

end

theorem parse_block {mem : Nat → Bool} {es : List Entry} (h : Fits es) :
    parse mem (block es) = parseLoop mem init (blockBytes es) := parse_of_length h

/-! ## what is not passed over -/

/-- bytes that are not passed over have a known identifier in them, or their number is odd -/
theorem not_skipped {w : List UInt8} (h : skipped w ≠ true) :
    (∃ u a b v k, w = u ++ a :: b :: v ∧ skipped u = true ∧ TransParam.ofId (get16 [a, b]) = some k) ∨
      ∃ u x, w = u ++ [x] ∧ skipped u = true := by
  induction w using skipped.induct with
  | case1 => exact absurd rfl h
  | case2 x => exact Or.inr ⟨[], x, rfl, rfl⟩
  | case3 a b w ih =>
    cases hk : TransParam.ofId (get16 [a, b]) with
    | some k => exact Or.inl ⟨[], a, b, w, k, rfl, rfl, hk⟩
    | none =>
      have hcons : ∀ u, skipped (a :: b :: u) = skipped u := by
        intro u
        show ((TransParam.ofId (get16 [a, b])).isNone && skipped u) = skipped u
        rw [hk]
        rfl
      rw [hcons] at h
      rcases ih h with ⟨u, c, d, v, k, rfl, hu, hk'⟩ | ⟨u, x, rfl, hu⟩
      · exact Or.inl ⟨a :: b :: u, c, d, v, k, rfl, (hcons u).trans hu, hk'⟩
      · exact Or.inr ⟨a :: b :: u, x, rfl, (hcons u).trans hu⟩

/-- the value of an entry that changes the field from its default -/
def probeValue (k : TransParam) : List UInt8 :=
  match k.slot with
  | .string _ => [1]
  | .varint _ => [1]
  | .bool _ => []

def probe (k : TransParam) : Entry where
  id := UInt16.ofNat k.id
  value := probeValue k
  short := by cases k <;> decide

def assigned (k : TransParam) : TransportParameter → TransportParameter :=
  match k.slot with
  | .string set => set (some [1])
  | .varint set => set 1
  | .bool set => set true

theorem assigned_init_ne (k : TransParam) : assigned k init ≠ init := by cases k <;> decide

theorem isVarint_one : IsVarint [1] 1 := ⟨1, [], rfl, rfl, rfl⟩

theorem probe_aligned (k : TransParam) : (probe k).Aligned := by
  cases k <;> first | trivial | exact ⟨1, isVarint_one⟩

theorem takes_probe {mem : Nat → Bool} (hmem : ∀ n, 0 < n → mem n = true) (k : TransParam) :
    Takes mem (probe k).bytes (assigned k) := by
  have hbytes : (probe k).bytes = entryBytes k.id (probeValue k) := by cases k <;> rfl
  rw [hbytes]
  unfold probeValue assigned
  cases hslot : k.slot with
  | string set =>
    have hone : ([1] : List UInt8).length < 2 ^ 16 := by decide
    exact takes_string hslot hone (hmem 1 Nat.one_pos)
  | varint set => exact takes_isVarint hslot isVarint_one
  | bool set => exact takes_bool hslot

/-- **A known identifier makes its field forget its value.** -/
theorem turn_absorbs {mem : Nat → Bool} {ret : TransportParameter} {bs : List UInt8} {k : TransParam}
    (h : TransParam.ofId (get16 bs) = some k) : turn mem (assigned k ret) bs = turn mem ret bs := by
  unfold turn
  rw [h]
  cases k <;> rfl

/-- an entry that is passed over -/
def pad : Entry := ⟨0xffff, List.replicate 16 0xff, by decide⟩

theorem pad_transparent : pad.Unknown ∧ pad.Transparent := by
  constructor
  · rfl
  · unfold Entry.Transparent
    decide

/-- there is room for two short entries beside the entry -/
def Roomy (e : Entry) : Prop := e.value.length + 31 < 2 ^ 16

/-- Blocks and the same with entries of `U` put in have the same parameters. -/
def Tolerates (mem : Nat → Bool) (U : Entry → Prop) : Prop :=
  ∀ as bs, Inserted U as bs → Fits as → Fits bs → parse mem (block bs) = parse mem (block as)

section
variable {mem : Nat → Bool} {U : Entry → Prop} (hmem : ∀ n, 0 < n → mem n = true)
include hmem

omit hmem in
theorem parseLoop_pad (ret : TransportParameter) :
    parseLoop mem ret (blockBytes [pad]) = some ret := by
  rw [blockBytes_cons, takes_transparent pad_transparent.1 pad_transparent.2]
  exact parseLoop_short (by decide)

omit hmem in
/-- Behind an entry with a known identifier in it, what was assigned to the field is forgotten. -/
theorem parseLoop_forgets {e : Entry} (hu : e.Unknown) {u v : List UInt8} {a b : UInt8}
    {k : TransParam} (hw : put16 e.value.length ++ e.value = u ++ a :: b :: v)
    (hskip : skipped u = true) (hk : TransParam.ofId (get16 [a, b]) = some k)
    (ret : TransportParameter) : parseLoop mem (assigned k ret) (blockBytes [e, pad]) =
      parseLoop mem ret (blockBytes [e, pad]) := by
  have hentry : blockBytes [e, pad] =
      (put16 e.id.toNat ++ u) ++ (a :: b :: (v ++ blockBytes [pad])) := by
    rw [blockBytes_cons, e.bytes_eq, hw]
    simp only [List.append_assoc, List.cons_append]
  have hget : get16 (a :: b :: (v ++ blockBytes [pad])) = get16 [a, b] := by
    rw [get16_cons, get16_cons]
  have hlen : 4 ≤ (a :: b :: (v ++ blockBytes [pad])).length := by
    have hpad : (blockBytes [pad]).length = 20 := rfl
    rw [List.length_cons, List.length_cons, List.length_append]
    omega
  have hskip' : Takes mem (put16 e.id.toNat ++ u) fun ret => ret :=
    takes_skipped (skipped_id e.id.toNat_lt hu hskip)
  rw [hentry, hskip', hskip', parseLoop_turn hlen, parseLoop_turn hlen,
    turn_absorbs (by rw [hget]; exact hk)]

/-- An entry with a known identifier in it is not tolerated: behind it one cannot tell whether the
field had a value. -/
theorem not_tolerates_known {e : Entry} (he : U e) (hu : e.Unknown) (hroom : Roomy e)
    {u v : List UInt8} {a b : UInt8} {k : TransParam}
    (hw : put16 e.value.length ++ e.value = u ++ a :: b :: v) (hskip : skipped u = true)
    (hk : TransParam.ofId (get16 [a, b]) = some k) : ¬ Tolerates mem U := by
  intro htol
  unfold Roomy at hroom
  have hlen : (blockBytes [e, pad]).length = 24 + e.value.length := by
    rw [blockBytes_cons, List.length_append, e.length_bytes]
    show 4 + e.value.length + 20 = _
    omega
  have hprobe : (probe k).bytes.length ≤ 5 := by cases k <;> decide
  have hcons : ∀ es, (blockBytes (probe k :: es)).length = (probe k).bytes.length +
      (blockBytes es).length := by
    intro es
    rw [blockBytes_cons, List.length_append]
  have hpad : (blockBytes [pad]).length = 20 := rfl
  -- with and without a value of the field in front
  have h1 := htol [pad] [e, pad] (.put he (.done _)) (by unfold Fits; omega) (by unfold Fits; omega)
  have h2 := htol [probe k, pad] [probe k, e, pad] (.keep (probe_aligned k) (.put he (.done _)))
    (by unfold Fits; rw [hcons]; omega) (by unfold Fits; rw [hcons]; omega)
  rw [parse_block (by unfold Fits; omega), parse_block (by unfold Fits; omega), parseLoop_pad] at h1
  rw [parse_block (by unfold Fits; rw [hcons]; omega),
    parse_block (by unfold Fits; rw [hcons]; omega), blockBytes_cons (probe k),
    blockBytes_cons (probe k), takes_probe hmem, takes_probe hmem, parseLoop_pad,
    parseLoop_forgets hu hw hskip hk, h1] at h2
  exact assigned_init_ne k (Option.some.inj h2).symm

omit hmem in
/-- an idle timeout of 1 that is read one byte too early -/
theorem parseLoop_shifted (x : UInt8) : parseLoop mem init (x :: blockBytes [probe .idleTimeout]) ≠
    some (assigned .idleTimeout init) := by
  have hbytes : blockBytes [probe .idleTimeout] = [0, 1, 0, 1, 1] := by decide
  rw [hbytes, parseLoop_turn (by simp)]
  cases hx : TransParam.ofId (get16 [x, 0]) with
  | none =>
    -- the two bytes are passed over, and so are the next two
    rw [turn_unknown hx, Option.bind_some, parseLoop_turn (by simp), turn_unknown (by decide),
      Option.bind_some, parseLoop_short (by simp)]
    decide
  | some k =>
    -- the byte is 0, and an original connection ID of 256 bytes is read
    have hzero : x = 0 := by
      have hid := TransParam.ofId_eq hx
      have hlt := k.id_lt
      rw [get16_cons] at hid
      apply UInt8.toNat_inj.mp
      show x.toNat = 0
      omega
    subst hzero
    have hturn : turn mem init [0, 0, 1, 0, 1, 1] =
        some ({ init with originalConnid := none }, [1, 1]) := rfl
    rw [hturn, Option.bind_some, parseLoop_short (by simp)]
    decide

/-- An entry that leaves a byte over is not tolerated: what follows it is read one byte too early. -/
theorem not_tolerates_odd {e : Entry} (he : U e) (hu : e.Unknown) (hroom : Roomy e) {u : List UInt8}
    {x : UInt8} (hw : put16 e.value.length ++ e.value = u ++ [x]) (hskip : skipped u = true) :
    ¬ Tolerates mem U := by
  intro htol
  unfold Roomy at hroom
  have hlen : (blockBytes [e, probe .idleTimeout]).length = 9 + e.value.length := by
    rw [blockBytes_cons, List.length_append, e.length_bytes]
    show 4 + e.value.length + 5 = _
    omega
  have hlen' : (blockBytes [probe .idleTimeout]).length = 5 := rfl
  have hentry : blockBytes [e, probe .idleTimeout] =
      (put16 e.id.toNat ++ u) ++ (x :: blockBytes [probe .idleTimeout]) := by
    rw [blockBytes_cons, e.bytes_eq, hw]
    simp only [List.append_assoc, List.cons_append, List.nil_append]
  have hskip' : Takes mem (put16 e.id.toNat ++ u) fun ret => ret :=
    takes_skipped (skipped_id e.id.toNat_lt hu hskip)
  have hprobe : parseLoop mem init (blockBytes [probe .idleTimeout]) =
      some (assigned .idleTimeout init) := by
    rw [blockBytes_cons, takes_probe hmem]
    exact parseLoop_short (by decide)
  have h := htol [probe .idleTimeout] [e, probe .idleTimeout] (.put he (.done _))
    (by unfold Fits; omega) (by unfold Fits; omega)
  rw [parse_block (by unfold Fits; omega), parse_block (by unfold Fits; omega), hprobe, hentry,
    hskip'] at h
  exact parseLoop_shifted x h

/-- **Unknown parameters.**  The parser tolerates entries with unknown identifiers if all of them are
transparent, and only then: one that is not is not tolerated, unless it leaves no room in a block for
two short entries. -/
theorem tolerates_transparent (hU : ∀ e, U e → e.Unknown) :
    ((∀ e, U e → e.Transparent) → Tolerates mem U) ∧
      (Tolerates mem U → ∀ e, U e → Roomy e → e.Transparent) := by
  constructor
  · intro ht as bs hins has hbs
    rw [parse_block has, parse_block hbs]
    exact parseLoop_inserted hmem (fun e he => ⟨hU e he, ht e he⟩) hins
  · intro htol e he hroom
    by_contra hne
    rcases not_skipped hne with ⟨u, a, b, v, k, hw, hu, hk⟩ | ⟨u, x, hw, hu⟩
    · exact not_tolerates_known hmem he (hU e he) hroom hw hu hk htol
    · exact not_tolerates_odd hmem he (hU e he) hroom hw hu htol

end

/-- entries of 16 bytes that are all ones -/
theorem tolerates_transparent_pad : Tolerates (fun _ => true) fun e => e = pad := by
  refine (tolerates_transparent (fun _ _ => rfl) fun e he => ?_).1 fun e he => ?_
  · rw [he]
    exact pad_transparent.1
  · rw [he]
    exact pad_transparent.2

/-- an initial source connection ID, which the parser does not know -/
def sourceConnid : Entry := ⟨0x0f, [1, 2, 3, 4, 5, 6, 7, 8], by decide⟩

/-- The length 8 of the entry is the identifier of the bidirectional streams. -/
theorem not_tolerated : ¬ ∀ (as bs : List Entry) (e : Entry), e.Unknown → Fits (as ++ bs) →
    Fits (as ++ e :: bs) →
    parse (fun _ => true) (block (as ++ e :: bs)) = parse (fun _ => true) (block (as ++ bs)) := by
  intro h
  have heq := h [probe .idleTimeout] [] sourceConnid rfl (by unfold Fits; decide)
    (by unfold Fits; decide)
  have hwith : parse (fun _ => true) (block [probe .idleTimeout, sourceConnid]) =
      some { init with idleTimeout := 1, maxStreamBidi := 3 } := by decide +kernel
  have hwithout : parse (fun _ => true) (block [probe .idleTimeout]) =
      some { init with idleTimeout := 1 } := by decide +kernel
  rw [show [probe .idleTimeout] ++ sourceConnid :: [] = [probe .idleTimeout, sourceConnid] from rfl,
    hwith, List.append_nil, hwithout] at heq
  exact absurd heq (by decide)

end TransportParameter

end OpenQuic
