import OpenQuic.Lib.Framing
import OpenQuic.Modules.Replay
import OpenQuic.Sorter.Delivery

/-!
# The TLS messages that come in

The loop of `quic_session_handle_crypto_frame`, on any sorter whose readable bytes are stored.

* `Sorter.Holds s bs`   the readable bytes of `s` are `bs`;
* `IsHandshakeMessage`  a type, a length of three bytes and so many bytes;
* `nextFragment_spec`   what a turn of the loop finds;
* `Tls.logged`          the library, with the messages that it is given;
* `cryptoLoop_passes`   the loop gives it the messages that the readable bytes begin with, and they are
                        what is read.
-/

namespace OpenQuic
open Word Bytes Framing

/-! ## the sorter -/

namespace Sorter

/-- the readable bytes are stored, and are `bs` -/
structure Holds (s : Sorter) (bs : List UInt8) : Prop where
  readed_le : s.readedSize ≤ s.availSize
  avail_lt : s.availSize < 2 ^ 64
  length : bs.length = s.availSize - s.readedSize
  stored : ∀ i < bs.length, byteAt s.clusters (s.readedSize + i) = bs[i]?

section
variable {s : Sorter} {bs : List UInt8} {n : Nat}

theorem Holds.readable (h : Holds s bs) : s.readable = bs.length := by
  rw [Sorter.readable, sub64_of_le h.readed_le h.avail_lt, h.length]

theorem Holds.readCluster (h : Holds s bs) (consume : Bool) (hn : n ≤ bs.length) :
    (readCluster consume n s.clusters s.readedSize n).2 = (bs.take n).map some ∧
      (∀ x, s.readedSize + n ≤ x →
        byteAt (readCluster consume n s.clusters s.readedSize n).1 x = byteAt s.clusters x) ∧
      (consume = false → (readCluster consume n s.clusters s.readedSize n).1 = s.clusters) := by
  have hlen := h.length
  have hlt := h.avail_lt
  have hle := h.readed_le
  obtain ⟨hbytes, hkeep⟩ := readCluster_spec consume (fun x => bs.getD (x - s.readedSize) 0) n
    s.clusters s.readedSize n le_rfl (by omega) (fun x h1 h2 => by
      have hi : x - s.readedSize < bs.length := by omega
      have hx := h.stored (x - s.readedSize) hi
      rw [Nat.add_sub_cancel' h1, List.getElem?_eq_getElem hi] at hx
      rw [hx, List.getD_eq_getElem _ _ hi])
  refine ⟨?_, hkeep⟩
  rw [hbytes]
  refine List.ext_getElem (by simp [hn]) fun i h1 h2 => ?_
  rw [List.length_map, List.length_range] at h1
  rw [List.getElem_map, List.getElem_map, List.getElem_range, List.getElem_take,
    Nat.add_sub_cancel_left, List.getD_eq_getElem _ _ (by omega)]

theorem Holds.peek_eq (h : Holds s bs) (hn : n ≤ bs.length) :
    s.peek n = (s, (bs.take n).map some) := by
  obtain ⟨hbytes, _, hsame⟩ := h.readCluster false hn
  unfold Sorter.peek
  rw [h.readable, Nat.min_eq_left hn]
  dsimp only
  rw [hbytes, hsame rfl]

theorem Holds.read_eq (h : Holds s bs) (hn : n ≤ bs.length) :
    (s.read n).2 = (bs.take n).map some ∧ Holds (s.read n).1 (bs.drop n) ∧
      (s.read n).1.readedSize = s.readedSize + n := by
  obtain ⟨hbytes, hkeep, _⟩ := h.readCluster true hn
  have hlen := h.length
  have hlt := h.avail_lt
  have hle := h.readed_le
  have htake : ((bs.take n).map some).length = n := by
    rw [List.length_map, List.length_take, Nat.min_eq_left hn]
  unfold Sorter.read
  rw [h.readable, Nat.min_eq_left hn]
  dsimp only
  rw [hbytes, htake, add64_of_lt (by omega)]
  refine ⟨rfl, ⟨?_, h.avail_lt, ?_, fun i hi => ?_⟩, rfl⟩
  · show s.readedSize + n ≤ s.availSize
    omega
  · show (bs.drop n).length = s.availSize - (s.readedSize + n)
    rw [List.length_drop]
    omega
  · rw [List.length_drop] at hi
    show byteAt _ (s.readedSize + n + i) = _
    rw [hkeep _ (by omega), Nat.add_assoc, h.stored (n + i) (by omega), List.getElem?_drop]

end

/-- a sorter that has stored `bs` at `off` and has read what is before it -/
def holding (off : Nat) (bs : List UInt8) : Sorter where
  gaps := [⟨off + bs.length, maxSize - (off + bs.length)⟩]
  clusters := (writeCluster .ok bs.length OrdMap.empty off bs.length fun i => bs.getD i 0).1
  availSize := off + bs.length
  readedSize := off

theorem holding_holds {off : Nat} {bs : List UInt8} (h : off + bs.length < 2 ^ 64) :
    Holds (holding off bs) bs := by
  refine ⟨Nat.le_add_right _ _, h, (Nat.add_sub_cancel_left _ _).symm, fun i hi => ?_⟩
  show byteAt (writeCluster .ok bs.length OrdMap.empty off bs.length fun i => bs.getD i 0).1
    (off + i) = bs[i]?
  rw [(writeCluster_spec bs.length OrdMap.empty off bs.length _ le_rfl h).2, if_pos (by omega),
    Nat.add_sub_cancel_left, List.getD_eq_getElem _ _ hi, List.getElem?_eq_getElem hi]

end Sorter

/-! ## the messages -/

/-- a type, a length in network order, and so many bytes -/
def IsHandshakeMessage (m : List UInt8) : Prop :=
  ∃ type l0 l1 l2 body, m = type :: l0 :: l1 :: l2 :: body ∧
    body.length = 65536 * l0.toNat + 256 * l1.toNat + l2.toNat

namespace Session

/-- the four bytes in memory without the first one, swapped, and four more -/
def maskedSize (head : List UInt8) : Nat := (bswap 4 (leNat head &&& 0xFFFFFF00) + 4) % 2 ^ 32

theorem maskedSize_eq (type l0 l1 l2 : UInt8) :
    maskedSize [type, l0, l1, l2] = fragmentSize [type, l0, l1, l2] := by
  have hmask : 256 ^ ([l0, l1, l2].length + 1) - 1 - (0xFF : UInt8).toNat = 0xFFFFFF00 := by
    rw [show [l0, l1, l2].length = 3 from rfl]
    decide
  have hand := leNat_and type 0xFF [l0, l1, l2]
  rw [hmask] at hand
  have hzero : type &&& ~~~0xFF = 0 := UInt8.and_zero
  have hswap : bswap 4 (leNat [0, l0, l1, l2]) = leNat [l2, l1, l0, 0] := bswap_leNat [0, l0, l1, l2]
  have h0 : l0.toNat < 256 := l0.toNat_lt
  have h1 : l1.toNat < 256 := l1.toNat_lt
  have h2 : l2.toNat < 256 := l2.toNat_lt
  have hvalue : leNat [l2, l1, l0, 0] = 65536 * l0.toNat + 256 * l1.toNat + l2.toNat := by
    simp only [leNat, UInt8.toNat_zero]
    omega
  unfold maskedSize
  rw [hand, hzero, hswap, hvalue, Nat.mod_eq_of_lt (by omega)]
  rfl

end Session

open Session

theorem IsHandshakeMessage.size {m : List UInt8} (h : IsHandshakeMessage m) (rest : List UInt8) :
    4 ≤ m.length ∧ fragmentSize ((m ++ rest).take 4) = m.length := by
  obtain ⟨type, l0, l1, l2, body, rfl, hlen⟩ := h
  refine ⟨Nat.le_add_left 4 body.length, ?_⟩
  show 65536 * l0.toNat + 256 * l1.toNat + l2.toNat + 4 = body.length + 4
  rw [hlen]

/-- the size that the code computes from the first four bytes -/
theorem IsHandshakeMessage.maskedSize {m : List UInt8} (h : IsHandshakeMessage m) :
    maskedSize (m.take 4) = m.length := by
  have hsize := (h.size []).2
  rw [List.append_nil] at hsize
  obtain ⟨type, l0, l1, l2, body, rfl, _⟩ := h
  exact (maskedSize_eq type l0 l1 l2).trans hsize

theorem isHandshakeMessage_take {bs : List UInt8} (h4 : 4 ≤ bs.length)
    (h : fragmentSize (bs.take 4) ≤ bs.length) :
    IsHandshakeMessage (bs.take (fragmentSize (bs.take 4))) := by
  match bs, h4 with
  | type :: l0 :: l1 :: l2 :: body, _ =>
    have hsize : fragmentSize ((type :: l0 :: l1 :: l2 :: body).take 4) =
      65536 * l0.toNat + 256 * l1.toNat + l2.toNat + 4 := rfl
    rw [hsize] at h ⊢
    rw [List.length_cons, List.length_cons, List.length_cons, List.length_cons] at h
    refine ⟨type, l0, l1, l2, body.take (65536 * l0.toNat + 256 * l1.toNat + l2.toNat), rfl, ?_⟩
    rw [List.length_take]
    omega

theorem handshakeMessage_prefixFree : PrefixFree IsHandshakeMessage := by
  intro m n s t hm hn heq
  have hlen : m.length = n.length := by
    rw [← (hm.size s).2, heq, (hn.size t).2]
  exact (List.append_inj heq hlen).1

theorem not_isHandshakeMessage_nil : ¬ IsHandshakeMessage [] := fun h => by
  have := (h.size []).1
  exact absurd this (by decide)

/-! ## a turn of the loop -/

theorem mapM_id_map_some {α : Type*} (l : List α) : (l.map some).mapM id = some l := by
  induction l with
  | nil => rfl
  | cons a l ih =>
    rw [List.map_cons, List.mapM_cons, ih]
    rfl

section
variable {s : Sorter} (mem : Bool)

theorem nextFragment_short {bs : List UInt8} (h : s.Holds bs)
    (hno : ∀ m, IsHandshakeMessage m → ¬ m <+: bs) : nextFragment mem s = some .short := by
  unfold nextFragment
  rw [h.readable]
  split
  · rfl
  · rename_i h4
    have h4 : 4 ≤ bs.length := Nat.le_of_not_lt h4
    rw [h.peek_eq h4, mapM_id_map_some]
    show (if bs.length < fragmentSize (bs.take 4) then _ else _) = _
    rw [if_pos]
    by_contra hge
    exact hno _ (isHandshakeMessage_take h4 (Nat.le_of_not_lt hge)) (List.take_prefix _ _)

theorem nextFragment_message {m bs : List UInt8} (h : s.Holds (m ++ bs))
    (hm : IsHandshakeMessage m) : nextFragment mem s =
      some (if mem then .whole m (s.read m.length).1 else .refused) := by
  obtain ⟨h4, hsize⟩ := hm.size bs
  have hlen : m.length ≤ (m ++ bs).length := by
    rw [List.length_append]
    exact Nat.le_add_right _ _
  have hread := (h.read_eq hlen).1
  rw [List.take_left] at hread
  unfold nextFragment
  rw [h.readable, if_neg (by omega), h.peek_eq (h4.trans hlen), mapM_id_map_some]
  show (if (m ++ bs).length < fragmentSize ((m ++ bs).take 4) then _ else _) = _
  rw [hsize, if_neg (Nat.not_lt.mpr hlen)]
  cases mem with
  | false => rfl
  | true =>
    dsimp only
    rw [if_neg (by decide), hread, mapM_id_map_some]
    show (if m.length = m.length then _ else _) = _
    rw [if_pos rfl]
    rfl

end

/-! ## the library -/

/-- the library with the messages that it was given, a record that is not part of the code -/
def Tls.logged {τ : Type} (t : Tls τ) : Tls (τ × List (List UInt8)) where
  provideQuicData data s := (t.provideQuicData data s.1, s.2 ++ [data])
  doHandshake s := ((t.doHandshake s.1).1, (t.doHandshake s.1).2, s.2)
  peerTransportParams s := t.peerTransportParams s.1

def Env.logged {τ ρ : Type} (env : Env τ ρ) : Env (τ × List (List UInt8)) ρ where
  cfg := env.cfg
  cbrt := env.cbrt
  tls := env.tls.logged
  newConnid := env.newConnid
  retireConnid := env.retireConnid
  outcomes := env.outcomes

namespace Session

section
variable {τ ρ : Type} {env : Env τ ρ} {o : Outcomes} {s s' : Session τ ρ}

theorem handshakeProcess_rSorter (env : Env τ ρ) (s : Session τ ρ) :
    (handshakeProcess env s).rSorter = s.rSorter := by
  unfold handshakeProcess
  dsimp only
  split
  · split <;> rfl
  · rfl

theorem issueSrcs_keeps {n i : Nat} (h : issueSrcs env o n i s = some s') :
    s'.rSorter = s.rSorter ∧ s'.tls = s.tls := by
  induction n generalizing i s with
  | zero =>
    cases h
    exact ⟨rfl, rfl⟩
  | succ n ih =>
    obtain ⟨x, _, h⟩ := Option.bind_eq_some_iff.mp h
    have hkeep := ih h
    exact hkeep

theorem processPeer_keeps (h : processPeerTransportParameters env o s = some s') :
    s'.rSorter = s.rSorter ∧ s'.tls = s.tls := by
  unfold processPeerTransportParameters at h
  dsimp only at h
  split at h
  · cases h
    exact ⟨rfl, rfl⟩
  · obtain ⟨p, _, h⟩ := Option.bind_eq_some_iff.mp h
    obtain ⟨s1, hs1, h⟩ := Option.map_eq_some_iff.mp h
    obtain ⟨hsorter, htls⟩ := issueSrcs_keeps hs1
    rw [← h]
    split <;> exact ⟨hsorter, htls⟩

/-- the sorters stay, and the library has done a step of the handshake with the message -/
theorem giveFragment_keeps {data : List UInt8} (h : giveFragment env o data s = some s') :
    s'.rSorter = s.rSorter ∧
      s'.tls = (env.tls.doHandshake (env.tls.provideQuicData data s.tls)).2 := by
  have hsorter := handshakeProcess_rSorter env { s with tls := env.tls.provideQuicData data s.tls }
  have htls := (handshakeProcess_shape env { s with tls := env.tls.provideQuicData data s.tls }).1
  unfold giveFragment at h
  dsimp only at h
  split at h
  · cases h
    exact ⟨hsorter, htls⟩
  · obtain ⟨hsorter', htls'⟩ := processPeer_keeps h
    exact ⟨hsorter'.trans hsorter, htls'.trans htls⟩

end

/-! ## the loop -/

section
variable {τ ρ : Type}

/-- a turn that takes a message from the sorter and gives it to the library -/
def give (env : Env τ ρ) (o : Outcomes) (c : CryptoSorter) (s : Session τ ρ) (m : List UInt8) :
    Option (Session τ ρ) :=
  giveFragment env o m (s.setSorter c ((s.rSorter c).read m.length).1)

/-- the messages in front of the first one that no memory is found for -/
def passed (mem : Nat → Bool) : Nat → List (List UInt8) → List (List UInt8)
  | _, [] => []
  | i, m :: ms => if mem i then m :: passed mem (i + 1) ms else []

theorem passed_eq_self {mem : Nat → Bool} (h : ∀ i, mem i = true) (i : Nat)
    (ms : List (List UInt8)) : passed mem i ms = ms := by
  induction ms generalizing i with
  | nil => rfl
  | cons m ms ih => rw [passed, if_pos (h i), ih]

theorem passed_isPrefix (mem : Nat → Bool) (i : Nat) (ms : List (List UInt8)) :
    passed mem i ms <+: ms := by
  induction ms generalizing i with
  | nil => exact List.prefix_rfl
  | cons m ms ih =>
    rw [passed]
    split
    · exact List.cons_prefix_cons.mpr ⟨rfl, ih (i + 1)⟩
    · exact List.nil_prefix

variable {env : Env τ ρ} {o : Outcomes} {c : CryptoSorter} {s s' : Session τ ρ}

theorem give_holds {m bs : List UInt8} (h : (s.rSorter c).Holds (m ++ bs))
    (hs : give env o c s m = some s') : (s'.rSorter c).Holds bs ∧
      (s'.rSorter c).readedSize = (s.rSorter c).readedSize + m.length ∧
      ∀ c', c' ≠ c → s'.rSorter c' = s.rSorter c' := by
  have hkeep := (giveFragment_keeps hs).1
  have hlen : m.length ≤ (m ++ bs).length := by
    rw [List.length_append]
    exact Nat.le_add_right _ _
  obtain ⟨_, hholds, hreaded⟩ := h.read_eq hlen
  rw [List.drop_left] at hholds
  have hown : s'.rSorter c = ((s.rSorter c).read m.length).1 := by
    rw [hkeep]
    exact Function.update_self _ _ _
  rw [hown]
  refine ⟨hholds, hreaded, fun c' hc => ?_⟩
  rw [hkeep]
  exact Function.update_of_ne hc _ _

/-- **The loop.**  It gives the messages to the library one by one. -/
theorem cryptoLoop_eq {ms : List (List UInt8)} {bs rest : List UInt8} {fuel i : Nat}
    (hs : Splits IsHandshakeMessage bs ms rest) (h : (s.rSorter c).Holds bs)
    (hfuel : ms.length < fuel) : cryptoLoop env o c fuel i s =
      ((passed o.fragment i ms).foldlM (give env o c) s).map fun s' =>
        (s', if passed o.fragment i ms = ms then .success else .internalError) := by
  induction ms generalizing s bs fuel i with
  | nil =>
    obtain ⟨rfl, hno⟩ := splits_nil.mp hs
    cases fuel with
    | zero => exact absurd hfuel (Nat.not_lt_zero _)
    | succ fuel =>
      rw [cryptoLoop, nextFragment_short _ h hno]
      rfl
  | cons m ms ih =>
    obtain ⟨hm, bs', rfl, hs'⟩ := splits_cons.mp hs
    cases fuel with
    | zero => exact absurd hfuel (Nat.not_lt_zero _)
    | succ fuel =>
      rw [cryptoLoop, nextFragment_message _ h hm, Option.bind_some, passed]
      cases hmem : o.fragment i with
      | false =>
        rw [if_neg Bool.false_ne_true, if_neg Bool.false_ne_true, if_neg (List.cons_ne_nil m ms).symm]
        rfl
      | true =>
        rw [if_pos rfl, if_pos rfl, List.foldlM_cons]
        show (give env o c s m).bind _ = ((give env o c s m).bind _).map _
        cases hgive : give env o c s m with
        | none => rfl
        | some s1 =>
          rw [Option.bind_some, Option.bind_some, ih hs' (give_holds h hgive).1
            (Nat.lt_of_succ_lt_succ hfuel)]
          simp only [List.cons.injEq, true_and]

/-- what the loop has done to the session when it has passed on the messages `ps` -/
structure Given (c : CryptoSorter) (ps : List (List UInt8)) (left : List UInt8)
    (s s' : Session (τ × List (List UInt8)) ρ) : Prop where
  given : s'.tls.2 = s.tls.2 ++ ps
  readed : (s'.rSorter c).readedSize = (s.rSorter c).readedSize + ps.flatten.length
  left : (s'.rSorter c).Holds left
  others : ∀ c', c' ≠ c → s'.rSorter c' = s.rSorter c'

theorem foldlM_give {env : Env τ ρ} {s s' : Session (τ × List (List UInt8)) ρ}
    {ps : List (List UInt8)} {left : List UInt8} (h : (s.rSorter c).Holds (ps.flatten ++ left))
    (hs : ps.foldlM (give env.logged o c) s = some s') : Given c ps left s s' := by
  induction ps generalizing s with
  | nil =>
    cases hs
    exact ⟨(List.append_nil _).symm, rfl, h, fun _ _ => rfl⟩
  | cons m ps ih =>
    rw [List.foldlM_cons] at hs
    obtain ⟨s1, hgive, hs⟩ := Option.bind_eq_some_iff.mp hs
    rw [List.flatten_cons, List.append_assoc] at h
    obtain ⟨hholds, hreaded, hothers⟩ := give_holds h hgive
    have htls := (giveFragment_keeps hgive).2
    obtain ⟨hgiven, hreaded', hleft, hothers'⟩ := ih hholds hs
    refine ⟨?_, ?_, hleft, fun c' hc => (hothers' c' hc).trans (hothers c' hc)⟩
    · rw [hgiven, htls]
      exact List.append_assoc _ _ _
    · rw [hreaded', hreaded, List.flatten_cons, List.length_append, Nat.add_assoc]

/-- The loop passes on `ms`, which `rest` is behind, or what is in front of the first message that no
memory is found for. -/
structure Passes (env : Env τ ρ) (o : Outcomes) (c : CryptoSorter) (fuel : Nat)
    (s : Session (τ × List (List UInt8)) ρ) (ms : List (List UInt8)) (rest : List UInt8) : Prop where
  size : ∀ m ∈ ms, maskedSize (m.take 4) = m.length
  all : (∀ i, o.fragment i = true) → passed o.fragment 0 ms = ms
  ends : cryptoLoop env.logged o c fuel 0 s =
    ((passed o.fragment 0 ms).foldlM (give env.logged o c) s).map fun s' =>
      (s', if passed o.fragment 0 ms = ms then .success else .internalError)
  given : ∀ s' e, cryptoLoop env.logged o c fuel 0 s = some (s', e) →
    Given c (passed o.fragment 0 ms)
      ((ms.drop (passed o.fragment 0 ms).length).flatten ++ rest) s s'

/-- **The messages.**  What the readable bytes begin with is given to the library, message by message,
and read; what is left does not begin with a message. -/
theorem cryptoLoop_passes (env : Env τ ρ) (o : Outcomes) {c : CryptoSorter}
    {s : Session (τ × List (List UInt8)) ρ} {bs : List UInt8} (h : (s.rSorter c).Holds bs)
    {fuel : Nat} (hfuel : (s.rSorter c).readable < fuel) :
    ∃ ms rest, Splits IsHandshakeMessage bs ms rest ∧
      (∀ ns, (∀ n ∈ ns, IsHandshakeMessage n) → ns.flatten <+: bs → ns <+: ms) ∧
      Passes env o c fuel s ms rest := by
  obtain ⟨ms, rest, hs⟩ := exists_splits not_isHandshakeMessage_nil bs
  have hlen : ms.length < fuel := by
    rw [h.readable] at hfuel
    exact lt_of_le_of_lt (hs.length_le not_isHandshakeMessage_nil) hfuel
  have hends : cryptoLoop env.logged o c fuel 0 s = _ := cryptoLoop_eq hs h hlen
  refine ⟨ms, rest, hs, fun ns => hs.maximal handshakeMessage_prefixFree,
    fun m hm => (hs.messages m hm).maskedSize, fun hmem => passed_eq_self hmem 0 ms, hends, fun s' e hloop => ?_⟩
  rw [hends] at hloop
  obtain ⟨s1, hfold, hs1⟩ := Option.map_eq_some_iff.mp hloop
  obtain rfl := (Prod.mk.inj hs1).1
  refine foldlM_give ?_ hfold
  have happend := List.prefix_iff_eq_append.mp (passed_isPrefix o.fragment 0 ms)
  rw [← List.append_assoc, ← List.flatten_append, happend, ← hs.stream]
  exact h

end

/-- two messages and the beginning of a third -/
def flightIn : List UInt8 := [1, 0, 0, 2, 7, 8, 20, 0, 0, 0, 2, 0]

/-- a session whose first sorter is `sorter` -/
def reading (sorter : Sorter) : Session (Unit × List (List UInt8)) Unit :=
  (start client.logged 1 ⟨[2]⟩ [1] false ((), []) ()).setSorter .initial sorter

theorem reading_rSorter (sorter : Sorter) : (reading sorter).rSorter .initial = sorter := rfl

/-- the length of the first message is in two clusters -/
theorem cryptoLoop_passes_two :
    ((reading (Sorter.holding 4094 flightIn)).rSorter .initial).Holds flightIn ∧
    ((reading (Sorter.holding 4094 flightIn)).rSorter .initial).readable < 13 ∧
    ∃ ms rest, Splits IsHandshakeMessage flightIn ms rest ∧
      (∀ ns, (∀ n ∈ ns, IsHandshakeMessage n) → ns.flatten <+: flightIn → ns <+: ms) ∧
      Passes client calm .initial 13 (reading (Sorter.holding 4094 flightIn)) ms rest := by
  have hholds : ((reading (Sorter.holding 4094 flightIn)).rSorter .initial).Holds flightIn := by
    rw [reading_rSorter]
    exact Sorter.holding_holds (by decide)
  have hfuel : ((reading (Sorter.holding 4094 flightIn)).rSorter .initial).readable < 13 := by
    rw [hholds.readable]
    decide
  exact ⟨hholds, hfuel, cryptoLoop_passes client calm hholds hfuel⟩

/-- No memory is found for a message, which stays in the sorter; and four readable bytes were never
stored. -/
theorem not_cryptoLoop_passes :
    (¬ ∀ (env : Env Unit Unit) (o : Outcomes) (c : CryptoSorter)
      (s : Session (Unit × List (List UInt8)) Unit) (bs : List UInt8) (ms : List (List UInt8))
      (rest : List UInt8), (s.rSorter c).Holds bs → Splits IsHandshakeMessage bs ms rest →
      ∃ fuel s' e, cryptoLoop env.logged o c fuel 0 s = some (s', e) ∧
        s'.tls.2 = s.tls.2 ++ ms) ∧
    ¬ ∀ (env : Env Unit Unit) (o : Outcomes) (c : CryptoSorter)
      (s : Session (Unit × List (List UInt8)) Unit), (∀ i, o.fragment i = true) →
      (s.rSorter c).readedSize ≤ (s.rSorter c).availSize →
      ∃ fuel, (cryptoLoop env.logged o c fuel 0 s).isSome := by
  have hmessage : IsHandshakeMessage [20, 0, 0, 0] := ⟨20, 0, 0, 0, [], rfl, rfl⟩
  constructor
  · intro h
    have hholds : ((reading (Sorter.holding 0 [20, 0, 0, 0])).rSorter .initial).Holds
        ([20, 0, 0, 0] ++ []) := by
      rw [reading_rSorter]
      exact Sorter.holding_holds (by decide)
    obtain ⟨fuel, s', e, hloop, hgiven⟩ := h client { calm with fragment := fun _ => false } .initial
      (reading (Sorter.holding 0 [20, 0, 0, 0])) _ [[20, 0, 0, 0]] [] hholds
      (splits_cons.mpr ⟨hmessage, [], rfl, splits_nil.mpr ⟨rfl, fun m hm hp =>
        not_isHandshakeMessage_nil (List.prefix_nil.mp hp ▸ hm)⟩⟩)
    cases fuel with
    | zero => cases hloop
    | succ fuel =>
      rw [cryptoLoop, nextFragment_message _ hholds hmessage] at hloop
      cases hloop
      exact absurd hgiven (by decide)
  · intro h
    obtain ⟨fuel, hloop⟩ := h client calm .initial (reading ⟨[], OrdMap.empty, 4, 0⟩) (fun _ => rfl)
      (by rw [reading_rSorter]; decide)
    cases fuel with
    | zero => cases hloop
    | succ fuel =>
      rw [cryptoLoop, reading_rSorter] at hloop
      cases hloop

end Session

end OpenQuic
