import OpenQuic.Modules.StreamLife

/-!
# The identifiers of the streams that one opens

The runs of `quic_stream_open`, and the functions that find the set of a stream from its identifier.

* `openAll`           the state after some opens, with what each of them was asked and gave;
* `IdsOk`             every identifier is of its own, says what was asked, and leads to its stream;
* `transfer_isBidi`   every identifier that is made up is one of a bidirectional stream;
* `Numbered`          what a run of bidirectional opens leaves;
* `ids_iff`           the identifiers are right exactly in the runs of at most `2 ^ 62` such opens.
-/

namespace OpenQuic
open Word Streams StreamLife

namespace StreamIds

/-- the set in which a stream is that one opens -/
def outSet (bidi : Bool) : SetName := if bidi then .outbidi else .outuni

/-- the identifier of the next stream -/
def nextId (cfg : Config) (st : Streams) (bidi : Bool) : Nat :=
  streamIdTransfer true cfg.isCli (st.sets (outSet bidi)).nextSid

structure State where
  st : Streams
  /-- what was asked for, and the identifier -/
  opened : List (Bool × Nat)

def step (cfg : Config) (s : State) (bidi : Bool) : State :=
  ⟨s.st.open cfg bidi, s.opened ++ [(bidi, nextId cfg s.st bidi)]⟩

def openAll (cfg : Config) (es : List Bool) : State := es.foldl (step cfg) ⟨.init cfg, []⟩

/-- the stream of an identifier is the one in the set it was opened in, for the sender and for the
destruction -/
structure Reaches (cfg : Config) (st : Streams) (p : Bool × Nat) : Prop where
  present : ((st.streams (outSet p.1)).find p.2).isSome = true
  send : sendRelationStream cfg st p.2 = (some (outSet p.1), st)
  destory : ∀ name sid, ((st.setDelete (homeSet cfg p.2) p.2).streams name).find sid =
    if name = outSet p.1 ∧ sid = p.2 then none else (st.streams name).find sid

structure IdsOk (cfg : Config) (s : State) : Prop where
  distinct : (s.opened.map Prod.snd).Nodup
  direction : ∀ p ∈ s.opened, streamIdIsBidi p.2 = p.1
  initiator : ∀ p ∈ s.opened, streamIdIsCli p.2 = cfg.isCli
  reaches : ∀ p ∈ s.opened, Reaches cfg s.st p

/-! ## the identifiers -/

/-- the bit of the initiator -/
def low (cfg : Config) : Nat := if cfg.isCli then 0 else 1

theorem low_le (cfg : Config) : low cfg ≤ 1 := by
  unfold low
  split <;> decide

/-- the identifiers go up in steps of four, and come round -/
theorem transfer_eq (cfg : Config) {key : Nat} (h0 : 0 < key) (hkey : key < 2 ^ 64) :
    streamIdTransfer true cfg.isCli key = 4 * (key - 1) % 2 ^ 64 + low cfg := by
  have hlow := low_le cfg
  have hshl : shl64 (sub64 key 1) 2 = 4 * (key - 1) % 2 ^ 64 := by
    rw [sub64_of_le h0 hkey]
    show ((key - 1) <<< 2) % 2 ^ 64 = _
    rw [Nat.shiftLeft_eq]
    omega
  show ((0 + low cfg) + shl64 (sub64 key 1) 2) % 2 ^ 64 = _
  rw [hshl]
  omega

/-- `quic_stream_open` passes `true` for every stream. -/
theorem transfer_isBidi (cfg : Config) (key : Nat) :
    streamIdIsBidi (streamIdTransfer true cfg.isCli key) = true := by
  have hlow := low_le cfg
  have hshl : shl64 (sub64 key 1) 2 % 4 = 0 := by
    show ((sub64 key 1) <<< 2) % 2 ^ 64 % 4 = 0
    rw [Nat.shiftLeft_eq]
    omega
  have hmod : streamIdTransfer true cfg.isCli key % 4 = low cfg := by
    show ((0 + low cfg) + shl64 (sub64 key 1) 2) % 2 ^ 64 % 4 = _
    omega
  unfold streamIdIsBidi
  rw [hmod]
  exact decide_eq_true (by omega)

theorem openAll_concat (cfg : Config) (es : List Bool) (b : Bool) :
    openAll cfg (es ++ [b]) = step cfg (openAll cfg es) b := by
  unfold openAll
  rw [List.foldl_append]
  rfl

/-- what the opens were asked for, and that their identifiers are made up from a counter -/
theorem opened_spec (cfg : Config) (es : List Bool) :
    (openAll cfg es).opened.map Prod.fst = es ∧
      ∀ p ∈ (openAll cfg es).opened, ∃ key, p.2 = streamIdTransfer true cfg.isCli key := by
  induction es using List.reverseRecOn with
  | nil => exact ⟨rfl, fun p hp => absurd hp List.not_mem_nil⟩
  | append_singleton es b ih =>
    obtain ⟨h1, h2⟩ := ih
    rw [openAll_concat]
    refine ⟨?_, fun p hp => ?_⟩
    · show ((openAll cfg es).opened ++ [(b, _)]).map Prod.fst = _
      rw [List.map_append, h1]
      rfl
    · rcases List.mem_append.mp hp with hp | hp
      · exact h2 p hp
      · rw [List.mem_singleton.mp hp]
        exact ⟨_, rfl⟩

theorem find_open (cfg : Config) (st : Streams) (bidi : Bool) (name : SetName) (sid : Nat) :
    ((st.open cfg bidi).streams name).find sid =
      if name = outSet bidi ∧ sid = nextId cfg st bidi then some (Stream.create cfg)
      else (st.streams name).find sid := by
  rw [← find_putStream]
  show OrdMap.find (StreamSet.streams (if name = outSet bidi then _ else _)) sid = _
  split <;> rfl

theorem nextSid_open (cfg : Config) (st : Streams) (bidi : Bool) :
    ((st.open cfg bidi).sets (outSet bidi)).nextSid = add64 (st.sets (outSet bidi)).nextSid 1 := by
  show StreamSet.nextSid (if outSet bidi = outSet bidi then _ else _) = _
  rw [if_pos rfl]
  show add64 ((st.putStream _ _ _).sets (outSet bidi)).nextSid 1 = _
  refine congrArg (fun n => add64 n 1) ?_
  cases bidi <;> rfl

/-! ## runs of bidirectional opens -/

/-- the state after `n` bidirectional opens -/
structure Numbered (cfg : Config) (n : Nat) (s : State) : Prop where
  nextSid : (s.st.sets .outbidi).nextSid = n + 1
  opened : s.opened = (List.range n).map fun i => (true, 4 * i + low cfg)
  present : ∀ i < n, ((s.st.streams .outbidi).find (4 * i + low cfg)).isSome = true

theorem numbered_nextId {cfg : Config} {n : Nat} {s : State} (hn : n ≤ 2 ^ 62)
    (h : Numbered cfg n s) : nextId cfg s.st true = 4 * n % 2 ^ 64 + low cfg := by
  unfold nextId
  show streamIdTransfer true cfg.isCli (s.st.sets .outbidi).nextSid = _
  rw [h.nextSid, transfer_eq cfg (by omega) (by omega), Nat.add_sub_cancel]

theorem numbered_step {cfg : Config} {n : Nat} {s : State} (hn : n < 2 ^ 62)
    (h : Numbered cfg n s) : Numbered cfg (n + 1) (step cfg s true) := by
  have hid : nextId cfg s.st true = 4 * n + low cfg := by
    rw [numbered_nextId hn.le h, Nat.mod_eq_of_lt (by omega)]
  refine ⟨?_, ?_, fun i hi => ?_⟩
  · show ((s.st.open cfg true).sets (outSet true)).nextSid = _
    rw [nextSid_open]
    show add64 (s.st.sets .outbidi).nextSid 1 = _
    rw [h.nextSid, add64_of_lt (by omega)]
  · show s.opened ++ [(true, nextId cfg s.st true)] = _
    rw [hid, h.opened, List.range_succ, List.map_append]
    rfl
  · show (((s.st.open cfg true).streams .outbidi).find (4 * i + low cfg)).isSome = true
    rw [find_open]
    split
    · rfl
    · rename_i hne
      refine h.present i ?_
      have hin : i ≠ n := fun he => hne ⟨rfl, by rw [hid, he]⟩
      omega

theorem openAll_numbered (cfg : Config) {es : List Bool} (hb : ∀ b ∈ es, b = true)
    (hlen : es.length ≤ 2 ^ 62) : Numbered cfg es.length (openAll cfg es) := by
  induction es using List.reverseRecOn with
  | nil => exact ⟨rfl, rfl, fun i hi => absurd hi (Nat.not_lt_zero i)⟩
  | append_singleton es b ih =>
    rw [List.length_append, List.length_singleton] at hlen ⊢
    obtain rfl : b = true := hb b (by simp)
    rw [openAll_concat]
    exact numbered_step (by omega) (ih (fun c hc => hb c (by simp [hc])) (by omega))

/-- an identifier of one's own leads to the set of its direction -/
theorem reaches_of {cfg : Config} {st : Streams} {p : Bool × Nat}
    (hpresent : ((st.streams (outSet p.1)).find p.2).isSome = true)
    (hbidi : streamIdIsBidi p.2 = p.1) (hcli : streamIdIsCli p.2 = cfg.isCli) :
    Reaches cfg st p := by
  have hown : streamIdSamePrincipal p.2 cfg = true := by
    unfold streamIdSamePrincipal
    rw [hcli]
    exact beq_self_eq_true _
  have hset : sendSet p.2 = outSet p.1 := by
    unfold sendSet outSet
    rw [hbidi]
  refine ⟨hpresent, ?_, fun name sid => ?_⟩
  · unfold sendRelationStream
    rw [if_pos hown, hset, if_pos hpresent]
  · have hhome : homeSet cfg p.2 = outSet p.1 := by
      unfold homeSet
      rw [if_pos hown, hset]
    obtain ⟨str, hf⟩ := Option.isSome_iff_exists.mp hpresent
    rw [hhome]
    unfold setDelete
    rw [hf]
    exact find_eraseStream st (outSet p.1) name p.2 sid

theorem numbered_ok {cfg : Config} {n : Nat} {s : State} (h : Numbered cfg n s) : IdsOk cfg s := by
  have hlow := low_le cfg
  have hmem : ∀ p ∈ s.opened, ∃ i < n, p = (true, 4 * i + low cfg) := by
    intro p hp
    rw [h.opened] at hp
    obtain ⟨i, hi, hpi⟩ := List.mem_map.mp hp
    exact ⟨i, List.mem_range.mp hi, hpi.symm⟩
  have hdir : ∀ p ∈ s.opened, streamIdIsBidi p.2 = p.1 := by
    intro p hp
    obtain ⟨i, _, rfl⟩ := hmem p hp
    exact decide_eq_true (by show (4 * i + low cfg) % 4 < 2; omega)
  have hini : ∀ p ∈ s.opened, streamIdIsCli p.2 = cfg.isCli := by
    intro p hp
    obtain ⟨i, _, rfl⟩ := hmem p hp
    show decide ((4 * i + low cfg) % 2 = 0) = cfg.isCli
    unfold low
    cases cfg.isCli with
    | true => exact decide_eq_true (by rw [if_pos rfl]; omega)
    | false => exact decide_eq_false (by rw [if_neg Bool.false_ne_true]; omega)
  refine ⟨?_, hdir, hini, fun p hp => reaches_of ?_ (hdir p hp) (hini p hp)⟩
  · rw [h.opened, List.map_map]
    refine List.Nodup.map (fun i j hij => ?_) List.nodup_range
    have hij : 4 * i + low cfg = 4 * j + low cfg := hij
    omega
  · obtain ⟨i, hi, rfl⟩ := hmem p hp
    exact h.present i hi

/-- **The identifiers of the streams that one opens.**  They are right after every open exactly when
all of them are bidirectional, and not more than there are identifiers. -/
theorem ids_iff (cfg : Config) (es : List Bool) :
    (∀ past, past <+: es → IdsOk cfg (openAll cfg past)) ↔
      (∀ b ∈ es, b = true) ∧ es.length ≤ 2 ^ 62 := by
  constructor
  · intro h
    have hbidi : ∀ b ∈ es, b = true := by
      intro b hb
      obtain ⟨hfst, hkey⟩ := opened_spec cfg es
      rw [← hfst] at hb
      obtain ⟨p, hp, hpb⟩ := List.mem_map.mp hb
      obtain ⟨key, hk⟩ := hkey p hp
      have hdir := (h es List.prefix_rfl).direction p hp
      rw [hk, transfer_isBidi] at hdir
      exact hpb.symm.trans hdir.symm
    refine ⟨hbidi, ?_⟩
    by_contra hlong
    -- the identifier after the last one is the first one again
    have hall : ∀ b ∈ es.take (2 ^ 62), b = true := fun b hb => hbidi b (List.mem_of_mem_take hb)
    have hlen : (es.take (2 ^ 62)).length = 2 ^ 62 := by
      rw [List.length_take]
      omega
    have hnum := openAll_numbered cfg hall hlen.le
    rw [hlen] at hnum
    have hlt : 2 ^ 62 < es.length := Nat.not_le.mp hlong
    have hpre : es.take (2 ^ 62) ++ [true] <+: es := by
      rw [← hbidi _ (List.getElem_mem hlt), ← List.take_succ_eq_append_getElem hlt]
      exact List.take_prefix _ _
    have hnd := (h _ hpre).distinct
    rw [openAll_concat] at hnd
    have hnd : (((openAll cfg (es.take (2 ^ 62))).opened ++
        [(true, nextId cfg (openAll cfg (es.take (2 ^ 62))).st true)]).map Prod.snd).Nodup := hnd
    rw [List.map_append, List.nodup_append, numbered_nextId (Nat.le_refl _) hnum] at hnd
    refine hnd.2.2 (low cfg) ?_ _ (List.mem_singleton.mpr rfl) ?_
    · rw [hnum.opened]
      refine List.mem_map.mpr ⟨(true, 4 * 0 + low cfg), List.mem_map.mpr ⟨0, ?_, rfl⟩, ?_⟩
      · exact List.mem_range.mpr (Nat.two_pow_pos 62)
      · show 4 * 0 + low cfg = low cfg
        omega
    · show low cfg = 4 * 2 ^ 62 % 2 ^ 64 + low cfg
      omega
  · rintro ⟨hbidi, hlen⟩ past hpast
    have hb : ∀ b ∈ past, b = true := fun b hb => hbidi b (hpast.subset hb)
    exact numbered_ok (openAll_numbered cfg hb (hpast.length_le.trans hlen))

/-- A unidirectional stream has the identifier of a bidirectional one. -/
theorem not_ids : ¬ ∀ (cfg : Config) (es : List Bool), ∀ past, past <+: es →
    IdsOk cfg (openAll cfg past) := by
  intro h
  have hdir := (h serverCfg [false] _ List.prefix_rfl).direction (false, 1) (by decide)
  exact absurd hdir (by decide)

end StreamIds
end OpenQuic
