import OpenQuic.Format.Parsing

/-!
# Parsers stay in their buffer

Every row of the parser table, on every buffer and however the allocations turn out.

* `Within bs x`      the reader stops with an error, or it leaves an end of `bs`; it does not write
                     outside its memory;
* `RowOverflows`     a complete frame of the rows `0x16`, `0x17`, or of a connection close with a
                     reason, whose struct is allocated;
* `parser_outcome`   **the parser of a row takes its type byte and stays within what follows**,
                     exactly off these frames;
* `frameParse_lt`    a frame that is parsed leaves fewer bytes than there were.
-/

namespace OpenQuic
open Grammar

/-- an error, or an end of the bytes -/
def Within {α : Type} (bs : List UInt8) : Except Stop (α × List UInt8) → Prop
  | .ok x => x.2 <:+ bs
  | .error (.err _) => True
  | .error .fault => False

section
variable {α β : Type} {bs : List UInt8}

theorem Within.bind {x : Except Stop (α × List UInt8)}
    {f : α × List UInt8 → Except Stop (β × List UInt8)} (hx : Within bs x)
    (hf : ∀ a rest, rest <:+ bs → Within bs (f (a, rest))) : Within bs (x >>= f) := by
  cases x with
  | error s =>
    cases s with
    | err e => trivial
    | fault => exact hx
  | ok y => exact hf y.1 y.2 hx

theorem within_alloc (mem : Nat → Bool) (n : Nat) {x : Except Stop (α × List UInt8)}
    (hx : Within bs x) : Within bs (alloc mem n >>= fun _ => x) := by
  unfold alloc
  split
  · exact hx
  · trivial

/-! ## the readers -/

variable {rest : List UInt8} (h : rest <:+ bs)
include h

theorem readVarint_within : Within bs (readVarint rest) := by
  cases rest with
  | nil => trivial
  | cons b rest =>
    rw [readVarint]
    split
    · trivial
    · exact (List.drop_suffix _ _).trans h

theorem readOptional_within (there : Bool) (d : Nat) : Within bs (readOptional there d rest) := by
  unfold readOptional
  split
  · exact readVarint_within h
  · exact h

theorem readByte_within : Within bs (readByte rest) := by
  cases rest with
  | nil => trivial
  | cons b rest => exact (List.suffix_cons b rest).trans h

theorem readBytes_within (n : Nat) : Within bs (readBytes n rest) := by
  unfold readBytes
  split
  · trivial
  · exact (List.drop_suffix _ _).trans h

/-- data is copied into an allocation that has room for it -/
theorem extendData_within {room len : Nat} (hroom : len ≤ room) :
    Within bs (extendData room len rest) := by
  unfold extendData
  split
  · trivial
  · rw [if_neg (not_lt.mpr hroom)]
    exact (List.drop_suffix _ _).trans h

theorem readRanges_within (n : Nat) : Within bs (readRanges n rest) := by
  induction n generalizing rest with
  | zero => exact h
  | succ n ih =>
    refine (readVarint_within h).bind fun gap rest h => ?_
    refine (readVarint_within h).bind fun len rest h => ?_
    exact (ih h).bind fun ranges rest h => h

end

/-! ## the parsers -/

section
variable (mem : Nat → Bool) (b : UInt8) (bs : List UInt8)

theorem parse1_within (mk : Nat → Body) : Within bs (parse1 mem (b :: bs) mk) := by
  refine (readVarint_within (List.suffix_refl bs)).bind fun a rest h => ?_
  exact within_alloc mem 0 h

theorem parse2_within (mk : Nat → Nat → Body) : Within bs (parse2 mem (b :: bs) 2 mk) := by
  refine (readVarint_within (List.suffix_refl bs)).bind fun x rest h => ?_
  refine (readVarint_within h).bind fun y rest h => ?_
  exact within_alloc mem 0 h

theorem parse8_within (mk : ByteVec 8 → Body) : Within bs (parse8 mk mem (b :: bs)) := by
  refine (readBytes_within (List.suffix_refl bs) 8).bind fun data rest h => ?_
  exact within_alloc mem 0 h

theorem resetStreamParse_within : Within bs (resetStreamParse mem (b :: bs)) := by
  refine (readVarint_within (List.suffix_refl bs)).bind fun sid rest h => ?_
  refine (readVarint_within h).bind fun appErr rest h => ?_
  refine (readVarint_within h).bind fun finalSize rest h => ?_
  exact within_alloc mem 0 h

theorem ackParse_within : Within bs (ackParse mem (b :: bs)) := by
  refine (readVarint_within (List.suffix_refl bs)).bind fun largestAck rest h => ?_
  refine (readVarint_within h).bind fun delay rest h => ?_
  refine (readVarint_within h).bind fun count rest h => ?_
  refine (readVarint_within h).bind fun firstRange rest h => ?_
  refine within_alloc mem _ ?_
  refine (readRanges_within h _).bind fun ranges rest h => ?_
  dsimp only
  by_cases hecn : b = 0x03
  · rw [if_pos hecn]
    refine (readVarint_within h).bind fun ect0 rest h => ?_
    refine (readVarint_within h).bind fun ect1 rest h => ?_
    exact (readVarint_within h).bind fun ectCe rest h => h
  · rw [if_neg hecn]
    exact h

theorem cryptoParse_within : Within bs (cryptoParse mem (b :: bs)) := by
  refine (readVarint_within (List.suffix_refl bs)).bind fun off rest h => ?_
  refine (readVarint_within h).bind fun len rest h => ?_
  refine within_alloc mem len ?_
  exact (extendData_within h (le_refl len)).bind fun data rest h => h

theorem newTokenParse_within : Within bs (newTokenParse mem (b :: bs)) := by
  refine (readVarint_within (List.suffix_refl bs)).bind fun len rest h => ?_
  refine within_alloc mem len ?_
  exact (extendData_within h (le_refl len)).bind fun data rest h => h

theorem streamParse_within : Within bs (streamParse mem (b :: bs)) := by
  refine (readVarint_within (List.suffix_refl bs)).bind fun sid rest h => ?_
  refine (readOptional_within h _ 0).bind fun off rest h => ?_
  refine (readOptional_within h _ rest.length).bind fun len rest h => ?_
  refine within_alloc mem len ?_
  exact (extendData_within h (le_refl len)).bind fun data rest h => h

theorem newConnectionIdParse_within : Within bs (newConnectionIdParse mem (b :: bs)) := by
  refine (readVarint_within (List.suffix_refl bs)).bind fun seq rest h => ?_
  refine (readVarint_within h).bind fun retire rest h => ?_
  refine (readByte_within h).bind fun len rest h => ?_
  dsimp only
  cases hread : readConn len.toNat rest with
  | error s =>
    cases s with
    | err e => trivial
    | fault =>
      unfold readConn at hread
      split at hread
      · split at hread
        · cases hread
        · have htoken := readBytes_within (List.suffix_refl (rest.drop len.toNat)) 16
          cases hbytes : readBytes 16 (rest.drop len.toNat) with
          | ok x =>
            rw [hbytes] at hread
            cases hread
          | error s =>
            rw [hbytes] at hread htoken
            cases hread
            exact htoken
      · cases hread
  | ok x =>
    obtain ⟨conn, token, rest'⟩ := x
    obtain ⟨rfl, _, _⟩ := readConn_iff.mp hread
    refine within_alloc mem 0 (List.IsSuffix.trans ?_ h)
    exact (List.suffix_append _ _).trans (List.suffix_append _ _)

/-! ## the two that overflow -/

/-- what a reader does at `rest`: it writes outside its memory on a word of `F`, and it stays within
`bs` where there is none -/
def StaysOff {α : Type} (bs : List UInt8) (p : Reader UInt8 Stop α) (F : Words UInt8 Unit) : Prop :=
  ∀ rest, rest <:+ bs →
    (∃ e r, rest = e ++ r ∧ F e r ()) ∧ p rest = .error .fault ∨
    (¬ ∃ e r, rest = e ++ r ∧ F e r ()) ∧ Within bs (p rest)

theorem StaysOff.bind {α β : Type} {bs : List UInt8} {p : Reader UInt8 Stop α}
    {f : α × List UInt8 → Except Stop (β × List UInt8)} {G : Words UInt8 α}
    {F : α → Words UInt8 Unit} (hp : Reads p G) (hw : ∀ {rest}, rest <:+ bs → Within bs (p rest))
    (hf : ∀ v, StaysOff bs (fun rest => f (v, rest)) (F v)) :
    StaysOff bs (fun rest => p rest >>= f) (seq G F) := by
  intro rest hrest
  have hwithin := hw hrest
  show _ ∧ (p rest >>= f) = _ ∨ _ ∧ Within bs (p rest >>= f)
  cases hx : p rest with
  | error s =>
    rw [hx] at hwithin
    refine Or.inr ⟨?_, ?_⟩
    · rintro ⟨_, r, rfl, v, e1, e2, rfl, h1, _⟩
      have hok := (hp _ v (e2 ++ r)).mpr ⟨e1, List.append_assoc _ _ _, h1⟩
      cases hx.symm.trans hok
    · cases s with
      | err e => trivial
      | fault => exact hwithin
  | ok x =>
    obtain ⟨v, mid⟩ := x
    rw [hx] at hwithin
    have hwords : (∃ e r, rest = e ++ r ∧ seq G F e r ()) ↔ ∃ e r, mid = e ++ r ∧ F v e r () := by
      constructor
      · rintro ⟨_, r, rfl, v', e1, e2, rfl, h1, h2⟩
        have hok := (hp _ v' (e2 ++ r)).mpr ⟨e1, List.append_assoc _ _ _, h1⟩
        obtain ⟨rfl, rfl⟩ := Prod.mk.inj (Except.ok.inj (hx.symm.trans hok))
        exact ⟨e2, r, rfl, h2⟩
      · rintro ⟨e2, r, rfl, h2⟩
        obtain ⟨e1, rfl, h1⟩ := (hp rest v _).mp hx
        exact ⟨e1 ++ e2, r, (List.append_assoc _ _ _).symm, v, e1, e2, rfl, h1, h2⟩
    rw [hwords]
    exact hf v mid hwithin

theorem StaysOff.congr {α : Type} {bs : List UInt8} {p : Reader UInt8 Stop α}
    {F H : Words UInt8 Unit} (h : StaysOff bs p F) (hF : ∀ e r, F e r () ↔ H e r ()) :
    StaysOff bs p H := by
  intro rest hrest
  have hwords : (∃ e r, rest = e ++ r ∧ H e r ()) ↔ ∃ e r, rest = e ++ r ∧ F e r () := by
    constructor
    · rintro ⟨e, r, he, hh⟩
      exact ⟨e, r, he, (hF e r).mpr hh⟩
    · rintro ⟨e, r, he, hf⟩
      exact ⟨e, r, he, (hF e r).mp hf⟩
  rw [hwords]
  exact h rest hrest

/-- the type byte is there -/
theorem stays_first {bs : List UInt8} {f : UInt8 × List UInt8 → Except Stop (Frame × List UInt8)}
    {F : Words UInt8 Unit} {b : UInt8} (h : StaysOff bs (fun rest => f (b, rest)) F) :
    StaysOff bs (fun rest => readByte (b :: rest) >>= f) F := h

theorem streamDataBlockedParse_staysOff :
    StaysOff bs (fun rest => streamDataBlockedParse mem (b :: rest)) (fun e _ _ =>
      mem 0 = true ∧ ∃ sid maxData, Varints [sid, maxData] e) := by
  have htail : ∀ sid maxData, StaysOff bs (fun rest => alloc mem 0 >>= fun _ =>
      (if 1 < 2 then .error .fault else pure (Frame.init b (.streamDataBlocked sid maxData), rest) :
        Except Stop (Frame × List UInt8))) (fun e _ _ => e = [] ∧ mem 0 = true) := by
    intro sid maxData rest _
    unfold alloc
    cases mem 0 with
    | true => exact Or.inl ⟨⟨[], rest, rfl, rfl, rfl⟩, rfl⟩
    | false => exact Or.inr ⟨fun ⟨_, _, _, _, hno⟩ => Bool.noConfusion hno, trivial⟩
  refine StaysOff.congr (stays_first (StaysOff.bind readVarint_reads readVarint_within fun sid =>
    StaysOff.bind readVarint_reads readVarint_within fun maxData => htail sid maxData))
    fun e r => ⟨?_, ?_⟩
  · rintro ⟨sid, e1, _, rfl, h1, maxData, e2, e3, rfl, h2, h3, hm⟩
    exact ⟨hm, sid, maxData, e1, _, rfl, h1, e2, e3, rfl, h2, h3⟩
  · rintro ⟨hm, sid, maxData, e1, _, rfl, h1, e2, e3, rfl, h2, h3⟩
    exact ⟨sid, e1, _, rfl, h1, maxData, e2, e3, rfl, h2, h3, hm⟩

/-- the reason is copied behind the struct -/
theorem reason_staysOff (f : List UInt8 → Frame) (len : Nat) :
    StaysOff bs (fun rest => alloc mem 0 >>= fun _ => extendData 0 len rest >>= fun x =>
        (pure (f x.1, x.2) : Except Stop (Frame × List UInt8)))
      (fun e _ _ => mem 0 = true ∧ e ≠ [] ∧ e.length = len) := by
  intro rest hrest
  show _ ∧ (alloc mem 0 >>= fun _ => extendData 0 len rest >>= _) = _ ∨
    _ ∧ Within bs (alloc mem 0 >>= fun _ => extendData 0 len rest >>= _)
  unfold alloc
  cases mem 0 with
  | false => exact Or.inr ⟨fun ⟨_, _, _, hno, _⟩ => Bool.noConfusion hno, trivial⟩
  | true =>
    show _ ∧ (extendData 0 len rest >>= _) = _ ∨ _ ∧ Within bs (extendData 0 len rest >>= _)
    unfold extendData
    by_cases hshort : rest.length < len
    · rw [if_pos hshort]
      refine Or.inr ⟨?_, trivial⟩
      rintro ⟨e, r, rfl, _, _, hlen⟩
      rw [List.length_append] at hshort
      omega
    · rw [if_neg hshort]
      by_cases hpos : 0 < len
      · rw [if_pos hpos]
        have hlen : (rest.take len).length = len := by
          rw [List.length_take]
          omega
        refine Or.inl ⟨⟨rest.take len, rest.drop len, (List.take_append_drop _ _).symm, rfl,
          fun hnil => ?_, hlen⟩, rfl⟩
        rw [hnil, List.length_nil] at hlen
        omega
      · rw [if_neg hpos]
        refine Or.inr ⟨?_, (List.drop_suffix _ _).trans hrest⟩
        rintro ⟨e, r, rfl, _, hne, hlen⟩
        exact hne (List.eq_nil_of_length_eq_zero (by omega))

theorem connectionCloseParse_staysOff :
    StaysOff bs (fun rest => connectionCloseParse mem (b :: rest)) (fun e r _ =>
      mem 0 = true ∧ ∃ err type data, Encodes b e r (.connectionClose err type data) ∧
        data ≠ []) := by
  refine StaysOff.congr (stays_first (StaysOff.bind readVarint_reads readVarint_within fun err =>
    StaysOff.bind (readOptional_reads (b == 0x1c) fun _ => 0) (fun h => readOptional_within h _ 0)
      fun type => StaysOff.bind readVarint_reads readVarint_within fun len =>
        reason_staysOff mem bs (fun data => Frame.init b (.connectionClose err type data)) len))
    fun e r => ?_
  simp only [beq_iff_eq, beq_eq_false_iff_ne]
  constructor
  · rintro ⟨err, e1, _, rfl, h1, type, e2, _, rfl, ⟨h2, htype⟩, len, e3, data, rfl, h3, hm, hne,
      rfl⟩
    refine ⟨hm, err, type, data, ⟨⟨e1 ++ (e2 ++ e3), ?_, e1, e2 ++ e3, rfl, h1,
      varints_append.mpr ⟨e2, e3, rfl, h2, varints_one.mpr h3⟩⟩, htype⟩, hne⟩
    simp only [List.append_assoc]
  · rintro ⟨hm, err, type, data, ⟨⟨_, rfl, e1, _, rfl, h1, h23⟩, htype⟩, hne⟩
    obtain ⟨e2, e3, rfl, h2, h3⟩ := varints_append.mp h23
    refine ⟨err, e1, e2 ++ (e3 ++ data), ?_, h1, type, e2, e3 ++ data, rfl, ⟨h2, htype⟩,
      data.length, e3, data, rfl, varints_one.mp h3, hm, hne, rfl⟩
    simp only [List.append_assoc]

end

/-! ## the rows -/

/-- a frame that the row `t` reads into less memory than it takes: two integers for the rows `0x16`
and `0x17`, a reason for a connection close -/
def RowOverflows (mem : Nat → Bool) (t : Nat) (b : UInt8) (bs : List UInt8) : Prop :=
  ∃ e rest, bs = e ++ rest ∧ mem 0 = true ∧
    ((t = 0x16 ∨ t = 0x17) ∧ (∃ v w, Varints [v, w] e) ∨
      (t = 0x1c ∨ t = 0x1d) ∧ ∃ err type data,
        Encodes b e rest (.connectionClose err type data) ∧ data ≠ [])

/-- **The parser of a row takes its type byte and stays within what follows**, exactly off the frames
that it has too little memory for. -/
theorem parser_outcome {t : Nat} {parse : Parser} (h : parser t = some parse) (mem : Nat → Bool)
    (b : UInt8) (bs : List UInt8) :
    RowOverflows mem t b bs ∧ parse mem (b :: bs) = .error .fault ∨
      ¬ RowOverflows mem t b bs ∧ Within bs (parse mem (b :: bs)) := by
  by_cases h1 : t = 0x16 ∨ t = 0x17
  · have hp : parser t = some streamDataBlockedParse := by
      rcases h1 with rfl | rfl <;> rfl
    obtain rfl := Option.some.inj (hp.symm.trans h)
    have h2 : ¬ (t = 0x1c ∨ t = 0x1d) := by omega
    simp only [RowOverflows, h1, h2, true_and, false_and, or_false]
    exact streamDataBlockedParse_staysOff mem b bs bs (List.suffix_refl bs)
  · by_cases h2 : t = 0x1c ∨ t = 0x1d
    · have hp : parser t = some connectionCloseParse := by
        rcases h2 with rfl | rfl <;> rfl
      obtain rfl := Option.some.inj (hp.symm.trans h)
      simp only [RowOverflows, h1, h2, true_and, false_and, false_or]
      exact connectionCloseParse_staysOff mem b bs bs (List.suffix_refl bs)
    · refine Or.inr ⟨?_, ?_⟩
      · rintro ⟨e, rest, _, _, ⟨hno, _⟩ | ⟨hno, _⟩⟩
        · exact h1 hno
        · exact h2 hno
      · unfold parser at h
        -- one goal for each row
        split at h <;> cases h
        all_goals first
          | exact within_alloc mem 0 (List.suffix_refl bs)
          | exact parse1_within mem b bs _
          | exact parse2_within mem b bs _
          | exact parse8_within mem b bs _
          | exact resetStreamParse_within mem b bs
          | exact ackParse_within mem b bs
          | exact cryptoParse_within mem b bs
          | exact newTokenParse_within mem b bs
          | exact streamParse_within mem b bs
          | exact newConnectionIdParse_within mem b bs
          | omega

theorem parser_within {t : Nat} {parse : Parser} (h : parser t = some parse) (mem : Nat → Bool)
    (b : UInt8) (bs : List UInt8) :
    Within bs (parse mem (b :: bs)) ↔ ¬ RowOverflows mem t b bs := by
  rcases parser_outcome h mem b bs with ⟨hover, hfault⟩ | ⟨hover, hwithin⟩
  · rw [hfault]
    exact iff_of_false id (not_not_intro hover)
  · exact iff_of_true hwithin hover

/-! ## progress -/

/-- a result leaves at most `k` bytes -/
def Leaves {α : Type} (k : Nat) (x : Except Stop (α × List UInt8)) : Prop :=
  ∀ a rest, x = .ok (a, rest) → rest.length ≤ k

/-- A parser leaves less than it is given, whether or not it has the memory for its frame. -/
theorem parser_leaves {t : Nat} {parse : Parser} (h : parser t = some parse) (mem : Nat → Bool)
    (b : UInt8) (bs : List UInt8) : Leaves bs.length (parse mem (b :: bs)) := by
  intro f rest hok
  rcases parser_outcome h mem b bs with ⟨_, hfault⟩ | ⟨_, hwithin⟩
  · cases hok.symm.trans hfault
  · rw [hok] at hwithin
    exact List.IsSuffix.length_le hwithin

theorem frameParse_lt {mem : Nat → Bool} {bs rest : List UInt8} {f : Frame}
    (h : frameParse mem bs = .ok (f, rest)) : rest.length < bs.length := by
  cases bs with
  | nil => cases h
  | cons b bs =>
    unfold frameParse at h
    cases hp : parser b.toNat with
    | none =>
      simp only [hp] at h
      cases h
    | some parse =>
      simp only [hp] at h
      exact Nat.lt_succ_of_le (parser_leaves hp mem b bs f rest h)

end OpenQuic
