import OpenQuic.Format.Within
import OpenQuic.Modules.Recver

/-!
# The receive loop ends

* `Loop`, `turn`      what the loop over the frames of a payload works on, and one turn of it;
* `Turns n l l'`      `n` turns, each at a buffer that is not empty;
* `processPayload_behind`   what is in memory behind the payload does not matter;
* `Ends l r`          after at most as many turns as there are bytes the loop is at the end of the
                      buffer or returns an error, `r` is the result, and it has not left the buffer;
* `payload_ends_iff`  **the loop ends**, exactly if it reaches no frame that its parser has too
                      little memory for.
-/

namespace OpenQuic
namespace Recver

variable {σ : Type}

/-- `should_ack`, the bytes from `pos` to `last`, the session, and the record of calls -/
structure Loop (σ : Type) where
  shouldAck : Bool
  bytes : List UInt8
  st : State σ
  calls : List Call

inductive Turn (σ : Type) where
  | goes (l : Loop σ)
  | returns (st : State σ) (calls : List Call) (e : Err)
  | faults

section
variable (h : Handlers σ) (mem : Nat → Bool) (p : Payload) (ag : Option Space) (recvTime : Time)

/-- the body of the loop -/
def turn (l : Loop σ) : Turn σ :=
  match frameParse mem l.bytes with
  | .error .fault => .faults
  | .error (.err e) => .returns l.st l.calls e
  | .ok (f, rest) =>
    let f := stamp p.type recvTime f
    let shouldAck := l.shouldAck || !isAckType f.firstByte
    if !sessionHandler f.firstByte.toNat then .goes ⟨shouldAck, rest, l.st, l.calls⟩
    else
      let x := h.handle f l.st
      let calls := l.calls ++ [.handed f]
      if x.2 ≠ .success then .returns x.1 calls x.2
      else
        let eliciting := f.firstByte ≠ 0x02 ∧ f.firstByte = 0x03
        .goes ⟨shouldAck, rest, { x.1 with currAckEliciting := x.1.currAckEliciting || eliciting },
          calls⟩

inductive Turns : Nat → Loop σ → Loop σ → Prop
  | zero (l : Loop σ) : Turns 0 l l
  | succ {n : Nat} {l l' l'' : Loop σ} (hl : l.bytes ≠ []) (ht : turn h mem p recvTime l = .goes l')
      (hs : Turns n l' l'') : Turns (n + 1) l l''

/-- the loop of the receiver, for at most `fuel` turns, over a payload that is in memory -/
def Loop.run (fuel : Nat) (l : Loop σ) : Done σ :=
  processPayload h mem p ag recvTime fuel l.shouldAck (.before l.bytes []) l.st l.calls

def Ends (l : Loop σ) (r : Done σ) : Prop :=
  ∃ n l', Turns h mem p recvTime n l l' ∧ n + l'.bytes.length ≤ l.bytes.length ∧
    l'.bytes <:+ l.bytes ∧
    (l'.bytes = [] ∧ r = finishPayload h p ag recvTime l'.shouldAck l'.st l'.calls ∨
      l'.bytes ≠ [] ∧ ∃ st calls e, turn h mem p recvTime l' = .returns st calls e ∧
        r = ⟨st, calls, some e⟩)

/-- the buffer starts with a frame that the parser of its type has too little memory for -/
def FrameOverflows : List UInt8 → Prop
  | [] => False
  | b :: bs => RowOverflows mem b.toNat b bs

/-! ## one turn -/

/-- the end of the payload, whatever is behind it -/
theorem processPayload_end {l : Loop σ} (hl : l.bytes = []) (behind : List UInt8) (fuel : Nat) :
    processPayload h mem p ag recvTime fuel l.shouldAck (.before l.bytes behind) l.st l.calls =
      finishPayload h p ag recvTime l.shouldAck l.st l.calls := by
  rw [hl]
  exact processPayload_nil h mem p ag recvTime fuel l.shouldAck behind l.st l.calls

/-- a turn of the loop, whatever is behind the payload -/
theorem processPayload_turn {l : Loop σ} (hl : l.bytes ≠ []) (behind : List UInt8) (fuel : Nat) :
    processPayload h mem p ag recvTime (fuel + 1) l.shouldAck (.before l.bytes behind) l.st l.calls =
      match turn h mem p recvTime l with
      | .goes l' =>
        processPayload h mem p ag recvTime fuel l'.shouldAck (.before l'.bytes behind) l'.st l'.calls
      | .returns st calls e => ⟨st, calls, some e⟩
      | .faults => ⟨l.st, l.calls, none⟩ := by
  obtain ⟨shouldAck, bytes, st, calls⟩ := l
  cases bytes with
  | nil => exact absurd rfl hl
  | cons b bs =>
    have hleft : (Unread.before (b :: bs) behind).left ≠ 0 := fun hno =>
      hl ((Unread.before_left _ _).mp hno)
    rw [processPayload, turn, if_neg hleft, Unread.parse_before mem hl]
    dsimp only
    cases frameParse mem (b :: bs) with
    | error s => cases s <;> rfl
    | ok x =>
      dsimp only [Except.map]
      by_cases hs : (!sessionHandler (stamp p.type recvTime x.1).firstByte.toNat) = true
      · rw [if_pos hs, if_pos hs]
      · rw [if_neg hs, if_neg hs]
        by_cases he : (h.handle (stamp p.type recvTime x.1) st).2 ≠ .success
        · rw [if_pos he, if_pos he]
        · rw [if_neg he, if_neg he]

theorem run_nil {l : Loop σ} (hl : l.bytes = []) (fuel : Nat) :
    l.run h mem p ag recvTime fuel = finishPayload h p ag recvTime l.shouldAck l.st l.calls :=
  processPayload_end h mem p ag recvTime hl [] fuel

theorem run_turn {l : Loop σ} (hl : l.bytes ≠ []) (fuel : Nat) :
    l.run h mem p ag recvTime (fuel + 1) = match turn h mem p recvTime l with
      | .goes l' => l'.run h mem p ag recvTime fuel
      | .returns st calls e => ⟨st, calls, some e⟩
      | .faults => ⟨l.st, l.calls, none⟩ :=
  processPayload_turn h mem p ag recvTime hl [] fuel

/-- the loop does not see what is in memory behind the payload -/
theorem processPayload_behind (l : Loop σ) (behind : List UInt8) (fuel : Nat) :
    processPayload h mem p ag recvTime fuel l.shouldAck (.before l.bytes behind) l.st l.calls =
      l.run h mem p ag recvTime fuel := by
  induction fuel generalizing l with
  | zero =>
    by_cases hl : l.bytes = []
    · rw [processPayload_end h mem p ag recvTime hl, run_nil h mem p ag recvTime hl]
    · have hleft : ∀ behind, ¬ (Unread.before l.bytes behind).left = 0 := fun behind hno =>
        hl ((Unread.before_left _ _).mp hno)
      unfold Loop.run processPayload
      rw [if_neg (hleft behind), if_neg (hleft [])]
  | succ fuel ih =>
    by_cases hl : l.bytes = []
    · rw [processPayload_end h mem p ag recvTime hl, run_nil h mem p ag recvTime hl]
    · rw [processPayload_turn h mem p ag recvTime hl, run_turn h mem p ag recvTime hl]
      cases turn h mem p recvTime l with
      | goes l' => exact ih l'
      | returns st calls e => rfl
      | faults => rfl

/-- what the row of the type byte does -/
theorem frameParse_outcome {bs : List UInt8} (hb : bs ≠ []) :
    FrameOverflows mem bs ∧ frameParse mem bs = .error .fault ∨
      ¬ FrameOverflows mem bs ∧ Within bs.tail (frameParse mem bs) := by
  cases bs with
  | nil => exact absurd rfl hb
  | cons b bs =>
    cases hp : parser b.toNat with
    | some parse =>
      have hparse : frameParse mem (b :: bs) = parse mem (b :: bs) := by
        simp only [frameParse, hp]
      rw [hparse]
      exact parser_outcome hp mem b bs
    | none =>
      have hparse : frameParse mem (b :: bs) = .error (.err .notImplemented) := by
        simp only [frameParse, hp]
      rw [hparse]
      refine Or.inr ⟨?_, trivial⟩
      rintro ⟨e, rest, _, _, ⟨hno | hno, _⟩ | ⟨hno | hno, _⟩⟩ <;>
        · rw [hno] at hp
          cases hp

theorem turn_faults {l : Loop σ} (hf : frameParse mem l.bytes = .error .fault) :
    turn h mem p recvTime l = .faults := by
  simp only [turn, hf]

/-- off the overflows a turn returns an error, or it goes on behind at least one byte -/
theorem turn_spec {l : Loop σ} (hl : l.bytes ≠ []) (hover : ¬ FrameOverflows mem l.bytes) :
    (∃ st calls e, turn h mem p recvTime l = .returns st calls e) ∨
      ∃ l', turn h mem p recvTime l = .goes l' ∧ l'.bytes <:+ l.bytes ∧
        l'.bytes.length < l.bytes.length := by
  obtain ⟨hno, _⟩ | ⟨_, hw⟩ := frameParse_outcome mem hl
  · exact absurd hno hover
  unfold turn
  cases hf : frameParse mem l.bytes with
  | error s =>
    cases s with
    | err e => exact Or.inl ⟨_, _, e, rfl⟩
    | fault =>
      rw [hf] at hw
      exact hw.elim
  | ok x =>
    rw [hf] at hw
    have hsuffix : x.2 <:+ l.bytes := List.IsSuffix.trans hw (List.tail_suffix _)
    have hlt : x.2.length < l.bytes.length := frameParse_lt hf
    dsimp only
    split
    · exact Or.inr ⟨_, rfl, hsuffix, hlt⟩
    · split
      · exact Or.inl ⟨_, _, _, rfl⟩
      · exact Or.inr ⟨_, rfl, hsuffix, hlt⟩

/-! ## the loop -/

theorem ends_of_quiet {l : Loop σ} {fuel : Nat} (hfuel : l.bytes.length ≤ fuel)
    (hquiet : ∀ n l', Turns h mem p recvTime n l l' → ¬ FrameOverflows mem l'.bytes) :
    Ends h mem p ag recvTime l (l.run h mem p ag recvTime fuel) := by
  induction fuel generalizing l with
  | zero =>
    have hl : l.bytes = [] := List.eq_nil_of_length_eq_zero (by omega)
    refine ⟨0, l, .zero l, by omega, List.suffix_refl _, Or.inl ⟨hl, ?_⟩⟩
    exact run_nil h mem p ag recvTime hl 0
  | succ fuel ih =>
    by_cases hl : l.bytes = []
    · refine ⟨0, l, .zero l, by omega, List.suffix_refl _, Or.inl ⟨hl, ?_⟩⟩
      exact run_nil h mem p ag recvTime hl _
    · rw [run_turn h mem p ag recvTime hl]
      rcases turn_spec h mem p recvTime hl (hquiet 0 l (.zero l)) with
        ⟨st, calls, e, ht⟩ | ⟨l', ht, hsuffix, hlt⟩
      · rw [ht]
        exact ⟨0, l, .zero l, by omega, List.suffix_refl _, Or.inr ⟨hl, st, calls, e, ht, rfl⟩⟩
      · rw [ht]
        obtain ⟨n, l'', hturns, hn, hs, hend⟩ :=
          ih (by omega) fun n l'' hturns => hquiet (n + 1) l'' (.succ hl ht hturns)
        exact ⟨n + 1, l'', .succ hl ht hturns, by omega, hs.trans hsuffix, hend⟩

/-- a loop that ends has met no overflow before -/
theorem quiet_of_ends {l l' : Loop σ} {r : Done σ} {n : Nat} (hends : Ends h mem p ag recvTime l r)
    (hturns : Turns h mem p recvTime n l l') : ¬ FrameOverflows mem l'.bytes := by
  obtain ⟨m, l'', hlast, _, _, hend⟩ := hends
  replace hend : l''.bytes = [] ∨ ∃ st calls e, turn h mem p recvTime l'' = .returns st calls e := by
    rcases hend with ⟨hnil, _⟩ | ⟨_, st, calls, e, ht, _⟩
    · exact Or.inl hnil
    · exact Or.inr ⟨st, calls, e, ht⟩
  clear * - hturns hlast hend
  -- both runs of turns start at the same buffer, and neither goes on from its end
  induction hturns generalizing m with
  | zero l =>
    intro hover
    have hne : l.bytes ≠ [] := fun hnil => by rwa [hnil] at hover
    obtain ⟨_, hf⟩ | ⟨hno, _⟩ := frameParse_outcome mem hne
    · have hfaults := turn_faults h mem p recvTime hf
      cases hlast with
      | zero =>
        rcases hend with hnil | ⟨st, calls, e, ht⟩
        · exact hne hnil
        · cases hfaults.symm.trans ht
      | succ _ ht _ => cases hfaults.symm.trans ht
    · exact hno hover
  | succ hl ht _ ih =>
    cases hlast with
    | zero =>
      rcases hend with hnil | ⟨st, calls, e, hret⟩
      · exact absurd hnil hl
      · cases ht.symm.trans hret
    | succ _ ht' hs' =>
      cases ht.symm.trans ht'
      exact ih _ hs'

end

/-- **The receive loop ends.**  A parser of the table stops with an error or takes at least its type
byte and stays in the buffer, and the loop over a payload ends within as many turns as there are
bytes, exactly if no frame is met that its parser has too little memory for. -/
theorem payload_ends_iff (h : Handlers σ) (mem : Nat → Bool) (p : Payload) (ag : Option Space)
    (recvTime : Time) :
    (∀ t b bs, ∀ parse ∈ parser t, Within bs (parse mem (b :: bs)) ↔ ¬ RowOverflows mem t b bs) ∧
      ∀ l : Loop σ, (∀ fuel, l.bytes.length ≤ fuel →
          Ends h mem p ag recvTime l (l.run h mem p ag recvTime fuel)) ↔
        ∀ n l', Turns h mem p recvTime n l l' → ¬ FrameOverflows mem l'.bytes := by
  refine ⟨fun t b bs parse hp => parser_within hp mem b bs, fun l => ⟨?_, ?_⟩⟩
  · intro hends n l' hturns
    exact quiet_of_ends h mem p ag recvTime (hends _ (le_refl _)) hturns
  · intro hquiet fuel hfuel
    exact ends_of_quiet h mem p ag recvTime hfuel hquiet

/-- a connection close with a reason of one byte -/
theorem not_payload_ends : ¬ ∀ (h : Handlers Unit) (mem : Nat → Bool) (p : Payload)
    (ag : Option Space) (recvTime : Time) (l : Loop Unit),
    Ends h mem p ag recvTime l (l.run h mem p ag recvTime l.bytes.length) := by
  intro hall
  have hends := hall ⟨fun _ st => (st, .success), fun _ _ _ _ st => st⟩ memOk ⟨0, 0, 0, 0⟩ none 0
    ⟨false, [0x1d, 0x00, 0x01, 0x61], ⟨[], true, 0, false, ()⟩, []⟩
  refine quiet_of_ends _ _ _ _ _ hends (.zero _) ⟨[0x00, 0x01, 0x61], [], rfl, rfl,
    Or.inr ⟨Or.inr rfl, 0, 0, [0x61], ⟨⟨[0x00, 0x01], rfl, ?_⟩, fun _ => rfl⟩, by decide⟩⟩
  exact ⟨[0x00], [0x01], rfl, ⟨0x00, [], rfl, rfl, rfl⟩, varints_one.mpr ⟨0x01, [], rfl, rfl, rfl⟩⟩

end Recver
end OpenQuic
