import Mathlib.Data.List.Basic

/-!
# Messages in a row

A stream of self-delimiting messages: none is the beginning of another one.

* `PrefixFree P`         a message is known from what it begins;
* `Splits P bs ms rest`  `bs` is the messages `ms`, one after the other, in front of `rest`, which
                         begins with no message;
* `exists_splits`        every stream is split;
* `Splits.maximal`       all messages that a stream begins with are among those.
-/

namespace Framing

variable {α : Type*} {P : List α → Prop}

def PrefixFree (P : List α → Prop) : Prop :=
  ∀ m n s t : List α, P m → P n → m ++ s = n ++ t → m = n

structure Splits (P : List α → Prop) (bs : List α) (ms : List (List α)) (rest : List α) : Prop where
  stream : bs = ms.flatten ++ rest
  messages : ∀ m ∈ ms, P m
  rest : ∀ m, P m → ¬ m <+: rest

theorem splits_nil {bs rest : List α} : Splits P bs [] rest ↔ bs = rest ∧ ∀ m, P m → ¬ m <+: rest :=
  ⟨fun h => ⟨h.stream, h.rest⟩, fun h => ⟨h.1, nofun, h.2⟩⟩

theorem splits_cons {bs m : List α} {ms : List (List α)} {rest : List α} :
    Splits P bs (m :: ms) rest ↔ P m ∧ ∃ bs', bs = m ++ bs' ∧ Splits P bs' ms rest := by
  constructor
  · intro h
    refine ⟨h.messages m List.mem_cons_self, ms.flatten ++ rest, ?_, rfl,
      fun n hn => h.messages n (List.mem_cons_of_mem m hn), h.rest⟩
    rw [h.stream, List.flatten_cons, List.append_assoc]
  · rintro ⟨hm, bs', rfl, h⟩
    refine ⟨?_, fun n hn => ?_, h.rest⟩
    · rw [h.stream, List.flatten_cons, List.append_assoc]
    · rcases List.mem_cons.mp hn with rfl | hn
      · exact hm
      · exact h.messages n hn

theorem exists_splits (hne : ¬ P []) (bs : List α) : ∃ ms rest, Splits P bs ms rest := by
  induction hn : bs.length using Nat.strongRecOn generalizing bs with
  | ind n ih =>
    by_cases h : ∃ m, P m ∧ m <+: bs
    · obtain ⟨m, hm, bs', rfl⟩ := h
      have hpos : 0 < m.length := List.length_pos_iff.mpr fun h0 => hne (h0 ▸ hm)
      rw [List.length_append] at hn
      obtain ⟨ms, rest, hs⟩ := ih bs'.length (by omega) bs' rfl
      exact ⟨m :: ms, rest, splits_cons.mpr ⟨hm, bs', rfl, hs⟩⟩
    · exact ⟨[], bs, splits_nil.mpr ⟨rfl, fun m hm hp => h ⟨m, hm, hp⟩⟩⟩

theorem Splits.length_le (hne : ¬ P []) {bs : List α} {ms : List (List α)} {rest : List α}
    (h : Splits P bs ms rest) : ms.length ≤ bs.length := by
  induction ms generalizing bs with
  | nil => exact Nat.zero_le _
  | cons m ms ih =>
    obtain ⟨hm, bs', rfl, h'⟩ := splits_cons.mp h
    have hpos : 0 < m.length := List.length_pos_iff.mpr fun h0 => hne (h0 ▸ hm)
    have hle := ih h'
    rw [List.length_cons, List.length_append]
    omega

/-- the messages that a stream begins with are a part of its split -/
theorem Splits.maximal (hpf : PrefixFree P) {bs : List α} {ms ns : List (List α)} {rest : List α}
    (h : Splits P bs ms rest) (hns : ∀ n ∈ ns, P n) (hp : ns.flatten <+: bs) : ns <+: ms := by
  induction ns generalizing bs ms with
  | nil => exact List.nil_prefix
  | cons n ns ih =>
    have hn := hns n List.mem_cons_self
    obtain ⟨t, ht⟩ := hp
    rw [List.flatten_cons, List.append_assoc] at ht
    cases ms with
    | nil =>
      refine absurd ?_ ((splits_nil.mp h).2 n hn)
      rw [← (splits_nil.mp h).1, ← ht]
      exact List.prefix_append _ _
    | cons m ms =>
      obtain ⟨hm, bs', rfl, h'⟩ := splits_cons.mp h
      obtain rfl := hpf n m _ _ hn hm ht
      refine List.cons_prefix_cons.mpr ⟨rfl, ih h' (fun k hk => hns k (List.mem_cons_of_mem n hk)) ?_⟩
      exact ⟨t, List.append_cancel_left ht⟩

end Framing
