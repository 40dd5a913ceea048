/-!
# Readers and the words they read

A reader takes a value off the front of a list.  The words that stand for a value are a relation,
which may depend on what follows the word.

* `Words σ α`   `G e rest v`: the word `e` in front of `rest` stands for `v`;
* `Reads p G`   the reader `p` succeeds exactly where a word of `G` is in front, it takes that word
                off and returns the value the word stands for;
* `seq`, `nothing`   a word behind a word, and the empty word;
* `Reads.bind`, `Reads.pure`, `Reads.ite`, `Reads.congr`   the rules by which a reader is taken apart.
-/

namespace Grammar

variable {σ ε α β : Type}

abbrev Reader (σ ε α : Type) := List σ → Except ε (α × List σ)

abbrev Words (σ α : Type) := List σ → List σ → α → Prop

def Reads (p : Reader σ ε α) (G : Words σ α) : Prop :=
  ∀ bs v rest, p bs = .ok (v, rest) ↔ ∃ e, bs = e ++ rest ∧ G e rest v

/-- a word of `G`, and behind it a word of `H` at the value of the first -/
def seq (G : Words σ α) (H : α → Words σ β) : Words σ β := fun e rest w =>
  ∃ v e1 e2, e = e1 ++ e2 ∧ G e1 (e2 ++ rest) v ∧ H v e2 rest w

/-- the empty word stands for `v` -/
def nothing (v : α) : Words σ α := fun e _ w => e = [] ∧ w = v

theorem Reads.congr {p : Reader σ ε α} {G H : Words σ α} (h : Reads p G)
    (hG : ∀ e rest v, G e rest v ↔ H e rest v) : Reads p H := by
  intro bs v rest
  rw [h bs v rest]
  constructor
  · rintro ⟨e, he, hg⟩
    exact ⟨e, he, (hG e rest v).mp hg⟩
  · rintro ⟨e, he, hh⟩
    exact ⟨e, he, (hG e rest v).mpr hh⟩

theorem Reads.bind {p : Reader σ ε α} {f : α × List σ → Except ε (β × List σ)} {G : Words σ α}
    {H : α → Words σ β} (hp : Reads p G) (hf : ∀ v, Reads (fun bs => f (v, bs)) (H v)) :
    Reads (fun bs => p bs >>= f) (seq G H) := by
  intro bs w rest
  constructor
  · intro h
    replace h : (p bs >>= f) = .ok (w, rest) := h
    cases hx : p bs with
    | error e =>
      rw [hx] at h
      cases h
    | ok x =>
      obtain ⟨v, mid⟩ := x
      rw [hx] at h
      obtain ⟨e1, rfl, h1⟩ := (hp bs v mid).mp hx
      obtain ⟨e2, rfl, h2⟩ := (hf v mid w rest).mp h
      exact ⟨e1 ++ e2, (List.append_assoc e1 e2 rest).symm, v, e1, e2, rfl, h1, h2⟩
  · rintro ⟨e, rfl, v, e1, e2, rfl, h1, h2⟩
    have hx : p (e1 ++ e2 ++ rest) = .ok (v, e2 ++ rest) :=
      (hp _ v _).mpr ⟨e1, List.append_assoc e1 e2 rest, h1⟩
    show (p (e1 ++ e2 ++ rest) >>= f) = _
    rw [hx]
    exact (hf v (e2 ++ rest) w rest).mpr ⟨e2, rfl, h2⟩

theorem Reads.pure (v : α) :
    Reads (fun bs : List σ => (Pure.pure (v, bs) : Except ε (α × List σ))) (nothing v) := by
  intro bs w rest
  constructor
  · intro h
    obtain ⟨rfl, rfl⟩ := Prod.mk.inj (Except.ok.inj h)
    exact ⟨[], rfl, rfl, rfl⟩
  · rintro ⟨e, rfl, rfl, rfl⟩
    rfl

theorem Reads.ite {c : Prop} [Decidable c] {p q : Reader σ ε α} {G H : Words σ α}
    (hp : Reads p G) (hq : Reads q H) : Reads (fun bs => if c then p bs else q bs)
      (fun e rest v => if c then G e rest v else H e rest v) := by
  intro bs v rest
  by_cases hc : c
  · simp only [if_pos hc]
    exact hp bs v rest
  · simp only [if_neg hc]
    exact hq bs v rest

/-- a reader that never succeeds has no words -/
theorem Reads.never {p : Reader σ ε α} (h : ∀ bs x, p bs ≠ .ok x) :
    Reads p (fun _ _ _ => False) := by
  intro bs v rest
  constructor
  · exact fun hok => absurd hok (h bs _)
  · rintro ⟨_, _, hno⟩
    exact hno.elim

/-- the word in front, what follows it and its value are unique -/
theorem Reads.unique {p : Reader σ ε α} {G : Words σ α} (h : Reads p G) {e e' rest rest' : List σ}
    {v v' : α} (hg : G e rest v) (hg' : G e' rest' v') (heq : e ++ rest = e' ++ rest') :
    v = v' ∧ rest = rest' := by
  have h1 : p (e ++ rest) = .ok (v, rest) := (h _ v rest).mpr ⟨e, rfl, hg⟩
  have h2 : p (e ++ rest) = .ok (v', rest') := (h _ v' rest').mpr ⟨e', heq, hg'⟩
  exact Prod.mk.inj (Except.ok.inj (h1.symm.trans h2))

end Grammar
