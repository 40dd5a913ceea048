import Mathlib.Data.List.Basic

/-!
# Runs of a partial step function

A step function takes a state and an event to the next state, or to nothing where the program has
no defined behaviour.  A run folds it over a list of events.

* `run`               the state a list of events leads to;
* `Along good s es`   every event of the run is `good` in the state it meets;
* `run_inv`           an invariant over the events seen so far that every good step keeps holds
                      at the end of every such run, and the run is defined;
* `run_keeps`         an invariant that good steps keep holds wherever a run of them ends;
* `run_reached`, `run_met`   it holds in every state on the way, where the next event is good;
* `holds_iff_along`, `always_iff_along`   where a step that is not good breaks a property, the runs
                      of good steps are exactly those in which the property holds all along;
* `steps_iff_along`   the same for a property of the steps.
* `shown`, `run_shown`   what the events of a run show, one after the other, and the invariants over it;
* `run_rel`           two programs whose steps match have runs that match.
-/

namespace Runs

variable {σ ε : Type*} (step : σ → ε → Option σ)

def run (s : σ) (es : List ε) : Option σ := es.foldlM step s

/-- every event of the run meets a state in which it is good -/
def Along (good : σ → ε → Prop) : σ → List ε → Prop
  | _, [] => True
  | s, e :: es => good s e ∧ ∀ s', step s e = some s' → Along good s' es

@[simp] theorem run_nil (s : σ) : run step s [] = some s := rfl

theorem run_cons (s : σ) (e : ε) (es : List ε) :
    run step s (e :: es) = (step s e).bind fun s' => run step s' es := rfl

theorem run_append (s : σ) (es fs : List ε) :
    run step s (es ++ fs) = (run step s es).bind fun s' => run step s' fs := by
  simp [run, List.foldlM_append]

theorem run_concat {s s' : σ} {es : List ε} (h : run step s es = some s') (e : ε) :
    run step s (es ++ [e]) = step s' e := by
  rw [run_append, h, Option.bind_some, run_cons]
  cases step s' e <;> rfl

theorem Along.mono {good good' : σ → ε → Prop} (h : ∀ s e, good s e → good' s e) {s : σ}
    {es : List ε} (ha : Along step good s es) : Along step good' s es := by
  induction es generalizing s with
  | nil => trivial
  | cons e es ih => exact ⟨h s e ha.1, fun s' hs' => ih (ha.2 s' hs')⟩

theorem Along.and {good good' : σ → ε → Prop} {s : σ} {es : List ε} (ha : Along step good s es)
    (hb : Along step good' s es) : Along step (fun s e => good s e ∧ good' s e) s es := by
  induction es generalizing s with
  | nil => trivial
  | cons e es ih => exact ⟨⟨ha.1, hb.1⟩, fun s' hs' => ih (ha.2 s' hs') (hb.2 s' hs')⟩

/-- what holds of every event may be added to what is good -/
theorem Along.and_mem {good : σ → ε → Prop} {P : ε → Prop} {s : σ} {es : List ε}
    (ha : Along step good s es) (hP : ∀ e ∈ es, P e) :
    Along step (fun s e => P e ∧ good s e) s es := by
  induction es generalizing s with
  | nil => trivial
  | cons e es ih =>
    exact ⟨⟨hP e List.mem_cons_self, ha.1⟩,
      fun s' hs' => ih (ha.2 s' hs') fun f hf => hP f (List.mem_cons_of_mem _ hf)⟩

theorem Along.of_mem {P : ε → Prop} {s : σ} {es : List ε} (hP : ∀ e ∈ es, P e) :
    Along step (fun _ e => P e) s es := by
  induction es generalizing s with
  | nil => trivial
  | cons e es ih =>
    exact ⟨hP e List.mem_cons_self, fun _ _ => ih fun f hf => hP f (List.mem_cons_of_mem _ hf)⟩

theorem Along.append_left {good : σ → ε → Prop} {s : σ} {es fs : List ε}
    (ha : Along step good s (es ++ fs)) : Along step good s es := by
  induction es generalizing s with
  | nil => trivial
  | cons e es ih => exact ⟨ha.1, fun s' hs' => ih (ha.2 s' hs')⟩

theorem Along.append_right {good : σ → ε → Prop} {s s' : σ} {es fs : List ε}
    (ha : Along step good s (es ++ fs)) (h : run step s es = some s') : Along step good s' fs := by
  induction es generalizing s with
  | nil =>
    cases h
    exact ha
  | cons e es ih =>
    rw [run_cons, Option.bind_eq_some_iff] at h
    obtain ⟨s1, h1, h2⟩ := h
    exact ih (ha.2 s1 h1) h2

theorem Along.of_isPrefix {good : σ → ε → Prop} {s : σ} {past es : List ε} (hp : past <+: es)
    (ha : Along step good s es) : Along step good s past := by
  obtain ⟨rest, rfl⟩ := hp
  exact ha.append_left

/-- the last event of a run is good in the state before it -/
theorem Along.last {good : σ → ε → Prop} {s s' : σ} {es : List ε} {e : ε}
    (ha : Along step good s (es ++ [e])) (h : run step s es = some s') : good s' e := by
  induction es generalizing s with
  | nil =>
    cases h
    exact ha.1
  | cons f es ih =>
    rw [run_cons, Option.bind_eq_some_iff] at h
    obtain ⟨s1, h1, h2⟩ := h
    exact ih (ha.2 s1 h1) h2

instance decidableAlong (good : σ → ε → Prop) [∀ s e, Decidable (good s e)] :
    (s : σ) → (es : List ε) → Decidable (Along step good s es)
  | _, [] => isTrue trivial
  | s, e :: es =>
    match h : step s e with
    | none => decidable_of_iff (good s e) ⟨fun hg => ⟨hg, by simp [h]⟩, And.left⟩
    | some s' =>
      have := decidableAlong good s' es
      decidable_of_iff (good s e ∧ Along step good s' es)
        ⟨fun hg => ⟨hg.1, by rintro s1 h1; cases h.symm.trans h1; exact hg.2⟩,
          fun hg => ⟨hg.1, hg.2 s' h⟩⟩

section
variable {step} {good : σ → ε → Prop} {I : List ε → σ → Prop}

theorem run_inv_from
    (hstep : ∀ past s e, I past s → good s e → ∃ s', step s e = some s' ∧ I (past ++ [e]) s')
    (past es : List ε) {s : σ} (hs : I past s) (ha : Along step good s es) :
    ∃ s', run step s es = some s' ∧ I (past ++ es) s' := by
  induction es generalizing past s with
  | nil => exact ⟨s, rfl, by rwa [List.append_nil]⟩
  | cons e es ih =>
    obtain ⟨s1, h1, hi⟩ := hstep past s e hs ha.1
    obtain ⟨s2, h2, hi2⟩ := ih (past ++ [e]) hi (ha.2 s1 h1)
    refine ⟨s2, ?_, ?_⟩
    · rw [run_cons, h1, Option.bind_some, h2]
    · rwa [List.append_assoc] at hi2

/-- **The run rule.**  What holds of the empty run and is kept by every good step holds at the end
of every run of good steps. -/
theorem run_inv {s₀ : σ} (h0 : I [] s₀)
    (hstep : ∀ past s e, I past s → good s e → ∃ s', step s e = some s' ∧ I (past ++ [e]) s')
    (es : List ε) (ha : Along step good s₀ es) : ∃ s, run step s₀ es = some s ∧ I es s :=
  run_inv_from hstep [] es h0 ha

/-- What every good step keeps holds of the state that a run of good steps reaches. -/
theorem run_keeps {J : σ → Prop}
    (hstep : ∀ s e s', J s → good s e → step s e = some s' → J s') {es : List ε} {s s' : σ}
    (hs : J s) (ha : Along step good s es) (h : run step s es = some s') : J s' := by
  induction es generalizing s with
  | nil =>
    cases h
    exact hs
  | cons e es ih =>
    rw [run_cons, Option.bind_eq_some_iff] at h
    obtain ⟨s1, h1, h2⟩ := h
    exact ih (hstep s e s1 hs ha.1 h1) (ha.2 s1 h1) h2

/-- what every good step keeps holds wherever a run of them gets -/
theorem run_reached {J : σ → Prop}
    (hstep : ∀ s e s', J s → good s e → step s e = some s' → J s') {es : List ε} {s : σ}
    (hs : J s) (ha : Along step good s es) {past : List ε} (hp : past <+: es) {s' : σ}
    (h : run step s past = some s') : J s' := run_keeps hstep hs (ha.of_isPrefix step hp) h

/-- every event of a run of good steps meets a state with what they keep, and is good in it -/
theorem run_met {J : σ → Prop}
    (hstep : ∀ s e s', J s → good s e → step s e = some s' → J s') {es : List ε} {s : σ}
    (hs : J s) (ha : Along step good s es) {past : List ε} {e : ε} (hp : past ++ [e] <+: es) {s' : σ}
    (h : run step s past = some s') : J s' ∧ good s' e :=
  ⟨run_reached hstep hs ha ((List.prefix_append past [e]).trans hp) h,
    (ha.of_isPrefix step hp).last step h⟩

/-- Along a run that keeps `J` it is enough that the events are good where `J` holds. -/
theorem Along.of_keeps {good good' : σ → ε → Prop} {J : σ → Prop}
    (hstep : ∀ s e s', J s → good s e → step s e = some s' → J s')
    (hgood : ∀ s e, J s → good s e → good' s e) {s : σ} {es : List ε} (hs : J s)
    (ha : Along step good s es) : Along step good' s es := by
  induction es generalizing s with
  | nil => trivial
  | cons e es ih =>
    exact ⟨hgood s e hs ha.1, fun s' hs' => ih (hstep s e s' hs ha.1 hs') (ha.2 s' hs')⟩

/-- **The exact rule for what is reached.**  A run may end in a state without a next one; a step that
is not good leads to a state that breaks the property. -/
theorem holds_iff_along {I P : σ → Prop} {ok : σ → ε → Prop} (hIP : ∀ s, I s → P s)
    (hgood : ∀ s e s', I s → ok s e → good s e → step s e = some s' → I s')
    (hbad : ∀ s e, I s → ok s e → ¬ good s e → ∃ s', step s e = some s' ∧ ¬ P s')
    (es : List ε) {s : σ} (hs : I s) (hok : Along step ok s es) :
    (∀ past, past <+: es → ∀ s', run step s past = some s' → P s') ↔ Along step good s es := by
  induction es generalizing s with
  | nil =>
    refine ⟨fun _ => trivial, fun _ past hpast s' hs' => ?_⟩
    rw [List.prefix_nil.mp hpast, run_nil] at hs'
    cases hs'
    exact hIP s hs
  | cons e es ih =>
    obtain ⟨hoke, hoks⟩ := hok
    constructor
    · intro h
      have hg : good s e := by
        by_contra hng
        obtain ⟨s1, h1, hP1⟩ := hbad s e hs hoke hng
        exact hP1 (h [e] (by simp) s1 (by rw [run_cons, h1, Option.bind_some, run_nil]))
      refine ⟨hg, fun s1 h1 => ?_⟩
      refine (ih (hgood s e s1 hs hoke hg h1) (hoks s1 h1)).mp fun past hpast s' hs' => ?_
      refine h (e :: past) (by simpa using hpast) s' ?_
      rw [run_cons, h1, Option.bind_some, hs']
    · rintro ⟨hg, ha⟩ past hpast s' hs'
      cases past with
      | nil =>
        cases hs'
        exact hIP s hs
      | cons f past =>
        obtain ⟨he, hp⟩ := List.cons_prefix_cons.mp hpast
        subst he
        rw [run_cons, Option.bind_eq_some_iff] at hs'
        obtain ⟨s1, h1, hs'⟩ := hs'
        exact (ih (hgood s f s1 hs hoke hg h1) (hoks s1 h1)).mpr (ha s1 h1) past hp s' hs'

/-- **The exact rule.**  `I` is the invariant of the runs, `P` the property they are asked for and
`ok` what is known of the events in the states they meet. -/
theorem always_iff_along {I P : σ → Prop} {ok : σ → ε → Prop} (hIP : ∀ s, I s → P s)
    (hgood : ∀ s e, I s → ok s e → good s e → ∃ s', step s e = some s' ∧ I s')
    (hbad : ∀ s e s', I s → ok s e → step s e = some s' → P s' → good s e)
    (es : List ε) {s : σ} (hs : I s) (hok : Along step ok s es) :
    (∀ past, past <+: es → ∃ s', run step s past = some s' ∧ P s') ↔ Along step good s es := by
  induction es generalizing s with
  | nil =>
    refine ⟨fun _ => trivial, fun _ past hpast => ⟨s, ?_, hIP s hs⟩⟩
    rw [List.prefix_nil.mp hpast, run_nil]
  | cons e es ih =>
    obtain ⟨hoke, hoks⟩ := hok
    constructor
    · intro h
      obtain ⟨s1, h1, hP1⟩ := h [e] (by simp)
      have h1' : step s e = some s1 := by simpa [run_cons] using h1
      have hg := hbad s e s1 hs hoke h1' hP1
      refine ⟨hg, fun s' hs' => ?_⟩
      obtain ⟨s2, h2, hi2⟩ := hgood s e hs hoke hg
      cases hs'.symm.trans h2
      refine (ih hi2 (hoks s' hs')).mp fun past hpast => ?_
      obtain ⟨s3, h3, hP3⟩ := h (e :: past) (by simpa using hpast)
      rw [run_cons, hs', Option.bind_some] at h3
      exact ⟨s3, h3, hP3⟩
    · rintro ⟨hg, ha⟩ past hpast
      obtain ⟨s1, h1, hi1⟩ := hgood s e hs hoke hg
      cases past with
      | nil => exact ⟨s, rfl, hIP s hs⟩
      | cons f past =>
        obtain ⟨he, hp⟩ := List.cons_prefix_cons.mp hpast
        subst he
        obtain ⟨s2, h2, hP2⟩ := (ih hi1 (hoks s1 h1)).mpr (ha s1 h1) past hp
        exact ⟨s2, by rw [run_cons, h1, Option.bind_some, h2], hP2⟩

/-- **The exact rule for steps.**  Where a step has the property if and only if it is good, the runs of
good steps are those all of whose steps have it. -/
theorem steps_iff_along {I : σ → Prop} {Q ok : σ → ε → Prop}
    (hiff : ∀ s e, I s → ok s e → (Q s e ↔ good s e))
    (hstep : ∀ s e s', I s → ok s e → good s e → step s e = some s' → I s')
    (es : List ε) {s : σ} (hs : I s) (hok : Along step ok s es) :
    (∀ past e, past ++ [e] <+: es → ∀ s', run step s past = some s' → Q s' e) ↔
      Along step good s es := by
  induction es generalizing s with
  | nil =>
    refine ⟨fun _ => trivial, fun _ past e hpast => ?_⟩
    simp at hpast
  | cons f es ih =>
    obtain ⟨hokf, hoks⟩ := hok
    constructor
    · intro h
      have hg : good s f := (hiff s f hs hokf).mp (h [] f (by simp) s rfl)
      refine ⟨hg, fun s1 h1 => ?_⟩
      refine (ih (hstep s f s1 hs hokf hg h1) (hoks s1 h1)).mp fun past e hpast s' hs' => ?_
      refine h (f :: past) e (by simpa using hpast) s' ?_
      rw [run_cons, h1, Option.bind_some, hs']
    · rintro ⟨hg, ha⟩ past e hpast s' hs'
      cases past with
      | nil =>
        cases hs'
        obtain rfl : e = f := by simpa using hpast
        exact (hiff s e hs hokf).mpr hg
      | cons f' past =>
        obtain ⟨rfl, hp⟩ := List.cons_prefix_cons.mp hpast
        rw [run_cons, Option.bind_eq_some_iff] at hs'
        obtain ⟨s1, h1, hs'⟩ := hs'
        exact (ih (hstep s f' s1 hs hokf hg h1) (hoks s1 h1)).mpr (ha s1 h1) past e hp s' hs'

end

/-! ## what a run shows -/

section
variable {β : Type*} (f : σ → ε → List β)

/-- what the events of a run show in the states that they meet -/
def shown : σ → List ε → List β
  | _, [] => []
  | s, e :: es => f s e ++ ((step s e).elim [] fun s' => shown s' es)

theorem shown_cons {s s' : σ} {e : ε} (h : step s e = some s') (es : List ε) :
    shown step f s (e :: es) = f s e ++ shown step f s' es := by
  rw [shown, h, Option.elim_some]

variable {step f}

/-- an invariant over what has been shown, which every good step keeps -/
theorem run_shown {good : σ → ε → Prop} {J : List β → σ → Prop}
    (hstep : ∀ l s e s', J l s → good s e → step s e = some s' → J (l ++ f s e) s')
    {es : List ε} {l : List β} {s s' : σ} (hs : J l s) (ha : Along step good s es)
    (h : run step s es = some s') : J (l ++ shown step f s es) s' := by
  induction es generalizing l s with
  | nil =>
    cases h
    rw [shown, List.append_nil]
    exact hs
  | cons e es ih =>
    rw [run_cons, Option.bind_eq_some_iff] at h
    obtain ⟨s1, h1, h2⟩ := h
    rw [shown_cons step f h1, ← List.append_assoc]
    exact ih (hstep l s e s1 hs ha.1 h1) (ha.2 s1 h1) h2

end

/-! ## two programs -/

/-- **Refinement.**  Where every good step of a program is matched by one of another, or both have
none, every run of good steps is. -/
theorem run_rel {τ : Type*} {step : σ → ε → Option σ} {step' : τ → ε → Option τ} {R : σ → τ → Prop}
    {good : σ → ε → Prop}
    (hstep : ∀ s t e, R s t → good s e → Option.Rel R (step s e) (step' t e)) {es : List ε} {s : σ}
    {t : τ} (hs : R s t) (ha : Along step good s es) :
    Option.Rel R (run step s es) (run step' t es) := by
  induction es generalizing s t with
  | nil => exact .some hs
  | cons e es ih =>
    have h := hstep s t e hs ha.1
    have hrest := ha.2
    rw [run_cons, run_cons]
    cases hs1 : step s e with
    | none =>
      rw [hs1] at h
      cases ht1 : step' t e with
      | none => exact .none
      | some t1 =>
        rw [ht1] at h
        cases h
    | some s1 =>
      rw [hs1] at h
      cases ht1 : step' t e with
      | none =>
        rw [ht1] at h
        cases h
      | some t1 =>
        rw [ht1] at h
        cases h with
        | some h1 => exact ih h1 (hrest s1 hs1)

end Runs
