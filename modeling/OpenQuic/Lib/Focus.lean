import Mathlib.Logic.Function.Basic

/-!
# Machines, one of them in focus

A family of machines of one kind, and the name of the one that the inputs go to.

* `Move`, `move`      the focus turns to a machine, or an input is fed to the one in focus;
* `fed k c ms`        the inputs among the moves `ms` that reach the machine `k`, from focus `c` on;
* `foldl_move_state`  every machine is where its own inputs take it;
* `foldl_move_cur`    the focus is on the machine that was turned to last.
-/

namespace Focus

variable {κ σ α : Type*}

inductive Move (κ α : Type*) where
  | turn (k : κ)
  | feed (a : α)

structure Machines (κ σ : Type*) where
  cur : Option κ
  state : κ → σ

/-- without a focus an input is lost -/
def move [DecidableEq κ] (next : σ → α → σ) (m : Machines κ σ) : Move κ α → Machines κ σ
  | .turn k => { m with cur := some k }
  | .feed a =>
    match m.cur with
    | none => m
    | some k => { m with state := Function.update m.state k (next (m.state k) a) }

def fed [DecidableEq κ] (k : κ) : Option κ → List (Move κ α) → List α
  | _, [] => []
  | _, .turn c :: ms => fed k (some c) ms
  | c, .feed a :: ms => if c = some k then a :: fed k c ms else fed k c ms

/-- the machines that were turned to, the last one first -/
def turned : List κ → List (Move κ α) → List κ
  | ks, [] => ks
  | ks, .turn k :: ms => turned (k :: ks) ms
  | ks, .feed _ :: ms => turned ks ms

section
variable [DecidableEq κ] (next : σ → α → σ)

theorem fed_feed (k : κ) (c : Option κ) (a : α) (ms : List (Move κ α)) :
    fed k c (.feed a :: ms) = if c = some k then a :: fed k c ms else fed k c ms := rfl

theorem move_feed_none {m : Machines κ σ} (h : m.cur = none) (a : α) :
    move next m (.feed a) = m := by
  unfold move
  rw [h]

theorem move_feed_some {m : Machines κ σ} {c : κ} (h : m.cur = some c) (a : α) :
    move next m (.feed a) =
      { m with state := Function.update m.state c (next (m.state c) a) } := by
  unfold move
  rw [h]

/-- an input leaves the focus where it is -/
theorem move_feed_cur (m : Machines κ σ) (a : α) : (move next m (.feed a)).cur = m.cur := by
  cases h : m.cur with
  | none => rw [move_feed_none next h, h]
  | some c => rw [move_feed_some next h, ← h]

/-- **Every machine is where its own inputs take it.** -/
theorem foldl_move_state (ms : List (Move κ α)) (m : Machines κ σ) (k : κ) :
    (ms.foldl (move next) m).state k = (fed k m.cur ms).foldl next (m.state k) := by
  induction ms generalizing m with
  | nil => rfl
  | cons x ms ih =>
    rw [List.foldl_cons, ih]
    cases x with
    | turn c => rfl
    | feed a =>
      rw [move_feed_cur, fed_feed]
      cases h : m.cur with
      | none => rw [move_feed_none next h, if_neg (by simp)]
      | some c =>
        rw [move_feed_some next h]
        dsimp only
        by_cases hk : c = k
        · subst hk
          rw [if_pos rfl, List.foldl_cons, Function.update_self]
        · rw [if_neg fun he => hk (Option.some.inj he), Function.update_of_ne (Ne.symm hk)]

theorem foldl_move_cur (ms : List (Move κ α)) (m : Machines κ σ) {ks : List κ}
    (h : m.cur = ks.head?) : (ms.foldl (move next) m).cur = (turned ks ms).head? := by
  induction ms generalizing m ks with
  | nil => exact h
  | cons x ms ih =>
    cases x with
    | turn k => exact ih _ rfl
    | feed a => exact ih _ ((move_feed_cur next m a).trans h)

end

end Focus
