import OpenQuic.Lib.Focus
import OpenQuic.Lib.OrdMap
import OpenQuic.Lib.Runs
import OpenQuic.Modules.Congestion
import Mathlib.Data.Prod.Lex

/-!
# Migration

The congestion module keeps one state for each path (`quic_congestion_module_migrate`), and works on
the one of the path in use (`quic_session_path_use`, `quic_session_path_target_use`,
`quic_migrate_path_use`).

* `Path`             a path, in the order of `quic_path_cmp`;
* `Paths`            the tree of the states, the node that is active, and what the session has;
* `report`           what the other modules tell the congestion module;
* `unpaced`          a state without the pacing budget, until the path has sent a packet;
* `report_unpaced`   what is reported to a path does not depend on that budget;
* `Choice`, `chosen` which path is in use, whatever the states are;
* `migrated_run`     **each path has the state that its own reports make of a new one, as if there were
                     no other path**, the budget that it starts with apart.

Addresses are what the socket library makes of them: a type with an order.
-/

namespace OpenQuic
open Word Runs

/-- `quic_path_t`; the local addresses are compared first -/
abbrev Path (α : Type) := α ×ₗ α

def pathAddr {α : Type} (locAddr rmtAddr : α) : Path α := toLex (locAddr, rmtAddr)

namespace Migrate

variable {α : Type} [LinearOrder α]

/-- `active` is the key of the node that `active_instance` points to; `path`, `setup` and
`disableMigrate` are fields of the session and the migration module -/
structure Paths (α : Type) [LinearOrder α] where
  store : OrdMap (Path α) Congestion
  active : Option (Path α)
  path : Path α
  setup : Bool
  disableMigrate : Bool

def init (path : Path α) (disableMigrate : Bool) : Paths α :=
  ⟨OrdMap.empty, none, path, false, disableMigrate⟩

/-- The state of a new path.  `quic_congestion_tbp_init` takes the bandwidth of the path that is
active before; `junk` is what it makes of the memory behind the nil node where there is none. -/
def create (cfg : Config) (junk : Nat) (s : Paths α) : Congestion :=
  { Congestion.init cfg with
    tbp := ⟨((s.active.bind s.store.find).map Congestion.tbpBandwidth).getD junk, 0⟩ }

/-- `quic_congestion_module_migrate`; `mem` is the allocation of the state -/
def migrate (cfg : Config) (junk : Nat) (mem : Bool) (key : Path α) (s : Paths α) : Paths α :=
  match s.store.find key with
  | some _ => { s with active := some key }
  | none =>
    if !mem then s
    else { s with store := s.store.insert key (create cfg junk s), active := some key }

/-- `quic_session_path_use` -/
def pathUse (cfg : Config) (junk : Nat) (mem : Bool) (path : Path α) (s : Paths α) : Paths α :=
  if s.setup && s.disableMigrate then s
  else { migrate cfg junk mem path { s with path := path } with setup := true }

/-- `quic_session_path_target_use` -/
def pathTargetUse (cfg : Config) (junk : Nat) (mem : Bool) (rmtAddr : α) (s : Paths α) : Paths α :=
  pathUse cfg junk mem (pathAddr (ofLex s.path).1 rmtAddr) s

inductive Report where
  | sent (sentTime num bytes : Nat) (includedUnacked : Bool)
  | acked (num bytes unackedBytes eventTime : Nat)
  | lost (num bytes unackedBytes : Nat)
  | sample (recvTime sentTime delay : Nat)

def report (cfg : Config) (cbrt : Nat → Nat) (c : Congestion) : Report → Congestion
  | .sent sentTime num bytes includedUnacked => c.onSent sentTime num bytes includedUnacked
  | .acked num bytes unackedBytes eventTime => c.onAcked cfg cbrt num bytes unackedBytes eventTime
  | .lost num bytes unackedBytes => c.onLost cfg num bytes unackedBytes
  | .sample recvTime sentTime delay => c.update recvTime sentTime delay

inductive Event (α : Type) where
  | pathUse (mem : Bool) (path : Path α)
  | pathTargetUse (mem : Bool) (rmtAddr : α)
  | report (r : Report)
  /-- the peer's transport parameters disable the migration -/
  | disableMigration

/-- no result where there is no active state -/
def step (cfg : Config) (junk : Nat) (cbrt : Nat → Nat) (s : Paths α) : Event α → Option (Paths α)
  | .pathUse mem path => some (pathUse cfg junk mem path s)
  | .pathTargetUse mem rmtAddr => some (pathTargetUse cfg junk mem rmtAddr s)
  | .report r => s.active.bind fun k => (s.store.find k).map fun c =>
      { s with store := s.store.insert k (report cfg cbrt c r) }
  | .disableMigration => some { s with disableMigrate := true }

/-! ## the budget of a new path -/

def withTbp (c : Congestion) (tbp : Tbp) : Congestion := { c with tbp := tbp }

/-- the state, less the pacing budget of a path that has not sent a packet yet -/
def unpaced (c : Congestion) : Congestion := if c.tbp.lastSentTime = 0 then withTbp c ⟨0, 0⟩ else c

theorem create_unpaced (cfg : Config) (junk : Nat) (s : Paths α) :
    unpaced (create cfg junk s) = unpaced (Congestion.init cfg) := rfl

/-- a function of a state that leaves the token bucket alone -/
def Bucketless (f : Congestion → Congestion) : Prop :=
  ∀ c tbp, f (withTbp c tbp) = withTbp (f c) tbp

theorem Bucketless.unpaced {f : Congestion → Congestion} (h : Bucketless f) (c : Congestion) :
    unpaced (f (unpaced c)) = unpaced (f c) := by
  have hsame : (f c).tbp = c.tbp := by
    have hc := congrArg Congestion.tbp (h c c.tbp)
    exact hc
  unfold Migrate.unpaced
  by_cases h0 : c.tbp.lastSentTime = 0
  · rw [if_pos h0, h, hsame, if_pos h0]
    exact if_pos rfl
  · rw [if_neg h0]

theorem increaseCwnd_bucketless (cfg : Config) (cbrt : Nat → Nat)
    (ackedBytes unackedBytes eventTime : Nat) :
    Bucketless fun c => c.increaseCwnd cfg cbrt ackedBytes unackedBytes eventTime := by
  intro c tbp
  have hlimited : (withTbp c tbp).cwndLimited unackedBytes = c.cwndLimited unackedBytes := rfl
  dsimp only
  unfold Congestion.increaseCwnd
  rw [hlimited]
  dsimp only [withTbp]
  split_ifs <;> rfl

theorem onAcked_bucketless (cfg : Config) (cbrt : Nat → Nat)
    (num ackedBytes unackedBytes eventTime : Nat) :
    Bucketless fun c => c.onAcked cfg cbrt num ackedBytes unackedBytes eventTime := by
  intro c tbp
  have hgrown := increaseCwnd_bucketless cfg cbrt ackedBytes unackedBytes eventTime
    { c with base := Congestion.ackedNum c.base num } tbp
  dsimp only [withTbp] at hgrown
  unfold Congestion.onAcked
  dsimp only [withTbp]
  rw [hgrown]
  dsimp only
  split_ifs <;> rfl

theorem onLost_bucketless (cfg : Config) (num lostBytes unackedBytes : Nat) :
    Bucketless fun c => c.onLost cfg num lostBytes unackedBytes := by
  intro c tbp
  dsimp only [withTbp]
  unfold Congestion.onLost Congestion.onLostAgain Congestion.onLostFirst Congestion.reduceCwnd
  dsimp only
  split_ifs <;> rfl

theorem update_bucketless (recvTime sentTime delay : Nat) :
    Bucketless fun c => c.update recvTime sentTime delay := by
  intro c tbp
  dsimp only [withTbp]
  unfold Congestion.update
  dsimp only
  split_ifs <;> rfl

/-- the bucket of the first packet is full, whatever the budget -/
theorem onSent_first {c : Congestion} (h0 : c.tbp.lastSentTime = 0)
    (sentTime num sentBytes : Nat) (includedUnacked : Bool) :
    (withTbp c ⟨0, 0⟩).onSent sentTime num sentBytes includedUnacked =
      c.onSent sentTime num sentBytes includedUnacked := by
  have hbudget : (withTbp c ⟨0, 0⟩).tbpBudget sentTime = c.tbpBudget sentTime := by
    unfold Congestion.tbpBudget
    rw [if_pos h0]
    exact if_pos rfl
  unfold Congestion.onSent Congestion.tbpSentPacket
  rw [hbudget]
  rfl

/-- **What is reported** does not depend on a budget that no packet was taken from. -/
theorem report_unpaced (cfg : Config) (cbrt : Nat → Nat) (c : Congestion) (r : Report) :
    unpaced (report cfg cbrt (unpaced c) r) = unpaced (report cfg cbrt c r) := by
  cases r with
  | sent sentTime num bytes includedUnacked =>
    refine congrArg unpaced ?_
    unfold unpaced
    split
    · rename_i h0
      exact onSent_first h0 sentTime num bytes includedUnacked
    · rfl
  | acked num bytes unackedBytes eventTime =>
    exact (onAcked_bucketless cfg cbrt num bytes unackedBytes eventTime).unpaced c
  | lost num bytes unackedBytes => exact (onLost_bucketless cfg num bytes unackedBytes).unpaced c
  | sample recvTime sentTime delay => exact (update_bucketless recvTime sentTime delay).unpaced c

/-- a report, without the budget -/
def reportUnpaced (cfg : Config) (cbrt : Nat → Nat) (c : Congestion) (r : Report) : Congestion :=
  unpaced (report cfg cbrt c r)

theorem foldl_reportUnpaced (cfg : Config) (cbrt : Nat → Nat) (c : Congestion) (rs : List Report) :
    rs.foldl (reportUnpaced cfg cbrt) (unpaced c) = unpaced (rs.foldl (report cfg cbrt) c) := by
  induction rs generalizing c with
  | nil => rfl
  | cons r rs ih =>
    rw [List.foldl_cons, List.foldl_cons, ← ih, reportUnpaced, report_unpaced]

/-! ## which path is in use -/

/-- the fields that the choice of a path looks at, and the paths that have a state -/
structure Choice (α : Type) where
  path : Path α
  setup : Bool
  disableMigrate : Bool
  known : List (Path α)

/-- a path is used if nothing forbids it, and if it has a state or gets one -/
def Choice.use (mem : Bool) (path : Path α) (c : Choice α) :
    Choice α × List (Focus.Move (Path α) Report) :=
  if c.setup && c.disableMigrate then (c, [])
  else if mem || decide (path ∈ c.known) then
    (⟨path, true, c.disableMigrate, path :: c.known⟩, [.turn path])
  else (⟨path, true, c.disableMigrate, c.known⟩, [])

def Choice.next (c : Choice α) : Event α → Choice α × List (Focus.Move (Path α) Report)
  | .pathUse mem path => c.use mem path
  | .pathTargetUse mem rmtAddr => c.use mem (pathAddr (ofLex c.path).1 rmtAddr)
  | .report r => (c, [.feed r])
  | .disableMigration => ({ c with disableMigrate := true }, [])

/-- what the events of a run mean for the paths -/
def chosen : Choice α → List (Event α) → List (Focus.Move (Path α) Report)
  | _, [] => []
  | c, e :: es => (c.next e).2 ++ chosen (c.next e).1 es

/-- the paths, each with a state of its own, as far as it does not come from another path -/
def machines (cfg : Config) (s : Paths α) : Focus.Machines (Path α) Congestion :=
  ⟨s.active, fun p => unpaced ((s.store.find p).getD (Congestion.init cfg))⟩

/-- the choice looks at what the code looks at -/
structure Sees (c : Choice α) (s : Paths α) : Prop where
  path : c.path = s.path
  setup : c.setup = s.setup
  disableMigrate : c.disableMigrate = s.disableMigrate
  known : ∀ p, p ∈ c.known ↔ (s.store.find p).isSome = true
  active : ∀ k, s.active = some k → (s.store.find k).isSome = true

section
variable {cfg : Config} {junk : Nat} {cbrt : Nat → Nat} {c : Choice α} {s s' : Paths α}

theorem migrate_path (cfg : Config) (junk : Nat) (mem : Bool) (p : Path α) (s : Paths α) :
    (migrate cfg junk mem p s).path = s.path ∧
      (migrate cfg junk mem p s).disableMigrate = s.disableMigrate := by
  unfold migrate
  split
  · exact ⟨rfl, rfl⟩
  · split <;> exact ⟨rfl, rfl⟩

/-- a path that has a state, or gets one -/
theorem migrate_turn (cfg : Config) (junk : Nat) (s : Paths α) {mem : Bool} {p : Path α}
    (h : mem = true ∨ (s.store.find p).isSome = true) :
    (migrate cfg junk mem p s).active = some p ∧
      (∀ k, ((migrate cfg junk mem p s).store.find k).isSome = true ↔
        k = p ∨ (s.store.find k).isSome = true) ∧
      ∀ k, unpaced (((migrate cfg junk mem p s).store.find k).getD (Congestion.init cfg)) =
        unpaced ((s.store.find k).getD (Congestion.init cfg)) := by
  unfold migrate
  cases hf : s.store.find p with
  | some x =>
    refine ⟨rfl, fun k => ?_, fun k => rfl⟩
    show (s.store.find k).isSome = true ↔ _
    refine ⟨Or.inr, fun hk => hk.elim (fun he => ?_) id⟩
    rw [he, hf]
    rfl
  | none =>
    rw [hf] at h
    have hmem : mem = true := h.resolve_right (by decide)
    rw [hmem]
    refine ⟨rfl, fun k => ?_, fun k => ?_⟩
    · show ((s.store.insert p (create cfg junk s)).find k).isSome = true ↔ _
      by_cases hk : k = p
      · rw [hk, OrdMap.find_insert_self]
        exact iff_of_true rfl (Or.inl rfl)
      · rw [OrdMap.find_insert_of_ne _ _ hk]
        exact ⟨Or.inr, fun h => h.resolve_left hk⟩
    · show unpaced (((s.store.insert p (create cfg junk s)).find k).getD _) = _
      by_cases hk : k = p
      · rw [hk, OrdMap.find_insert_self, hf]
        exact create_unpaced cfg junk s
      · rw [OrdMap.find_insert_of_ne _ _ hk]

/-- a path is used -/
theorem use_sees {mem : Bool} {p : Path α} (h : Sees c s) :
    Sees (c.use mem p).1 (pathUse cfg junk mem p s) ∧
      machines cfg (pathUse cfg junk mem p s) =
        (c.use mem p).2.foldl (Focus.move (reportUnpaced cfg cbrt)) (machines cfg s) := by
  unfold Choice.use pathUse
  rw [h.setup, h.disableMigrate]
  split
  · exact ⟨h, rfl⟩
  · obtain ⟨hpath, hdisable⟩ := migrate_path cfg junk mem p { s with path := p }
    by_cases hturn : mem = true ∨ (s.store.find p).isSome = true
    · obtain ⟨hactive, hsome, hget⟩ := migrate_turn cfg junk { s with path := p } hturn
      have hif : (mem || decide (p ∈ c.known)) = true := by
        rw [Bool.or_eq_true, decide_eq_true_iff, h.known]
        exact hturn
      rw [if_pos hif]
      refine ⟨⟨hpath.symm, rfl, hdisable.symm, fun k => ?_, fun k hk => ?_⟩, ?_⟩
      · rw [List.mem_cons, h.known]
        exact (hsome k).symm
      · have hkp := Option.some.inj (hactive.symm.trans hk)
        exact (hsome k).mpr (Or.inl hkp.symm)
      · show Focus.Machines.mk (migrate cfg junk mem p { s with path := p }).active _ = _
        rw [hactive]
        exact congrArg (Focus.Machines.mk (some p)) (funext hget)
    · have hif : ¬ (mem || decide (p ∈ c.known)) = true := by
        rw [Bool.or_eq_true, decide_eq_true_iff, h.known]
        exact hturn
      rw [if_neg hif]
      -- the state is not allocated, and the path is in use all the same
      have hsame : migrate cfg junk mem p { s with path := p } = { s with path := p } := by
        obtain ⟨hmem, hnone⟩ := not_or.mp hturn
        unfold migrate
        rw [Option.not_isSome_iff_eq_none.mp hnone, Bool.eq_false_of_not_eq_true hmem]
        rfl
      rw [hsame]
      exact ⟨⟨rfl, rfl, rfl, h.known, h.active⟩, rfl⟩

theorem step_sees {e : Event α} (h : Sees c s) (hs : step cfg junk cbrt s e = some s') :
    Sees (c.next e).1 s' ∧
      machines cfg s' = (c.next e).2.foldl (Focus.move (reportUnpaced cfg cbrt)) (machines cfg s) := by
  cases e with
  | pathUse mem path =>
    cases hs
    exact use_sees h
  | pathTargetUse mem rmtAddr =>
    cases hs
    unfold pathTargetUse Choice.next
    rw [h.path]
    exact use_sees h
  | disableMigration =>
    cases hs
    exact ⟨⟨h.path, h.setup, rfl, h.known, h.active⟩, rfl⟩
  | report r =>
    obtain ⟨k, hk, hs⟩ := Option.bind_eq_some_iff.mp hs
    obtain ⟨x, hx, rfl⟩ := Option.map_eq_some_iff.mp hs
    have hsome : ∀ j, ((s.store.insert k (report cfg cbrt x r)).find j).isSome =
        (s.store.find j).isSome := by
      intro j
      rw [OrdMap.find_insert]
      split
      · rename_i hj
        rw [hj, hx]
        rfl
      · rfl
    refine ⟨⟨h.path, h.setup, h.disableMigrate, fun j => ?_, fun j hj => ?_⟩, ?_⟩
    · rw [hsome]
      exact h.known j
    · rw [hsome]
      exact h.active j hj
    · show machines cfg _ = Focus.move (reportUnpaced cfg cbrt) (machines cfg s) (.feed r)
      rw [Focus.move_feed_some (reportUnpaced cfg cbrt) (m := machines cfg s) hk]
      show Focus.Machines.mk s.active _ = Focus.Machines.mk s.active _
      refine congrArg (Focus.Machines.mk s.active) (funext fun j => ?_)
      show unpaced (((s.store.insert k (report cfg cbrt x r)).find j).getD _) =
        Function.update (machines cfg s).state k _ j
      rw [OrdMap.find_insert, Function.update_apply]
      split
      · show unpaced (report cfg cbrt x r) =
          unpaced (report cfg cbrt (unpaced ((s.store.find k).getD _)) r)
        rw [hx]
        exact (report_unpaced cfg cbrt x r).symm
      · rfl

/-- a run, seen from the choice -/
theorem run_sees {es : List (Event α)} (h : Sees c s) (hs : run (step cfg junk cbrt) s es = some s') :
    ∃ c' : Choice α, Sees c' s' ∧
      machines cfg s' = (chosen c es).foldl (Focus.move (reportUnpaced cfg cbrt)) (machines cfg s) := by
  induction es generalizing c s with
  | nil =>
    cases hs
    exact ⟨c, h, rfl⟩
  | cons e es ih =>
    rw [run_cons, Option.bind_eq_some_iff] at hs
    obtain ⟨s1, h1, h2⟩ := hs
    obtain ⟨hsees, hmachines⟩ := step_sees h h1
    obtain ⟨c', hc', hrest⟩ := ih hsees h2
    refine ⟨c', hc', ?_⟩
    rw [hrest, hmachines, chosen, List.foldl_append]

end

/-- the choice of a new session -/
def firstChoice (path : Path α) (disableMigrate : Bool) : Choice α :=
  ⟨path, false, disableMigrate, []⟩

/-- What a run with the moves `ms` leaves: the path that was turned to last is active, and every path
has the state that its own reports make of a new one.  The budget that a path starts with comes from
another one; it is gone with the first packet that the path sends. -/
structure Separate (cfg : Config) (cbrt : Nat → Nat) (ms : List (Focus.Move (Path α) Report))
    (s : Paths α) : Prop where
  active : s.active = (Focus.turned [] ms).head?
  states : ∀ p, unpaced ((s.store.find p).getD (Congestion.init cfg)) =
    unpaced ((Focus.fed p none ms).foldl (report cfg cbrt) (Congestion.init cfg))

/-- **Separate paths.**  Whatever paths are used, in whatever order, and whatever is reported, the
state of a path depends on what was reported while it was in use, and on nothing else but the budget
that it starts with. -/
theorem migrated_run (cfg : Config) (junk : Nat) (cbrt : Nat → Nat) (path : Path α)
    (disableMigrate : Bool) (es : List (Event α)) :
    ∀ s, run (step cfg junk cbrt) (init path disableMigrate) es = some s →
      Separate cfg cbrt (chosen (firstChoice path disableMigrate) es) s := by
  intro s hs
  have hsees : Sees (firstChoice path disableMigrate) (init path disableMigrate) :=
    ⟨rfl, rfl, rfl, fun p => iff_of_false List.not_mem_nil Bool.false_ne_true,
      fun k hk => by cases hk⟩
  obtain ⟨_, _, hm⟩ := run_sees hsees hs
  refine ⟨?_, fun p => ?_⟩
  · have hnone : (machines cfg (init path disableMigrate)).cur = ([] : List (Path α)).head? := rfl
    have hcur := Focus.foldl_move_cur (reportUnpaced cfg cbrt)
      (chosen (firstChoice path disableMigrate) es) _ hnone
    rw [← hm] at hcur
    exact hcur
  · have hstate := Focus.foldl_move_state (reportUnpaced cfg cbrt)
      (chosen (firstChoice path disableMigrate) es) (machines cfg (init path disableMigrate)) p
    rw [← hm] at hstate
    exact hstate.trans (foldl_reportUnpaced cfg cbrt (Congestion.init cfg) _)

/-- a path is left after a loss, and used again -/
def returned : List (Event Nat) :=
  [.pathUse true (pathAddr 1 2), .report (.lost 7 1200 0), .pathTargetUse true 3,
    .report (.acked 8 1200 0 900), .pathTargetUse true 2, .report (.acked 9 1200 0 1000)]

example : chosen (firstChoice (pathAddr 0 0) false) returned =
    [.turn (pathAddr 1 2), .feed (.lost 7 1200 0), .turn (pathAddr 1 3),
      .feed (.acked 8 1200 0 900), .turn (pathAddr 1 2), .feed (.acked 9 1200 0 1000)] := rfl

theorem migrated_run_returned : ∃ s,
    run (step serverCfg 0 id) (init (pathAddr 0 0) false) returned = some s ∧
      Separate serverCfg id (chosen (firstChoice (pathAddr 0 0) false) returned) s := by
  have hrun : (run (step serverCfg 0 id) (init (pathAddr 0 0) false) returned).isSome = true := by
    decide +kernel
  obtain ⟨s, hs⟩ := Option.isSome_iff_exists.mp hrun
  exact ⟨s, hs, migrated_run serverCfg 0 id (pathAddr 0 0) false returned s hs⟩

end Migrate

end OpenQuic
