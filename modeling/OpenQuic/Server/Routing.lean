import OpenQuic.Lib.Runs
import OpenQuic.Server.Impl

/-!
# Routing on the server

* `issueSrc_spec`, `retireSrc_spec`, `retireAll_find`   what the operations of one session do to the
                      table and to its own IDs;
* `Isolated`, `isolated_iff`   the entries of the other sessions: an operation leaves them alone if
                      and only if it retires no ID that is in the table for one of them;
* `Registered`        the table has exactly the IDs that live sessions have under the numbers from
                      1 on;
* `routing_run`       along guarded runs the table is right, and a packet reaches the session that
                      has its ID if and only if it is not an Initial packet and the ID is not only
                      the first one of the session.
-/

namespace OpenQuic
open Word Connids

/-! ## what an operation does to the table -/

theorem retireConnidCb_eq (connid : ConnId) (t : OrdMap ConnId Nat) :
    retireConnidCb connid t = t.erase connid := by
  unfold retireConnidCb
  split
  · rename_i hf
    exact (OrdMap.erase_eq_self hf).symm
  · rfl

/-- an ID is drawn until it is not in the table -/
theorem drawConnid_spec {a connidLen : Nat} {ds : List Draw} {t : OrdMap ConnId Nat}
    {x : ConnId × OrdMap ConnId Nat}
    (h : drawConnid (some (newConnidCb a)) connidLen ds t = some x) :
    t.find x.1 = none ∧ x.2 = t.insert x.1 a := by
  induction ds with
  | nil => cases h
  | cons d ds ih =>
    unfold drawConnid at h
    extract_lets connid at h
    dsimp only at h
    rcases hcb : newConnidCb a d.node connid t with ⟨taken, t'⟩
    rw [hcb] at h
    unfold newConnidCb at hcb
    split at hcb
    · cases hcb
      exact ih h
    · rename_i hs
      split at hcb
      · cases hcb
        rw [← Option.some.inj h]
        exact ⟨by simpa using hs, rfl⟩
      · cases hcb
        exact ih h

/-- What the issue of an ID does: the ID is new to the table, and the session has it under the next
number unless its node could not be allocated. -/
structure Issued (a : Nat) (mem : ConnidAlloc) (s : Connids) (t : OrdMap ConnId Nat) (id : ConnId)
    (s' : Connids) (t' : OrdMap ConnId Nat) : Prop where
  fresh : t.find id = none
  table : t' = t.insert id a
  hseq : s'.gen.srcHseq = if mem.gened then add64 s.gen.srcHseq 1 else s.gen.srcHseq
  srcs : s'.gen.srcs =
    if mem.gened then s.gen.srcs.insert (add64 s.gen.srcHseq 1) id else s.gen.srcs

theorem issueSrc_spec {a : Nat} {mem : ConnidAlloc} {ds : List Draw} {s : Connids}
    {t : OrdMap ConnId Nat} {x : Connids × OrdMap ConnId Nat × Err}
    (h : s.issueSrc (some (newConnidCb a)) mem ds t = some x) :
    (x.1 = s ∧ x.2.1 = t) ∨ ∃ id, Issued a mem s t id x.1 x.2.1 := by
  unfold issueSrc at h
  split at h
  · rw [← Option.some.inj h]
    exact Or.inl ⟨rfl, rfl⟩
  · split at h
    · cases h
    · obtain ⟨y, hy, hx⟩ := Option.map_eq_some_iff.mp h
      obtain ⟨hfresh, htable⟩ := drawConnid_spec hy
      refine Or.inr ⟨y.1, ?_⟩
      rw [← hx]
      cases hg : mem.gened with
      | false =>
        rw [if_pos (show (!false) = true from rfl)]
        exact ⟨hfresh, htable, by rw [hg]; rfl, by rw [hg]; rfl⟩
      | true =>
        rw [if_neg (show ¬ (!true) = true from Bool.false_ne_true)]
        extract_lets key g s1
        split
        · exact ⟨hfresh, htable, by rw [hg]; rfl, by rw [hg]; rfl⟩
        · exact ⟨hfresh, htable, by rw [hg]; rfl, by rw [hg]; rfl⟩

/-- the IDs of a session without the one under `seq` -/
def Connids.dropSrc (s : Connids) (seq : Nat) : Connids :=
  { s with gen := { s.gen with srcs := s.gen.srcs.erase seq } }

/-- A retirement takes the ID from the session and its value from the table; for a number other than 0
a new ID is issued. -/
theorem retireSrc_spec {a seq : Nat} {mem : ConnidAlloc} {ds : List Draw} {s : Connids}
    {t : OrdMap ConnId Nat} {x : Connids × OrdMap ConnId Nat × Err}
    (h : s.retireSrc (some (newConnidCb a)) (some retireConnidCb) mem ds seq t = some x) :
    ((s.gen.srcHseq < seq ∨ s.gen.srcs.find seq = none) ∧ x.1 = s ∧ x.2.1 = t) ∨
    ∃ id, seq ≤ s.gen.srcHseq ∧ s.gen.srcs.find seq = some id ∧
      ((seq = 0 ∧ x.1 = s.dropSrc seq ∧ x.2.1 = t.erase id) ∨
        (seq ≠ 0 ∧ ∃ y, (s.dropSrc seq).issueSrc (some (newConnidCb a)) mem ds (t.erase id) = some y ∧
          x.1 = y.1 ∧ x.2.1 = y.2.1)) := by
  unfold retireSrc at h
  split at h
  · rename_i hlt
    rw [← Option.some.inj h]
    exact Or.inl ⟨Or.inl hlt, rfl, rfl⟩
  · rename_i hle
    cases hf : s.gen.srcs.find seq with
    | none =>
      rw [hf] at h
      rw [← Option.some.inj h]
      exact Or.inl ⟨Or.inr rfl, rfl, rfl⟩
    | some id =>
      rw [hf] at h
      dsimp only at h
      rw [retireConnidCb_eq] at h
      refine Or.inr ⟨id, Nat.le_of_not_lt hle, rfl, ?_⟩
      split at h
      · rename_i h0
        rw [← Option.some.inj h]
        exact Or.inl ⟨h0, rfl, rfl⟩
      · rename_i h0
        obtain ⟨y, hy, hx⟩ := Option.map_eq_some_iff.mp h
        rw [← hx]
        exact Or.inr ⟨h0, y, hy, rfl, rfl⟩

theorem retireAll_find (s : Connids) (t : OrdMap ConnId Nat) (id : ConnId) :
    (s.retireAll (some retireConnidCb) t).find id =
      if id ∈ s.gen.srcs.entries.map Prod.snd then none else t.find id := by
  show (s.gen.srcs.entries.foldl (fun t e => retireConnidCb e.2 t) t).find id = _
  induction s.gen.srcs.entries generalizing t with
  | nil => rfl
  | cons e l ih =>
    rw [List.foldl_cons, ih, retireConnidCb_eq, List.map_cons]
    by_cases hl : id ∈ l.map Prod.snd
    · rw [if_pos hl, if_pos (List.mem_cons_of_mem _ hl)]
    · rw [if_neg hl, OrdMap.find_erase]
      exact if_congr (by simp only [List.mem_cons, hl, or_false]) rfl rfl

namespace Server

/-! ## the entries of the other sessions -/

/-- the entries for sessions other than `a` are the same -/
def Isolated (a : Nat) (s s' : Server) : Prop :=
  ∀ id b, b ≠ a → (s'.sessions.find id = some b ↔ s.sessions.find id = some b)

/-- an operation that session `a` causes -/
inductive Operation (a : Nat) : Event → Prop where
  | issue (mem : ConnidAlloc) (ds : List Draw) : Operation a (.issue mem ds a)
  | retire (mem : ConnidAlloc) (ds : List Draw) (seq : Nat) : Operation a (.retire mem ds a seq)
  | close : Operation a (.close a)

/-- the IDs that an operation of a session with the IDs `s` takes from the table -/
def retiredIds (s : Connids) : Event → List ConnId
  | .retire _ _ _ seq => if seq ≤ s.gen.srcHseq then (s.gen.srcs.find seq).toList else []
  | .close _ => s.gen.srcs.entries.map Prod.snd
  | _ => []

/-- no ID that the operation takes from the table is there for another session -/
def Harmless (a : Nat) (s : Server) (e : Event) : Prop :=
  ∀ c, s.live.find a = some c → ∀ id ∈ retiredIds c.ids e, ∀ b, s.sessions.find id = some b → b = a

theorem running_eq_some {s : Server} {a : Nat} {c : Conn} (h : s.running a = some c) :
    s.live.find a = some c ∧ c.started = true := Option.filter_eq_some_iff.mp h

/-- an issue takes an ID that was in nobody's entry -/
theorem issueSrc_others {a b : Nat} {mem : ConnidAlloc} {ds : List Draw} {s : Connids}
    {t : OrdMap ConnId Nat} {x : Connids × OrdMap ConnId Nat × Err}
    (h : s.issueSrc (some (newConnidCb a)) mem ds t = some x) (hb : b ≠ a) (id : ConnId) :
    x.2.1.find id = some b ↔ t.find id = some b := by
  rcases issueSrc_spec h with ⟨_, ht⟩ | ⟨new, hi⟩
  · rw [ht]
  · rw [hi.table]
    by_cases he : id = new
    · rw [he, OrdMap.find_insert_self, hi.fresh]
      exact ⟨fun h => absurd (Option.some.inj h).symm hb, nofun⟩
    · rw [OrdMap.find_insert_of_ne _ _ he]

/-- **Isolation.**  An operation of session `a`, in any state, leaves the entries of the others alone if
and only if it retires no ID that is in the table for one of them. -/
theorem isolated_iff {s s' : Server} {a : Nat} {e : Event} (he : Operation a e)
    (h : s.step e = some s') : Isolated a s s' ↔ Harmless a s e := by
  -- where an operation takes the IDs `ids` and adds none of another session
  have key : ∀ {c : Conn} {ids : List ConnId}, s.live.find a = some c → retiredIds c.ids e = ids →
      (∀ id b, b ≠ a → (s'.sessions.find id = some b ↔ id ∉ ids ∧ s.sessions.find id = some b)) →
      (Isolated a s s' ↔ Harmless a s e) := by
    intro c ids hc hids hs
    constructor
    · intro hiso c' hc' id hid b hb
      cases hc.symm.trans hc'
      rw [hids] at hid
      by_contra hne
      exact ((hs id b hne).mp ((hiso id b hne).mpr hb)).1 hid
    · intro hharm id b hne
      rw [hs id b hne]
      refine ⟨And.right, fun hb => ⟨fun hid => hne ?_, hb⟩⟩
      rw [← hids] at hid
      exact hharm c hc id hid b hb
  cases he with
  | issue mem ds =>
    obtain ⟨c, hc, h⟩ := Option.bind_eq_some_iff.mp h
    obtain ⟨x, hx, h⟩ := Option.bind_eq_some_iff.mp h
    refine key (running_eq_some hc).1 (show retiredIds c.ids (.issue mem ds a) = [] from rfl)
      fun id b hb => ?_
    rw [← Option.some.inj h]
    show x.2.1.find id = some b ↔ _
    rw [issueSrc_others hx hb]
    simp
  | retire mem ds seq =>
    obtain ⟨c, hc, h⟩ := Option.bind_eq_some_iff.mp h
    obtain ⟨x, hx, h⟩ := Option.bind_eq_some_iff.mp h
    refine key (running_eq_some hc).1 rfl fun id b hb => ?_
    rw [← Option.some.inj h]
    show x.2.1.find id = some b ↔ id ∉ (if seq ≤ c.ids.gen.srcHseq then
      (c.ids.gen.srcs.find seq).toList else []) ∧ _
    rcases retireSrc_spec hx with ⟨hnone, _, ht⟩ | ⟨old, hle, hf, hcase⟩
    · rw [ht]
      rcases hnone with hlt | hf
      · rw [if_neg (Nat.not_le.mpr hlt)]
        simp
      · rw [hf]
        simp
    · rw [if_pos hle, hf, Option.toList_some, List.mem_singleton]
      rcases hcase with ⟨_, _, ht⟩ | ⟨_, y, hy, _, ht⟩
      · rw [ht, OrdMap.find_erase_eq_some]
      · rw [ht, issueSrc_others hy hb, OrdMap.find_erase_eq_some]
  | close =>
    obtain ⟨c, hc, h⟩ := Option.map_eq_some_iff.mp h
    refine key (running_eq_some hc).1 rfl fun id b _ => ?_
    rw [← h]
    show (c.ids.retireAll (some retireConnidCb) s.sessions).find id = some b ↔ _
    rw [retireAll_find]
    split
    · rename_i hm
      exact ⟨nofun, fun hx => absurd hm hx.1⟩
    · rename_i hm
      exact ⟨fun hx => ⟨hm, hx⟩, And.right⟩

/-- an Initial packet with an 8-byte destination ID and an empty source ID -/
def initialPacket (byte : UInt8) : List UInt8 := [0xc0, 0, 0, 0, 1, 8] ++ List.replicate 8 byte ++ [0]

/-- session 0 issues an ID, and the client of session 1 has chosen the same one -/
def chosen : List Event :=
  [.recv .ok (initialPacket 1), .start .ok 0, .issue .ok [⟨fun _ => 5, true⟩] 0,
    .recv .ok (initialPacket 5), .start .ok 1]

theorem isolated_iff_chosen : ∃ s s' : Server, Runs.run step init chosen = some s ∧
    s.step (.retire .ok [⟨fun _ => 6, true⟩] 0 1) = some s' ∧ Isolated 0 s s' := by
  have hrun : ((Runs.run step init chosen).bind fun s =>
      (s.step (.retire .ok [⟨fun _ => 6, true⟩] 0 1)).bind fun _ =>
        (s.live.find 0).map fun c => (retiredIds c.ids (.retire .ok [] 0 1)).map s.sessions.find) =
      some [some 0] := by decide +kernel
  obtain ⟨s, hs, h⟩ := Option.bind_eq_some_iff.mp hrun
  obtain ⟨s', hs', h⟩ := Option.bind_eq_some_iff.mp h
  obtain ⟨c, hc, h⟩ := Option.map_eq_some_iff.mp h
  refine ⟨s, s', hs, hs', (isolated_iff (.retire _ _ _) hs').mpr fun c' hc' id hid b hb => ?_⟩
  cases hc.symm.trans hc'
  have hm : s.sessions.find id ∈ [some 0] := h ▸ List.mem_map_of_mem hid
  rw [hb, List.mem_singleton] at hm
  exact Option.some.inj hm

/-- A client takes an entry away by choosing its ID for its first packet and retiring number 0. -/
theorem not_isolated : ¬ ∀ (es : List Event) (s s' : Server) (a : Nat) (e : Event),
    Runs.run step init es = some s → Operation a e → s.step e = some s' → Isolated a s s' := by
  intro h
  have hrun : ((Runs.run step init chosen).bind fun s => (s.step (.retire .ok [] 1 0)).map fun s' =>
      (s.sessions.find ⟨List.replicate 8 5⟩, s'.sessions.find ⟨List.replicate 8 5⟩)) =
      some (some 0, none) := by decide +kernel
  obtain ⟨s, hs, hrun⟩ := Option.bind_eq_some_iff.mp hrun
  obtain ⟨s', hs', hrun⟩ := Option.map_eq_some_iff.mp hrun
  obtain ⟨h1, h2⟩ := Prod.mk.inj hrun
  have := (h chosen s s' 1 _ hs (.retire _ _ _) hs' _ 0 (by decide)).mpr h1
  rw [h2] at this
  cases this

/-! ## the table along a run -/

/-- the session has issued the ID under number `k` -/
def Issue (c : Conn) (k : Nat) (id : ConnId) : Prop := 1 ≤ k ∧ c.ids.gen.srcs.find k = some id

structure Registered (s : Server) : Prop where
  table : ∀ id a, s.sessions.find id = some a ↔ ∃ c k, s.live.find a = some c ∧ Issue c k id
  apart : ∀ a c, s.live.find a = some c → ∀ j k id, Issue c j id → Issue c k id → j = k
  numbers : ∀ a c, s.live.find a = some c → ∀ k id, Issue c k id → k ≤ c.ids.gen.srcHseq
  fresh : ∀ a c, s.live.find a = some c → a < s.next

theorem init_registered : Registered init :=
  ⟨fun _ _ => ⟨nofun, nofun⟩, nofun, nofun, nofun⟩

/-- One session changes, or is new, and the table has its IDs. -/
theorem Registered.update {s : Server} (h : Registered s) {a n : Nat} {c : Conn}
    {t : OrdMap ConnId Nat}
    (ht : ∀ id b, t.find id = some b ↔
      (b ≠ a ∧ s.sessions.find id = some b) ∨ (b = a ∧ ∃ k, Issue c k id))
    (hapart : ∀ j k id, Issue c j id → Issue c k id → j = k)
    (hnum : ∀ k id, Issue c k id → k ≤ c.ids.gen.srcHseq) (ha : a < n) (hn : s.next ≤ n) :
    Registered { s with sessions := t, live := s.live.insert a c, next := n } := by
  have hlive : ∀ b d, (s.live.insert a c).find b = some d ↔
      (b = a ∧ d = c) ∨ (b ≠ a ∧ s.live.find b = some d) :=
    fun _ _ => OrdMap.find_insert_eq_some
  refine ⟨fun id b => ?_, fun b d hd => ?_, fun b d hd => ?_, fun b d hd => ?_⟩
  · rw [ht]
    constructor
    · rintro (⟨hb, hf⟩ | ⟨rfl, k, hk⟩)
      · obtain ⟨d, k, hd, hk⟩ := (h.table id b).mp hf
        exact ⟨d, k, (hlive b d).mpr (Or.inr ⟨hb, hd⟩), hk⟩
      · exact ⟨c, k, (hlive b c).mpr (Or.inl ⟨rfl, rfl⟩), hk⟩
    · rintro ⟨d, k, hd, hk⟩
      rcases (hlive b d).mp hd with ⟨rfl, rfl⟩ | ⟨hb, hd⟩
      · exact Or.inr ⟨rfl, k, hk⟩
      · exact Or.inl ⟨hb, (h.table id b).mpr ⟨d, k, hd, hk⟩⟩
  · rcases (hlive b d).mp hd with ⟨_, rfl⟩ | ⟨_, hd⟩
    · exact hapart
    · exact h.apart b d hd
  · rcases (hlive b d).mp hd with ⟨_, rfl⟩ | ⟨_, hd⟩
    · exact hnum
    · exact h.numbers b d hd
  · rcases (hlive b d).mp hd with ⟨rfl, _⟩ | ⟨_, hd⟩
    · exact ha
    · exact lt_of_lt_of_le (h.fresh b d hd) hn

/-- what the table says of one session and of the others -/
theorem Registered.table_split {s : Server} (h : Registered s) {a : Nat} {c : Conn}
    (hc : s.live.find a = some c) (id : ConnId) (b : Nat) : s.sessions.find id = some b ↔
      (b ≠ a ∧ s.sessions.find id = some b) ∨ (b = a ∧ ∃ k, Issue c k id) := by
  by_cases hb : b = a
  · rw [hb, h.table]
    constructor
    · rintro ⟨d, k, hd, hk⟩
      cases hc.symm.trans hd
      exact Or.inr ⟨rfl, k, hk⟩
    · rintro (⟨hne, _⟩ | ⟨_, k, hk⟩)
      · exact absurd rfl hne
      · exact ⟨c, k, hc, hk⟩
  · simp [hb]

/-- a session whose issued IDs stay -/
theorem Registered.same {s : Server} (h : Registered s) {a : Nat} {c c' : Conn}
    (hc : s.live.find a = some c) (hids : ∀ k id, Issue c' k id ↔ Issue c k id)
    (hseq : c'.ids.gen.srcHseq = c.ids.gen.srcHseq) :
    Registered { s with live := s.live.insert a c' } := by
  refine h.update (fun id b => ?_) (fun j k id hj hk => ?_) (fun k id hk => ?_) (h.fresh a c hc) le_rfl
  · simp only [hids]
    exact h.table_split hc id b
  · exact h.apart a c hc j k id ((hids j id).mp hj) ((hids k id).mp hk)
  · rw [hseq]
    exact h.numbers a c hc k id ((hids k id).mp hk)

/-- a session without IDs is created -/
theorem Registered.create {s : Server} (h : Registered s) {c : Conn}
    (hids : ∀ k id, ¬ Issue c k id) :
    Registered { s with live := s.live.insert s.next c, next := s.next + 1 } := by
  refine h.update (fun id b => ?_) (fun j _ id hj => absurd hj (hids j id))
    (fun k id hk => absurd hk (hids k id)) (Nat.lt_succ_self _) (Nat.le_succ _)
  constructor
  · intro hf
    obtain ⟨d, k, hd, _⟩ := (h.table id b).mp hf
    exact Or.inl ⟨(h.fresh b d hd).ne, hf⟩
  · rintro (⟨_, hf⟩ | ⟨_, k, hk⟩)
    · exact hf
    · exact absurd hk (hids k id)

/-- an ID is issued under the next number -/
theorem Registered.issued {s : Server} (h : Registered s) {a : Nat} {c : Conn}
    (hc : s.live.find a = some c) {mem : ConnidAlloc} {new : ConnId} {ids : Connids}
    {t : OrdMap ConnId Nat} (hi : Issued a mem c.ids s.sessions new ids t)
    (hmem : mem.gened = true) (hw : c.ids.gen.srcHseq + 1 < 2 ^ 64) :
    Registered (s.put a c ids t) := by
  obtain ⟨hfresh, htable, hseq, hsrcs⟩ := hi
  rw [if_pos hmem, add64_of_lt hw] at hseq hsrcs
  have hnot : ∀ k, ¬ Issue c k new := by
    intro k hk
    rw [(h.table new a).mpr ⟨c, k, hc, hk⟩] at hfresh
    cases hfresh
  have hids : ∀ k id, Issue { c with ids := ids } k id ↔
      (k = c.ids.gen.srcHseq + 1 ∧ id = new) ∨ Issue c k id := by
    intro k id
    show 1 ≤ k ∧ ids.gen.srcs.find k = some id ↔ _
    rw [hsrcs, OrdMap.find_insert_eq_some]
    constructor
    · rintro ⟨hk, hnew | ⟨_, hold⟩⟩
      · exact Or.inl hnew
      · exact Or.inr ⟨hk, hold⟩
    · rintro (⟨rfl, hid⟩ | hold)
      · exact ⟨Nat.le_add_left _ _, Or.inl ⟨rfl, hid⟩⟩
      · have := h.numbers a c hc k id hold
        exact ⟨hold.1, Or.inr ⟨by omega, hold.2⟩⟩
  refine h.update (fun id b => ?_) (fun j k id hj hk => ?_) (fun k id hk => ?_) (h.fresh a c hc) le_rfl
  · rw [htable]
    simp only [hids]
    by_cases hid : id = new
    · rw [hid, OrdMap.find_insert_self, hfresh]
      constructor
      · intro hb
        exact Or.inr ⟨(Option.some.inj hb).symm, _, Or.inl ⟨rfl, rfl⟩⟩
      · rintro (⟨_, hx⟩ | ⟨hb, _⟩)
        · cases hx
        · rw [hb]
    · rw [OrdMap.find_insert_of_ne _ _ hid]
      simp only [hid, and_false, false_or]
      exact h.table_split hc id b
  · rcases (hids j id).mp hj with ⟨hj', hid⟩ | hj <;> rcases (hids k id).mp hk with ⟨hk', hid'⟩ | hk
    · omega
    · rw [hid] at hk
      exact absurd hk (hnot k)
    · rw [hid'] at hj
      exact absurd hj (hnot j)
    · exact h.apart a c hc j k id hj hk
  · show k ≤ ids.gen.srcHseq
    rw [hseq]
    rcases (hids k id).mp hk with ⟨hk, _⟩ | hk
    · exact hk.le
    · exact (h.numbers a c hc k id hk).trans (Nat.le_succ _)

/-- an ID is retired; that of number 0 must not be in the table -/
theorem Registered.drop {s : Server} (h : Registered s) {a seq : Nat} {c : Conn} {old : ConnId}
    (hc : s.live.find a = some c) (hf : c.ids.gen.srcs.find seq = some old)
    (h0 : seq = 0 → s.sessions.find old = none) :
    Registered (s.put a c (c.ids.dropSrc seq) (s.sessions.erase old)) := by
  have hids : ∀ k id, Issue { c with ids := c.ids.dropSrc seq } k id ↔ Issue c k id ∧ k ≠ seq := by
    intro k id
    show 1 ≤ k ∧ (c.ids.gen.srcs.erase seq).find k = some id ↔ _
    rw [OrdMap.find_erase_eq_some, and_left_comm, and_comm]
    rfl
  -- nobody has issued the ID under another number
  have hown : ∀ b d k, s.live.find b = some d → Issue d k old → b = a ∧ k = seq := by
    intro b d k hd hk
    have hb := (h.table old b).mpr ⟨d, k, hd, hk⟩
    have hseq : 1 ≤ seq := by
      rcases Nat.eq_zero_or_pos seq with hz | hp
      · rw [h0 hz] at hb
        cases hb
      · exact hp
    have hab := hb.symm.trans ((h.table old a).mpr ⟨c, seq, hc, hseq, hf⟩)
    have hba : b = a := Option.some.inj hab
    rw [hba, hc] at hd
    cases hd
    exact ⟨hba, h.apart a c hc k seq old hk ⟨hseq, hf⟩⟩
  refine h.update (fun id b => ?_) (fun j k id hj hk => ?_) (fun k id hk => ?_) (h.fresh a c hc) le_rfl
  · simp only [hids]
    by_cases hid : id = old
    · rw [hid, OrdMap.find_erase_self]
      refine ⟨nofun, ?_⟩
      rintro (⟨hb, hx⟩ | ⟨_, k, hk, hne⟩)
      · obtain ⟨d, k, hd, hk⟩ := (h.table old b).mp hx
        exact absurd (hown b d k hd hk).1 hb
      · exact absurd (hown a c k hc hk).2 hne
    · rw [OrdMap.find_erase_of_ne _ hid]
      refine (h.table_split hc id b).trans (or_congr_right (and_congr_right fun _ => ?_))
      constructor
      · rintro ⟨k, hk⟩
        refine ⟨k, hk, fun he => hid ?_⟩
        have := hk.2
        rw [he, hf] at this
        exact (Option.some.inj this).symm
      · rintro ⟨k, hk, _⟩
        exact ⟨k, hk⟩
  · exact h.apart a c hc j k id ((hids j id).mp hj).1 ((hids k id).mp hk).1
  · exact h.numbers a c hc k id ((hids k id).mp hk).1

/-- a session ends; its first ID must not be in the table for another one -/
theorem Registered.close {s : Server} (h : Registered s) {a : Nat} {c : Conn}
    (hc : s.live.find a = some c)
    (h0 : ∀ id, c.ids.gen.srcs.find 0 = some id → ∀ b, s.sessions.find id = some b → b = a) :
    Registered { s with
      sessions := c.ids.retireAll (some retireConnidCb) s.sessions
      live := s.live.erase a } := by
  have hlive : ∀ b d, (s.live.erase a).find b = some d ↔ b ≠ a ∧ s.live.find b = some d :=
    fun _ _ => OrdMap.find_erase_eq_some
  have hmem : ∀ id, id ∈ c.ids.gen.srcs.entries.map Prod.snd ↔
      ∃ k, c.ids.gen.srcs.find k = some id := by
    intro id
    simp only [List.mem_map, OrdMap.find_eq_some]
    constructor
    · rintro ⟨⟨k, _⟩, he, rfl⟩
      exact ⟨k, he⟩
    · rintro ⟨k, hk⟩
      exact ⟨(k, id), hk, rfl⟩
  refine ⟨fun id b => ?_, fun b d hd => ?_, fun b d hd => ?_, fun b d hd => ?_⟩
  · show (c.ids.retireAll (some retireConnidCb) s.sessions).find id = some b ↔ _
    rw [retireAll_find]
    split
    · rename_i hm
      obtain ⟨k, hk⟩ := (hmem id).mp hm
      refine ⟨nofun, ?_⟩
      rintro ⟨d, j, hd, hj⟩
      obtain ⟨hb, hd⟩ := (hlive b d).mp hd
      have hsb := (h.table id b).mpr ⟨d, j, hd, hj⟩
      rcases Nat.eq_zero_or_pos k with hz | hp
      · rw [hz] at hk
        exact absurd (h0 id hk b hsb) hb
      · exact absurd (Option.some.inj (hsb.symm.trans ((h.table id a).mpr ⟨c, k, hc, hp, hk⟩))) hb
    · rename_i hm
      rw [h.table]
      constructor
      · rintro ⟨d, k, hd, hk⟩
        refine ⟨d, k, (hlive b d).mpr ⟨fun hb => hm ?_, hd⟩, hk⟩
        rw [hb, hc] at hd
        cases hd
        exact (hmem id).mpr ⟨k, hk.2⟩
      · rintro ⟨d, k, hd, hk⟩
        exact ⟨d, k, ((hlive b d).mp hd).2, hk⟩
  · exact h.apart b d ((hlive b d).mp hd).2
  · exact h.numbers b d ((hlive b d).mp hd).2
  · exact h.fresh b d ((hlive b d).mp hd).2

/-- The condition on an operation: an issue finds room, number 0 is retired only while its ID is not in
the table, and a session closes only while the ID of number 0 is not there for another one. -/
def Guarded (s : Server) : Event → Prop
  | .recv _ _ => True
  | .start _ _ => True
  | .issue mem _ a => mem.gened = true ∧ ∀ c ∈ s.live.find a, c.ids.gen.srcHseq + 1 < 2 ^ 64
  | .retire mem _ a seq => ∀ c ∈ s.live.find a, ∀ id ∈ c.ids.gen.srcs.find seq,
      if seq = 0 then s.sessions.find id = none
      else mem.gened = true ∧ c.ids.gen.srcHseq + 1 < 2 ^ 64
  | .close a => ∀ c ∈ s.live.find a, ∀ id ∈ c.ids.gen.srcs.find 0,
      ∀ b ∈ s.sessions.find id, b = a

instance decidableGuarded (s : Server) : (e : Event) → Decidable (Guarded s e)
  | .recv _ _ => isTrue trivial
  | .start _ _ => isTrue trivial
  | .issue _ _ a => inferInstanceAs (Decidable (_ = true ∧ ∀ c ∈ s.live.find a, _ < _))
  | .retire mem _ a seq => inferInstanceAs (Decidable (∀ c ∈ s.live.find a,
      ∀ id ∈ c.ids.gen.srcs.find seq, if seq = 0 then s.sessions.find id = none
        else mem.gened = true ∧ _ < _))
  | .close a => inferInstanceAs (Decidable (∀ c ∈ s.live.find a,
      ∀ id ∈ c.ids.gen.srcs.find 0, ∀ b ∈ s.sessions.find id, b = a))

theorem start_spec (mem : ConnidAlloc) (s : Connids) : (s.start mem).1.gen.srcHseq = s.gen.srcHseq ∧
    ∀ k, k ≠ 0 → (s.start mem).1.gen.srcs.find k = s.gen.srcs.find k := by
  unfold Connids.start
  split
  · exact ⟨rfl, fun _ _ => rfl⟩
  · extract_lets g s1 g1
    split
    · exact ⟨rfl, fun k hk => OrdMap.find_insert_of_ne _ _ hk⟩
    · exact ⟨rfl, fun k hk => OrdMap.find_insert_of_ne _ _ hk⟩

/-- a packet that creates no session is pushed to at most one -/
theorem push_registered {s s' : Server} (h : Registered s) {a : Nat} {p : List UInt8}
    (hp : s.push a p = some s') : Registered s' := by
  obtain ⟨c, hc, rfl⟩ := Option.map_eq_some_iff.mp hp
  exact h.same hc (fun _ _ => Iff.rfl) rfl

/-- what `quic_server_transmission_recv_cb` does with a packet -/
theorem recvCb_cases {s s' : Server} {mem : RecvAlloc} {p : List UInt8}
    (h : s.recvCb mem p = some s') :
    ((p.head?.map packetType) = some packetInitialType ∧ (s' = s ∨ ∃ dst src,
      s' = { s with
        live := s.live.insert s.next ⟨Connids.create s.connidLen dst src, false, [p]⟩
        next := s.next + 1 })) ∨
    ((p.head?.map packetType) ≠ some packetInitialType ∧ ∃ id, target s.connidLen p = some id ∧
      ((s.sessions.find id = none ∧ s' = s) ∨
        ∃ a, s.sessions.find id = some a ∧ s.push a p = some s')) := by
  unfold recvCb at h
  obtain ⟨first, hfirst, h⟩ := Option.bind_eq_some_iff.mp h
  have hhead : p.head? = some first := by rw [List.head?_eq_getElem?, hfirst]
  rw [hhead, Option.map_some]
  split at h
  · rename_i htype
    obtain ⟨dst, _, h⟩ := Option.bind_eq_some_iff.mp h
    obtain ⟨src, _, h⟩ := Option.bind_eq_some_iff.mp h
    refine Or.inl ⟨congrArg some htype, ?_⟩
    split at h
    · cases h
    · split at h
      · exact Or.inl (Option.some.inj h).symm
      · exact Or.inr ⟨⟨dst⟩, src, (Option.some.inj h).symm⟩
  · rename_i htype
    obtain ⟨id, hid, h⟩ := Option.bind_eq_some_iff.mp h
    refine Or.inr ⟨fun he => htype (Option.some.inj he), id, hid, ?_⟩
    cases hf : s.sessions.find id with
    | none =>
      rw [hf] at h
      exact Or.inl ⟨rfl, (Option.some.inj h).symm⟩
    | some a =>
      rw [hf] at h
      exact Or.inr ⟨a, rfl, h⟩

/-- **One step.**  A guarded step keeps the table right. -/
theorem step_registered {s s' : Server} {e : Event} (h : Registered s) (hg : Guarded s e)
    (hs : s.step e = some s') : Registered s' := by
  cases e with
  | recv mem p =>
    rcases recvCb_cases hs with ⟨_, rfl | ⟨dst, src, rfl⟩⟩ | ⟨_, _, _, ⟨_, rfl⟩ | ⟨a, _, hp⟩⟩
    · exact h
    · exact h.create fun k id hk => by cases hk.2
    · exact h
    · exact push_registered h hp
  | start mem a =>
    obtain ⟨c, hc, rfl⟩ := Option.map_eq_some_iff.mp hs
    obtain ⟨h1, h2⟩ := start_spec mem c.ids
    refine h.same (Option.filter_eq_some_iff.mp hc).1 (fun k id => ?_) h1
    exact and_congr_right fun hk => by
      show (c.ids.start mem).1.gen.srcs.find k = some id ↔ _
      rw [h2 k (Nat.ne_of_gt hk)]
  | issue mem ds a =>
    obtain ⟨c, hc, hs⟩ := Option.bind_eq_some_iff.mp hs
    obtain ⟨x, hx, hs⟩ := Option.bind_eq_some_iff.mp hs
    have hc' := (running_eq_some hc).1
    rw [← Option.some.inj hs]
    rcases issueSrc_spec hx with ⟨h1, h2⟩ | ⟨id, hi⟩
    · rw [h1, h2]
      exact h.same hc' (fun _ _ => Iff.rfl) rfl
    · exact h.issued hc' hi hg.1 (hg.2 c hc')
  | retire mem ds a seq =>
    obtain ⟨c, hc, hs⟩ := Option.bind_eq_some_iff.mp hs
    obtain ⟨x, hx, hs⟩ := Option.bind_eq_some_iff.mp hs
    have hc' := (running_eq_some hc).1
    rw [← Option.some.inj hs]
    rcases retireSrc_spec hx with ⟨_, h1, h2⟩ | ⟨old, _, hf, ⟨h0, h1, h2⟩ | ⟨h0, y, hy, h1, h2⟩⟩
    · rw [h1, h2]
      exact h.same hc' (fun _ _ => Iff.rfl) rfl
    · rw [h1, h2]
      have hnone := hg c hc' old hf
      rw [if_pos h0] at hnone
      exact h.drop hc' hf fun _ => hnone
    · rw [h1, h2]
      have hroom := hg c hc' old hf
      rw [if_neg h0] at hroom
      have hdrop := h.drop hc' hf fun hz => absurd hz h0
      have hc1 : (s.put a c (c.ids.dropSrc seq) (s.sessions.erase old)).live.find a =
          some { c with ids := c.ids.dropSrc seq } := OrdMap.find_insert_self _ _ _
      -- the second put replaces the first
      have hput : ∀ ids t, s.put a c ids t = (s.put a c (c.ids.dropSrc seq)
          (s.sessions.erase old)).put a { c with ids := c.ids.dropSrc seq } ids t := by
        intro ids t
        show Server.mk _ _ _ _ = Server.mk _ _ _ _
        congr 1
        exact (OrdMap.insert_insert _ _ _ _).symm
      rw [hput]
      rcases issueSrc_spec hy with ⟨h3, h4⟩ | ⟨id, hi⟩
      · rw [h3, h4]
        exact hdrop.same hc1 (fun _ _ => Iff.rfl) rfl
      · exact hdrop.issued hc1 hi hroom.1 hroom.2
  | close a =>
    obtain ⟨c, hc, rfl⟩ := Option.map_eq_some_iff.mp hs
    have hc' := (running_eq_some hc).1
    exact h.close hc' fun id hf b hb => hg c hc' id hf b hb

/-! ## packets -/

/-- an Initial packet -/
def IsInitial (p : List UInt8) : Prop := p.head?.map packetType = some packetInitialType

/-- the packet is queued to session `a` and to no other, and no session is created -/
def Routed (a : Nat) (p : List UInt8) (s s' : Server) : Prop :=
  s'.next = s.next ∧ ∀ b, s'.live.find b = (s.live.find b).map fun c =>
    if b = a then { c with queued := c.queued ++ [p] } else c

theorem not_routed_self {s : Server} {a : Nat} {c : Conn} (hc : s.live.find a = some c)
    (p : List UInt8) : ¬ Routed a p s s := by
  intro hr
  have h := hr.2 a
  rw [hc, Option.map_some, if_pos rfl] at h
  have hlen := congrArg (fun c => c.queued.length) (Option.some.inj h)
  rw [List.length_append] at hlen
  exact absurd hlen (by simp)

theorem push_routed {s s' : Server} {b : Nat} {p : List UInt8} (hp : s.push b p = some s') :
    Routed b p s s' := by
  obtain ⟨c, hc, rfl⟩ := Option.map_eq_some_iff.mp hp
  refine ⟨rfl, fun d => ?_⟩
  by_cases hd : d = b
  · rw [hd, hc]
    simp
  · show (s.live.insert b _).find d = _
    rw [OrdMap.find_insert_of_ne _ _ hd]
    simp [hd]

/-- a packet with an ID of session `a`: it reaches the session if and only if it is not an Initial
packet and the session has issued the ID -/
theorem routed_iff {s s' : Server} (h : Registered s) {mem : RecvAlloc} {p : List UInt8} {id : ConnId}
    {a : Nat} {c : Conn} (hid : target s.connidLen p = some id) (hc : s.live.find a = some c)
    (hs : s.step (.recv mem p) = some s') :
    Routed a p s s' ↔ ¬ IsInitial p ∧ ∃ k, Issue c k id := by
  rcases recvCb_cases hs with ⟨hi, rfl | ⟨dst, src, rfl⟩⟩ | ⟨hi, id', hid', hcase⟩
  · exact ⟨fun hr => absurd hr (not_routed_self hc p), fun hx => absurd hi hx.1⟩
  · exact ⟨fun hr => absurd hr.1 (Nat.succ_ne_self _), fun hx => absurd hi hx.1⟩
  · cases hid.symm.trans hid'
    rcases hcase with ⟨hnone, rfl⟩ | ⟨b, hb, hp⟩
    · refine ⟨fun hr => absurd hr (not_routed_self hc p), ?_⟩
      rintro ⟨_, k, hk⟩
      rw [(h.table id a).mpr ⟨c, k, hc, hk⟩] at hnone
      cases hnone
    · have hr := push_routed hp
      constructor
      · intro hra
        have hba : b = a := by
          by_contra hne
          have h1 := hra.2 a
          have h2 := hr.2 a
          rw [h1, hc, Option.map_some, Option.map_some, if_pos rfl, if_neg (Ne.symm hne)] at h2
          have hlen := congrArg (fun c => c.queued.length) (Option.some.inj h2)
          rw [List.length_append] at hlen
          exact absurd hlen (by simp)
        obtain ⟨d, k, hd, hk⟩ := (h.table id b).mp hb
        rw [hba, hc] at hd
        cases hd
        exact ⟨hi, k, hk⟩
      · rintro ⟨_, k, hk⟩
        have hab := hb.symm.trans ((h.table id a).mpr ⟨c, k, hc, hk⟩)
        rwa [Option.some.inj hab] at hr

/-- **Routing.**  In every state of a guarded run the table takes an ID to a session if and only if the
session has issued it, and a packet with an ID of a session is queued to it, and to no other, if and only if
it is not an Initial packet and the session has issued the ID. -/
theorem routing_run (es : List Event) (hg : Runs.Along step Guarded init es) :
    ∀ past, past <+: es → ∀ s, Runs.run step init past = some s →
      (∀ a c, s.live.find a = some c → ∀ id, s.sessions.find id = some a ↔
        ∃ k, 1 ≤ k ∧ c.ids.gen.srcs.find k = some id) ∧
      ∀ mem p id a c s', target s.connidLen p = some id → s.live.find a = some c →
        (∃ k, c.ids.gen.srcs.find k = some id) → s.step (.recv mem p) = some s' →
          (Routed a p s s' ↔ ¬ IsInitial p ∧ ∃ k, 1 ≤ k ∧ c.ids.gen.srcs.find k = some id) := by
  intro past hpast s hs
  have h : Registered s := Runs.run_reached (fun _ _ _ hi hge h => step_registered hi hge h)
    init_registered hg hpast hs
  refine ⟨fun a c hc id => ?_, ?_⟩
  · rw [h.table]
    constructor
    · rintro ⟨d, k, hd, hk⟩
      cases hc.symm.trans hd
      exact ⟨k, hk⟩
    · rintro ⟨k, hk⟩
      exact ⟨c, k, hc, hk⟩
  · intro mem p id a c s' hid hc _ hs'
    exact routed_iff h hid hc hs'

/-- two sessions, IDs that are issued and retired, and a close -/
def served : List Event :=
  [.recv .ok (initialPacket 1), .start .ok 0, .issue .ok [⟨fun _ => 5, true⟩] 0,
    .recv .ok (initialPacket 2), .start .ok 1,
    .issue .ok [⟨fun _ => 5, true⟩, ⟨fun _ => 6, true⟩] 1, .retire .ok [] 0 0,
    .retire .ok [⟨fun _ => 7, true⟩] 0 1, .recv .ok (0x40 :: List.replicate 8 7), .close 1]

theorem routing_run_served : Runs.Along step Guarded init served ∧
    ∀ past, past <+: served → ∀ s, Runs.run step init past = some s →
      (∀ a c, s.live.find a = some c → ∀ id, s.sessions.find id = some a ↔
        ∃ k, 1 ≤ k ∧ c.ids.gen.srcs.find k = some id) ∧
      ∀ mem p id a c s', target s.connidLen p = some id → s.live.find a = some c →
        (∃ k, c.ids.gen.srcs.find k = some id) → s.step (.recv mem p) = some s' →
          (Routed a p s s' ↔ ¬ IsInitial p ∧ ∃ k, 1 ≤ k ∧ c.ids.gen.srcs.find k = some id) :=
  ⟨by decide +kernel, routing_run served (by decide +kernel)⟩

/-- An Initial packet that is sent again creates a second session, although the first one has its
destination ID under number 0. -/
theorem not_routing_run : ¬ ∀ (es : List Event) (s : Server), Runs.run step init es = some s →
    ∀ mem p id a c s', target s.connidLen p = some id → s.live.find a = some c →
      (∃ k, c.ids.gen.srcs.find k = some id) → s.step (.recv mem p) = some s' →
        Routed a p s s' := by
  intro h
  have hrun : ((Runs.run step init [.recv .ok (initialPacket 1), .start .ok 0]).bind fun s =>
      (s.live.find 0).bind fun c => (s.step (.recv .ok (initialPacket 1))).map fun s' =>
        (target s.connidLen (initialPacket 1), c.ids.gen.srcs.find 0, s.next, s'.next)) =
      some (some ⟨List.replicate 8 1⟩, some ⟨List.replicate 8 1⟩, 1, 2) := by decide +kernel
  obtain ⟨s, hs, hrun⟩ := Option.bind_eq_some_iff.mp hrun
  obtain ⟨c, hc, hrun⟩ := Option.bind_eq_some_iff.mp hrun
  obtain ⟨s', hs', hrun⟩ := Option.map_eq_some_iff.mp hrun
  obtain ⟨h1, h2⟩ := Prod.mk.inj hrun
  obtain ⟨h2, h3⟩ := Prod.mk.inj h2
  obtain ⟨h3, h4⟩ := Prod.mk.inj h3
  have hr := (h _ s hs .ok _ _ 0 c s' h1 hc ⟨0, h2⟩ hs').1
  rw [h3, h4] at hr
  exact absurd hr (by decide)

end Server
end OpenQuic
