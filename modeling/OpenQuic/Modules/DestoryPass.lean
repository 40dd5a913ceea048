import OpenQuic.Modules.StreamMoves

/-!
# One pass of the stream module

A pass walks the streams that wait for their destruction, takes some of them out of their sets, and
then takes their entries out of the waiting set.

* `due`               a stream is finished on both sides, or its time has come;
* `Passed`            a pass that destroys some of the streams, and lets some of the entries go;
* `moduleLoop_passed` what the code's pass does, for any allocations;
* `OnTime`            the code's comparison of the times agrees with `due`;
* `pass_iff`          the states in which the code destroys exactly the streams that are due.
-/

namespace OpenQuic
open Word Streams StreamLife

namespace DestoryPass

/-- the stream is finished on both sides, or a timeout that is not zero has elapsed since its close -/
def due (cfg : Config) (now : Time) (str : Stream) (d : DestorySid) : Bool :=
  str.destroable ||
    (cfg.streamDestoryTimeout ≠ 0 && d.destoryTime + cfg.streamDestoryTimeout ≤ now)

section
variable (cfg : Config) (now : Time) (st : Streams) (e : Nat × DestorySid)

/-- the entry has a stream, and the code's pass destroys it -/
def hit : Bool := ((st.streams (homeSet cfg e.1)).find e.1).any fun str => expires cfg now str e.2

/-- the entry has a stream that is due -/
def condemned : Bool := ((st.streams (homeSet cfg e.1)).find e.1).any fun str => due cfg now str e.2

/-- the callbacks for a stream that is destroyed -/
def calls : List Life := (if e.2.closedCb then [.closed e.1] else []) ++ [.destoried e.1]

/-- the state without the stream of an entry -/
def strike : Streams :=
  (st.setStreams (homeSet cfg e.1) ((st.streams (homeSet cfg e.1)).erase e.1)).note (calls e)

end

/-- what a pass leaves alone -/
structure SameElse (st st' : Streams) : Prop where
  nextSid : ∀ name, (st'.sets name).nextSid = (st.sets name).nextSid
  rwndUpdated : st'.rwndUpdated = st.rwndUpdated
  acceptCb : st'.acceptCb = st.acceptCb
  framer : st'.framer = st.framer
  conn : st'.conn = st.conn

/-- what happens to the streams when those of the entries `gone` are destroyed -/
structure Swept (cfg : Config) (st : Streams) (es : List (Nat × DestorySid))
    (gone : Nat × DestorySid → Bool) (st' : Streams) : Prop where
  destroyed : ∀ e ∈ es, gone e = true → (st'.streams (homeSet cfg e.1)).find e.1 = none
  kept : ∀ name sid, (∀ e ∈ es, gone e = true → ¬ (homeSet cfg e.1 = name ∧ e.1 = sid)) →
    (st'.streams name).find sid = (st.streams name).find sid
  trace : st'.trace = st.trace ++ (es.filter gone).flatMap calls
  rest : SameElse st st'

/-- **What a pass does.**  The streams of the entries `gone` are destroyed, with their callbacks called
once each, the entries `unlisted` are removed, and nothing else changes. -/
structure Passed (cfg : Config) (st : Streams) (gone unlisted : Nat × DestorySid → Bool)
    (st' : Streams) : Prop extends Swept cfg st st.destorySet.entries gone st' where
  removed : ∀ e ∈ st.destorySet.entries, unlisted e = true → st'.destorySet.find e.1 = none
  pending : ∀ sid, (∀ e ∈ st.destorySet.entries, unlisted e = true → e.1 ≠ sid) →
    st'.destorySet.find sid = st.destorySet.find sid

/-! ## the walk -/

theorem find_strike (cfg : Config) (st : Streams) (e : Nat × DestorySid) (name : SetName) (sid : Nat) :
    ((strike cfg st e).streams name).find sid =
      if homeSet cfg e.1 = name ∧ e.1 = sid then none else (st.streams name).find sid := by
  simp only [eq_comm (a := homeSet cfg e.1), eq_comm (a := e.1)]
  exact find_eraseStream st (homeSet cfg e.1) name e.1 sid

theorem strike_rest (cfg : Config) (st : Streams) (e : Nat × DestorySid) :
    SameElse st (strike cfg st e) := by
  refine ⟨fun name => ?_, rfl, rfl, rfl, rfl⟩
  show ((st.setStreams _ _).sets name).nextSid = _
  unfold setStreams
  dsimp only
  split <;> rfl

theorem SameElse.trans {st st1 st2 : Streams} (h1 : SameElse st st1) (h2 : SameElse st1 st2) :
    SameElse st st2 :=
  ⟨fun name => (h2.nextSid name).trans (h1.nextSid name), h2.rwndUpdated.trans h1.rwndUpdated,
    h2.acceptCb.trans h1.acceptCb, h2.framer.trans h1.framer, h2.conn.trans h1.conn⟩

theorem setDelete_some {st : Streams} {name : SetName} {sid : Nat} {str : Stream}
    (hf : (st.streams name).find sid = some str) : st.setDelete name sid =
      (st.setStreams name ((st.streams name).erase sid)).note [.destoried sid] := by
  unfold setDelete
  rw [hf]

/-- one turn of the walk -/
theorem destoryVisit_eq (cfg : Config) (mem : StreamAlloc) (now : Time) (x : Streams × List Nat)
    (e : Nat × DestorySid) : destoryVisit cfg mem now x e =
      if hit cfg now x.1 e then
        (strike cfg x.1 e, if mem.destoryed e.1 then e.1 :: x.2 else x.2)
      else x := by
  unfold destoryVisit hit
  dsimp only
  cases hf : (x.1.streams (homeSet cfg e.1)).find e.1 with
  | none => rfl
  | some str =>
    rw [Option.any_some]
    dsimp only
    split
    · refine congrArg (fun st => (st, _)) ?_
      unfold strike calls
      cases e.2.closedCb with
      | false => exact setDelete_some hf
      | true =>
        have hnoted : ((x.1.note [.closed e.1]).streams (homeSet cfg e.1)).find e.1 = some str := hf
        refine (setDelete_some hnoted).trans ?_
        unfold note setStreams
        dsimp only
        rw [List.append_assoc]
        rfl
    · rfl

theorem hit_strike {cfg : Config} {now : Time} {st : Streams} {e d : Nat × DestorySid}
    (h : e.1 ≠ d.1) : hit cfg now (strike cfg st e) d = hit cfg now st d := by
  unfold hit
  rw [find_strike, if_neg (fun hc => h hc.2)]

theorem Swept.nil (cfg : Config) (st : Streams) (gone : Nat × DestorySid → Bool) :
    Swept cfg st [] gone st where
  destroyed := fun _ he => absurd he List.not_mem_nil
  kept := fun _ _ _ => rfl
  trace := (List.append_nil _).symm
  rest := ⟨fun _ => rfl, rfl, rfl, rfl, rfl⟩

/-- an entry that stays -/
theorem Swept.miss {cfg : Config} {st st' : Streams} {es : List (Nat × DestorySid)}
    {gone : Nat × DestorySid → Bool} (h : Swept cfg st es gone st') {e : Nat × DestorySid}
    (he : gone e = false) : Swept cfg st (e :: es) gone st' := by
  refine ⟨fun d hd hg => ?_, fun name sid hno => ?_, ?_, h.rest⟩
  · rcases List.mem_cons.mp hd with rfl | hd
    · exact absurd (he.symm.trans hg) Bool.false_ne_true
    · exact h.destroyed d hd hg
  · exact h.kept name sid fun d hd => hno d (List.mem_cons_of_mem _ hd)
  · rw [List.filter_cons_of_neg (by rw [he]; exact Bool.false_ne_true)]
    exact h.trace

/-- an entry whose stream is destroyed before the others are looked at -/
theorem Swept.struck {cfg : Config} {st st' : Streams} {es : List (Nat × DestorySid)}
    {gone gone' : Nat × DestorySid → Bool} {e : Nat × DestorySid}
    (h : Swept cfg (strike cfg st e) es gone' st') (he : gone e = true)
    (hsame : ∀ d ∈ es, gone' d = gone d) (hne : ∀ d ∈ es, d.1 ≠ e.1) :
    Swept cfg st (e :: es) gone st' := by
  refine ⟨fun d hd hg => ?_, fun name sid hno => ?_, ?_, (strike_rest cfg st e).trans h.rest⟩
  · rcases List.mem_cons.mp hd with rfl | hd
    · rw [h.kept _ _ fun c hc _ hk => hne c hc hk.2, find_strike, if_pos ⟨rfl, rfl⟩]
    · exact h.destroyed d hd ((hsame d hd).trans hg)
  · rw [h.kept name sid fun d hd hg =>
        hno d (List.mem_cons_of_mem _ hd) ((hsame d hd).symm.trans hg),
      find_strike, if_neg (hno e List.mem_cons_self he)]
  · rw [h.trace, List.filter_cons_of_pos he, List.filter_congr hsame, List.flatMap_cons]
    exact List.append_assoc _ _ _

/-- Other identifiers are not touched, so what is destroyed can be read off at the start of the walk. -/
theorem walk_swept (cfg : Config) (mem : StreamAlloc) (now : Time) (es : List (Nat × DestorySid))
    (hs : es.Pairwise fun a b => a.1 < b.1) (st : Streams) (done : List Nat) :
    Swept cfg st es (hit cfg now st) (es.foldl (destoryVisit cfg mem now) (st, done)).1 ∧
      (es.foldl (destoryVisit cfg mem now) (st, done)).1.destorySet = st.destorySet ∧
      ∀ sid, sid ∈ (es.foldl (destoryVisit cfg mem now) (st, done)).2 ↔ sid ∈ done ∨
        ∃ e ∈ es, (hit cfg now st e && mem.destoryed e.1) = true ∧ e.1 = sid := by
  induction es generalizing st done with
  | nil => exact ⟨.nil cfg st _, rfl, fun sid => by simp⟩
  | cons e es ih =>
    obtain ⟨hne, hs⟩ := List.pairwise_cons.mp hs
    rw [List.foldl_cons, destoryVisit_eq]
    cases hhit : hit cfg now st e with
    | false =>
      rw [if_neg Bool.false_ne_true]
      obtain ⟨hsw, hset, hdone⟩ := ih hs st done
      refine ⟨hsw.miss hhit, hset, fun sid => ?_⟩
      rw [hdone]
      simp [hhit]
    | true =>
      rw [if_pos rfl]
      obtain ⟨hsw, hset, hdone⟩ := ih hs (strike cfg st e)
        (if mem.destoryed e.1 then e.1 :: done else done)
      have hsame : ∀ d ∈ es, hit cfg now (strike cfg st e) d =
          hit cfg now st d := fun d hd => hit_strike (hne d hd).ne
      refine ⟨hsw.struck hhit hsame fun d hd => (hne d hd).ne', hset, fun sid => ?_⟩
      have hex : (∃ d ∈ es, (hit cfg now (strike cfg st e) d && mem.destoryed d.1) = true ∧
            d.1 = sid) ↔
          ∃ d ∈ es, (hit cfg now st d && mem.destoryed d.1) = true ∧ d.1 = sid :=
        exists_congr fun d => and_congr_right fun hd => by rw [hsame d hd]
      rw [hdone, hex, List.exists_mem_cons_iff, hhit, Bool.true_and]
      cases mem.destoryed e.1 with
      | false => simp
      | true =>
        rw [if_pos rfl, List.mem_cons, eq_comm (a := sid), or_assoc, or_left_comm]
        simp

/-! ## the pass -/

theorem find_eraseAll (sids : List Nat) (m : Rbt DestorySid) (k : Nat) :
    (sids.foldl (fun s sid => s.erase sid) m).find k = if k ∈ sids then none else m.find k := by
  induction sids generalizing m with
  | nil => simp
  | cons sid sids ih =>
    rw [List.foldl_cons, ih, OrdMap.find_erase]
    by_cases hk : k = sid <;> simp [hk]

/-- **The code's pass.**  Where the list of what is destroyed cannot be extended, the entry stays. -/
theorem moduleLoop_passed (cfg : Config) (mem : StreamAlloc) (st : Streams) (now : Time) :
    Passed cfg st (hit cfg now st) (fun e => hit cfg now st e && mem.destoryed e.1)
      (st.moduleLoop cfg mem now) := by
  obtain ⟨hsw, hset, hdone⟩ :=
    walk_swept cfg mem now st.destorySet.entries st.destorySet.sorted st []
  unfold moduleLoop
  dsimp only
  generalize st.destorySet.entries.foldl (destoryVisit cfg mem now) (st, []) = x at hsw hset hdone
  have hmem : ∀ sid, sid ∈ x.2 ↔ ∃ e ∈ st.destorySet.entries,
      (hit cfg now st e && mem.destoryed e.1) = true ∧ e.1 = sid := by
    intro sid
    rw [hdone]
    exact or_iff_right List.not_mem_nil
  refine ⟨⟨hsw.destroyed, hsw.kept, hsw.trace, ?_⟩, fun e he hu => ?_, fun sid hno => ?_⟩
  · exact ⟨hsw.rest.nextSid, hsw.rest.rwndUpdated, hsw.rest.acceptCb, hsw.rest.framer, hsw.rest.conn⟩
  · show (x.2.foldl _ x.1.destorySet).find e.1 = none
    rw [find_eraseAll, if_pos ((hmem e.1).mpr ⟨e, he, hu, rfl⟩)]
  · show (x.2.foldl _ x.1.destorySet).find sid = _
    rw [find_eraseAll, if_neg, hset]
    intro hm
    obtain ⟨e, he, hu, hk⟩ := (hmem sid).mp hm
    exact hno e he hu hk

/-- what is due is destroyed, its entry removed, and nothing else changes -/
def PassOk (cfg : Config) (mem : StreamAlloc) (st : Streams) (now : Time) : Prop :=
  Passed cfg st (condemned cfg now st) (condemned cfg now st) (st.moduleLoop cfg mem now)

/-- the time of an entry has come just now, or the sum of its times wraps and is over -/
def OnTime (cfg : Config) (now : Time) (d : DestorySid) : Prop :=
  now = d.destoryTime + cfg.streamDestoryTimeout ∨
    (2 ^ 64 ≤ d.destoryTime + cfg.streamDestoryTimeout ∧
      add64 cfg.streamDestoryTimeout d.destoryTime < now)

/-- the entries for which the code does what is asked -/
structure Right (cfg : Config) (mem : StreamAlloc) (now : Time) (str : Stream)
    (e : Nat × DestorySid) : Prop where
  time : str.destroable = true ∨ cfg.streamDestoryTimeout = 0 ∨ OnTime cfg now e.2
  node : due cfg now str e.2 = true → mem.destoryed e.1 = true

/-- the two directions of a comparison agree when the two sides are equal, or when one has wrapped -/
theorem comparison_iff {now s a : Nat} (hnow : now < 2 ^ 64) (ha : a = s % 2 ^ 64) :
    (now ≤ a ↔ s ≤ now) ↔ now = s ∨ (2 ^ 64 ≤ s ∧ a < now) := by
  omega

theorem expires_eq_due_iff (cfg : Config) {now : Time} (hnow : now < 2 ^ 64) (str : Stream)
    (d : DestorySid) : expires cfg now str d = due cfg now str d ↔
      str.destroable = true ∨ cfg.streamDestoryTimeout = 0 ∨ OnTime cfg now d := by
  unfold expires due OnTime
  cases str.destroable with
  | true => exact iff_of_true rfl (Or.inl rfl)
  | false =>
    by_cases h0 : cfg.streamDestoryTimeout = 0
    · rw [h0]
      exact iff_of_true rfl (Or.inr (Or.inl rfl))
    · have hadd : add64 cfg.streamDestoryTimeout d.destoryTime =
          (d.destoryTime + cfg.streamDestoryTimeout) % 2 ^ 64 := by
        rw [Nat.add_comm]
        rfl
      simp only [Bool.false_or, ne_eq, h0, not_false_eq_true, decide_true, Bool.true_and,
        Bool.false_eq_true, false_or, decide_eq_decide]
      exact comparison_iff hnow hadd

/-- two entries with one key are one entry -/
theorem entry_unique {st : Streams} {e d : Nat × DestorySid} (he : e ∈ st.destorySet.entries)
    (hd : d ∈ st.destorySet.entries) (hk : d.1 = e.1) : d = e := by
  have he' : (d.1, e.2) ∈ st.destorySet.entries := by rw [hk]; exact he
  exact Prod.ext hk (st.destorySet.val_unique hd he')

/-- what one description of a pass destroys, another one destroys too -/
theorem Swept.le {cfg : Config} {st st' : Streams} {p q : Nat × DestorySid → Bool}
    (hp : Swept cfg st st.destorySet.entries p st') (hq : Swept cfg st st.destorySet.entries q st')
    {e : Nat × DestorySid} {str : Stream} (he : e ∈ st.destorySet.entries)
    (hf : (st.streams (homeSet cfg e.1)).find e.1 = some str) (h : p e = true) : q e = true := by
  by_contra hne
  have hkept := hq.kept (homeSet cfg e.1) e.1 fun d hd hqd hk =>
    hne (entry_unique he hd hk.2 ▸ hqd)
  rw [hp.destroyed e he h, hf] at hkept
  cases hkept

theorem Passed.congr {cfg : Config} {st st' : Streams} {p q p' q' : Nat × DestorySid → Bool}
    (h : Passed cfg st p q st') (hp : ∀ e ∈ st.destorySet.entries, p e = p' e)
    (hq : ∀ e ∈ st.destorySet.entries, q e = q' e) : Passed cfg st p' q' st' := by
  refine ⟨⟨fun e he hg => h.destroyed e he ((hp e he).trans hg), fun name sid hno => ?_, ?_, h.rest⟩,
    fun e he hu => h.removed e he ((hq e he).trans hu), fun sid hno => ?_⟩
  · exact h.kept name sid fun e he hg => hno e he ((hp e he).symm.trans hg)
  · rw [h.trace, List.filter_congr hp]
  · exact h.pending sid fun e he hu => hno e he ((hq e he).symm.trans hu)

/-- **The pass of the stream module.**  The code destroys exactly what is due in the states in which
no finished stream is kept and no time is over by more than nothing. -/
theorem pass_iff (cfg : Config) (mem : StreamAlloc) (st : Streams) {now : Time} (hnow : now < 2 ^ 64) :
    PassOk cfg mem st now ↔ ∀ e ∈ st.destorySet.entries, ∀ str,
      (st.streams (homeSet cfg e.1)).find e.1 = some str → Right cfg mem now str e := by
  have hcode := moduleLoop_passed cfg mem st now
  have hof : ∀ (e : Nat × DestorySid) str, (st.streams (homeSet cfg e.1)).find e.1 = some str →
      hit cfg now st e = expires cfg now str e.2 ∧ condemned cfg now st e = due cfg now str e.2 := by
    intro e str hf
    unfold hit condemned
    rw [hf]
    exact ⟨rfl, rfl⟩
  constructor
  · intro h e he str hf
    obtain ⟨hhit, hcond⟩ := hof e str hf
    refine ⟨(expires_eq_due_iff cfg hnow str e.2).mp ?_, fun hdue => ?_⟩
    · rw [← hhit, ← hcond]
      exact Bool.eq_iff_iff.mpr ⟨hcode.toSwept.le h.toSwept he hf, h.toSwept.le hcode.toSwept he hf⟩
    · by_contra hfull
      -- the entry of a stream that is gone stays behind
      have hkept := hcode.pending e.1 fun d hd hu hk => hfull (hk ▸ (Bool.and_eq_true_iff.mp hu).2)
      rw [h.removed e he (hcond.trans hdue)] at hkept
      have hfind : st.destorySet.find e.1 = some e.2 := OrdMap.find_eq_some.mpr he
      rw [hfind] at hkept
      cases hkept
  · intro h
    have heq : ∀ e ∈ st.destorySet.entries, hit cfg now st e = condemned cfg now st e := by
      intro e he
      cases hf : (st.streams (homeSet cfg e.1)).find e.1 with
      | none =>
        unfold hit condemned
        rw [hf]
        rfl
      | some str =>
        obtain ⟨hhit, hcond⟩ := hof e str hf
        rw [hhit, hcond]
        exact (expires_eq_due_iff cfg hnow str e.2).mpr (h e he str hf).time
    refine hcode.congr heq fun e he => ?_
    cases hf : (st.streams (homeSet cfg e.1)).find e.1 with
    | none =>
      unfold hit condemned
      rw [hf]
      rfl
    | some str =>
      obtain ⟨_, hcond⟩ := hof e str hf
      rw [heq e he, hcond]
      cases hdue : due cfg now str e.2 with
      | false => rfl
      | true => exact (h e he str hf).node hdue

/-- an open stream in the set of the streams to be destroyed, put into it at the time 100 -/
def closedOnce : Streams :=
  let st := («open» { serverCfg with streamDestoryTimeout := 50 } (.init serverCfg) true)
  { st with destorySet := st.destorySet.insert 1 ⟨100, true⟩ }

theorem pass_iff_closedOnce : (150 : Nat) < 2 ^ 64 ∧
    (PassOk { serverCfg with streamDestoryTimeout := 50 } .ok closedOnce 150 ↔
      ∀ e ∈ closedOnce.destorySet.entries, ∀ str,
        (closedOnce.streams (homeSet { serverCfg with streamDestoryTimeout := 50 } e.1)).find e.1 =
          some str → Right { serverCfg with streamDestoryTimeout := 50 } .ok 150 str e) :=
  ⟨by decide, pass_iff _ .ok closedOnce (by decide)⟩

/-- The stream is destroyed at once, long before its time. -/
theorem not_pass :
    ¬ ∀ (cfg : Config) (mem : StreamAlloc) (st : Streams) (now : Time), now < 2 ^ 64 →
      PassOk cfg mem st now := by
  intro h
  have hp := h { serverCfg with streamDestoryTimeout := 50 } .ok closedOnce 101 (by decide)
  have hmem : (1, ⟨100, true⟩) ∈ closedOnce.destorySet.entries := by decide
  have hcode := moduleLoop_passed { serverCfg with streamDestoryTimeout := 50 } .ok closedOnce 101
  have hcond := hcode.toSwept.le hp.toSwept hmem rfl rfl
  exact absurd hcond (by decide)

end DestoryPass
end OpenQuic
