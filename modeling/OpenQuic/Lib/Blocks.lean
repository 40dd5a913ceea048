import Mathlib.Data.List.Basic

/-!
# Logs with several writers

A log is a list of entries, each with the writer that it comes from.

* `tag i bs`          the entries of one writer;
* `Absent log i`      the writer has no entry;
* `Open log i bs`     its entries are `bs`, one after another, and they end the log;
* `Block log i bs`    its entries are `bs`, one after another;
* `Open.extend`, `Block.other`   what the entries of the same and of another writer do to them;
* `Block.filter`      a block holds all entries of its writer.
-/

namespace Blocks

variable {ι α : Type*} {log : List (ι × α)} {i j : ι} {bs : List α}

def tag (i : ι) (bs : List α) : List (ι × α) := bs.map (Prod.mk i)

def Absent (log : List (ι × α)) (i : ι) : Prop := ∀ x ∈ log, x.1 ≠ i

def Open (log : List (ι × α)) (i : ι) (bs : List α) : Prop :=
  ∃ pre, log = pre ++ tag i bs ∧ Absent pre i

def Block (log : List (ι × α)) (i : ι) (bs : List α) : Prop :=
  ∃ pre post, log = pre ++ tag i bs ++ post ∧ Absent pre i ∧ Absent post i

theorem tag_append (i : ι) (bs cs : List α) : tag i (bs ++ cs) = tag i bs ++ tag i cs :=
  List.map_append

theorem map_snd_tag (i : ι) (bs : List α) : (tag i bs).map Prod.snd = bs := by
  rw [tag, List.map_map]
  exact List.map_id bs

theorem mem_tag {x : ι × α} (h : x ∈ tag i bs) : x.1 = i := by
  obtain ⟨b, _, rfl⟩ := List.mem_map.mp h
  rfl

theorem absent_tag (h : j ≠ i) (bs : List α) : Absent (tag j bs) i := fun _ hx he =>
  h ((mem_tag hx).symm.trans he)

theorem Absent.append {log' : List (ι × α)} (h : Absent log i) (h' : Absent log' i) :
    Absent (log ++ log') i := fun x hx => (List.mem_append.mp hx).elim (h x) (h' x)

theorem Absent.opened (h : Absent log i) : Open log i [] := ⟨log, (List.append_nil log).symm, h⟩

theorem Open.block (h : Open log i bs) : Block log i bs := by
  obtain ⟨pre, rfl, hpre⟩ := h
  exact ⟨pre, [], (List.append_nil _).symm, hpre, fun _ hx => absurd hx List.not_mem_nil⟩

/-- the entries of the last writer lengthen its block -/
theorem Open.extend (h : Open log i bs) (cs : List α) : Open (log ++ tag i cs) i (bs ++ cs) := by
  obtain ⟨pre, rfl, hpre⟩ := h
  exact ⟨pre, by rw [tag_append, List.append_assoc], hpre⟩

/-- the entries of another writer leave a block as it is -/
theorem Block.other (h : Block log i bs) (hne : j ≠ i) (cs : List α) :
    Block (log ++ tag j cs) i bs := by
  obtain ⟨pre, post, rfl, hpre, hpost⟩ := h
  exact ⟨pre, post ++ tag j cs, List.append_assoc _ _ _, hpre, hpost.append (absent_tag hne cs)⟩

/-- the entries of the writer, in order -/
theorem Block.filter [DecidableEq ι] (h : Block log i bs) :
    log.filter (fun x => x.1 = i) = tag i bs := by
  obtain ⟨pre, post, rfl, hpre, hpost⟩ := h
  have hnone : ∀ l : List (ι × α), Absent l i → l.filter (fun x => x.1 = i) = [] := by
    intro l hl
    refine List.filter_eq_nil_iff.mpr fun x hx => ?_
    simpa using hl x hx
  have hall : (tag i bs).filter (fun x => x.1 = i) = tag i bs := by
    refine List.filter_eq_self.mpr fun x hx => ?_
    simpa using mem_tag hx
  rw [List.filter_append, List.filter_append, hnone _ hpre, hnone _ hpost, hall, List.nil_append,
    List.append_nil]

theorem Block.count [DecidableEq ι] (h : Block log i bs) :
    (log.filter fun x => x.1 = i).length = bs.length := by
  rw [h.filter, tag, List.length_map]

end Blocks
