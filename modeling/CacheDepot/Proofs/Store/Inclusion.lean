import CacheDepot.Proofs.Store.Retention
import CacheDepot.Proofs.Store.Refinement
import Mathlib.Data.List.Induction

/-!
# More room never costs a hit

Two stores do the same things, and one has more room than the other. The entries of the smaller
store stand in the larger one in the same order, among others that the smaller store has dropped.
There are never more of these than the larger store has more room: so when the larger store is
full, the smaller one is full as well, and what the larger one drops is dropped by both or was
not in the smaller one any more.
-/

namespace CacheDepot

/-- A filter takes from a list at least what it takes from a part of it. -/
theorem length_filter_add_le {α : Type} {part whole : List α} (h : part.Sublist whole)
    (keep : α → Bool) :
    (whole.filter keep).length + part.length ≤ (part.filter keep).length + whole.length := by
  have taken := (h.filter fun a => !keep a).length_le
  have split := part.length_eq_length_filter_add keep
  have split' := whole.length_eq_length_filter_add keep
  omega

namespace UseList

variable {l larger : UseList} {key : CacheKey} {now : Nat}

/-- The entries of a list stand in the larger one in the same order, and the larger one has no more
entries besides than it has more room. -/
structure Includes (larger l : UseList) : Prop where
  entries : l.entries.Sublist larger.entries
  spare : larger.entries.length + l.capacity ≤ l.entries.length + larger.capacity
  defaultTtl : larger.defaultTtl = l.defaultTtl

namespace Includes

theorem lookup (h : larger.Includes l) (distinct : (larger.entries.map Prod.fst).Nodup)
    {e : Entry} (found : l.lookup key = some e) : larger.lookup key = some e := by
  obtain ⟨before, after, split, -⟩ := List.lookup_eq_some_iff.mp found
  exact lookup_eq_some_of_mem distinct (h.entries.subset (by simp [split]))

theorem lookup_eq_none (h : larger.Includes l) (distinct : (larger.entries.map Prod.fst).Nodup)
    (absent : larger.lookup key = none) : l.lookup key = none := by
  refine Option.eq_none_iff_forall_ne_some.mpr ?_
  intro e found
  cases absent.symm.trans (h.lookup distinct found)

/-- Both lists lose the entries that a filter takes. -/
theorem filter (h : larger.Includes l) (keep : CacheKey × Entry → Bool) (t t' : Tally) :
    Includes { larger with entries := larger.entries.filter keep, tally := t }
      { l with entries := l.entries.filter keep, tally := t' } where
  entries := h.entries.filter keep
  spare := by
    have taken := length_filter_add_le h.entries keep
    have spare := h.spare
    dsimp only
    omega
  defaultTtl := h.defaultTtl

/-- Both lists get the same entry at the back. -/
theorem push (h : larger.Includes l) (b : CacheKey × Entry) (t t' : Tally) :
    Includes { larger with entries := larger.entries ++ [b], tally := t }
      { l with entries := l.entries ++ [b], tally := t' } where
  entries := h.entries.append_right [b]
  spare := by
    have spare := h.spare
    simp only [List.length_append, List.length_singleton]
    omega
  defaultTtl := h.defaultTtl

/-- A key that only the larger list has is read there and becomes its most recently used one. -/
theorem read (h : larger.Includes l) (absent : l.lookup key = none) {e : Entry}
    (found : larger.lookup key = some e) (new : Entry) (t t' : Tally) :
    Includes { larger with entries := larger.without key ++ [(key, new)], tally := t }
      { l with tally := t' } where
  entries := by
    have kept := h.entries.filter fun b => decide (b.1 ≠ key)
    rw [← without, without_of_lookup_eq_none absent] at kept
    exact kept.trans (List.sublist_append_left _ _)
  spare := by
    have shorter := length_without_lt found
    have spare := h.spare
    simp only [List.length_append, List.length_singleton]
    omega
  defaultTtl := h.defaultTtl

/-- When the larger list has to drop its front, the smaller one is full as well. -/
theorem makeRoom (h : larger.Includes l) (distinct : (larger.entries.map Prod.fst).Nodup)
    (key : CacheKey) :
    (l.makeRoom key).Sublist (larger.makeRoom key) ∧
      (larger.makeRoom key).length + l.capacity ≤ (l.makeRoom key).length + larger.capacity := by
  have spare := h.spare
  have positive := l.positive
  have positive' := larger.positive
  rw [UseList.makeRoom, UseList.makeRoom]
  cases found : larger.lookup key with
  | some e =>
    have shorter := length_without_lt found
    have kept := h.entries.filter fun b => decide (b.1 ≠ key)
    have taken := length_filter_add_le h.entries fun b => decide (b.1 ≠ key)
    rw [← without, ← without] at kept taken
    cases found' : l.lookup key with
    | some e' => exact ⟨kept, by dsimp only; omega⟩
    | none =>
      rw [without_of_lookup_eq_none found'] at kept
      dsimp only
      split
      · exact ⟨kept, by omega⟩
      · refine ⟨(List.tail_sublist _).trans kept, ?_⟩
        rw [List.length_tail]
        omega
  | none =>
    rw [h.lookup_eq_none distinct found]
    dsimp only
    by_cases room : l.entries.length < l.capacity
    · have room' : larger.entries.length < larger.capacity := by omega
      rw [if_pos room, if_pos room']
      exact ⟨h.entries, spare⟩
    · rw [if_neg room]
      by_cases room' : larger.entries.length < larger.capacity
      · rw [if_pos room']
        refine ⟨(List.tail_sublist _).trans h.entries, ?_⟩
        rw [List.length_tail]
        omega
      · rw [if_neg room']
        refine ⟨h.entries.tail, ?_⟩
        rw [List.length_tail, List.length_tail]
        omega

theorem set (h : larger.Includes l) (distinct : (larger.entries.map Prod.fst).Nodup) (now : Nat)
    (key : CacheKey) (value : Json) (ttl : Option Duration) :
    (larger.set now key value ttl).2.Includes (l.set now key value ttl).2 := by
  obtain ⟨kept, spare⟩ := h.makeRoom distinct key
  obtain ⟨capacity, defaultTtl⟩ := l.limits_perform now (.set key value ttl)
  obtain ⟨capacity', defaultTtl'⟩ := larger.limits_perform now (.set key value ttl)
  refine ⟨?_, ?_, defaultTtl'.trans (h.defaultTtl.trans defaultTtl.symm)⟩
  · rw [entries_set, entries_set, h.defaultTtl]
    exact kept.append_right _
  · have same : (l.set now key value ttl).2.capacity = l.capacity := capacity
    have same' : (larger.set now key value ttl).2.capacity = larger.capacity := capacity'
    rw [entries_set, entries_set, same, same', List.length_append, List.length_append,
      List.length_singleton, List.length_singleton]
    omega

theorem getEntry (h : larger.Includes l) (distinct : (larger.entries.map Prod.fst).Nodup)
    (now : Nat) (key : CacheKey) :
    (larger.getEntry now key).2.Includes (l.getEntry now key).2 := by
  rw [UseList.getEntry, UseList.getEntry]
  cases found : larger.lookup key with
  | none =>
    rw [h.lookup_eq_none distinct found]
    exact ⟨h.entries, h.spare, h.defaultTtl⟩
  | some e =>
    cases found' : l.lookup key with
    | some e' =>
      obtain rfl : e' = e := Option.some.inj ((h.lookup distinct found').symm.trans found)
      dsimp only
      split
      · exact h.filter _ _ _
      · exact (h.filter (fun b => decide (b.1 ≠ key)) larger.tally l.tally).push _ _ _
    | none =>
      dsimp only
      split
      · have taken := h.filter (fun b => decide (b.1 ≠ key)) larger.tally l.tally
        rw [← without, ← without, without_of_lookup_eq_none found'] at taken
        exact ⟨taken.entries, taken.spare, taken.defaultTtl⟩
      · exact h.read found' found _ _ _

theorem delete (h : larger.Includes l) (distinct : (larger.entries.map Prod.fst).Nodup)
    (key : CacheKey) : (larger.delete key).2.Includes (l.delete key).2 := by
  have taken := h.filter (fun b => decide (b.1 ≠ key)) larger.tally l.tally
  rw [← without, ← without] at taken
  rw [UseList.delete, UseList.delete]
  cases found : larger.lookup key with
  | none =>
    rw [h.lookup_eq_none distinct found]
    exact h
  | some e =>
    cases found' : l.lookup key with
    | some e' => exact ⟨taken.entries, taken.spare, taken.defaultTtl⟩
    | none =>
      rw [without_of_lookup_eq_none found'] at taken
      exact ⟨taken.entries, taken.spare, taken.defaultTtl⟩

theorem perform (h : larger.Includes l) (distinct : (larger.entries.map Prod.fst).Nodup)
    (now : Nat) (operation : StoreOperation) :
    (larger.perform now operation).2.Includes (l.perform now operation).2 := by
  cases operation with
  | set key value ttl => exact h.set distinct now key value ttl
  | get key => exact h.getEntry distinct now key
  | getEntry key => exact h.getEntry distinct now key
  | peek key => exact h
  | delete key => exact h.delete distinct key
  | sweep => exact h.filter _ _ _
  | clear =>
    have room := h.entries.length_le
    have spare := h.spare
    have fits : l.capacity ≤ larger.capacity := by omega
    exact ⟨.slnil, Nat.add_le_add_left fits 0, h.defaultTtl⟩

end Includes

theorem includes_new {capacity larger : Nat} (fits : capacity ≤ larger)
    (defaultTtl : Option Duration) :
    (new larger defaultTtl).Includes (new capacity defaultTtl) where
  entries := .slnil
  spare := by
    dsimp only [new, List.length_nil]
    omega
  defaultTtl := rfl

/-- At the end of every run the larger list includes the smaller one. -/
theorem includes_run {capacity larger : Nat} (fits : capacity ≤ larger)
    (defaultTtl : Option Duration) (operations : List (Nat × StoreOperation))
    (short : operations.length < UInt64.size) :
    ((new larger defaultTtl).run operations).2.Includes
      ((new capacity defaultTtl).run operations).2 := by
  induction operations using List.reverseRecOn with
  | nil => exact includes_new fits defaultTtl
  | append_singleton before last ih =>
    rw [List.length_append, List.length_singleton] at short
    obtain ⟨-, represents⟩ := (represents_new larger defaultTtl).run
      (bounded_new larger defaultTtl) (Nat.le_refl 0) before (by omega)
    rw [run_concat, run_concat]
    exact (ih (by omega)).perform represents.nodup last.1 last.2

end UseList

namespace Store

/-- A store with more room has at every point of a run what one with less room has, whatever the
clocks read: each key of the smaller store leads to the same entry in the larger one, and what a
read or a look finds in the smaller store it finds in the larger one. This holds as long as the
ticks do not wrap, since the order of use is lost then. -/
theorem run_includes {capacity larger : Nat} (fits : capacity ≤ larger)
    (defaultTtl : Option Duration) (operations : List (Nat × StoreOperation))
    (short : operations.length < UInt64.size) :
    ∀ before, before <+: operations →
      let s := ((new capacity defaultTtl).run before).2
      let t := ((new larger defaultTtl).run before).2
      (∀ key e, s.entries.get? key = some e → t.entries.get? key = some e) ∧
      ∀ now key,
        (∀ value, (s.get now key).1 = some value → (t.get now key).1 = some value) ∧
        (∀ e, (s.getEntry now key).1 = some e → (t.getEntry now key).1 = some e) ∧
        ∀ e, s.peek now key = some e → t.peek now key = some e := by
  intro before upTo s t
  have few : before.length < UInt64.size := Nat.lt_of_le_of_lt upTo.length_le short
  have represents : ∀ capacity, Represents ((new capacity defaultTtl).run before).2
      ((UseList.new capacity defaultTtl).run before).2 := fun capacity =>
    ((represents_new capacity defaultTtl).run (UseList.bounded_new capacity defaultTtl)
      (Nat.le_refl 0) before (by omega)).2
  have includes := UseList.includes_run fits defaultTtl before few
  have entries : ∀ key e, s.entries.get? key = some e → t.entries.get? key = some e := by
    intro key e bound
    rw [(represents capacity).get?] at bound
    rw [(represents larger).get?]
    exact includes.lookup (represents larger).nodup bound
  have looks : ∀ now key e, s.peek now key = some e → t.peek now key = some e := by
    intro now key e found
    rw [peek_eq_some_iff] at found ⊢
    exact ⟨entries key e found.1, found.2⟩
  refine ⟨entries, fun now key => ⟨?_, ?_, looks now key⟩⟩
  · intro value found
    rw [fst_get] at found ⊢
    obtain ⟨e, live, rfl⟩ := Option.map_eq_some_iff.mp found
    rw [looks now key e live, Option.map_some]
  · intro e found
    rw [fst_getEntry] at found ⊢
    obtain ⟨e, live, rfl⟩ := Option.map_eq_some_iff.mp found
    rw [looks now key e live, Option.map_some]

/-- Two keys of which a small store keeps one, a read of each, and what goes by itself. -/
def rivalRun : List (Nat × StoreOperation) :=
  [(1, .set ⟨"a"⟩ (.bool true) none), (2, .set ⟨"b"⟩ .null (some (.ofMillis 9))),
    (3, .get ⟨"a"⟩), (4, .getEntry ⟨"b"⟩), (5, .delete ⟨"c"⟩), (20, .sweep),
    (21, .set ⟨"b"⟩ (.bool false) none)]

/-- The smaller store has dropped the first key, and what it still finds the larger one finds. -/
theorem rivalRun_includes :
    (1 ≤ 2 ∧ rivalRun.length < UInt64.size ∧ rivalRun.take 4 <+: rivalRun) ∧
      (((new 1 none).run (rivalRun.take 4)).2.peek 5 ⟨"a"⟩).isNone = true ∧
      (((new 2 none).run (rivalRun.take 4)).2.peek 5 ⟨"a"⟩).isSome = true ∧
      (((new 2 none).run (rivalRun.take 4)).2.get 5 ⟨"b"⟩).1 = some .null := by
  have upTo : rivalRun.take 4 <+: rivalRun := List.take_prefix 4 rivalRun
  have includes := run_includes (by decide : 1 ≤ 2) none rivalRun (by decide) (rivalRun.take 4) upTo
  exact ⟨⟨by decide, by decide, upTo⟩, rfl, rfl, (includes.2 5 ⟨"b"⟩).1 .null rfl⟩

end Store
end CacheDepot
