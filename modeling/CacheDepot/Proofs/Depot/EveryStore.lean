import CacheDepot.Proofs.Api.RequestEffects
import CacheDepot.Proofs.Store.Capacity

/-!
# What holds of every store of a depot

Actions and requests do more than operations on stores, yet a store never sees any of it: each
cell holds a new store on which operations were carried out one after the other. So what holds of
new stores and is kept by every operation holds of all stores of all depots that can be reached.
-/

namespace CacheDepot

/-- A property of new stores that every operation keeps. -/
structure Store.Lasting (P : Store → Prop) : Prop where
  new : ∀ capacity defaultTtl, P (.new capacity defaultTtl)
  perform : ∀ {s : Store}, P s → ∀ now operation, P (s.perform now operation).2

theorem Store.lasting_withinCapacity : Lasting WithinCapacity where
  new := withinCapacity_new
  perform := WithinCapacity.perform

/-- What requests do to stores they do by a few changes of these. -/
theorem Api.exists_changes_serve (cache? : Option ResponseCache) (now : Nat) (r : Http.Request)
    (d : Depot) : ∃ W d', d.Changes W d' ∧ (serve cache? now r d).2.stores = d'.stores := by
  rcases serve_cases cache? now r d with passes | ⟨e, same⟩
  · have looked (handle : Handle) (key : CacheKey) :=
      ResponseCache.changes_lookup d now handle key
    generalize (serve cache? now r d).2 = d' at passes
    cases passes with
    | untouched => exact ⟨[], d, .refl d, rfl⟩
    | looks behind key => exact ⟨[], _, looked _ key, rfl⟩
    | @keeps c behind key given =>
      refine ⟨[], _, looked (d.getCache c.store) key, ?_⟩
      rcases ResponseCache.capture_cases (ResponseCache.lookup d now (d.getCache c.store) key).2 now
        (d.getCache c.store) key c given with same | ⟨value, ttl, same⟩
      · rw [same]
      · rw [same]
        rfl
  · obtain ⟨W, changes⟩ := exists_changes_fulfil e now d
    exact ⟨W, _, changes, congrArg Depot.stores same⟩

namespace Depot

theorem Reached.run {d : Depot} (h : d.Reached) (actions : List (Nat × Action)) :
    (d.run actions).Reached := by
  induction actions generalizing d with
  | nil => exact h
  | cons first rest ih => exact ih (h.acts first.1 first.2)

/-- Whether a property holds of the stores in all cells. -/
def EveryStore (P : Store → Prop) (d : Depot) : Prop := ∀ cell, P (d.store cell)

variable {P : Store → Prop} {d d' : Depot} {W : List Write}

namespace EveryStore

theorem of_stores (h : d.EveryStore P) (same : d'.stores = d.stores) : d'.EveryStore P := by
  intro cell
  rw [store, same]
  exact h cell

theorem onStore {α : Type} (h : d.EveryStore P) (handle : Handle) {f : Store → α × Store}
    (each : ∀ s, P s → P (f s).2) : (d.onStore handle f).2.EveryStore P := by
  intro cell
  rw [store_onStore_eq]
  split
  · exact each _ (h cell)
  · exact h cell

theorem create (h : d.EveryStore P) {s : Store} (new : P s) :
    EveryStore P { d with stores := d.stores ++ [s] } := by
  intro cell
  have old := h cell
  rw [store, List.getD_eq_getElem?_getD] at old ⊢
  by_cases inside : cell < d.stores.length
  · rwa [List.getElem?_append_left inside]
  · rw [List.getElem?_eq_none (Nat.le_of_not_lt inside)] at old
    rw [List.getElem?_append_right (Nat.le_of_not_lt inside), List.getElem?_singleton]
    split
    · exact new
    · exact old

theorem change (h : d.EveryStore P) (lasting : Store.Lasting P) (change : d.Change W d') :
    d'.EveryStore P := by
  cases change with
  | write now member ttl =>
    exact h.onStore _ fun s holds => lasting.perform holds now (.set _ _ ttl)
  | read now handle key =>
    exact h.onStore handle fun s holds => lasting.perform holds now (.getEntry key)
  | delete handle key => exact h.onStore handle fun s holds => lasting.perform holds 0 (.delete key)
  | sweep now handle => exact h.onStore handle fun s holds => lasting.perform holds now .sweep
  | clear handle => exact h.onStore handle fun s holds => lasting.perform holds 0 .clear
  | create capacity defaultTtl => exact h.create (lasting.new capacity defaultTtl)
  | beside registry backlog drainTimer journal => exact h.of_stores rfl

theorem changes (h : d.EveryStore P) (lasting : Store.Lasting P) (changes : d.Changes W d') :
    d'.EveryStore P := by
  induction changes with
  | refl => exact h
  | tail _ last ih => exact ih.change lasting last

end EveryStore

/-- What holds of new stores and is kept by every operation holds of every store of every depot
that can be reached. -/
theorem Reached.everyStore (h : d.Reached) (lasting : Store.Lasting P) : d.EveryStore P := by
  induction h with
  | made made =>
    rw [Depot.new] at made
    split at made
    · cases made
    · cases made
      intro cell
      rw [store, List.getD_eq_getElem?_getD, List.getElem?_singleton]
      split <;> exact lasting.new _ _
  | @acts d reached now a ih =>
    obtain ⟨e, e', same, changes, same'⟩ := (d.turn_act now a).exists_changes
    exact ((ih.of_stores same).changes lasting changes).of_stores same'
  | @serves d reached cache? now r ih =>
    obtain ⟨W, d', changes, same⟩ := Api.exists_changes_serve cache? now r d
    exact (ih.changes lasting changes).of_stores same

end Depot
end CacheDepot
