import CacheDepot.Proofs.Depot.LateReloads
import CacheDepot.Proofs.Depot.TaskOrigins
import CacheDepot.Proofs.Depot.Teardown
import CacheDepot.ResponseCache

/-!
# What comes after a teardown

A teardown empties every store that has a name when it begins with them. It stops the timed drain
and the sweeps, but it knows nothing of the reloads and of the responses still to be kept. These go
on, between two stores and after the last one, and what they bring is all that is found again where
nobody asks for anything more.
-/

namespace CacheDepot.Depot

variable {d : Depot} {now : Nat}

/-- A task that brings something and that no caller waits for is a reload or keeps a response. -/
theorem Brings.background {id : Nat} {w : Write} (brings : d.Brings id w)
    (unattended : d.isUnattended = true) :
    ∃ t, d.tasks.get? id = some t ∧ (t.reloadId?.isSome = true ∨ t.isStoring = true) ∧
      w ∈ t.brings := by
  obtain ⟨t, bound, member⟩ := brings
  have alone := isUnattended_iff.mp unattended id t bound
  refine ⟨t, bound, (Task.cases_of_mem_brings member).resolve_left ?_, member⟩
  rw [alone]
  exact Bool.false_ne_true

/-- Once a depot has been torn down, whatever was under way before and during the teardown, and
once no caller waits for anything or calls for anything more. The teardown began at some time to
empty all stores that had a name then, and emptied each of them after that, so that what is found
there when it returns was written since its store was emptied. From the return on every name leads
where it led, and whatever is found in a store was there at the return, or was brought by a reload
or a response to be kept that was under way then. So a store that is empty when the teardown returns
stays empty if none of these goes there. -/
theorem resident_after_tearDown {operation : Operation}
    (tearsDown : operation = .destroy ∨ operation = .shutdown) {during later : List (Nat × Action)}
    (returns : (d.act now (.start operation)).Returns d.nextTask during)
    (unattended : ((d.act now (.start operation)).run during).isUnattended = true)
    (uncalled : ∀ a ∈ later, ∀ operation, a.2 ≠ .start operation) :
    let called := d.act now (.start operation)
    let last := called.run during
    (∃ before emptying, during = before ++ emptying ∧
      (called.run before).BeginsEmptying d.nextTask ∧
      ∀ h ∈ (called.run before).handles, (called.run before).Empties d.nextTask h emptying) ∧
    last.SameNames (last.run later) ∧
    (∀ cell key value, ((last.run later).store cell).resident? key = some value →
      (last.store cell).resident? key = some value ∨
        ∃ id t w, last.tasks.get? id = some t ∧
          (t.reloadId?.isSome = true ∨ t.isStoring = true) ∧
          w ∈ t.brings ∧ w.isAt cell key = true ∧ w.value = value) ∧
    ∀ cell, (last.store cell).isEmpty = true →
      (∀ id t, last.tasks.get? id = some t → ∀ w ∈ t.brings, w.handle.cell ≠ cell) →
      ((last.run later).store cell).isEmpty = true := by
  intro called last
  have alone : last.LeftAlone (last.run later) := .run last later uncalled
  refine ⟨empties_of_returns tearsDown returns, alone.names, ?_, ?_⟩
  · intro cell key value there
    rcases alone.found cell key value there with was | ⟨id, w, brings, here, same⟩
    · exact .inl was
    · obtain ⟨t, bound, loose, member⟩ := brings.background unattended
      exact .inr ⟨id, t, w, bound, loose, member, here, same⟩
  · intro cell empty elsewhere
    apply Store.isEmpty_of_resident?
    intro key
    rw [Option.eq_none_iff_forall_ne_some]
    intro value there
    obtain ⟨id, w, ⟨t, bound, brings⟩, here, -⟩ := alone.exists_brings_of_isEmpty empty there
    exact elsewhere id t bound w brings (Write.isAt_iff.mp here).1

/-- A depot in which a reload of a value waits for its loader. -/
def awaitingLoader (d : Depot) : Depot :=
  d.run [(0, .start (.set (.named "default") ⟨"k"⟩ (.string "old") (some (.ofMillis 1000)))),
    (900, .start (.refreshAhead "default" ⟨"k"⟩ (some (.ofMillis 1000)) .default slowLoader)),
    (900, .resume 2)]

/-- What is found after a depot was torn down while a reload waited for its loader. -/
theorem awaitingLoader_resident_after_tearDown :
    ∃ made, Depot.new 0 ⟨9, none, none⟩ ⟨10, 3, none⟩ = .ok made ∧
      let last := (made.awaitingLoader.act 900 (.start .destroy)).run [(901, .resume 3)]
      ((last.run [(950, .resume 2)]).store 0).resident? ⟨"k"⟩ = some (.string "reloaded") ∧
        ∃ id t w, last.tasks.get? id = some t ∧
          (t.reloadId?.isSome = true ∨ t.isStoring = true) ∧
          w ∈ t.brings ∧ w.isAt 0 ⟨"k"⟩ = true ∧ w.value = .string "reloaded" := by
  have new : Depot.new 0 ⟨9, none, none⟩ ⟨10, 3, none⟩ = .ok _ := rfl
  have uncalled : ∀ a ∈ [(950, Action.resume 2)], ∀ operation, a.2 ≠ .start operation := by
    simp
  refine ⟨_, new, rfl, ?_⟩
  refine ((@resident_after_tearDown (awaitingLoader _) 900 .destroy (.inl rfl) [(901, .resume 3)] _
    ?_ ?_ uncalled).2.2.1 0 ⟨"k"⟩ (.string "reloaded") ?_).resolve_left ?_
  · exact ⟨rfl, rfl⟩
  · rfl
  · rfl
  · intro there
    have absent : (none : Option Json) = some (.string "reloaded") := there
    cases absent

/-- A depot in which a read was answered behind a cache and the response has not been kept yet. -/
def awaitingCopy (d : Depot) : Depot :=
  (ResponseCache.serve { store := "default", ttl := .ofMillis 1000 } 0
    (fun _ d => (.plain 200 "ok", d)) { target := ⟨"/", some "/"⟩ } d).2

/-- A teardown that is called and has the next turn. -/
def tornDown (d : Depot) (now : Nat) (operation : Operation) : Depot :=
  (d.act now (.start operation)).act now (.resume d.nextTask)

/-- Whether a teardown is over, no caller waits for anything and the first store is empty. -/
def isQuietAfter (d : Depot) (id : Nat) : Bool :=
  d.hasEnded id && d.isUnattended && (d.store 0).isEmpty

/-- After a teardown of either kind, when all is quiet, the loader of a reload answers, or a
response is kept, and the store is empty no longer. -/
theorem tearDown_overlooks_tasks :
    ∃ made, Depot.new 0 ⟨9, none, none⟩ ⟨10, 3, none⟩ = .ok made ∧
      ∀ operation ∈ [Operation.destroy, .shutdown],
        (made.awaitingLoader.tornDown 900 operation).isQuietAfter 3 = true ∧
        (((made.awaitingLoader.tornDown 900 operation).act 950 (.resume 2)).getKey 950
          ⟨"default", 0⟩ ⟨"k"⟩).1 = some (.string "reloaded") ∧
        (made.awaitingCopy.tornDown 0 operation).isQuietAfter 1 = true ∧
        (((made.awaitingCopy.tornDown 0 operation).act 0 (.resume 0)).store 0).isEmpty =
          false := by
  have new : Depot.new 0 ⟨9, none, none⟩ ⟨10, 3, none⟩ = .ok _ := rfl
  refine ⟨_, new, ?_⟩
  simp only [List.forall_mem_cons]
  exact ⟨⟨rfl, rfl, rfl, rfl⟩, ⟨rfl, rfl, rfl, rfl⟩, nofun⟩

end CacheDepot.Depot
