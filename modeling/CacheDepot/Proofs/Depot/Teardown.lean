import CacheDepot.Proofs.Depot.Rest
import CacheDepot.Proofs.Depot.ActionEffects

/-!
# How a teardown goes

A teardown waits for a tick of the timed drain and for its flush, if it has one. Then it stops the
sweeps and empties every store that has a name at that moment, one after the other, and anything may
happen between two of them. So when it returns, each of these stores was empty once since it began
with them, and what is found there was written after that.
-/

namespace CacheDepot.Depot

variable {d d' : Depot} {id now : Nat} {a : Action} {cell : Nat} {key : CacheKey} {value : Json}
  {left : List Handle} {answer : Answer} {h : Handle} {actions : List (Nat × Action)}

/-! ## The end of a task -/

/-- Whether a task of a caller has come to its end. -/
def hasEnded (d : Depot) (id : Nat) : Bool :=
  match d.tasks.get? id with
  | some (.ended _) => true
  | _ => false

theorem hasEnded_answered (id : Nat) (answer : Answer) (d : Depot) :
    (settleTask id (.answered answer, d)).hasEnded id = true := by
  rw [hasEnded, settleTask, Assoc.get?_insert_self]

/-- Whether a task comes to its end with the last of these actions, and not before. -/
def Returns (id : Nat) (d : Depot) : List (Nat × Action) → Prop
  | [] => d.hasEnded id = true
  | first :: rest => d.hasEnded id = false ∧ (d.act first.1 first.2).Returns id rest

/-- Where a task goes on or is done after every action that is allowed, it is done when it
returns. -/
theorem of_returns {going done : Depot → Prop} {allowed : Action → Prop}
    (not_ended : ∀ d : Depot, going d → d.hasEnded id = false)
    (ended : ∀ d : Depot, done d → d.hasEnded id = true)
    (act : ∀ (d : Depot) now a, going d → allowed a → going (d.act now a) ∨ done (d.act now a))
    (h : going d ∨ done d) (returns : d.Returns id actions)
    (all : ∀ a ∈ actions, allowed a.2) : done (d.run actions) := by
  induction actions generalizing d with
  | nil =>
    rcases h with h | h
    · exact absurd ((not_ended d h).symm.trans returns) Bool.false_ne_true
    · exact h
  | cons first rest ih =>
    obtain ⟨running, returns⟩ := returns
    rcases h with h | h
    · exact ih (act d first.1 first.2 h (all first List.mem_cons_self)) returns
        fun a member => all a (List.mem_cons_of_mem _ member)
    · exact absurd (running.symm.trans (ended d h)) Bool.false_ne_true

/-- A task that is gone never returns. -/
theorem Returns.not_gone (returns : d.Returns id actions) (old : id < d.nextTask) :
    d.tasks.get? id ≠ none := by
  intro gone
  induction actions generalizing d with
  | nil =>
    rw [Returns, hasEnded, gone] at returns
    cases returns
  | cons first rest ih =>
    have turn := d.turn_act first.1 first.2
    exact ih returns.2 (Nat.lt_of_lt_of_le old turn.nextTask_le) (turn.get?_eq_none old gone)

/-! ## What a run writes -/

theorem run_append (d : Depot) (before after : List (Nat × Action)) :
    d.run (before ++ after) = (d.run before).run after :=
  List.foldl_append ..

/-- The writes that a run makes. -/
def writesOf (d : Depot) : List (Nat × Action) → List Write
  | [] => []
  | (now, a) :: rest => d.writes now a ++ (d.act now a).writesOf rest

/-- What is found after a run was there before, or the run has written it. -/
theorem exists_mem_writesOf (there : ((d.run actions).store cell).resident? key = some value) :
    (d.store cell).resident? key = some value ∨
      ∃ w ∈ d.writesOf actions, w.isAt cell key = true ∧ w.value = value := by
  induction actions generalizing d with
  | nil => exact .inl there
  | cons first rest ih =>
    obtain ⟨now, a⟩ := first
    rcases ih there with old | ⟨w, later, here, same⟩
    · rcases ((d.turn_act now a).stems cell key).resident_cases old with
        old | ⟨w, written, here, same⟩
      · exact .inl old
      · exact .inr ⟨w, List.mem_append_left _ written, here, same⟩
    · exact .inr ⟨w, List.mem_append_right _ later, here, same⟩

/-! ## Emptying the stores -/

theorem isEmpty_clearStore (d : Depot) (h : Handle)
    (empty : h.cell = cell ∨ (d.store cell).isEmpty = true) :
    ((d.clearStore h).store cell).isEmpty = true := by
  rw [clearStore, store_onStore_eq]
  split
  · rfl
  · rename_i elsewhere
    rcases empty with rfl | empty
    · have outside : d.stores.length ≤ h.cell :=
        Nat.le_of_not_lt fun inside => elsewhere ⟨rfl, inside⟩
      rw [store, List.getD_eq_getElem?_getD, List.getElem?_eq_none outside]
      rfl
    · exact empty

theorem isEmpty_clearStores (d : Depot)
    (empty : (∃ h ∈ left, h.cell = cell) ∨ (d.store cell).isEmpty = true) :
    ((d.clearStores left).store cell).isEmpty = true := by
  induction left generalizing d with
  | nil => exact empty.resolve_left (by simp)
  | cons first rest ih =>
    apply ih
    rcases empty with ⟨h, member, same⟩ | empty
    · rcases List.mem_cons.mp member with rfl | later
      · exact .inr (isEmpty_clearStore d h (.inl same))
      · exact .inl ⟨h, later, same⟩
    · exact .inr (isEmpty_clearStore d first (.inr empty))

/-- Whether the task `id` empties the store of a handle in a run, and whatever is found there in the
end was written after that. -/
def Empties (id : Nat) (h : Handle) (d : Depot) (actions : List (Nat × Action)) : Prop :=
  ∃ before a after, actions = before ++ a :: after ∧ a.2.target? = some id ∧
    ((d.run (before ++ [a])).store h.cell).isEmpty = true ∧
    ∀ key value, ((d.run actions).store h.cell).resident? key = some value →
      ∃ w ∈ (d.run (before ++ [a])).writesOf after, w.isAt h.cell key = true ∧ w.value = value

namespace Empties

theorem here {first : Nat × Action} {rest : List (Nat × Action)}
    (own : first.2.target? = some id)
    (empty : ((d.act first.1 first.2).store h.cell).isEmpty = true) :
    d.Empties id h (first :: rest) := by
  refine ⟨[], first, rest, rfl, own, empty, ?_⟩
  intro key value there
  apply (exists_mem_writesOf (d := d.act first.1 first.2) there).resolve_left
  rw [Store.resident?_of_isEmpty empty]
  exact nofun

theorem later {first : Nat × Action} {rest : List (Nat × Action)}
    (empties : (d.act first.1 first.2).Empties id h rest) : d.Empties id h (first :: rest) := by
  obtain ⟨before, a, after, rfl, own, empty, written⟩ := empties
  exact ⟨first :: before, a, after, rfl, own, empty, written⟩

theorem prepend {rest : List (Nat × Action)} (empties : (d.run actions).Empties id h rest) :
    d.Empties id h (actions ++ rest) := by
  induction actions generalizing d with
  | nil => exact empties
  | cons first more ih => exact later (ih empties)

end Empties

/-! ## One store after the other -/

theorem emptyOne_of_clearing (bound : d.tasks.get? id = some (.clearing left answer)) (h : Handle) :
    d.emptyOne id h = if h ∈ left then settleTask id (d.clearNext left answer h) else d := by
  rw [emptyOne, bound]

/-- A teardown that empties one store has the others left. -/
theorem get?_clearNext (d : Depot) (id : Nat) (answer : Answer) {other : Handle}
    (still : h ∈ left.erase other) :
    (settleTask id (d.clearNext left answer other)).tasks.get? id =
      some (.clearing (left.erase other) answer) := by
  rw [clearNext]
  split
  · rename_i none
    rw [none] at still
    cases still
  · exact Assoc.get?_insert_self ..

/-- A teardown that returns in the end has a store left, or it empties the store with its turn. -/
theorem clearing_act (bound : d.tasks.get? id = some (.clearing left answer))
    (old : id < d.nextTask) (returns : (d.act now a).Returns id actions) (member : h ∈ left) :
    (a.target? = some id ∧ ((d.act now a).store h.cell).isEmpty = true) ∨
      ∃ left', (d.act now a).tasks.get? id = some (.clearing left' answer) ∧ h ∈ left' := by
  have turn := d.turn_act now a
  by_cases own : a.target? = some id
  · rcases Action.cases_of_target? own with rfl | ⟨other, rfl⟩ | rfl
    · refine .inl ⟨own, ?_⟩
      rw [act, resume, bound]
      exact isEmpty_clearStores d (.inl ⟨h, member, rfl⟩)
    · rw [act, emptyOne_of_clearing bound]
      split
      · by_cases same : other.cell = h.cell
        · refine .inl ⟨own, ?_⟩
          rw [store_settleTask, snd_clearNext]
          exact isEmpty_clearStore d other (.inl same)
        · have still : h ∈ left.erase other :=
            (List.mem_erase_of_ne fun equal => same (congrArg Handle.cell equal.symm)).mpr member
          exact .inr ⟨_, d.get?_clearNext id answer still, still⟩
      · exact .inr ⟨left, bound, member⟩
    · have gone : (d.act now (.abort id)).tasks.get? id = none := by
        rw [act, abort, bound]
        exact get?_dropTask d id
      exact absurd gone (returns.not_gone (Nat.lt_of_lt_of_le old turn.nextTask_le))
  · exact .inr ⟨left, (turn.get?_of_ne old own).trans bound, member⟩

/-- A teardown that returns has emptied every store that it had left. -/
theorem empties_of_clearing (bound : d.tasks.get? id = some (.clearing left answer))
    (old : id < d.nextTask) (returns : d.Returns id actions) (member : h ∈ left) :
    d.Empties id h actions := by
  induction actions generalizing d left with
  | nil =>
    rw [Returns, hasEnded, bound] at returns
    cases returns
  | cons first rest ih =>
    rcases clearing_act bound old returns.2 member with ⟨own, empty⟩ | ⟨left', goes, still⟩
    · exact .here own empty
    · have old' := Nat.lt_of_lt_of_le old (d.turn_act first.1 first.2).nextTask_le
      exact .later (ih goes old' returns.2 still)

/-! ## Up to the first store -/

/-- How a teardown that found this registry goes on: it waits for its flush, or it begins to empty
the stores. -/
inductive WindsDown (r : Registry) : Progress × Depot → Prop
  | flushes (worker : Nat) {d : Depot} (same : d.registry = r) :
      WindsDown r (.waits (.flushing worker), d)
  | clears (answer : Answer) {d : Depot} (same : d.registry = r) : WindsDown r (d.tearDown answer)

theorem windsDown_awaitWorker (d : Depot) (now worker : Nat) :
    WindsDown d.registry (d.awaitWorker now worker .flushing tearDown) := by
  rw [awaitWorker]
  cases (d.onBacklog fun b => b.resume now worker).backlog.report? worker with
  | none => exact .flushes worker rfl
  | some report => exact .clears _ rfl

theorem windsDown_afterTimer (d : Depot) (now : Nat) (flushFirst : Bool) :
    WindsDown d.registry (d.afterTimer now flushFirst) := by
  cases flushFirst with
  | false => exact .clears .nothing rfl
  | true => exact windsDown_awaitWorker (d.startWorker .newFlush).2 now _

/-- Whether the task `id` is to tear the depot down and waits for the timed drain or its flush. -/
def AwaitsQueue (id : Nat) (d : Depot) : Prop :=
  (∃ flushFirst, d.tasks.get? id = some (.stopping flushFirst)) ∨
    ∃ worker, d.tasks.get? id = some (.flushing worker)

/-- Whether the task `id` has all stores left to empty that have a name. -/
def BeginsEmptying (id : Nat) (d : Depot) : Prop :=
  ∃ answer, d.tasks.get? id = some (.clearing d.handles answer)

theorem AwaitsQueue.not_ended (h : d.AwaitsQueue id) : d.hasEnded id = false := by
  unfold hasEnded
  rcases h with ⟨flushFirst, waits⟩ | ⟨worker, waits⟩ <;> rw [waits]

theorem WindsDown.cases_settleTask {r : Registry} {p : Progress × Depot} (h : WindsDown r p)
    (id : Nat) :
    (settleTask id p).AwaitsQueue id ∨ (settleTask id p).BeginsEmptying id := by
  cases h with
  | flushes worker same => exact .inl (.inr ⟨worker, Assoc.get?_insert_self ..⟩)
  | clears answer same => exact .inr ⟨answer, Assoc.get?_insert_self ..⟩

theorem awaitsQueue_beginTearDown (d : Depot) (now id : Nat) (flushFirst : Bool) :
    (settleTask id (d.beginTearDown now flushFirst)).AwaitsQueue id ∨
      (settleTask id (d.beginTearDown now flushFirst)).BeginsEmptying id := by
  rw [beginTearDown]
  split
  · dsimp only
    split
    · exact .inl (.inl ⟨flushFirst, Assoc.get?_insert_self ..⟩)
    · exact (windsDown_afterTimer _ now flushFirst).cases_settleTask id
  · exact (windsDown_afterTimer d now flushFirst).cases_settleTask id

/-- A teardown that waits goes on waiting, begins to empty the stores, or is given up. -/
theorem AwaitsQueue.act (h : d.AwaitsQueue id) (old : id < d.nextTask) (now : Nat) (a : Action) :
    (d.act now a).AwaitsQueue id ∨ (d.act now a).BeginsEmptying id ∨
      (d.act now a).tasks.get? id = none := by
  by_cases own : a.target? = some id
  · rcases Action.cases_of_target? own with rfl | ⟨other, rfl⟩ | rfl
    · rw [Depot.act, resume]
      rcases h with ⟨flushFirst, waits⟩ | ⟨worker, waits⟩
      · rw [waits]
        dsimp only
        split
        · exact ((windsDown_afterTimer d now flushFirst).cases_settleTask id).imp_right .inl
        · exact .inl (.inl ⟨flushFirst, waits⟩)
      · rw [waits]
        dsimp only
        split
        · exact ((windsDown_awaitWorker d now worker).cases_settleTask id).imp_right .inl
        · exact .inl (.inr ⟨worker, waits⟩)
    · have same : d.emptyOne id other = d := by
        rw [emptyOne]
        rcases h with ⟨flushFirst, waits⟩ | ⟨worker, waits⟩ <;> rw [waits]
      rw [Depot.act, same]
      exact .inl h
    · refine .inr (.inr ?_)
      rw [Depot.act, Depot.abort]
      rcases h with ⟨flushFirst, waits⟩ | ⟨worker, waits⟩ <;>
      · rw [waits]
        exact get?_dropTask _ id
  · left
    unfold AwaitsQueue
    rw [(d.turn_act now a).get?_of_ne old own]
    exact h

/-- A teardown that returns has begun to empty the stores at some time. -/
theorem exists_beginsEmptying (h : d.AwaitsQueue id ∨ d.BeginsEmptying id) (old : id < d.nextTask)
    (returns : d.Returns id actions) :
    ∃ before after, actions = before ++ after ∧ (d.run before).BeginsEmptying id ∧
      (d.run before).Returns id after := by
  induction actions generalizing d with
  | nil =>
    rcases h with waits | begins
    · exact absurd (waits.not_ended.symm.trans returns) Bool.false_ne_true
    · exact ⟨[], [], rfl, begins, returns⟩
  | cons first rest ih =>
    rcases h with waits | begins
    · have old' := Nat.lt_of_lt_of_le old (d.turn_act first.1 first.2).nextTask_le
      have goes := (waits.act old first.1 first.2).imp_right fun h =>
        h.resolve_right (returns.2.not_gone old')
      obtain ⟨before, after, rfl, begins, returns⟩ := ih goes old' returns.2
      exact ⟨first :: before, after, rfl, begins, returns⟩
    · exact ⟨[], first :: rest, rfl, begins, returns⟩

/-- A teardown that was called waits for the queue or has begun to empty the stores. -/
theorem awaitsQueue_start {operation : Operation}
    (tearsDown : operation = .destroy ∨ operation = .shutdown) (d : Depot) (now : Nat) :
    (d.act now (.start operation)).AwaitsQueue d.nextTask ∨
      (d.act now (.start operation)).BeginsEmptying d.nextTask := by
  rcases tearsDown with rfl | rfl
  · exact awaitsQueue_beginTearDown { d with nextTask := d.nextTask + 1 } now d.nextTask false
  · exact awaitsQueue_beginTearDown { d with nextTask := d.nextTask + 1 } now d.nextTask true

theorem nextTask_lt_start (d : Depot) (now : Nat) (operation : Operation) :
    d.nextTask < (d.act now (.start operation)).nextTask := by
  have started := starts_start { d with nextTask := d.nextTask + 1 } now operation
  exact Nat.lt_of_lt_of_eq (Nat.lt_of_succ_le started.nextTask_le)
    (nextTask_settleTask d.nextTask _).symm

/-- Whatever is done meanwhile: a teardown that returns has begun at some time to empty the stores
that had a name then, and has emptied each of them since. -/
theorem empties_of_returns {operation : Operation}
    (tearsDown : operation = .destroy ∨ operation = .shutdown)
    (returns : (d.act now (.start operation)).Returns d.nextTask actions) :
    ∃ before after, actions = before ++ after ∧
      ((d.act now (.start operation)).run before).BeginsEmptying d.nextTask ∧
      ∀ h ∈ ((d.act now (.start operation)).run before).handles,
        ((d.act now (.start operation)).run before).Empties d.nextTask h after := by
  have old := d.nextTask_lt_start now operation
  obtain ⟨before, after, rfl, begins, rest⟩ :=
    exists_beginsEmptying (awaitsQueue_start tearsDown d now) old returns
  refine ⟨before, after, rfl, begins, ?_⟩
  obtain ⟨answer, bound⟩ := begins
  intro h member
  exact empties_of_clearing bound (Nat.lt_of_lt_of_le old (nextTask_le_run _ before)) rest member

end CacheDepot.Depot
