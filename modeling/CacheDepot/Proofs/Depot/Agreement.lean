import CacheDepot.Proofs.Depot.Changes
import CacheDepot.Proofs.Depot.Frame

/-!
# Depots that agree

Two depots agree on some cells if they have the same stores there, the same registry and the same
reloads under way. What is done to a store in such a cell has the same result in both, and what is
done to any one store in both of them leaves them in agreement. So the tasks that have to do with
stores alone go on alike in both.
-/

namespace CacheDepot

/-- The task that an operation is after its first part. -/
def Progress.task : Progress → Task
  | .answered answer => .ended answer
  | .waits t => t

/-- Whether a task has to do with the queue or the timed drain. -/
def Task.usesQueue : Task → Bool
  | .awaiting _ | .stopping _ | .flushing _ | .draining _ => true
  | _ => false

/-- Whether a caller waits for a task, or finds an answer there. -/
def Task.isAwaited : Task → Bool
  | .reloadReady _ _ _ _ | .reloading _ _ _ _ _ | .draining _ | .storing _ _ _ _ => false
  | _ => true

/-- What becomes of a task in its turn. -/
inductive TaskEdit where
  | put (t : Task)
  | drop
  | keep

namespace TaskEdit

variable {id other : Nat} {tasks tasks' : Assoc Nat Task}

def apply (id : Nat) (tasks : Assoc Nat Task) : TaskEdit → Assoc Nat Task
  | .put t => tasks.insert id t
  | .drop => tasks.erase id
  | .keep => tasks

/-- Whether a task still has nothing to do with the queue, and a caller who waits for it is not left
alone. -/
def Suits (t : Task) : TaskEdit → Prop
  | .put t' => t'.usesQueue = false ∧ t'.isAwaited = t.isAwaited
  | .drop => t.isAwaited = false
  | .keep => True

theorem get?_apply_of_ne (e : TaskEdit) (differs : other ≠ id) :
    (e.apply id tasks).get? other = tasks.get? other := by
  cases e with
  | put t => exact Assoc.get?_insert_of_ne _ _ (Ne.symm differs)
  | drop => exact Assoc.get?_erase_of_ne _ (Ne.symm differs)
  | keep => rfl

theorem get?_apply_congr (e : TaskEdit) (same : tasks'.get? other = tasks.get? other) :
    (e.apply id tasks').get? other = (e.apply id tasks).get? other := by
  cases e with
  | put t => rw [apply, apply, Assoc.get?_insert, Assoc.get?_insert, same]
  | drop => rw [apply, apply, Assoc.get?_erase, Assoc.get?_erase, same]
  | keep => exact same

end TaskEdit

namespace Depot

variable {S : Nat → Prop} {d d' : Depot} {handle : Handle}

theorem settleTask_eq (id : Nat) (p : Progress × Depot) :
    settleTask id p = { p.2 with tasks := p.2.tasks.insert id p.1.task } := by
  obtain ⟨progress, d⟩ := p
  cases progress <;> rfl

/-- The depots have the same registry and reloads, and the same stores in the cells of `S`. -/
structure Agree (S : Nat → Prop) (d d' : Depot) : Prop where
  registry : d'.registry = d.registry
  reloading : d'.reloading = d.reloading
  cells : d'.stores.length = d.stores.length
  stores : ∀ cell, S cell → d'.store cell = d.store cell

namespace Agree

theorem refl (d : Depot) : Agree S d d := ⟨rfl, rfl, rfl, fun _ _ => rfl⟩

theorem getCache (h : Agree S d d') (name : String) : d'.getCache name = d.getCache name :=
  congrArg (fun r => (r.resolve name).handle) h.registry

theorem fst_onStore (h : Agree S d d') {α : Type} (shared : S handle.cell)
    (f : Store → α × Store) : (d'.onStore handle f).1 = (d.onStore handle f).1 :=
  congrArg (fun s => (f s).1) (h.stores _ shared)

theorem onStore (h : Agree S d d') {α : Type} (handle : Handle) (f : Store → α × Store) :
    Agree S (d.onStore handle f).2 (d'.onStore handle f).2 where
  registry := h.registry
  reloading := h.reloading
  cells := by
    have lengths := h.cells
    simpa [Depot.onStore] using lengths
  stores := by
    intro cell shared
    rw [store_onStore_eq, store_onStore_eq, h.cells, h.stores cell shared]

/-- What is done in one depot alone does not matter in a cell on which they need not agree. -/
theorem onStore_left (h : Agree S d d') {α : Type} (hidden : ¬ S handle.cell)
    (f : Store → α × Store) : Agree S (d.onStore handle f).2 d' where
  registry := h.registry
  reloading := h.reloading
  cells := h.cells.trans (List.length_set ..).symm
  stores := by
    intro cell shared
    have elsewhere : handle.cell ≠ cell := fun same => hidden (same ▸ shared)
    rw [store_onStore_of_ne d f elsewhere, h.stores cell shared]

theorem foldl (h : Agree S d d') {α : Type} {f : Depot → α → Depot}
    (each : ∀ (d d' : Depot) (a : α), Agree S d d' → Agree S (f d a) (f d' a)) (l : List α) :
    Agree S (l.foldl f d) (l.foldl f d') := by
  induction l generalizing d d' with
  | nil => exact h
  | cons a rest ih => exact ih (each d d' a h)

section Parts

variable (now : Nat) (key : CacheKey) (ttl : Option Duration)

theorem setKey (h : Agree S d d') (handle : Handle) (value : Json) :
    Agree S (d.setKey now handle key value ttl).2 (d'.setKey now handle key value ttl).2 :=
  h.onStore handle _

theorem warm (h : Agree S d d') (name : String) (items : List WarmItem) :
    Agree S (d.warm now name items).2 (d'.warm now name items).2 := by
  rw [Depot.warm, Depot.warm, h.getCache]
  exact h.foldl (fun d d' item h => h.setKey now _ item.ttl _ item.value) items

theorem finishLoad (h : Agree S d d') (handle : Handle) (outcome : LoadOutcome) :
    (d'.finishLoad now handle key ttl outcome).1 = (d.finishLoad now handle key ttl outcome).1 ∧
      Agree S (d.finishLoad now handle key ttl outcome).2
        (d'.finishLoad now handle key ttl outcome).2 := by
  cases outcome with
  | panics => exact ⟨rfl, h⟩
  | fails cause => exact ⟨rfl, h⟩
  | returns value =>
    cases value with
    | none => exact ⟨rfl, h⟩
    | some value =>
      rw [Depot.finishLoad, Depot.finishLoad]
      split
      · exact ⟨rfl, h⟩
      · exact ⟨rfl, h.setKey now key ttl handle value⟩

theorem finishReload (h : Agree S d d') (handle : Handle) (outcome : LoadOutcome) :
    Agree S (d.finishReload now handle key ttl outcome)
      (d'.finishReload now handle key ttl outcome) := by
  obtain ⟨-, ⟨registry, reloading, cells, stores⟩⟩ := h.finishLoad now key ttl handle outcome
  refine ⟨registry, ?_, cells, stores⟩
  rw [Depot.finishReload, Depot.finishReload]
  exact congrArg (List.erase · (handle.name, key)) reloading

end Parts

theorem runSweep (h : Agree S d d') (now : Nat) (name : String) :
    Agree S (d.runSweep now name) (d'.runSweep now name) := by
  rw [Depot.runSweep, Depot.runSweep, h.registry]
  cases d.registry.get? name with
  | none => exact h
  | some registered =>
    dsimp only
    cases registered.sweeper.bind (Ticker.beginTick? · now) with
    | none => exact h
    | some ticker =>
      obtain ⟨-, reloading, cells, stores⟩ := h.onStore registered.handle fun s => s.sweep now
      refine ⟨?_, reloading, cells, stores⟩
      exact congrArg (Registry.insert · name _) h.registry

theorem clearStores (h : Agree S d d') (handles : List Handle) :
    Agree S (d.clearStores handles) (d'.clearStores handles) :=
  h.foldl (fun _ _ handle h => h.onStore handle _) handles

end Agree

/-! ## Tasks that have to do with stores alone -/

/-- What a turn of a task that leaves queue and timed drain alone does besides. -/
structure Edits (id : Nat) (e : TaskEdit) (d d' : Depot) : Prop where
  tasks : d'.tasks = e.apply id d.tasks
  backlog : d'.backlog = d.backlog
  drainTimer : d'.drainTimer = d.drainTimer
  nextTask : d'.nextTask = d.nextTask

namespace Edits

variable {id : Nat}

theorem settleTask (only : d.StoresOnly d') (progress : Progress) :
    d.Edits id (.put progress.task) (settleTask id (progress, d')) := by
  rw [settleTask_eq]
  exact ⟨congrArg (Assoc.insert · id progress.task) only.tasks, only.backlog, only.drainTimer,
    only.nextTask⟩

theorem dropTask (only : d.StoresOnly d') : d.Edits id .drop (d'.dropTask id) :=
  ⟨congrArg (Assoc.erase · id) only.tasks, only.backlog, only.drainTimer, only.nextTask⟩

end Edits

theorem Agree.settleTask (h : Agree S d d') (id id' : Nat) (progress : Progress) :
    Agree S (settleTask id (progress, d)) (settleTask id' (progress, d')) := by
  rw [settleTask_eq, settleTask_eq]
  exact ⟨h.registry, h.reloading, h.cells, h.stores⟩

theorem Agree.dropTask (h : Agree S d d') (id id' : Nat) :
    Agree S (d.dropTask id) (d'.dropTask id') :=
  ⟨h.registry, h.reloading, h.cells, h.stores⟩

/-- A task that has to do with stores alone goes on alike in depots that agree, whatever its number
is there. -/
theorem Agree.resumeTask (h : Agree S d d') (now id id' : Nat) {t : Task}
    (alone : t.usesQueue = false) :
    ∃ e : TaskEdit, e.Suits t ∧ d.Edits id e (d.resumeTask now id t) ∧
      d'.Edits id' e (d'.resumeTask now id' t) ∧
      Agree S (d.resumeTask now id t) (d'.resumeTask now id' t) := by
  cases t with
  | loading handle key ttl loader due =>
    obtain ⟨answers, agree⟩ := h.finishLoad now key ttl handle loader.outcome
    have turn (d : Depot) (id : Nat) : d.resumeTask now id (.loading handle key ttl loader due) =
        Depot.settleTask id (.answered (d.finishLoad now handle key ttl loader.outcome).1,
          (d.finishLoad now handle key ttl loader.outcome).2) := rfl
    rw [turn, turn, answers]
    refine ⟨_, ?_, .settleTask (.finishLoad d now handle key ttl _) (.answered _),
      .settleTask (.finishLoad d' now handle key ttl _) (.answered _), agree.settleTask id id' _⟩
    exact ⟨rfl, rfl⟩
  | persisting handle key value ttl attempt due =>
    refine ⟨_, ?_, .settleTask (.refl d) _, .settleTask (.refl d') _, h.settleTask id id' _⟩
    rw [afterPersist]
    cases attempt.failure <;> exact ⟨rfl, rfl⟩
  | caching handle key value ttl =>
    have cached := StoresOnly.setKey d now handle key ttl value
    have cached' := StoresOnly.setKey d' now handle key ttl value
    refine ⟨_, ?_, .settleTask cached (.answered (.found (some value))), .settleTask cached' _,
      (h.setKey now key ttl handle value).settleTask id id' (.answered _)⟩
    exact ⟨rfl, rfl⟩
  | clearing left answer =>
    refine ⟨_, ?_, .settleTask (.clearStores d left) (.answered answer),
      .settleTask (.clearStores d' left) _,
      (h.clearStores left).settleTask id id' (.answered answer)⟩
    exact ⟨rfl, rfl⟩
  | reloadReady handle key ttl loader =>
    have called := StoresOnly.record d (.loaderCalled loader.label)
    have called' := StoresOnly.record d' (.loaderCalled loader.label)
    have agree : Agree S (d.record (.loaderCalled loader.label))
        (d'.record (.loaderCalled loader.label)) := ⟨h.registry, h.reloading, h.cells, h.stores⟩
    rw [Depot.resumeTask, Depot.resumeTask]
    split
    · exact ⟨.drop, rfl, .dropTask (called.trans (.finishReload _ now handle key ttl _)),
        .dropTask (called'.trans (.finishReload _ now handle key ttl _)),
        (agree.finishReload now key ttl handle loader.outcome).dropTask id id'⟩
    · refine ⟨_, ?_, .settleTask called (.waits _), .settleTask called' (.waits _),
        agree.settleTask id id' (.waits _)⟩
      exact ⟨rfl, rfl⟩
  | reloading handle key ttl loader due =>
    exact ⟨.drop, rfl, .dropTask (.finishReload d now handle key ttl _),
      .dropTask (.finishReload d' now handle key ttl _),
      (h.finishReload now key ttl handle loader.outcome).dropTask id id'⟩
  | storing handle key value ttl =>
    exact ⟨.drop, rfl, .dropTask (.setKey d now handle key (some ttl) value),
      .dropTask (.setKey d' now handle key (some ttl) value),
      (h.setKey now key (some ttl) handle value).dropTask id id'⟩
  | ended answer => exact ⟨.keep, trivial, ⟨rfl, rfl, rfl, rfl⟩, ⟨rfl, rfl, rfl, rfl⟩, h⟩
  | _ => cases alone

end Depot
end CacheDepot
