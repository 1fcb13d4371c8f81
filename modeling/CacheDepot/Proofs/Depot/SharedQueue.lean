import CacheDepot.Proofs.Depot.Agreement
import CacheDepot.Proofs.Depot.Rest
import CacheDepot.Proofs.Depot.ActionEffects

/-!
# Depots with one queue

Depots that agree and have the same queue and the same timed drain go on alike in everything but
what callers start. One of them may besides have tasks of its own that put something into cells
on which they need not agree.
-/

namespace CacheDepot.Depot

variable {S : Nat → Prop} {d d' : Depot}

/-- The depots agree and have the same queue and timed drain. -/
structure AgreeWithQueue (S : Nat → Prop) (d d' : Depot) : Prop extends Agree S d d' where
  backlog : d'.backlog = d.backlog
  drainTimer : d'.drainTimer = d.drainTimer

namespace AgreeWithQueue

theorem refl (d : Depot) : AgreeWithQueue S d d := ⟨.refl d, rfl, rfl⟩

theorem stopSweepers (h : AgreeWithQueue S d d') :
    AgreeWithQueue S d.stopSweepers d'.stopSweepers :=
  ⟨⟨congrArg (Registry.map fun r => { r with sweeper := r.sweeper.map Ticker.stop }) h.registry,
    h.reloading, h.cells, h.stores⟩, h.backlog, h.drainTimer⟩

theorem finish (h : AgreeWithQueue S d d') (answer : Answer) :
    (d'.finish answer).1 = (d.finish answer).1 ∧
      AgreeWithQueue S (d.finish answer).2 (d'.finish answer).2 := ⟨rfl, h⟩

theorem tearDown (h : AgreeWithQueue S d d') (answer : Answer) :
    (d'.tearDown answer).1 = (d.tearDown answer).1 ∧
      AgreeWithQueue S (d.tearDown answer).2 (d'.tearDown answer).2 := by
  refine ⟨?_, h.stopSweepers⟩
  rw [Depot.tearDown, Depot.tearDown, handles, handles, h.stopSweepers.registry]

theorem clearNext (h : AgreeWithQueue S d d') (left : List Handle) (answer : Answer)
    (handle : Handle) :
    (d'.clearNext left answer handle).1 = (d.clearNext left answer handle).1 ∧
      AgreeWithQueue S (d.clearNext left answer handle).2 (d'.clearNext left answer handle).2 := by
  have cleared : AgreeWithQueue S (d.clearStore handle) (d'.clearStore handle) :=
    ⟨h.toAgree.onStore handle _, h.backlog, h.drainTimer⟩
  rw [Depot.clearNext, Depot.clearNext]
  split <;> exact ⟨rfl, cleared⟩

theorem withBacklog (h : AgreeWithQueue S d d') {b b' : WriteBehind.Backlog} (same : b' = b)
    (journal journal' : List Event) :
    AgreeWithQueue S { d with backlog := b, journal }
      { d' with backlog := b', journal := journal' } :=
  ⟨⟨h.registry, h.reloading, h.cells, h.stores⟩, same, h.drainTimer⟩

theorem withTimer (h : AgreeWithQueue S d d') (drainTimer : Option DrainTimer) :
    AgreeWithQueue S { d with drainTimer } { d' with drainTimer } :=
  ⟨⟨h.registry, h.reloading, h.cells, h.stores⟩, h.backlog, rfl⟩

theorem startWorker (h : AgreeWithQueue S d d') (w : WriteBehind.Worker) :
    (d'.startWorker w).1 = (d.startWorker w).1 ∧
      AgreeWithQueue S (d.startWorker w).2 (d'.startWorker w).2 := by
  have same : d'.backlog.start w = d.backlog.start w := by rw [h.backlog]
  refine ⟨?_, h.withBacklog (congrArg Prod.snd same) _ _⟩
  rw [Depot.startWorker, Depot.startWorker, same]

theorem awaitWorker (h : AgreeWithQueue S d d') (now worker : Nat) (waiting : Nat → Task)
    {next : Depot → Answer → Progress × Depot}
    (keeps : ∀ {d d' : Depot} answer, AgreeWithQueue S d d' →
      (next d' answer).1 = (next d answer).1 ∧
        AgreeWithQueue S (next d answer).2 (next d' answer).2) :
    (d'.awaitWorker now worker waiting next).1 = (d.awaitWorker now worker waiting next).1 ∧
      AgreeWithQueue S (d.awaitWorker now worker waiting next).2
        (d'.awaitWorker now worker waiting next).2 := by
  have resumed : AgreeWithQueue S (d.onBacklog fun b => b.resume now worker)
      (d'.onBacklog fun b => b.resume now worker) :=
    h.withBacklog (by rw [h.backlog]) _ _
  rw [Depot.awaitWorker, Depot.awaitWorker, resumed.backlog]
  cases (d.onBacklog fun b => b.resume now worker).backlog.report? worker with
  | none => exact ⟨rfl, resumed⟩
  | some report => exact keeps _ (resumed.withBacklog rfl _ _)

theorem afterTimer (h : AgreeWithQueue S d d') (now : Nat) (flushFirst : Bool) :
    (d'.afterTimer now flushFirst).1 = (d.afterTimer now flushFirst).1 ∧
      AgreeWithQueue S (d.afterTimer now flushFirst).2 (d'.afterTimer now flushFirst).2 := by
  cases flushFirst with
  | false => exact h.tearDown _
  | true =>
    obtain ⟨same, started⟩ := h.startWorker .newFlush
    have turn (d : Depot) : d.afterTimer now true =
        (d.startWorker .newFlush).2.awaitWorker now (d.startWorker .newFlush).1 .flushing
          Depot.tearDown := rfl
    rw [turn, turn, same]
    exact started.awaitWorker now _ .flushing fun answer alike => alike.tearDown answer

theorem runSweep (h : AgreeWithQueue S d d') (now : Nat) (name : String) :
    AgreeWithQueue S (d.runSweep now name) (d'.runSweep now name) where
  toAgree := h.toAgree.runSweep now name
  backlog := by rw [runSweep_backlog, runSweep_backlog, h.backlog]
  drainTimer := (d'.runSweep_tasks now name).2.trans
    (h.drainTimer.trans (d.runSweep_tasks now name).2.symm)

/-! ## The timed drain -/

theorem continueTick (h : AgreeWithQueue S d d') (now : Nat) (timer : DrainTimer) (worker : Nat) :
    AgreeWithQueue S (d.continueTick now timer worker) (d'.continueTick now timer worker) := by
  obtain ⟨same, alike⟩ := h.awaitWorker now worker .awaiting fun answer alike =>
    alike.finish answer
  rw [Depot.continueTick, Depot.continueTick]
  generalize d.awaitWorker now worker Task.awaiting Depot.finish = result at same alike ⊢
  generalize d'.awaitWorker now worker Task.awaiting Depot.finish = result' at same alike ⊢
  obtain ⟨progress, e⟩ := result
  obtain ⟨progress', e'⟩ := result'
  cases same
  cases progress with
  | answered answer => exact alike.withTimer _
  | waits t => exact alike.withTimer _

theorem runTimer (h : AgreeWithQueue S d d') (now : Nat) :
    AgreeWithQueue S (d.runTimer now) (d'.runTimer now) := by
  rw [Depot.runTimer, Depot.runTimer, h.drainTimer]
  cases d.drainTimer with
  | none => exact h
  | some timer =>
    dsimp only
    cases timer.worker with
    | some worker =>
      have ready : d'.backlog.isReady now worker = d.backlog.isReady now worker := by
        rw [h.backlog]
      dsimp only
      rw [ready]
      split
      · exact h.continueTick now timer worker
      · exact h
    | none =>
      dsimp only
      cases timer.ticker.beginTick? now with
      | none => exact h
      | some ticker =>
        have empty : d'.backlog.queue.items.isEmpty = d.backlog.queue.items.isEmpty := by
          rw [h.backlog]
        dsimp only
        rw [empty]
        split
        · exact h.withTimer _
        · obtain ⟨same, started⟩ := h.startWorker .newDrain
          rw [same]
          exact started.continueTick now { ticker } _

/-! ## Tasks -/

/-- The same has become of a task in both depots, which are alike after it. -/
structure Moves (S : Nat → Prop) (id : Nat) (e : TaskEdit) (d d' after after' : Depot) : Prop where
  tasks : after.tasks = e.apply id d.tasks
  tasks' : after'.tasks = e.apply id d'.tasks
  alike : AgreeWithQueue S after after'

theorem moves_settleTask {p p' : Progress × Depot} (same : p'.1 = p.1)
    (alike : AgreeWithQueue S p.2 p'.2) (kept : p.2.tasks = d.tasks)
    (kept' : p'.2.tasks = d'.tasks) (id : Nat) :
    Moves S id (.put p.1.task) d d' (settleTask id p) (settleTask id p') := by
  rw [settleTask_eq, settleTask_eq, same, kept, kept']
  exact ⟨rfl, rfl, ⟨⟨alike.registry, alike.reloading, alike.cells, alike.stores⟩, alike.backlog,
    alike.drainTimer⟩⟩

theorem moves_dropTask (d d' : Depot) {after after' : Depot} (alike : AgreeWithQueue S after after')
    (kept : after.tasks = d.tasks) (kept' : after'.tasks = d'.tasks) (id : Nat) :
    Moves S id .drop d d' (after.dropTask id) (after'.dropTask id) where
  tasks := congrArg (Assoc.erase · id) kept
  tasks' := congrArg (Assoc.erase · id) kept'
  alike := ⟨alike.toAgree.dropTask id id, alike.backlog, alike.drainTimer⟩

theorem isReady (h : AgreeWithQueue S d d') (now : Nat) (t : Task) :
    d'.isReady now t = d.isReady now t := by
  cases t with
  | stopping flushFirst => rw [Depot.isReady, Depot.isReady, timerTicks, timerTicks, h.drainTimer]
  | awaiting worker => rw [Depot.isReady, Depot.isReady, h.backlog]
  | flushing worker => rw [Depot.isReady, Depot.isReady, h.backlog]
  | draining worker => rw [Depot.isReady, Depot.isReady, h.backlog]
  | _ => rfl

/-- A task goes on alike in both depots. -/
theorem resumeTask (h : AgreeWithQueue S d d') (now id : Nat) (t : Task) :
    ∃ e, Moves S id e d d' (d.resumeTask now id t) (d'.resumeTask now id t) := by
  have drains (d : Depot) (worker : Nat) (waiting : Nat → Task) :
      (d.awaitWorker now worker waiting Depot.finish).2.tasks = d.tasks :=
    (Beside.awaitWorker d now worker waiting fun d _ => Beside.refl d).tasks
  cases uses : t.usesQueue with
  | false =>
    obtain ⟨e, -, edits, edits', agree⟩ := h.toAgree.resumeTask now id id uses
    exact ⟨e, edits.tasks, edits'.tasks, agree,
      edits'.backlog.trans (h.backlog.trans edits.backlog.symm),
      edits'.drainTimer.trans (h.drainTimer.trans edits.drainTimer.symm)⟩
  | true =>
    cases t with
    | awaiting worker =>
      obtain ⟨same, alike⟩ := h.awaitWorker now worker .awaiting fun answer alike =>
    alike.finish answer
      exact ⟨_, moves_settleTask same alike (drains d worker _) (drains d' worker _) id⟩
    | stopping flushFirst =>
      obtain ⟨same, alike⟩ := h.afterTimer now flushFirst
      exact ⟨_, moves_settleTask same alike (Beside.afterTimer d now flushFirst).tasks
        (Beside.afterTimer d' now flushFirst).tasks id⟩
    | flushing worker =>
      obtain ⟨same, alike⟩ := h.awaitWorker now worker .flushing fun answer alike =>
        alike.tearDown answer
      exact ⟨_, moves_settleTask same alike
        (Beside.awaitWorker d now worker .flushing fun d _ => Beside.stopSweepers d).tasks
        (Beside.awaitWorker d' now worker .flushing fun d _ => Beside.stopSweepers d).tasks id⟩
    | draining worker =>
      obtain ⟨same, alike⟩ := h.awaitWorker now worker .draining fun answer alike =>
    alike.finish answer
      have kept := drains d worker .draining
      have kept' := drains d' worker .draining
      rw [Depot.resumeTask, Depot.resumeTask]
      generalize d.awaitWorker now worker Task.draining Depot.finish = result at same alike kept ⊢
      generalize d'.awaitWorker now worker Task.draining Depot.finish = result'
        at same alike kept' ⊢
      obtain ⟨progress, e⟩ := result
      obtain ⟨progress', e'⟩ := result'
      cases same
      cases progress with
      | answered answer => exact ⟨_, moves_dropTask d d' alike kept kept' id⟩
      | waits t => exact ⟨.keep, kept, kept', alike⟩
    | _ => cases uses

/-- A task that goes on if it can does so alike in both depots. -/
theorem resume (h : AgreeWithQueue S d d') (now : Nat) {id : Nat}
    (same : d'.tasks.get? id = d.tasks.get? id) :
    ∃ e, Moves S id e d d' (d.resume now id) (d'.resume now id) := by
  rw [Depot.resume, Depot.resume, same]
  cases d.tasks.get? id with
  | none => exact ⟨.keep, rfl, rfl, h⟩
  | some t =>
    dsimp only
    rw [h.isReady]
    split
    · exact h.resumeTask now id t
    · exact ⟨.keep, rfl, rfl, h⟩

/-- A teardown empties a store alike in both depots. -/
theorem emptyOne (h : AgreeWithQueue S d d') {id : Nat} (same : d'.tasks.get? id = d.tasks.get? id)
    (handle : Handle) : ∃ e, Moves S id e d d' (d.emptyOne id handle) (d'.emptyOne id handle) := by
  have kept (d : Depot) (left : List Handle) (answer : Answer) :
      (d.clearNext left answer handle).2.tasks = d.tasks := by
    rw [snd_clearNext]
    rfl
  rw [Depot.emptyOne, Depot.emptyOne, same]
  split
  · rename_i left answer _
    split
    · obtain ⟨same, alike⟩ := h.clearNext left answer handle
      exact ⟨_, moves_settleTask same alike (kept d left answer) (kept d' left answer) id⟩
    · exact ⟨.keep, rfl, rfl, h⟩
  · exact ⟨.keep, rfl, rfl, h⟩

/-- A task is given up alike in both depots. -/
theorem abort (h : AgreeWithQueue S d d') {id : Nat} (same : d'.tasks.get? id = d.tasks.get? id) :
    ∃ e, Moves S id e d d' (d.abort id) (d'.abort id) := by
  have cancelled (worker : Nat) : AgreeWithQueue S (d.onBacklog fun b => b.cancel worker)
      (d'.onBacklog fun b => b.cancel worker) :=
    h.withBacklog (by rw [h.backlog]) _ _
  have released (reload : ReloadId) :
      AgreeWithQueue S { d with reloading := d.reloading.erase reload }
        { d' with reloading := d'.reloading.erase reload } :=
    ⟨⟨h.registry, congrArg (List.erase · reload) h.reloading, h.cells, h.stores⟩, h.backlog,
      h.drainTimer⟩
  rw [Depot.abort, Depot.abort, same]
  cases d.tasks.get? id with
  | none => exact ⟨.keep, rfl, rfl, h⟩
  | some t =>
    cases t with
    | ended answer => exact ⟨.keep, rfl, rfl, h⟩
    | awaiting worker => exact ⟨_, moves_dropTask d d' (cancelled worker) rfl rfl id⟩
    | flushing worker => exact ⟨_, moves_dropTask d d' (cancelled worker) rfl rfl id⟩
    | draining worker => exact ⟨_, moves_dropTask d d' (cancelled worker) rfl rfl id⟩
    | reloadReady handle key ttl loader =>
      exact ⟨_, moves_dropTask d d' (released (handle.name, key)) rfl rfl id⟩
    | reloading handle key ttl loader due =>
      exact ⟨_, moves_dropTask d d' (released (handle.name, key)) rfl rfl id⟩
    | _ => exact ⟨_, moves_dropTask d d' h rfl rfl id⟩

end AgreeWithQueue

/-! ## A depot with tasks of its own -/

/-- The depots are alike but for tasks of the first one that are to put something into cells on
which they need not agree. The tasks that both have are numbered below `n`. -/
structure AgreeUpTo (S : Nat → Prop) (n : Nat) (d d' : Depot) : Prop
    extends AgreeWithQueue S d d' where
  shared : ∀ id < n, d'.tasks.get? id = d.tasks.get? id
  own : ∀ id t, n ≤ id → d.tasks.get? id = some t →
    ∃ handle key value ttl, t = .storing handle key value ttl ∧ ¬ S handle.cell
  none : ∀ id, n ≤ id → d'.tasks.get? id = none
  numbered : n ≤ d.nextTask

namespace AgreeUpTo

variable {n : Nat}

theorem refl (numbered : d.Numbered) : AgreeUpTo S d.nextTask d d where
  toAgreeWithQueue := .refl d
  shared := fun _ _ => rfl
  own := fun id t late bound => absurd (numbered id t bound) (Nat.not_lt.mpr late)
  none := fun id late => Option.eq_none_iff_forall_ne_some.mpr fun t bound =>
    absurd (numbered id t bound) (Nat.not_lt.mpr late)
  numbered := Nat.le_refl _

/-- Whatever keeps the depots alike and leaves their tasks alone. -/
theorem of_alike (h : AgreeUpTo S n d d') {after after' : Depot}
    (alike : AgreeWithQueue S after after') (kept : after.tasks = d.tasks)
    (kept' : after'.tasks = d'.tasks) (numbered : d.nextTask ≤ after.nextTask) :
    AgreeUpTo S n after after' where
  toAgreeWithQueue := alike
  shared := by
    rw [kept, kept']
    exact h.shared
  own := by
    rw [kept]
    exact h.own
  none := by
    rw [kept']
    exact h.none
  numbered := Nat.le_trans h.numbered numbered

theorem of_moves (h : AgreeUpTo S n d d') {id : Nat} (old : id < n) {e : TaskEdit}
    {after after' : Depot} (moves : AgreeWithQueue.Moves S id e d d' after after')
    (numbered : d.nextTask ≤ after.nextTask) : AgreeUpTo S n after after' where
  toAgreeWithQueue := moves.alike
  shared := by
    intro other known
    rw [moves.tasks, moves.tasks']
    exact e.get?_apply_congr (h.shared other known)
  own := by
    intro other t late bound
    rw [moves.tasks, e.get?_apply_of_ne (Nat.ne_of_gt (Nat.lt_of_lt_of_le old late))] at bound
    exact h.own other t late bound
  none := by
    intro other late
    rw [moves.tasks', e.get?_apply_of_ne (Nat.ne_of_gt (Nat.lt_of_lt_of_le old late))]
    exact h.none other late
  numbered := Nat.le_trans h.numbered numbered

/-- A task that only the first depot has is done with. -/
theorem dropTask (h : AgreeUpTo S n d d') {id : Nat} (own : n ≤ id) {after : Depot}
    (alike : AgreeWithQueue S after d') (kept : after.tasks = d.tasks)
    (numbered : d.nextTask ≤ after.nextTask) : AgreeUpTo S n (after.dropTask id) d' where
  toAgreeWithQueue := ⟨⟨alike.registry, alike.reloading, alike.cells, alike.stores⟩, alike.backlog,
    alike.drainTimer⟩
  shared := by
    intro other known
    have differs : id ≠ other := (Nat.ne_of_lt (Nat.lt_of_lt_of_le known own)).symm
    have same : (after.dropTask id).tasks.get? other = d.tasks.get? other :=
      (Assoc.get?_erase_of_ne _ differs).trans (by rw [kept])
    exact (h.shared other known).trans same.symm
  own := by
    intro other t late bound
    rw [Depot.dropTask, Assoc.get?_erase, kept] at bound
    split at bound
    · cases bound
    · exact h.own other t late bound
  none := h.none
  numbered := Nat.le_trans h.numbered numbered

theorem resume (h : AgreeUpTo S n d d') (now id : Nat) :
    AgreeUpTo S n (d.resume now id) (d'.resume now id) := by
  have numbered := (d.turn_act now (.resume id)).nextTask_le
  rcases Nat.lt_or_ge id n with old | own
  · obtain ⟨e, moves⟩ := h.toAgreeWithQueue.resume now (h.shared id old)
    exact h.of_moves old moves numbered
  · have idle : d'.resume now id = d' := by rw [Depot.resume, h.none id own]
    rw [idle]
    cases bound : d.tasks.get? id with
    | none =>
      rw [Depot.resume, bound]
      exact h
    | some t =>
      obtain ⟨handle, key, value, ttl, rfl, hidden⟩ := h.own id t own bound
      rw [Depot.resume, bound]
      have agree := h.toAgree.onStore_left hidden fun s => s.set now key value (some ttl)
      exact h.dropTask own ⟨agree, h.backlog, h.drainTimer⟩ rfl (Nat.le_refl _)

theorem emptyOne (h : AgreeUpTo S n d d') (id : Nat) (handle : Handle) :
    AgreeUpTo S n (d.emptyOne id handle) (d'.emptyOne id handle) := by
  have numbered := (d.turn_emptyOne id handle).nextTask_le
  rcases Nat.lt_or_ge id n with old | own
  · obtain ⟨e, moves⟩ := h.toAgreeWithQueue.emptyOne (h.shared id old) handle
    exact h.of_moves old moves numbered
  · have idle : d'.emptyOne id handle = d' := by rw [Depot.emptyOne, h.none id own]
    have idle' : d.emptyOne id handle = d := by
      cases bound : d.tasks.get? id with
      | none => rw [Depot.emptyOne, bound]
      | some t =>
        obtain ⟨handle', key, value, ttl, rfl, -⟩ := h.own id t own bound
        rw [Depot.emptyOne, bound]
    rw [idle, idle']
    exact h

theorem abort (h : AgreeUpTo S n d d') (id : Nat) : AgreeUpTo S n (d.abort id) (d'.abort id) := by
  have numbered := (d.turn_act 0 (.abort id)).nextTask_le
  rcases Nat.lt_or_ge id n with old | own
  · obtain ⟨e, moves⟩ := h.toAgreeWithQueue.abort (h.shared id old)
    exact h.of_moves old moves numbered
  · have idle : d'.abort id = d' := by rw [Depot.abort, h.none id own]
    rw [idle]
    cases bound : d.tasks.get? id with
    | none =>
      rw [Depot.abort, bound]
      exact h
    | some t =>
      obtain ⟨handle, key, value, ttl, rfl, -⟩ := h.own id t own bound
      rw [Depot.abort, bound]
      exact h.dropTask own h.toAgreeWithQueue rfl (Nat.le_refl _)

/-- What is done to stores alike in both depots. -/
theorem of_storesOnly (h : AgreeUpTo S n d d') {after after' : Depot} (only : d.StoresOnly after)
    (only' : d'.StoresOnly after') (agree : Agree S after after') : AgreeUpTo S n after after' :=
  h.of_alike ⟨agree, only'.backlog.trans (h.backlog.trans only.backlog.symm),
    only'.drainTimer.trans (h.drainTimer.trans only.drainTimer.symm)⟩ only.tasks only'.tasks
    (Nat.le_of_eq only.nextTask.symm)

/-- What the first depot alone does in a cell on which they need not agree. -/
theorem onStore_left (h : AgreeUpTo S n d d') {α : Type} {handle : Handle}
    (hidden : ¬ S handle.cell) (f : Store → α × Store) : AgreeUpTo S n (d.onStore handle f).2 d' :=
  h.of_alike ⟨h.toAgree.onStore_left hidden f, h.backlog, h.drainTimer⟩ rfl rfl (Nat.le_refl _)

/-- The first depot alone is to put something into a cell on which they need not agree. -/
theorem spawn_left (h : AgreeUpTo S n d d') {handle : Handle} (hidden : ¬ S handle.cell)
    (key : CacheKey) (value : Json) (ttl : Duration) :
    AgreeUpTo S n (d.spawn (.storing handle key value ttl)).2 d' where
  toAgreeWithQueue := ⟨⟨h.registry, h.reloading, h.cells, h.stores⟩, h.backlog, h.drainTimer⟩
  shared := by
    intro id known
    have differs : d.nextTask ≠ id := Nat.ne_of_gt (Nat.lt_of_lt_of_le known h.numbered)
    exact (h.shared id known).trans (Assoc.get?_insert_of_ne _ _ differs).symm
  own := by
    intro id t late bound
    rw [spawn, Assoc.get?_insert] at bound
    split at bound
    · cases bound
      exact ⟨handle, key, value, ttl, rfl, hidden⟩
    · exact h.own id t late bound
  none := h.none
  numbered := Nat.le_succ_of_le h.numbered

/-- What nobody has to call for goes on in both depots alike. -/
theorem act (h : AgreeUpTo S n d d') (now : Nat) {a : Action}
    (uncalled : ∀ operation, a ≠ .start operation) :
    AgreeUpTo S n (d.act now a) (d'.act now a) := by
  have numbered := (d.turn_act now a).nextTask_le
  cases a with
  | start operation => exact absurd rfl (uncalled operation)
  | resume id => exact h.resume now id
  | clear id handle => exact h.emptyOne id handle
  | drainTimer =>
    exact h.of_alike (h.toAgreeWithQueue.runTimer now) (d.runTimer_leaves now).1
      (d'.runTimer_leaves now).1 numbered
  | sweep name =>
    exact h.of_alike (h.toAgreeWithQueue.runSweep now name) (d.runSweep_tasks now name).1
      (d'.runSweep_tasks now name).1 numbered
  | abort id => exact h.abort id

end AgreeUpTo
end CacheDepot.Depot
