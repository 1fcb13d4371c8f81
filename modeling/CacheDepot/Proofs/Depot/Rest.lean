import CacheDepot.Proofs.Depot.Soundness

/-!
# How the timed drain and the sweeps come to rest

Tasks that go on leave the timed drain and the names of the stores alone and start no sweep. A timed
drain that was asked to end never starts anew, and once it and the sweeps are over they do nothing
any more.
-/

namespace CacheDepot.Depot

/-- Whether every name leads to the store that it led to. -/
def SameNames (d d' : Depot) : Prop := ∀ name, d'.getCache name = d.getCache name

theorem sameNames_of_registry {d d' : Depot} (same : d'.registry = d.registry) : d.SameNames d' :=
  fun name => congrArg (fun r => (r.resolve name).handle) same

/-- A sweep that is stopped leaves its store where it is. -/
theorem sameNames_stopSweepers (d : Depot) : d.SameNames d.stopSweepers := by
  intro name
  have stopped := Ordered.get?_map
    (fun r : Registered => { r with sweeper := r.sweeper.map Ticker.stop }) name d.registry.named
  rw [getCache, getCache, stopSweepers, Registry.resolve, Registry.resolve, Registry.map, stopped]
  cases Ordered.get? name d.registry.named <;> rfl

/-- The stores with a name are those that some name leads to. -/
theorem mem_handles_iff {d : Depot} {h : Handle} (inOrder : d.registry.InOrder) :
    h ∈ d.handles ↔ ∃ name, d.getCache name = h := by
  constructor
  · intro member
    obtain ⟨b, entered, rfl⟩ := List.mem_map.mp member
    refine ⟨b.1, ?_⟩
    rw [getCache, inOrder.resolve_eq, inOrder.mem_toList.mp entered]
    rfl
  · rintro ⟨name, rfl⟩
    rw [getCache, inOrder.resolve_eq]
    cases found : d.registry.get? name with
    | none =>
      have fallback : d.registry.get? defaultName = some d.registry.fallback := if_pos rfl
      exact List.mem_map.mpr ⟨(defaultName, _), inOrder.mem_toList.mpr fallback, rfl⟩
    | some r => exact List.mem_map.mpr ⟨(name, r), inOrder.mem_toList.mpr found, rfl⟩

theorem SameNames.mem_handles_iff {d d' : Depot} {h : Handle} (names : d.SameNames d')
    (inOrder : d.registry.InOrder) (inOrder' : d'.registry.InOrder) :
    h ∈ d'.handles ↔ h ∈ d.handles := by
  rw [Depot.mem_handles_iff inOrder, Depot.mem_handles_iff inOrder']
  exact exists_congr fun name => names name ▸ Iff.rfl

/-- Whether the tasks, the timed drain and the names are untouched and no sweep was started. -/
structure Beside (d d' : Depot) : Prop where
  drainTimer : d'.drainTimer = d.drainTimer
  tasks : d'.tasks = d.tasks
  names : d.SameNames d'
  silent : d.registry.Every Registered.Silent → d'.registry.Every Registered.Silent

theorem settleTask_drainTimer (id : Nat) (p : Progress × Depot) :
    (settleTask id p).drainTimer = p.2.drainTimer := by
  obtain ⟨progress, d⟩ := p
  cases progress <;> rfl

/-- Whether, of all that is under way, at most the task `id` is touched. -/
structure LeavesOthers (id : Nat) (d d' : Depot) : Prop where
  drainTimer : d'.drainTimer = d.drainTimer
  tasks : ∀ other, other ≠ id → d'.tasks.get? other = d.tasks.get? other
  names : d.SameNames d'
  silent : d.registry.Every Registered.Silent → d'.registry.Every Registered.Silent

namespace Beside

variable {d d' d'' : Depot}

theorem refl (d : Depot) : d.Beside d := ⟨rfl, rfl, fun _ => rfl, id⟩

theorem trans (h : d.Beside d') (h' : d'.Beside d'') : d.Beside d'' :=
  ⟨h'.drainTimer.trans h.drainTimer, h'.tasks.trans h.tasks,
    fun name => (h'.names name).trans (h.names name), h'.silent ∘ h.silent⟩

theorem storesOnly (only : d.StoresOnly d') : d.Beside d' :=
  ⟨only.drainTimer, only.tasks, sameNames_of_registry only.registry,
    fun silent => only.registry ▸ silent⟩

theorem stopSweepers (d : Depot) : d.Beside d.stopSweepers :=
  ⟨rfl, rfl, d.sameNames_stopSweepers, fun silent => silent.map fun _ silent => silent.sound.stop⟩

theorem awaitWorker (d : Depot) (now worker : Nat) (waiting : Nat → Task)
    {next : Depot → Answer → Progress × Depot}
    (keeps : ∀ (d : Depot) answer, d.Beside (next d answer).2) :
    d.Beside (d.awaitWorker now worker waiting next).2 := by
  rw [Depot.awaitWorker]
  cases (d.onBacklog fun b => b.resume now worker).backlog.report? worker with
  | none => exact ⟨rfl, rfl, fun _ => rfl, id⟩
  | some report =>
    have collected : d.Beside { d.onBacklog fun b => b.resume now worker with
        backlog := (d.backlog.resume now worker).collect worker } := ⟨rfl, rfl, fun _ => rfl, id⟩
    exact collected.trans (keeps _ _)

theorem runWorker (d : Depot) (now : Nat) (w : WriteBehind.Worker) :
    d.Beside (d.runWorker now w).2 := by
  have started : d.Beside (d.startWorker w).2 := ⟨rfl, rfl, fun _ => rfl, id⟩
  exact started.trans (awaitWorker _ now _ _ fun d _ => refl d)

theorem afterTimer (d : Depot) (now : Nat) (flushFirst : Bool) :
    d.Beside (d.afterTimer now flushFirst).2 := by
  cases flushFirst with
  | false => exact stopSweepers d
  | true =>
    have started : d.Beside (d.startWorker .newFlush).2 := ⟨rfl, rfl, fun _ => rfl, id⟩
    exact started.trans (awaitWorker _ now _ _ fun d _ => stopSweepers d)

theorem settleTask {p : Progress × Depot} (h : d.Beside p.2) (id : Nat) :
    d.LeavesOthers id (settleTask id p) := by
  obtain ⟨progress, d'⟩ := p
  have inserted : ∀ (t : Task) (other : Nat), other ≠ id →
      (d'.tasks.insert id t).get? other = d.tasks.get? other := fun t other differs =>
    (Assoc.get?_insert_of_ne _ _ (Ne.symm differs)).trans (congrArg (·.get? other) h.tasks)
  cases progress with
  | answered answer => exact ⟨h.drainTimer, inserted _, h.names, h.silent⟩
  | waits t => exact ⟨h.drainTimer, inserted _, h.names, h.silent⟩

theorem dropTask (h : d.Beside d') (id : Nat) : d.LeavesOthers id (d'.dropTask id) := by
  refine ⟨h.drainTimer, ?_, h.names, h.silent⟩
  intro other differs
  exact (Assoc.get?_erase_of_ne _ (Ne.symm differs)).trans (congrArg (·.get? other) h.tasks)

theorem leavesOthers (h : d.Beside d') (id : Nat) : d.LeavesOthers id d' :=
  ⟨h.drainTimer, fun other _ => congrArg (·.get? other) h.tasks, h.names, h.silent⟩

end Beside

/-- A task that goes on leaves the others and the timed drain alone. -/
theorem leavesOthers_resumeTask (d : Depot) (now id : Nat) (t : Task) :
    d.LeavesOthers id (d.resumeTask now id t) := by
  cases t with
  | loading handle key ttl loader due =>
    exact (Beside.storesOnly (.finishLoad d now handle key ttl loader.outcome)).settleTask
      (p := (.answered _, _)) id
  | persisting handle key value ttl attempt due =>
    exact (Beside.refl d).settleTask (p := (afterPersist handle key value ttl attempt, d)) id
  | caching handle key value ttl =>
    exact (Beside.storesOnly (.setKey d now handle key ttl value)).settleTask
      (p := (.answered _, _)) id
  | awaiting worker =>
    exact (Beside.awaitWorker d now worker _ fun d _ => Beside.refl d).settleTask id
  | stopping flushFirst => exact (Beside.afterTimer d now flushFirst).settleTask id
  | flushing worker =>
    exact (Beside.awaitWorker d now worker _ fun d _ => Beside.stopSweepers d).settleTask id
  | clearing left answer =>
    exact (Beside.storesOnly (.clearStores d left)).settleTask (p := (.answered answer, _)) id
  | reloadReady handle key ttl loader =>
    have called := StoresOnly.record d (.loaderCalled loader.label)
    rw [resumeTask]
    split
    · exact (Beside.storesOnly (called.trans (.finishReload _ now handle key ttl _))).dropTask id
    · exact (Beside.storesOnly called).settleTask (p := (.waits _, _)) id
  | reloading handle key ttl loader due =>
    exact (Beside.storesOnly (.finishReload d now handle key ttl loader.outcome)).dropTask id
  | draining worker =>
    have awaited : d.Beside (d.awaitWorker now worker Task.draining finish).2 :=
      Beside.awaitWorker d now worker _ fun d _ => Beside.refl d
    rw [resumeTask]
    generalize d.awaitWorker now worker Task.draining finish = result at awaited ⊢
    obtain ⟨progress, d'⟩ := result
    cases progress with
    | answered answer => exact awaited.dropTask id
    | waits t => exact awaited.leavesOthers id
  | storing handle key value ttl =>
    exact (Beside.storesOnly (.setKey d now handle key (some ttl) value)).dropTask id
  | ended answer => exact (Beside.refl d).leavesOthers id

theorem leavesOthers_resume (d : Depot) (now id : Nat) : d.LeavesOthers id (d.resume now id) := by
  unfold resume
  split
  · split
    · exact d.leavesOthers_resumeTask now id _
    · exact (Beside.refl d).leavesOthers id
  · exact (Beside.refl d).leavesOthers id

theorem leavesOthers_emptyOne (d : Depot) (id : Nat) (h : Handle) :
    d.LeavesOthers id (d.emptyOne id h) := by
  unfold emptyOne
  split
  · rename_i left answer _
    split
    · have cleared : d.Beside (d.clearNext left answer h).2 :=
        d.snd_clearNext left answer h ▸ Beside.storesOnly (.clearStore d h)
      exact cleared.settleTask id
    · exact (Beside.refl d).leavesOthers id
  · exact (Beside.refl d).leavesOthers id

theorem leavesOthers_abort (d : Depot) (id : Nat) : d.LeavesOthers id (d.abort id) := by
  have cancelled : ∀ worker, d.Beside (d.onBacklog fun b => b.cancel worker) :=
    fun _ => ⟨rfl, rfl, fun _ => rfl, fun silent => silent⟩
  unfold abort
  cases d.tasks.get? id with
  | none => exact (Beside.refl d).leavesOthers id
  | some t =>
    cases t with
    | awaiting worker => exact (cancelled worker).dropTask id
    | flushing worker => exact (cancelled worker).dropTask id
    | draining worker => exact (cancelled worker).dropTask id
    | ended answer => exact (Beside.refl d).leavesOthers id
    | reloadReady handle key ttl loader =>
      exact (Beside.storesOnly (.withReloading d _)).dropTask id
    | reloading handle key ttl loader due =>
      exact (Beside.storesOnly (.withReloading d _)).dropTask id
    | _ => exact (Beside.refl d).dropTask id

/-- Whether the timed drain, if there is one, was asked to end. -/
def TimerDropped (d : Depot) : Prop :=
  ∀ timer, d.drainTimer = some timer → timer.ticker.held = false

namespace TimerDropped

variable {d d' : Depot}

theorem congr (h : d.TimerDropped) (same : d'.drainTimer = d.drainTimer) : d'.TimerDropped :=
  fun timer found => h timer (same ▸ found)

theorem stopTimer (d : Depot) : d.stopTimer.TimerDropped := by
  intro timer found
  obtain ⟨old, -, rfl⟩ := Option.map_eq_some_iff.mp found
  exact old.ticker.held_shutDown

theorem of_not_holdsTimer (free : ¬ d.holdsTimer = true) : d.TimerDropped := by
  intro timer found
  rw [holdsTimer, found, Option.any_some] at free
  exact Bool.eq_false_iff.mpr free

theorem continueTick (d : Depot) (now : Nat) {timer : DrainTimer} (worker : Nat)
    (dropped : timer.ticker.held = false) : (d.continueTick now timer worker).TimerDropped := by
  intro timer' same
  rw [Depot.continueTick] at same
  generalize d.awaitWorker now worker Task.awaiting finish = result at same
  obtain ⟨progress, d'⟩ := result
  cases progress with
  | answered answer => cases same; exact timer.ticker.held_endTick.trans dropped
  | waits t => cases same; exact dropped

theorem runTimer (h : d.TimerDropped) (now : Nat) : (d.runTimer now).TimerDropped := by
  unfold Depot.runTimer
  cases found : d.drainTimer with
  | none => exact h
  | some timer =>
    have dropped := h timer found
    dsimp only
    split
    · split
      · exact continueTick d now _ dropped
      · exact h
    · split
      · rename_i ticker begun
        have dropped' : ticker.held = false := (Ticker.isTicking_beginTick? begun).2.2.trans dropped
        split
        · intro timer' same
          cases same
          exact ticker.held_endTick.trans dropped'
        · exact continueTick _ now _ dropped'
      · exact h

end TimerDropped

theorem awaitWorker_registry (d : Depot) (now worker : Nat) (waiting : Nat → Task) :
    (d.awaitWorker now worker waiting finish).2.registry = d.registry := by
  rw [awaitWorker]
  cases (d.onBacklog fun b => b.resume now worker).backlog.report? worker <;> rfl

theorem continueTick_leaves (d : Depot) (now : Nat) (timer : DrainTimer) (worker : Nat) :
    (d.continueTick now timer worker).tasks = d.tasks ∧
      (d.continueTick now timer worker).registry = d.registry := by
  have tasks : (d.awaitWorker now worker Task.awaiting finish).2.tasks = d.tasks :=
    (Beside.awaitWorker d now worker _ fun d _ => Beside.refl d).tasks
  have registry := d.awaitWorker_registry now worker Task.awaiting
  unfold continueTick
  generalize d.awaitWorker now worker Task.awaiting finish = result at tasks registry ⊢
  obtain ⟨progress, d'⟩ := result
  cases progress <;> exact ⟨tasks, registry⟩

/-- The timed drain leaves all tasks and all stores' names alone. -/
theorem runTimer_leaves (d : Depot) (now : Nat) :
    (d.runTimer now).tasks = d.tasks ∧ (d.runTimer now).registry = d.registry := by
  unfold runTimer
  split
  · split
    · split
      · exact d.continueTick_leaves now _ _
      · exact ⟨rfl, rfl⟩
    · split
      · split
        · exact ⟨rfl, rfl⟩
        · exact (d.startWorker .newDrain).2.continueTick_leaves now _ _
      · exact ⟨rfl, rfl⟩
  · exact ⟨rfl, rfl⟩

theorem runSweep_tasks (d : Depot) (now : Nat) (name : String) :
    (d.runSweep now name).tasks = d.tasks ∧ (d.runSweep now name).drainTimer = d.drainTimer := by
  unfold runSweep
  split
  · split <;> exact ⟨rfl, rfl⟩
  · exact ⟨rfl, rfl⟩

/-- A store that is entered anew with its own handle stays where it is. -/
theorem resolve_insert_of_get? {r : Registry} {name : String} {old : Registered}
    (found : r.get? name = some old) (new : Registered) (same : new.handle = old.handle)
    (other : String) :
    ((r.insert name new).resolve other).handle = (r.resolve other).handle := by
  rw [Registry.get?] at found
  rw [Registry.insert]
  split at found
  · rename_i default
    cases found
    rw [if_pos default, Registry.resolve, Registry.resolve]
    cases Ordered.get? other r.named with
    | none => exact same
    | some registered => rfl
  · rename_i named
    rw [if_neg named, Registry.resolve, Registry.resolve]
    dsimp only
    by_cases own : name = other
    · subst own
      rw [Ordered.get?_insert_self, found]
      exact same
    · rw [Ordered.get?_insert_of_ne _ own]

theorem sameNames_runSweep (d : Depot) (now : Nat) (name : String) :
    d.SameNames (d.runSweep now name) := by
  intro other
  unfold runSweep
  split
  · rename_i registered found
    split
    · rename_i ticker _
      exact resolve_insert_of_get? found { registered with sweeper := some ticker.endTick } rfl
        other
    · rfl
  · rfl

/-- Without a call of a caller no name leads elsewhere. -/
theorem sameNames_act (d : Depot) (now : Nat) {a : Action}
    (uncalled : ∀ operation, a ≠ .start operation) : d.SameNames (d.act now a) := by
  cases a with
  | start operation => exact absurd rfl (uncalled operation)
  | resume id => exact (d.leavesOthers_resume now id).names
  | clear id h => exact (d.leavesOthers_emptyOne id h).names
  | drainTimer => exact sameNames_of_registry (d.runTimer_leaves now).2
  | sweep name => exact d.sameNames_runSweep now name
  | abort id => exact (d.leavesOthers_abort id).names

/-- A sweep that is over does nothing. -/
theorem runSweep_of_silent {d : Depot} (silent : d.registry.Every Registered.Silent) (now : Nat)
    (name : String) : d.runSweep now name = d := by
  unfold Depot.runSweep
  split
  · rename_i registered found
    have none : registered.sweeper.bind (Ticker.beginTick? · now) = none := by
      cases sweeps : registered.sweeper with
      | none => rfl
      | some sweeper =>
        exact Ticker.beginTick?_of_ended (silent.get? found sweeper sweeps) now
    rw [none]
  · rfl

/-- Whether neither the timed drain nor a sweep does anything any more. -/
structure Still (d : Depot) : Prop where
  timer : ∀ timer, d.drainTimer = some timer →
    timer.worker = none ∧ timer.ticker.phase = .ended
  silent : d.registry.Every Registered.Silent

namespace Still

variable {d : Depot}

theorem runTimer (h : d.Still) (now : Nat) : d.runTimer now = d := by
  unfold Depot.runTimer
  cases found : d.drainTimer with
  | none => rfl
  | some timer =>
    obtain ⟨free, ended⟩ := h.timer timer found
    dsimp only
    rw [free, Ticker.beginTick?_of_ended ended]

theorem runSweep (h : d.Still) (now : Nat) (name : String) : d.runSweep now name = d :=
  runSweep_of_silent h.silent now name

theorem leavesOthers {d' : Depot} {id : Nat} (h : d.Still) (on : d.LeavesOthers id d') :
    d'.Still :=
  ⟨fun timer found => h.timer timer (on.drainTimer ▸ found), on.silent h.silent⟩

theorem run (h : d.Still) {actions : List (Nat × Action)}
    (uncalled : ∀ a ∈ actions, ∀ operation, a.2 ≠ .start operation) : (d.run actions).Still := by
  induction actions generalizing d with
  | nil => exact h
  | cons first rest ih =>
    refine ih ?_ fun a member => uncalled a (List.mem_cons_of_mem _ member)
    obtain ⟨now, a⟩ := first
    cases a with
    | start operation => exact absurd rfl (uncalled _ List.mem_cons_self operation)
    | resume id => exact h.leavesOthers (d.leavesOthers_resume now id)
    | clear id handle => exact h.leavesOthers (d.leavesOthers_emptyOne id handle)
    | drainTimer =>
      show (d.runTimer now).Still
      rw [h.runTimer]
      exact h
    | sweep name =>
      show (d.runSweep now name).Still
      rw [h.runSweep]
      exact h
    | abort id => exact h.leavesOthers (d.leavesOthers_abort id)

end Still
end CacheDepot.Depot
