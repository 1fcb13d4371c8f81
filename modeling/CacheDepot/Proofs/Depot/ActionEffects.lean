import CacheDepot.Proofs.Depot.Changes

/-!
# What an action can do

An action changes stores and queue, and besides it starts tasks, moves one task on, or ends one.
`Turn` says once what can happen, for every action; what holds in all reachable depots is proved by
looking at these few cases.
-/

namespace CacheDepot

/-- What a task is known by if it is a background reload. -/
def Task.reloadId? : Task → Option ReloadId
  | .reloadReady h key _ _ | .reloading h key _ _ _ => some (h.name, key)
  | _ => none

/-- What the task is known by that is left behind, if that is a background reload. -/
def Progress.reloadId? : Progress → Option ReloadId
  | .answered _ => none
  | .waits t => t.reloadId?

/-- Whether a caller waits for the end of a task. -/
def Task.isCallers : Task → Bool
  | .loading _ _ _ _ _ | .persisting _ _ _ _ _ _ | .caching _ _ _ _ | .awaiting _ | .stopping _
  | .flushing _ | .clearing _ _ => true
  | .reloadReady _ _ _ _ | .reloading _ _ _ _ _ | .draining _ | .storing _ _ _ _ | .ended _ => false

/-- Whether an operation has been answered or leaves a task behind that its caller waits for. -/
def Progress.isCallers : Progress → Bool
  | .answered _ => true
  | .waits t => t.isCallers

theorem Progress.reloadId?_of_isCallers {p : Progress} (callers : p.isCallers = true) :
    p.reloadId? = none := by
  cases p with
  | answered answer => rfl
  | waits t =>
    cases t with
    | reloadReady h key ttl loader => cases callers
    | reloading h key ttl loader due => cases callers
    | _ => rfl

/-- The task that an action moves on or gives up. -/
def Action.target? : Action → Option Nat
  | .resume id | .clear id _ | .abort id => some id
  | _ => none

theorem Action.cases_of_target? {a : Action} {id : Nat} (own : a.target? = some id) :
    a = .resume id ∨ (∃ h, a = .clear id h) ∨ a = .abort id := by
  cases a with
  | resume id' => exact .inl (congrArg _ (Option.some.inj own))
  | clear id' h => exact .inr (.inl ⟨h, congrArg (Action.clear · h) (Option.some.inj own)⟩)
  | abort id' => exact .inr (.inr (congrArg _ (Option.some.inj own)))
  | start operation => cases own
  | drainTimer => cases own
  | sweep name => cases own

namespace Depot

/-- How an operation comes to its first wait. It starts no task besides, or a drain because the
queue has grown long enough, or a reload because the entry is old enough. -/
inductive Starts (W : List Write) (d : Depot) : Progress × Depot → Prop
  | alone {p : Progress} {d' : Depot} (changes : d.Changes W d') (plain : p.reloadId? = none) :
      Starts W d (p, d')
  | drain {answer : Answer} {d' : Depot} (changes : d.Changes W d') (worker : Nat) :
      Starts W d (.answered answer, (d'.spawn (.draining worker)).2)
  | reload {answer : Answer} {d' : Depot} (changes : d.Changes W d') (h : Handle) (key : CacheKey)
      (ttl : Option Duration) (loader : Loader) :
      Starts W d (.answered answer, d'.startReload h key ttl loader)

/-- What an action does that has this target and makes these writes. -/
inductive Turn (W : List Write) (d : Depot) : Option Nat → Depot → Prop
  | quiet {target? : Option Nat} {d' : Depot} (changes : d.Changes W d') : Turn W d target? d'
  /-- An operation becomes a task of its own. -/
  | starts {result : Progress × Depot}
      (started : Starts W { d with nextTask := d.nextTask + 1 } result) :
      Turn W d none (settleTask d.nextTask result)
  /-- A task that is no reload has gone on. -/
  | settles {id : Nat} {t : Task} {result : Progress × Depot} (bound : d.tasks.get? id = some t)
      (plain : t.reloadId? = none) (changes : d.Changes W result.2)
      (stays : result.1.reloadId? = none) : Turn W d (some id) (settleTask id result)
  /-- A task that is no reload is over, and nobody waits for it. -/
  | drops {id : Nat} {t : Task} {d' : Depot} (bound : d.tasks.get? id = some t)
      (plain : t.reloadId? = none) (changes : d.Changes W d') :
      Turn W d (some id) (d'.dropTask id)
  /-- A reload has called its loader and waits for it. -/
  | calls {id : Nat} {h : Handle} {key : CacheKey} {ttl : Option Duration} {loader : Loader}
      {d' : Depot} (bound : d.tasks.get? id = some (.reloadReady h key ttl loader))
      (changes : d.Changes W d') (due : Nat) :
      Turn W d (some id)
        { d' with tasks := d'.tasks.insert id (.reloading h key ttl loader due) }
  /-- A reload is over. -/
  | releases {id : Nat} {t : Task} {claim : ReloadId} {d' : Depot}
      (bound : d.tasks.get? id = some t) (claims : t.reloadId? = some claim)
      (changes : d.Changes W d') :
      Turn W d (some id) ({ d' with reloading := d'.reloading.erase claim }.dropTask id)

variable {d : Depot} {now : Nat}

/-! ## Operations -/

theorem isCallers_load (d : Depot) (now : Nat) (h : Handle) (key : CacheKey)
    (ttl : Option Duration) (loader : Loader) :
    (d.load now h key ttl loader).1.isCallers = true := by
  rw [load]
  split <;> rfl

theorem isCallers_awaitWorker (d : Depot) (now worker : Nat) {waiting : Nat → Task}
    {next : Depot → Answer → Progress × Depot} (callers : (waiting worker).isCallers = true)
    (ends : ∀ d answer, (next d answer).1.isCallers = true) :
    (d.awaitWorker now worker waiting next).1.isCallers = true := by
  rw [awaitWorker]
  cases (d.onBacklog fun b => b.resume now worker).backlog.report? worker with
  | none => exact callers
  | some report => exact ends _ _

theorem isCallers_runWorker (d : Depot) (now : Nat) (w : WriteBehind.Worker) :
    (d.runWorker now w).1.isCallers = true :=
  isCallers_awaitWorker _ now _ rfl fun _ _ => rfl

theorem isCallers_afterTimer (d : Depot) (now : Nat) (flushFirst : Bool) :
    (d.afterTimer now flushFirst).1.isCallers = true := by
  cases flushFirst with
  | false => rfl
  | true => exact isCallers_awaitWorker _ now _ rfl fun _ _ => rfl

theorem isCallers_clearNext (d : Depot) (left : List Handle) (answer : Answer) (h : Handle) :
    (d.clearNext left answer h).1.isCallers = true := by
  rw [clearNext]
  split <;> rfl

theorem isCallers_afterPersist (h : Handle) (key : CacheKey) (value : Json) (ttl : Option Duration)
    (attempt : Attempt) : (afterPersist h key value ttl attempt).isCallers = true := by
  unfold afterPersist
  split <;> rfl

theorem isCallers_beginTearDown (d : Depot) (now : Nat) (flushFirst : Bool) :
    (d.beginTearDown now flushFirst).1.isCallers = true := by
  unfold beginTearDown
  split
  · dsimp only
    split
    · rfl
    · exact isCallers_afterTimer _ now flushFirst
  · exact isCallers_afterTimer d now flushFirst

/-- What an operation leaves behind when it waits is a task of its caller. -/
theorem isCallers_start (d : Depot) (now : Nat) (operation : Operation) :
    (d.start now operation).1.isCallers = true := by
  cases operation with
  | create name config =>
    rw [start]
    split <;> rfl
  | cacheAside store key ttl loader =>
    rw [start, cacheAside]
    split
    rename_i value d' _
    cases value with
    | some value => rfl
    | none => exact isCallers_load d' now _ key ttl loader
  | refreshAhead store key ttl threshold loader =>
    rw [start, refreshAhead]
    split
    rename_i entry d' _
    cases entry with
    | some e => rfl
    | none => exact isCallers_load d' now _ key ttl loader
  | writeThrough store key value ttl persist =>
    rw [start, writeThrough]
    split
    · exact isCallers_afterPersist ..
    · rfl
  | drain => exact isCallers_runWorker d now .newDrain
  | flush => exact isCallers_runWorker d now .newFlush
  | destroy => exact isCallers_beginTearDown d now false
  | shutdown => exact isCallers_beginTearDown d now true
  | _ => rfl

namespace Starts

variable (d now)

/-- An operation that answers at once and starts nothing. -/
theorem answered {W : List Write} {answer : Answer} {d' : Depot} (changes : d.Changes W d') :
    Starts W d (.answered answer, d') := .alone changes rfl

/-- An operation that starts nothing besides a task of its caller. -/
theorem of_isCallers {W : List Write} {result : Progress × Depot} (changes : d.Changes W result.2)
    (callers : result.1.isCallers = true) : Starts W d result :=
  .alone changes (Progress.reloadId?_of_isCallers callers)

theorem cacheAside (store : String) (key : CacheKey) (ttl : Option Duration) (loader : Loader) :
    Starts ((Operation.cacheAside store key ttl loader).writes d now) d
      (d.cacheAside now store key ttl loader) := by
  have read : ∀ W, d.Changes W (d.getKey now (d.getCache store) key).2 :=
    fun W => .getKey d now _ key
  rw [Operation.writes, Depot.cacheAside]
  generalize d.getKey now (d.getCache store) key = result at read ⊢
  obtain ⟨value, d'⟩ := result
  cases value with
  | some value => exact answered d (read _)
  | none =>
    exact of_isCallers d ((read _).trans (.load d' now _ key ttl loader))
      (isCallers_load d' now _ key ttl loader)

theorem refreshAhead (store : String) (key : CacheKey) (ttl : Option Duration)
    (threshold : Threshold) (loader : Loader) :
    Starts ((Operation.refreshAhead store key ttl threshold loader).writes d now) d
      (d.refreshAhead now store key ttl threshold loader) := by
  have read : ∀ W, d.Changes W (d.getEntry now (d.getCache store) key).2 :=
    fun W => .getEntry d now _ key
  rw [Operation.writes, Depot.refreshAhead]
  generalize d.getEntry now (d.getCache store) key = result at read ⊢
  obtain ⟨entry, d'⟩ := result
  cases entry with
  | none =>
    exact of_isCallers d ((read _).trans (.load d' now _ key ttl loader))
      (isCallers_load d' now _ key ttl loader)
  | some e =>
    dsimp only
    split
    · exact .reload (read _) (d.getCache store) key ttl loader
    · exact answered d (read _)

theorem writeThrough (store : String) (key : CacheKey) (value : Json) (ttl : Option Duration)
    (persist : Persist) :
    Starts ((Operation.writeThrough store key value ttl persist).writes d now) d
      (d.writeThrough now store key value ttl persist) := by
  rw [Depot.writeThrough]
  split
  · exact of_isCallers d (.record d _) (isCallers_afterPersist ..)
  · exact .alone (.record d _) rfl

theorem writeBehind (store : String) (key : CacheKey) (value : Json) (ttl : Option Duration)
    (batchSize : Nat) (persist : Persist) :
    Starts ((Operation.writeBehind store key value ttl batchSize persist).writes d now) d
      (.answered (d.writeBehind now store key value ttl batchSize persist).1,
        (d.writeBehind now store key value ttl batchSize persist).2) := by
  have written : d.Changes ((Operation.writeBehind store key value ttl batchSize persist).writes
      d now) (d.setKey now (d.getCache store) key value ttl).2 :=
    .setKey d now _ key ttl (List.mem_singleton_self _)
  have pushed := written.trans (Changes.withBacklog _
    ((d.setKey now (d.getCache store) key value ttl).2.backlog.push now key value persist))
  unfold Depot.writeBehind
  dsimp only
  split
  · exact .drain (pushed.trans (.startWorker _ .newDrain)) _
  · exact answered d pushed

end Starts

theorem starts_start (d : Depot) (now : Nat) (operation : Operation) :
    Starts (operation.writes d now) d (d.start now operation) := by
  cases operation with
  | get s key => exact .answered d (.getKey d now _ key)
  | getEntry s key => exact .answered d (.getEntry d now _ key)
  | peek s key => exact .answered d (.refl d)
  | set s key value ttl =>
    exact .answered d (.setKey d now _ key ttl (List.mem_singleton_self _))
  | delete s key => exact .answered d (.deleteKey d _ key)
  | sweep s => exact .answered d (.single (.sweep now _))
  | clear s => exact .answered d (.single (.clear _))
  | stats s => exact .answered d (.refl d)
  | create name config =>
    rw [Depot.start]
    split
    · rename_i handle d' created
      exact .answered d (.createCache d now name config created)
    · exact .answered d (.refl d)
  | warm store items => exact .answered d (.warm d now store items)
  | invalidate store key => exact .answered d (.deleteKey d _ key)
  | cacheAside store key ttl loader => exact .cacheAside d now store key ttl loader
  | refreshAhead store key ttl threshold loader =>
    exact .refreshAhead d now store key ttl threshold loader
  | writeThrough store key value ttl persist =>
    exact .writeThrough d now store key value ttl persist
  | writeBehind store key value ttl batchSize persist =>
    exact .writeBehind d now store key value ttl batchSize persist
  | tierGet first second key ttl => exact .answered d (.tierGet d now key ttl first second)
  | tierSet first second key value ttl =>
    exact .answered d (.tierSet d now key ttl first second value)
  | push key value persist => exact .answered d (.withBacklog d _)
  | drain =>
    exact .of_isCallers d (.runWorker d now .newDrain) (isCallers_runWorker d now .newDrain)
  | flush =>
    exact .of_isCallers d (.runWorker d now .newFlush) (isCallers_runWorker d now .newFlush)
  | destroy =>
    exact .of_isCallers d (.beginTearDown d now false) (isCallers_beginTearDown d now false)
  | shutdown =>
    exact .of_isCallers d (.beginTearDown d now true) (isCallers_beginTearDown d now true)

/-! ## Tasks -/

theorem turn_resumeTask {id : Nat} {t : Task} (bound : d.tasks.get? id = some t) (now : Nat) :
    d.Turn t.writes (some id) (d.resumeTask now id t) := by
  cases t with
  | loading h key ttl loader due =>
    have loaded := Changes.finishLoad d now h key ttl loader.outcome
    rw [Depot.resumeTask]
    exact .settles bound rfl loaded rfl
  | persisting h key value ttl attempt due =>
    exact .settles bound rfl (.refl d) (Progress.reloadId?_of_isCallers (isCallers_afterPersist ..))
  | caching h key value ttl =>
    rw [Depot.resumeTask]
    exact .settles bound rfl (.setKey d now h key ttl (List.mem_singleton_self _)) rfl
  | awaiting worker =>
    exact .settles bound rfl (.awaitWorker d now worker .awaiting fun d _ => .refl d)
      (Progress.reloadId?_of_isCallers (isCallers_awaitWorker d now worker rfl fun _ _ => rfl))
  | stopping flushFirst =>
    exact .settles bound rfl (.afterTimer d now flushFirst)
      (Progress.reloadId?_of_isCallers (isCallers_afterTimer d now flushFirst))
  | flushing worker =>
    exact .settles bound rfl (.awaitWorker d now worker .flushing .tearDown)
      (Progress.reloadId?_of_isCallers (isCallers_awaitWorker d now worker rfl fun _ _ => rfl))
  | clearing left answer =>
    rw [Depot.resumeTask]
    exact .settles bound rfl (.clearStores d left) rfl
  | reloadReady h key ttl loader =>
    have called : ∀ W, d.Changes W (d.record (.loaderCalled loader.label)) :=
      fun W => .record d _
    rw [Depot.resumeTask, Task.writes, Loader.writes]
    split
    · exact .releases bound rfl ((called _).trans (.finishLoad _ now h key ttl loader.outcome))
    · exact .calls bound (called _) _
  | reloading h key ttl loader due =>
    exact .releases bound rfl (.finishLoad d now h key ttl loader.outcome)
  | draining worker =>
    have awaited : d.Changes [] (d.awaitWorker now worker Task.draining finish).2 :=
      .awaitWorker d now worker _ fun d _ => .refl d
    rw [Depot.resumeTask]
    generalize d.awaitWorker now worker Task.draining finish = result at awaited ⊢
    obtain ⟨progress, d'⟩ := result
    cases progress with
    | answered answer => exact .drops bound rfl awaited
    | waits t => exact .quiet awaited
  | storing h key value ttl =>
    exact .drops bound rfl (.setKey d now h key (some ttl) (List.mem_singleton_self _))
  | ended answer => exact .quiet (.refl d)

theorem turn_abort (d : Depot) (id : Nat) : d.Turn [] (some id) (d.abort id) := by
  unfold Depot.abort
  cases bound : d.tasks.get? id with
  | none => exact .quiet (.refl d)
  | some t =>
    cases t with
    | ended answer => exact .quiet (.refl d)
    | reloadReady h key ttl loader => exact .releases bound rfl (.refl d)
    | reloading h key ttl loader due => exact .releases bound rfl (.refl d)
    | awaiting worker => exact .drops bound rfl (.onBacklog d _)
    | flushing worker => exact .drops bound rfl (.onBacklog d _)
    | draining worker => exact .drops bound rfl (.onBacklog d _)
    | loading h key ttl loader due => exact .drops bound rfl (.refl d)
    | persisting h key value ttl attempt due => exact .drops bound rfl (.refl d)
    | caching h key value ttl => exact .drops bound rfl (.refl d)
    | stopping flushFirst => exact .drops bound rfl (.refl d)
    | clearing left answer => exact .drops bound rfl (.refl d)
    | storing h key value ttl => exact .drops bound rfl (.refl d)

theorem turn_emptyOne (d : Depot) (id : Nat) (h : Handle) :
    d.Turn [] (some id) (d.emptyOne id h) := by
  unfold Depot.emptyOne
  split
  · rename_i left answer bound
    split
    · exact .settles bound rfl (.clearNext d left answer h)
        (Progress.reloadId?_of_isCallers (isCallers_clearNext ..))
    · exact .quiet (.refl d)
  · exact .quiet (.refl d)

/-- What an action can do. -/
theorem turn_act (d : Depot) (now : Nat) (a : Action) :
    d.Turn (d.writes now a) a.target? (d.act now a) := by
  cases a with
  | start operation => exact .starts (starts_start _ now operation)
  | resume id =>
    rw [act, resume, writes, Action.target?]
    cases bound : d.tasks.get? id with
    | none => exact .quiet (.refl d)
    | some t =>
      dsimp only
      split
      · exact turn_resumeTask bound now
      · exact .quiet (.refl d)
  | clear id h => exact turn_emptyOne d id h
  | drainTimer => exact .quiet (.runTimer d now)
  | sweep name => exact .quiet (.runSweep d now name)
  | abort id => exact turn_abort d id

/-! ## Stores -/

theorem stores_settleTask (id : Nat) (result : Progress × Depot) :
    (settleTask id result).stores = result.2.stores := by
  obtain ⟨progress, d⟩ := result
  cases progress <;> rfl

theorem store_settleTask (id : Nat) (result : Progress × Depot) (cell : Nat) :
    (settleTask id result).store cell = result.2.store cell := by
  rw [store, store, stores_settleTask]

theorem stores_startReload (d : Depot) (h : Handle) (key : CacheKey) (ttl : Option Duration)
    (loader : Loader) : (d.startReload h key ttl loader).stores = d.stores := by
  unfold startReload
  dsimp only
  split <;> rfl

theorem Starts.exists_changes {W : List Write} {result : Progress × Depot} (h : d.Starts W result) :
    ∃ d', d.Changes W d' ∧ result.2.stores = d'.stores := by
  cases h with
  | alone changes plain => exact ⟨_, changes, rfl⟩
  | drain changes worker => exact ⟨_, changes, rfl⟩
  | reload changes h key ttl loader => exact ⟨_, changes, stores_startReload ..⟩

namespace Turn

variable {W : List Write} {target? : Option Nat} {d' : Depot}

/-- Whatever else an action does, the stores are what a few changes leave of them. -/
theorem exists_changes (h : d.Turn W target? d') :
    ∃ e e' : Depot, e.stores = d.stores ∧ e.Changes W e' ∧ d'.stores = e'.stores := by
  cases h with
  | quiet changes => exact ⟨d, _, rfl, changes, rfl⟩
  | starts started =>
    obtain ⟨e', changes, same⟩ := started.exists_changes
    exact ⟨{ d with nextTask := d.nextTask + 1 }, e', rfl, changes,
      (stores_settleTask ..).trans same⟩
  | settles bound plain changes stays => exact ⟨d, _, rfl, changes, stores_settleTask ..⟩
  | drops bound plain changes => exact ⟨d, _, rfl, changes, rfl⟩
  | calls bound changes due => exact ⟨d, _, rfl, changes, rfl⟩
  | releases bound claims changes => exact ⟨d, _, rfl, changes, rfl⟩

/-- What is found after an action was there before, or the action has written it. -/
theorem stems (h : d.Turn W target? d') (cell : Nat) (key : CacheKey) :
    d.Stems W cell key d' := by
  obtain ⟨e, e', same, changes, same'⟩ := h.exists_changes
  have stems := changes.stems cell key
  rw [Stems, store, store] at stems ⊢
  rwa [same', ← same]

end Turn

/-! ## Other tasks -/

/-- Whether every task was given its number. -/
def Numbered (d : Depot) : Prop := ∀ id t, d.tasks.get? id = some t → id < d.nextTask

theorem Numbered.get?_nextTask (h : d.Numbered) : d.tasks.get? d.nextTask = none :=
  Option.eq_none_iff_forall_ne_some.mpr fun t bound => Nat.lt_irrefl _ (h _ t bound)

theorem nextTask_settleTask (id : Nat) (result : Progress × Depot) :
    (settleTask id result).nextTask = result.2.nextTask := by
  obtain ⟨progress, d⟩ := result
  cases progress <;> rfl

theorem get?_settleTask_of_ne {id other : Nat} (differs : other ≠ id)
    (result : Progress × Depot) :
    (settleTask id result).tasks.get? other = result.2.tasks.get? other := by
  obtain ⟨progress, d⟩ := result
  cases progress <;> exact Assoc.get?_insert_of_ne _ _ (Ne.symm differs)

theorem get?_spawn_of_lt {other : Nat} (old : other < d.nextTask) (t : Task) :
    (d.spawn t).2.tasks.get? other = d.tasks.get? other :=
  Assoc.get?_insert_of_ne _ _ (Nat.ne_of_gt old)

theorem get?_startReload_of_lt {other : Nat} (old : other < d.nextTask) (h : Handle)
    (key : CacheKey) (ttl : Option Duration) (loader : Loader) :
    (d.startReload h key ttl loader).tasks.get? other = d.tasks.get? other := by
  unfold startReload
  dsimp only
  split
  · rfl
  · exact get?_spawn_of_lt (d := { d with reloading := _ }) old _

theorem nextTask_le_startReload (d : Depot) (h : Handle) (key : CacheKey) (ttl : Option Duration)
    (loader : Loader) : d.nextTask ≤ (d.startReload h key ttl loader).nextTask := by
  unfold startReload
  dsimp only
  split
  · exact Nat.le_refl _
  · exact Nat.le_succ _

theorem Starts.nextTask_le {W : List Write} {result : Progress × Depot} (h : d.Starts W result) :
    d.nextTask ≤ result.2.nextTask := by
  cases h with
  | alone changes plain => exact Nat.le_of_eq changes.keeps.2.1.symm
  | drain changes worker => exact Nat.le_succ_of_le (Nat.le_of_eq changes.keeps.2.1.symm)
  | reload changes h key ttl loader =>
    exact Nat.le_trans (Nat.le_of_eq changes.keeps.2.1.symm) (nextTask_le_startReload ..)

theorem Starts.get?_of_lt {W : List Write} {result : Progress × Depot} (h : d.Starts W result)
    {other : Nat} (old : other < d.nextTask) :
    result.2.tasks.get? other = d.tasks.get? other := by
  cases h with
  | alone changes plain => rw [changes.keeps.1]
  | drain changes worker =>
    rw [get?_spawn_of_lt (changes.keeps.2.1 ▸ old), changes.keeps.1]
  | reload changes h key ttl loader =>
    rw [get?_startReload_of_lt (changes.keeps.2.1 ▸ old), changes.keeps.1]

namespace Turn

variable {W : List Write} {target? : Option Nat} {d' : Depot}

theorem nextTask_le (h : d.Turn W target? d') : d.nextTask ≤ d'.nextTask := by
  cases h with
  | quiet changes => exact Nat.le_of_eq changes.keeps.2.1.symm
  | starts started =>
    rw [nextTask_settleTask]
    exact Nat.le_of_succ_le started.nextTask_le
  | settles bound plain changes stays =>
    rw [nextTask_settleTask]
    exact Nat.le_of_eq changes.keeps.2.1.symm
  | drops bound plain changes => exact Nat.le_of_eq changes.keeps.2.1.symm
  | calls bound changes due => exact Nat.le_of_eq changes.keeps.2.1.symm
  | releases bound claims changes => exact Nat.le_of_eq changes.keeps.2.1.symm

/-- A task that an action is not about stays where it is. -/
theorem get?_of_ne (h : d.Turn W target? d') {other : Nat} (old : other < d.nextTask)
    (spared : target? ≠ some other) : d'.tasks.get? other = d.tasks.get? other := by
  have differs : ∀ {id}, target? = some id → other ≠ id :=
    fun aimed same => spared (same ▸ aimed)
  cases h with
  | quiet changes => rw [changes.keeps.1]
  | starts started =>
    rw [get?_settleTask_of_ne (Nat.ne_of_lt old)]
    exact started.get?_of_lt (Nat.lt_succ_of_lt old)
  | settles bound plain changes stays =>
    rw [get?_settleTask_of_ne (differs rfl), changes.keeps.1]
  | drops bound plain changes =>
    exact (Assoc.get?_erase_of_ne _ (Ne.symm (differs rfl))).trans (by rw [changes.keeps.1])
  | calls bound changes due =>
    exact (Assoc.get?_insert_of_ne _ _ (Ne.symm (differs rfl))).trans (by rw [changes.keeps.1])
  | releases bound claims changes =>
    exact (Assoc.get?_erase_of_ne _ (Ne.symm (differs rfl))).trans (by rw [changes.keeps.1])

/-- A task that is over stays so, and its number is not given again. -/
theorem get?_eq_none (h : d.Turn W target? d') {id : Nat} (old : id < d.nextTask)
    (gone : d.tasks.get? id = none) : d'.tasks.get? id = none := by
  by_cases own : target? = some id
  · cases h with
    | quiet changes => rwa [changes.keeps.1]
    | starts started => cases own
    | settles bound plain changes stays =>
      cases own
      cases gone.symm.trans bound
    | drops bound plain changes =>
      cases own
      cases gone.symm.trans bound
    | calls bound changes due =>
      cases own
      cases gone.symm.trans bound
    | releases bound claims changes =>
      cases own
      cases gone.symm.trans bound
  · exact (h.get?_of_ne old own).trans gone

end Turn

theorem nextTask_le_run (d : Depot) (actions : List (Nat × Action)) :
    d.nextTask ≤ (d.run actions).nextTask := by
  induction actions generalizing d with
  | nil => exact Nat.le_refl _
  | cons first rest ih => exact Nat.le_trans (d.turn_act first.1 first.2).nextTask_le (ih _)

/-- A task that is over stays so in a run. -/
theorem get?_run_eq_none {id : Nat} (old : id < d.nextTask) (gone : d.tasks.get? id = none)
    (actions : List (Nat × Action)) : (d.run actions).tasks.get? id = none := by
  induction actions generalizing d with
  | nil => exact gone
  | cons first rest ih =>
    have turn := d.turn_act first.1 first.2
    exact ih (Nat.lt_of_lt_of_le old turn.nextTask_le) (turn.get?_eq_none old gone)

/-- A task stays where it is as long as no action is about it. -/
theorem get?_run_of_ne {id : Nat} (old : id < d.nextTask) {actions : List (Nat × Action)}
    (spared : ∀ a ∈ actions, a.2.target? ≠ some id) :
    (d.run actions).tasks.get? id = d.tasks.get? id := by
  induction actions generalizing d with
  | nil => rfl
  | cons first rest ih =>
    have turn := d.turn_act first.1 first.2
    have kept := turn.get?_of_ne old (spared first List.mem_cons_self)
    have later := ih (Nat.lt_of_lt_of_le old turn.nextTask_le)
      fun a member => spared a (List.mem_cons_of_mem _ member)
    exact later.trans kept

end Depot
end CacheDepot
