import CacheDepot.Proofs.Depot.Pairing
import CacheDepot.Proofs.Depot.Settling

/-!
# A depot without its queue

What is written behind does to the stores what it would do if it were not queued at all. So a depot
has a mirror that has no queue to work on: its stores, its registry and its reloads are the
same, and so are its tasks but for background drains. Whatever happens to the queue leaves the
mirror as it is, and everything else happens in both.
-/

namespace CacheDepot

/-- Whether an operation is about the stores and does not wait for the queue. -/
def Operation.isDetached : Operation → Bool
  | .push _ _ _ | .drain | .flush | .destroy | .shutdown => false
  | _ => true

/-- Whether an operation has been answered, or waits for something other than the queue. -/
structure Progress.Direct (p : Progress) : Prop where
  alone : p.task.usesQueue = false
  awaited : p.task.isAwaited = true

namespace Depot

variable {d d' r r' : Depot}

/-! ## Operations -/

/-- Carries an operation out up to its first wait, without queueing what is written behind. -/
def startUnqueued (d : Depot) (now : Nat) : Operation → Progress × Depot
  | .writeBehind store key value ttl _ _ =>
    (.answered (.found (some value)), (d.setKey now (d.getCache store) key value ttl).2)
  | operation => d.start now operation

/-- Starts an operation as a task of its own, without queueing what is written behind. -/
def submitUnqueued (d : Depot) (now : Nat) (operation : Operation) : Depot :=
  settleTask d.nextTask ({ d with nextTask := d.nextTask + 1 }.startUnqueued now operation)

/-- The same result, and depots that agree. -/
structure Alike {α : Type} (p p' : α × Depot) : Prop where
  result : p'.1 = p.1
  agree : Agree (fun _ => True) p.2 p'.2

section Parts

variable (h : Agree (fun _ => True) d r) (now : Nat) (handle : Handle) (key : CacheKey)
  (ttl : Option Duration) (store : String)
include h

theorem Agree.alike_onStore {α : Type} (f : Store → α × Store) :
    Alike (d.onStore handle f) (r.onStore handle f) :=
  ⟨h.fst_onStore trivial f, h.onStore handle f⟩

theorem Agree.record (e e' : Event) : Agree (fun _ => True) (d.record e) (r.record e') :=
  ⟨h.registry, h.reloading, h.cells, h.stores⟩

theorem Agree.load (loader : Loader) :
    Alike (d.load now handle key ttl loader) (r.load now handle key ttl loader) := by
  have called := h.record (.loaderCalled loader.label) (.loaderCalled loader.label)
  obtain ⟨same, agree⟩ := called.finishLoad now key ttl handle loader.outcome
  rw [Depot.load, Depot.load]
  split
  · exact ⟨congrArg Progress.answered same, agree⟩
  · exact ⟨rfl, called⟩

theorem Agree.cacheAside (loader : Loader) :
    Alike (d.cacheAside now store key ttl loader) (r.cacheAside now store key ttl loader) := by
  obtain ⟨same, agree⟩ := h.alike_onStore (d.getCache store) fun s => s.get now key
  rw [Depot.cacheAside, Depot.cacheAside, h.getCache, getKey, getKey]
  generalize d.onStore (d.getCache store) (fun s => s.get now key) = p at same agree ⊢
  generalize r.onStore (d.getCache store) (fun s => s.get now key) = p' at same agree ⊢
  obtain ⟨value, d'⟩ := p
  obtain ⟨value', r'⟩ := p'
  cases same
  cases value with
  | some value => exact ⟨rfl, agree⟩
  | none => exact agree.load now _ key ttl loader

theorem Agree.writeThrough (value : Json) (persist : Persist) :
    Alike (d.writeThrough now store key value ttl persist)
      (r.writeThrough now store key value ttl persist) := by
  have called := h.record (.persistCalled persist.label 0 value)
    (.persistCalled persist.label 0 value)
  rw [Depot.writeThrough, Depot.writeThrough, h.getCache]
  split <;> exact ⟨rfl, called⟩

theorem Agree.tierGet (first : String) (second : Option String) :
    Alike (d.tierGet now first second key ttl) (r.tierGet now first second key ttl) := by
  obtain ⟨same, agree⟩ := h.alike_onStore (d.getCache first) fun s => s.get now key
  rw [Depot.tierGet, Depot.tierGet, h.getCache, getKey, getKey]
  generalize d.onStore (d.getCache first) (fun s => s.get now key) = p at same agree ⊢
  generalize r.onStore (d.getCache first) (fun s => s.get now key) = p' at same agree ⊢
  obtain ⟨value, d'⟩ := p
  obtain ⟨value', r'⟩ := p'
  cases same
  cases value with
  | some value => exact ⟨rfl, agree⟩
  | none =>
    cases second with
    | none => exact ⟨rfl, agree⟩
    | some second =>
      obtain ⟨same, copied⟩ := agree.alike_onStore (d'.getCache second) fun s => s.getEntry now key
      dsimp only
      rw [agree.getCache, getEntry, getEntry]
      generalize d'.onStore (d'.getCache second) (fun s => s.getEntry now key) = p at same copied ⊢
      generalize r'.onStore (d'.getCache second) (fun s => s.getEntry now key) = p' at same copied ⊢
      obtain ⟨entry, d''⟩ := p
      obtain ⟨entry', r''⟩ := p'
      cases same
      cases entry with
      | none => exact ⟨rfl, copied⟩
      | some e =>
        dsimp only
        rw [copied.stores _ trivial]
        exact ⟨rfl, copied.setKey now key _ _ e.value⟩

theorem Agree.tierSet (first : String) (second : Option String) (value : Json) :
    Agree (fun _ => True) (d.tierSet now first second key value ttl)
      (r.tierSet now first second key value ttl) := by
  cases second with
  | none =>
    rw [Depot.tierSet, Depot.tierSet, h.getCache]
    exact h.setKey now key ttl _ value
  | some second =>
    have lower := h.setKey now key (ttl.map Duration.doubled) (d.getCache second) value
    rw [Depot.tierSet, Depot.tierSet, h.getCache second, lower.getCache]
    exact lower.setKey now key ttl _ value

/-- Depots that agree on all stores have the same stores. -/
theorem Agree.stores_eq : r.stores = d.stores := by
  apply List.ext_getElem h.cells
  intro cell inside inside'
  have same := h.stores cell trivial
  rwa [Depot.store, Depot.store, List.getD_eq_getElem?_getD, List.getD_eq_getElem?_getD,
    List.getElem?_eq_getElem inside, List.getElem?_eq_getElem inside'] at same

theorem Agree.create (name : String) (config : StoreConfig) :
    Alike (d.start now (.create name config)) (r.start now (.create name config)) := by
  rw [start, start, createCache, createCache]
  cases config.fault? with
  | some fault => exact ⟨rfl, h⟩
  | none =>
    dsimp only
    rw [h.stores_eq, h.registry]
    refine ⟨rfl, rfl, h.reloading, ?_, ?_⟩
    · rfl
    · intro cell shared
      rfl

end Parts

/-! ## The start of an operation -/

theorem direct_load (d : Depot) (now : Nat) (handle : Handle) (key : CacheKey)
    (ttl : Option Duration) (loader : Loader) : (d.load now handle key ttl loader).1.Direct := by
  rw [load]
  split <;> exact ⟨rfl, rfl⟩

theorem direct_cacheAside (d : Depot) (now : Nat) (store : String) (key : CacheKey)
    (ttl : Option Duration) (loader : Loader) :
    (d.cacheAside now store key ttl loader).1.Direct := by
  rw [cacheAside]
  generalize d.getKey now (d.getCache store) key = p
  obtain ⟨value, d'⟩ := p
  cases value with
  | some value => exact ⟨rfl, rfl⟩
  | none => exact direct_load d' now _ key ttl loader

theorem direct_writeThrough (d : Depot) (now : Nat) (store : String) (key : CacheKey)
    (value : Json) (ttl : Option Duration) (persist : Persist) :
    (d.writeThrough now store key value ttl persist).1.Direct := by
  rw [writeThrough]
  split
  · rw [afterPersist]
    cases (persist.attempt 0).failure <;> exact ⟨rfl, rfl⟩
  · exact ⟨rfl, rfl⟩

/-- Whether tasks and the timed drain are the same. -/
structure SameWork (d d' : Depot) : Prop where
  tasks : d'.tasks = d.tasks
  nextTask : d'.nextTask = d.nextTask
  drainTimer : d'.drainTimer = d.drainTimer

theorem StoresOnly.sameWork (only : d.StoresOnly d') : d.SameWork d' :=
  ⟨only.tasks, only.nextTask, only.drainTimer⟩

/-- Whether a number was given to an operation whose task is yet to come. -/
structure Awaits (id : Nat) (d : Depot) : Prop where
  numbered : d.Numbered
  counted : id < d.nextTask
  free : d.tasks.get? id = none

theorem SameWork.awaits (h : { d with nextTask := d.nextTask + 1 }.SameWork d')
    (numbered : d.Numbered) : Awaits d.nextTask d' where
  numbered := by
    intro id t bound
    rw [h.tasks] at bound
    rw [h.nextTask]
    exact Nat.lt_succ_of_lt (numbered id t bound)
  counted := Nat.lt_of_lt_of_eq (Nat.lt_succ_self _) h.nextTask.symm
  free := (congrArg (Assoc.get? · _) h.tasks).trans numbered.get?_nextTask

theorem sameWork_create (d : Depot) (now : Nat) (name : String) (config : StoreConfig) :
    d.SameWork (d.start now (.create name config)).2 := by
  rw [start, createCache]
  cases config.fault? <;> exact ⟨rfl, rfl, rfl⟩

/-- How an operation starts in a depot and in its mirror. -/
inductive StartsAlike (d r : Depot) : Progress × Depot → Progress × Depot → Prop
  | alone {p p' : Progress × Depot} (alike : Alike p p') (left : d.SameWork p.2)
      (right : r.SameWork p'.2) (direct : p.1.Direct) : StartsAlike d r p p'
  | drain {answer : Answer} {d' r' : Depot} (agree : Agree (fun _ => True) d' r')
      (left : d.SameWork d') (right : r.SameWork r') (worker : Nat) :
      StartsAlike d r (.answered answer, (d'.spawn (.draining worker)).2) (.answered answer, r')
  | reload {answer : Answer} {d' r' : Depot} (agree : Agree (fun _ => True) d' r')
      (left : d.SameWork d') (right : r.SameWork r') (handle : Handle) (key : CacheKey)
      (ttl : Option Duration) (loader : Loader) :
      StartsAlike d r (.answered answer, d'.startReload handle key ttl loader)
        (.answered answer, r'.startReload handle key ttl loader)

namespace StartsAlike

/-- An operation that is answered at once and leaves tasks and the timed drain alone. -/
theorem answered {α : Type} {p p' : α × Depot} (wrap : α → Answer) (alike : Alike p p')
    (left : d.SameWork p.2) (right : r.SameWork p'.2) :
    StartsAlike d r (Depot.answered wrap p) (Depot.answered wrap p') :=
  .alone ⟨congrArg (fun a => Progress.answered (wrap a)) alike.result, alike.agree⟩ left right
    ⟨rfl, rfl⟩

theorem refreshAhead (h : Agree (fun _ => True) d r) (now : Nat) (store : String) (key : CacheKey)
    (ttl : Option Duration) (threshold : Threshold) (loader : Loader) :
    StartsAlike d r (d.refreshAhead now store key ttl threshold loader)
      (r.refreshAhead now store key ttl threshold loader) := by
  obtain ⟨same, agree⟩ := h.alike_onStore (d.getCache store) fun s => s.getEntry now key
  have left := (StoresOnly.onStore d (d.getCache store) fun s => s.getEntry now key)
  have right := (StoresOnly.onStore r (d.getCache store) fun s => s.getEntry now key)
  rw [Depot.refreshAhead, Depot.refreshAhead, h.getCache, getEntry, getEntry]
  generalize d.onStore (d.getCache store) (fun s => s.getEntry now key) = p at same agree left ⊢
  generalize r.onStore (d.getCache store) (fun s => s.getEntry now key) = p' at same agree right ⊢
  obtain ⟨entry, d'⟩ := p
  obtain ⟨entry', r'⟩ := p'
  cases same
  cases entry with
  | none =>
    exact .alone (agree.load now _ key ttl loader)
      (left.trans (.load d' now _ key ttl loader)).sameWork
      (right.trans (.load r' now _ key ttl loader)).sameWork (direct_load d' now _ key ttl loader)
  | some e =>
    dsimp only
    split
    · exact .reload agree left.sameWork right.sameWork _ key ttl loader
    · exact .alone ⟨rfl, agree⟩ left.sameWork right.sameWork ⟨rfl, rfl⟩

theorem writeBehind (h : Agree (fun _ => True) d r) (now : Nat) (store : String) (key : CacheKey)
    (value : Json) (ttl : Option Duration) (batchSize : Nat) (persist : Persist) :
    StartsAlike d r (d.start now (.writeBehind store key value ttl batchSize persist))
      (r.startUnqueued now (.writeBehind store key value ttl batchSize persist)) := by
  have agree := h.setKey now key ttl (d.getCache store) value
  have left : d.SameWork (d.setKey now (d.getCache store) key value ttl).2 := ⟨rfl, rfl, rfl⟩
  have right : r.SameWork (r.setKey now (d.getCache store) key value ttl).2 := ⟨rfl, rfl, rfl⟩
  rw [startUnqueued, h.getCache, Depot.start, Depot.writeBehind]
  generalize (r.setKey now (d.getCache store) key value ttl).2 = r' at agree right ⊢
  generalize d.setKey now (d.getCache store) key value ttl = result at agree left ⊢
  obtain ⟨outcome, d'⟩ := result
  have queued (b : WriteBehind.Backlog) : Agree (fun _ => True) { d' with backlog := b } r' :=
    ⟨agree.registry, agree.reloading, agree.cells, agree.stores⟩
  have queuedLeft (b : WriteBehind.Backlog) : d.SameWork { d' with backlog := b } :=
    ⟨left.tasks, left.nextTask, left.drainTimer⟩
  dsimp only
  split
  · exact .drain (queued _) (queuedLeft _) right _
  · exact .alone ⟨rfl, queued _⟩ (queuedLeft _) right ⟨rfl, rfl⟩

theorem start (h : Agree (fun _ => True) d r) (now : Nat) {operation : Operation}
    (detached : operation.isDetached = true) :
    StartsAlike d r (d.start now operation) (r.startUnqueued now operation) := by
  have referred (s : StoreRef) : r.refer s = d.refer s := by
    cases s with
    | named name => exact h.getCache name
    | held handle => rfl
  have atStore {α : Type} (wrap : α → Answer) (s : StoreRef) (f : Store → α × Store) :
      StartsAlike d r (Depot.answered wrap (d.onStore (d.refer s) f))
        (Depot.answered wrap (r.onStore (r.refer s) f)) := by
    rw [referred]
    exact .answered wrap (h.alike_onStore _ f) ⟨rfl, rfl, rfl⟩ ⟨rfl, rfl, rfl⟩
  have looks (wrap : Store → Answer) (s : StoreRef) :
      StartsAlike d r (.answered (wrap (d.store (d.refer s).cell)), d)
        (.answered (wrap (r.store (r.refer s).cell)), r) := by
    rw [referred, h.stores _ trivial]
    exact .alone ⟨rfl, h⟩ ⟨rfl, rfl, rfl⟩ ⟨rfl, rfl, rfl⟩ ⟨rfl, rfl⟩
  cases operation with
  | get s key => exact atStore .found s fun s => s.get now key
  | getEntry s key => exact atStore .entry s fun s => s.getEntry now key
  | peek s key => exact looks (fun store => .entry (store.peek now key)) s
  | set s key value ttl => exact atStore .outcome s fun s => s.set now key value ttl
  | delete s key => exact atStore .flag s fun s => s.delete key
  | sweep s => exact atStore .count s fun s => s.sweep now
  | clear s => exact atStore (fun _ => .nothing) s fun s => ((), s.clear)
  | stats s => exact looks (fun store => .stats store.stats) s
  | create name config =>
    refine .alone (h.create now name config) ?_ ?_ ?_
    · exact sameWork_create d now name config
    · exact sameWork_create r now name config
    · rw [Depot.start, createCache]
      cases config.fault? <;> exact ⟨rfl, rfl⟩
  | warm store items =>
    have warmed := h.warm now store items
    exact .answered .count ⟨rfl, warmed⟩ (StoresOnly.warm d now store items).sameWork
      (StoresOnly.warm r now store items).sameWork
  | invalidate store key => exact atStore .flag (.named store) fun s => s.delete key
  | cacheAside store key ttl loader =>
    exact .alone (h.cacheAside now key ttl store loader)
      (StoresOnly.cacheAside d now key ttl store loader).sameWork
      (StoresOnly.cacheAside r now key ttl store loader).sameWork
      (direct_cacheAside d now store key ttl loader)
  | refreshAhead store key ttl threshold loader =>
    exact .refreshAhead h now store key ttl threshold loader
  | writeThrough store key value ttl persist =>
    exact .alone (h.writeThrough now key ttl store value persist)
      (StoresOnly.writeThrough d now key ttl store value persist).sameWork
      (StoresOnly.writeThrough r now key ttl store value persist).sameWork
      (direct_writeThrough d now store key value ttl persist)
  | writeBehind store key value ttl batchSize persist =>
    exact .writeBehind h now store key value ttl batchSize persist
  | tierGet first second key ttl =>
    exact .answered .found (h.tierGet now key ttl first second)
      (StoresOnly.tierGet d now key ttl first second).sameWork
      (StoresOnly.tierGet r now key ttl first second).sameWork
  | tierSet first second key value ttl =>
    have written := h.tierSet now key ttl first second value
    exact .alone ⟨rfl, written⟩ (StoresOnly.tierSet d now key ttl first second value).sameWork
      (StoresOnly.tierSet r now key ttl first second value).sameWork ⟨rfl, rfl⟩
  | push key value persist => cases detached
  | drain => cases detached
  | flush => cases detached
  | destroy => cases detached
  | shutdown => cases detached

end StartsAlike

/-! ## The mirror -/

/-- Whether only the queue and the tasks that work on it differ. -/
structure QueueOnly (d d' : Depot) : Prop where
  stores : d'.stores = d.stores
  registry : d'.registry = d.registry
  reloading : d'.reloading = d.reloading

theorem QueueOnly.trans {d'' : Depot} (h : d.QueueOnly d') (h' : d'.QueueOnly d'') :
    d.QueueOnly d'' :=
  ⟨h'.stores.trans h.stores, h'.registry.trans h.registry, h'.reloading.trans h.reloading⟩

theorem queueOnly_awaitWorker (d : Depot) (now worker : Nat) (waiting : Nat → Task) :
    d.QueueOnly (d.awaitWorker now worker waiting finish).2 := by
  rw [awaitWorker]
  cases (d.onBacklog fun b => b.resume now worker).backlog.report? worker <;>
    exact ⟨rfl, rfl, rfl⟩

theorem queueOnly_continueTick (d : Depot) (now : Nat) (timer : DrainTimer) (worker : Nat) :
    d.QueueOnly (d.continueTick now timer worker) := by
  have awaited := d.queueOnly_awaitWorker now worker Task.awaiting
  rw [continueTick]
  generalize d.awaitWorker now worker Task.awaiting finish = result at awaited ⊢
  obtain ⟨progress, d'⟩ := result
  cases progress <;> exact ⟨awaited.stores, awaited.registry, awaited.reloading⟩

theorem queueOnly_runTimer (d : Depot) (now : Nat) : d.QueueOnly (d.runTimer now) := by
  unfold runTimer
  split
  · split
    · split
      · exact d.queueOnly_continueTick now _ _
      · exact ⟨rfl, rfl, rfl⟩
    · split
      · split
        · exact ⟨rfl, rfl, rfl⟩
        · have started : d.QueueOnly (d.startWorker .newDrain).2 := ⟨rfl, rfl, rfl⟩
          exact started.trans (queueOnly_continueTick _ now { ticker := _ } _)
      · exact ⟨rfl, rfl, rfl⟩
  · exact ⟨rfl, rfl, rfl⟩

/-- A depot and one without timed drain that have the same stores, and the same tasks but for the
background drains of the first one. -/
structure Mirrors (pairs : List TaskPair) (d r : Depot) : Prop where
  agree : Agree (fun _ => True) d r
  paired : Paired pairs d.tasks r.tasks
  untimed : r.drainTimer = none

namespace Mirrors

variable {pairs : List TaskPair} {now : Nat}

/-! ### The queue -/

theorem of_queueOnly (h : Mirrors pairs d r) (only : d.QueueOnly d')
    (paired : Paired pairs d'.tasks r.tasks) : Mirrors pairs d' r where
  agree := by
    obtain ⟨registry, reloading, cells, stores⟩ := h.agree
    refine ⟨registry.trans only.registry.symm, reloading.trans only.reloading.symm, ?_, ?_⟩
    · rw [only.stores]
      exact cells
    · intro cell shared
      rw [stores cell shared, store, store, only.stores]
  paired := paired
  untimed := h.untimed

theorem runTimer (h : Mirrors pairs d r) (now : Nat) : Mirrors pairs (d.runTimer now) r :=
  h.of_queueOnly (d.queueOnly_runTimer now) ((d.runTimer_leaves now).1.symm ▸ h.paired)

theorem resumeDrain (h : Mirrors pairs d r) (now : Nat) {id worker : Nat}
    (bound : d.tasks.get? id = some (.draining worker)) :
    Mirrors pairs (d.resumeTask now id (.draining worker)) r := by
  have only := d.queueOnly_awaitWorker now worker Task.draining
  have tasks : (d.awaitWorker now worker Task.draining finish).2.tasks = d.tasks :=
    (Beside.awaitWorker d now worker Task.draining fun d _ => Beside.refl d).tasks
  rw [resumeTask]
  generalize d.awaitWorker now worker Task.draining finish = result at only tasks ⊢
  obtain ⟨progress, d'⟩ := result
  cases progress with
  | answered answer =>
    have erased := h.paired.erase_left rfl bound
    rw [← tasks] at erased
    exact h.of_queueOnly ⟨only.stores, only.registry, only.reloading⟩ erased
  | waits t => exact h.of_queueOnly only (tasks.symm ▸ h.paired)

/-! ### Operations -/

theorem withSameWork (h : Mirrors pairs d r) (agree : Agree (fun _ => True) d' r')
    (left : d.SameWork d') (right : r.SameWork r') : Mirrors pairs d' r' where
  agree := agree
  paired := by
    rw [left.tasks, right.tasks]
    exact h.paired
  untimed := right.drainTimer.trans h.untimed

theorem insert (h : Mirrors pairs d r) {id id' : Nat} {t : Task} (alone : t.usesQueue = false)
    (fresh : d.tasks.get? id = none) (fresh' : r.tasks.get? id' = none) :
    Mirrors (pairs ++ [⟨id, id', t⟩]) { d with tasks := d.tasks.insert id t }
      { r with tasks := r.tasks.insert id' t } where
  agree := ⟨h.agree.registry, h.agree.reloading, h.agree.cells, h.agree.stores⟩
  paired := h.paired.append alone fresh fresh'
  untimed := h.untimed

theorem spawnDrain (h : Mirrors pairs d r) (numbered : d.Numbered) (worker : Nat) :
    Mirrors pairs (d.spawn (.draining worker)).2 r :=
  h.of_queueOnly ⟨rfl, rfl, rfl⟩ (h.paired.insert_left rfl numbered.get?_nextTask)

/-- A reload is started in both depots or in none. -/
theorem startReload (h : Mirrors pairs d r) (numbered : d.Numbered) (numbered' : r.Numbered)
    (handle : Handle) (key : CacheKey) (ttl : Option Duration) (loader : Loader) :
    ∃ more, Mirrors (pairs ++ more) (d.startReload handle key ttl loader)
      (r.startReload handle key ttl loader) := by
  rw [Depot.startReload, Depot.startReload, h.agree.reloading]
  dsimp only
  split
  · exact ⟨[], (List.append_nil pairs).symm ▸ h⟩
  · refine ⟨[⟨d.nextTask, r.nextTask, .reloadReady handle key ttl loader⟩], ?_, ?_, h.untimed⟩
    · exact ⟨h.agree.registry, rfl, h.agree.cells, h.agree.stores⟩
    · exact h.paired.append rfl numbered.get?_nextTask numbered'.get?_nextTask

/-- The task of an operation comes after whatever else was started. -/
theorem settleTask {more : List TaskPair} (h : Mirrors (pairs ++ more) d r) {progress : Progress}
    (direct : progress.Direct) {id id' : Nat} (free : d.tasks.get? id = none)
    (free' : r.tasks.get? id' = none) :
    ∃ pairs', Mirrors pairs' (settleTask id (progress, d)) (settleTask id' (progress, r)) ∧
      KeepsAwaited pairs pairs' ∧ Shared pairs' id id' := by
  rw [settleTask_eq, settleTask_eq]
  refine ⟨_, h.insert direct.alone free free', ?_, ⟨id, id', progress.task⟩, ?_, rfl, rfl,
    direct.awaited⟩
  · exact (KeepsAwaited.append pairs more).trans (.append _ _)
  · exact List.mem_append_right _ (List.mem_singleton_self _)

/-- An operation is started in both depots. -/
theorem submit (h : Mirrors pairs d r) (numbered : d.Numbered) (numbered' : r.Numbered) (now : Nat)
    {operation : Operation} (detached : operation.isDetached = true) :
    ∃ pairs', Mirrors pairs' (d.submit now operation).2 (r.submitUnqueued now operation) ∧
      KeepsAwaited pairs pairs' ∧ Shared pairs' d.nextTask r.nextTask := by
  let left : Depot := { d with nextTask := d.nextTask + 1 }
  let right : Depot := { r with nextTask := r.nextTask + 1 }
  have agree : Agree (fun _ => True) left right :=
    ⟨h.agree.registry, h.agree.reloading, h.agree.cells, h.agree.stores⟩
  have started : Mirrors (pairs ++ []) left right :=
    ⟨agree, (List.append_nil pairs).symm ▸ h.paired, h.untimed⟩
  have alike := StartsAlike.start agree now detached
  rw [Depot.submit, Depot.submitUnqueued]
  show ∃ pairs', Mirrors pairs' (Depot.settleTask d.nextTask (left.start now operation))
    (Depot.settleTask r.nextTask (right.startUnqueued now operation)) ∧ _
  generalize left.start now operation = p at alike ⊢
  generalize right.startUnqueued now operation = p' at alike ⊢
  cases alike with
  | alone alike sameLeft sameRight direct =>
    have going := started.withSameWork alike.agree sameLeft sameRight
    have free := (sameLeft.awaits numbered).free
    have free' := (sameRight.awaits numbered').free
    obtain ⟨progress, d'⟩ := p
    obtain ⟨progress', r'⟩ := p'
    cases alike.result
    exact going.settleTask direct free free'
  | drain agree sameLeft sameRight worker =>
    have going := started.withSameWork agree sameLeft sameRight
    have awaits := sameLeft.awaits numbered
    refine (going.spawnDrain awaits.numbered worker).settleTask ⟨rfl, rfl⟩ ?_
      (sameRight.awaits numbered').free
    exact (get?_spawn_of_lt awaits.counted _).trans awaits.free
  | reload agree sameLeft sameRight handle key ttl loader =>
    have going := started.withSameWork agree sameLeft sameRight
    have awaits := sameLeft.awaits numbered
    have awaits' := sameRight.awaits numbered'
    rw [List.append_nil] at going
    obtain ⟨more, reloads⟩ :=
      going.startReload awaits.numbered awaits'.numbered handle key ttl loader
    refine reloads.settleTask ⟨rfl, rfl⟩ ?_ ?_
    · exact (get?_startReload_of_lt awaits.counted handle key ttl loader).trans awaits.free
    · exact (get?_startReload_of_lt awaits'.counted handle key ttl loader).trans awaits'.free

/-! ### What happens by itself -/

theorem isReady_of_alone (d r : Depot) (now : Nat) {t : Task} (alone : t.usesQueue = false) :
    r.isReady now t = d.isReady now t := by
  cases t with
  | awaiting worker => cases alone
  | stopping flushFirst => cases alone
  | flushing worker => cases alone
  | draining worker => cases alone
  | _ => rfl

/-- A task that has to do with stores alone goes on in both depots. -/
theorem resumeTask (h : Mirrors pairs d r) (now : Nat) {p : TaskPair} (member : p ∈ pairs) :
    ∃ pairs', Mirrors pairs' (d.resumeTask now p.left p.task) (r.resumeTask now p.right p.task) ∧
      KeepsAwaited pairs pairs' := by
  obtain ⟨e, suits, edits, edits', agree⟩ :=
    h.agree.resumeTask now p.left p.right (h.paired.alone p member)
  obtain ⟨before, after, rfl⟩ := List.append_of_mem member
  refine ⟨before ++ p.after e ++ after, ⟨agree, ?_, edits'.drainTimer.trans h.untimed⟩,
    .edit suits⟩
  rw [edits.tasks, edits'.tasks]
  exact h.paired.edit suits

theorem timerReady_eq_false (h : Mirrors pairs d r) (now : Nat) : r.timerReady now = false := by
  rw [timerReady, h.untimed]

/-- The mirror rests when the depot does. -/
theorem rests (h : Mirrors pairs d r) (rests : d.readyAction? now = none) :
    r.readyAction? now = none := by
  rw [readyAction?] at rests ⊢
  cases found : d.tasks.bindings.find? fun b => d.isReady now b.2 with
  | some b =>
    rw [found] at rests
    cases rests
  | none =>
    rw [found] at rests
    have waits := h.paired.find?_right_eq_none
      (fun t alone => isReady_of_alone d r now alone) found
    rw [waits, h.timerReady_eq_false, h.agree.registry]
    dsimp only at rests ⊢
    split at rests
    · cases rests
    · exact rests

/-- What happens next in a depot happens to the queue, or next in the mirror as well. -/
theorem act_ready (h : Mirrors pairs d r) {a : Action} (next : d.readyAction? now = some a) :
    Mirrors pairs (d.act now a) r ∨ ∃ a', r.readyAction? now = some a' ∧
      ∃ pairs', Mirrors pairs' (d.act now a) (r.act now a') ∧ KeepsAwaited pairs pairs' := by
  have same (t : Task) (alone : t.usesQueue = false) := isReady_of_alone d r now alone
  rw [readyAction?] at next
  cases found : d.tasks.bindings.find? fun b => d.isReady now b.2 with
  | some b =>
    rw [found] at next
    cases next
    have bound := Assoc.get?_eq_some_iff.mpr (List.mem_of_find?_eq_some found)
    have ready := List.find?_some found
    rw [act_resume bound ready]
    rcases h.paired.find?_cases same found with drains | ⟨p, member, rfl, found'⟩
    · left
      obtain ⟨id, t⟩ := b
      cases t with
      | draining worker => exact h.resumeDrain now bound
      | _ => cases drains
    · right
      refine ⟨.resume p.right, by rw [readyAction?, found']; rfl, ?_⟩
      have ready' := List.find?_some found'
      rw [act_resume (h.paired.get?_right member) ready']
      exact h.resumeTask now member
  | none =>
    rw [found] at next
    have waits := h.paired.find?_right_eq_none same found
    dsimp only at next
    split at next
    · cases next
      exact .inl (h.runTimer now)
    · right
      refine ⟨a, ?_, pairs, ?_, .refl pairs⟩
      · rw [readyAction?, waits, h.timerReady_eq_false, h.agree.registry]
        exact next
      · obtain ⟨b, -, rfl⟩ := Option.map_eq_some_iff.mp next
        obtain ⟨tasks, -⟩ := d.runSweep_tasks now b.1
        obtain ⟨tasks', timer'⟩ := r.runSweep_tasks now b.1
        refine ⟨h.agree.runSweep now b.1, ?_, timer'.trans h.untimed⟩
        rw [Depot.act, Depot.act, tasks, tasks']
        exact h.paired

/-- A depot and its mirror come to rest together. -/
theorem settles (h : Mirrors pairs d r) (left : Settles now d d') (right : Settles now r r') :
    ∃ pairs', Mirrors pairs' d' r' ∧ KeepsAwaited pairs pairs' := by
  induction left generalizing pairs r with
  | rests waits =>
    cases right with
    | rests => exact ⟨pairs, h, .refl pairs⟩
    | acts next =>
      rw [h.rests waits] at next
      cases next
  | acts next settles ih =>
    rcases h.act_ready next with hidden | ⟨a', next', pairs', shared, keeps⟩
    · exact ih hidden right
    · cases right with
      | rests waits =>
        rw [waits] at next'
        cases next'
      | acts next'' later =>
        cases next'.symm.trans next''
        obtain ⟨pairs'', mirrors, keeps'⟩ := ih shared later
        exact ⟨pairs'', mirrors, keeps.trans keeps'⟩

end Mirrors

end Depot
end CacheDepot
