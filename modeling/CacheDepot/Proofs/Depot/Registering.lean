import CacheDepot.Proofs.Depot.Teardown

/-!
# What actions do to the registry

A store is registered when a creation answers with its handle, and the depot is torn down when a
teardown or a shutdown stops the sweeps, before it empties the stores. These two change the
registry, and besides them only a tick of a sweep does, which stays the sweep that it is. Stores are
never taken away.
-/

namespace CacheDepot

/-- What happens to the registry. -/
inductive RegistryEvent where
  | created (name : String) (config : StoreConfig) (handle : Handle)
  | tornDown

namespace Depot

variable {d d' : Depot} {now : Nat}

/-- Whether a task empties the stores of a teardown. -/
def isEmptying (d : Depot) (id : Nat) : Bool :=
  match d.tasks.get? id with
  | some (.clearing _ _) => true
  | _ => false

/-- What an action does to the registry: a creation answers a handle, or a teardown stops the sweeps
and begins to empty the stores. -/
def event? (d : Depot) (now : Nat) (a : Action) : Option RegistryEvent :=
  match a with
  | .start (.create name config) =>
    match (d.act now a).tasks.get? d.nextTask with
    | some (.ended (.handle handle)) => some (.created name config handle)
    | _ => none
  | .start .destroy | .start .shutdown =>
    if (d.act now a).isEmptying d.nextTask then some .tornDown else none
  | .resume id =>
    match d.tasks.get? id with
    | some (.stopping _) | some (.flushing _) =>
      if (d.act now a).isEmptying id then some .tornDown else none
    | _ => none
  | _ => none

/-- How the registry changes where this happens to it. -/
inductive Registers (now : Nat) (d d' : Depot) : Option RegistryEvent → Prop
  | kept (same : d'.registry = d.registry) : Registers now d d' none
  | ticked {name : String} {registered : Registered} {sweeper ticker : Ticker}
      (found : d.registry.get? name = some registered) (sweeps : registered.sweeper = some sweeper)
      (begun : sweeper.beginTick? now = some ticker)
      (entered : d'.registry =
        d.registry.insert name { registered with sweeper := some ticker.endTick }) :
      Registers now d d' none
  | created {name : String} {config : StoreConfig} (accepted : config.fault? = none)
      (entered : d'.registry =
        d.registry.insert name ⟨⟨name, d.stores.length⟩, sweeperFor now name config⟩)
      (grown : d.stores.length < d'.stores.length) :
      Registers now d d' (some (.created name config ⟨name, d.stores.length⟩))
  | tornDown (stopped : d'.registry = d.stopSweepers.registry) :
      Registers now d d' (some .tornDown)

/-! ## Cells -/

section Cells

variable {W : List Write}

theorem Change.stores_le (h : d.Change W d') : d.stores.length ≤ d'.stores.length := by
  cases h with
  | create capacity defaultTtl =>
    rw [List.length_append]
    exact Nat.le_add_right _ _
  | beside registry backlog drainTimer journal => exact Nat.le_refl _
  | _ => exact Nat.le_of_eq (List.length_set ..).symm

theorem Changes.stores_le (h : d.Changes W d') : d.stores.length ≤ d'.stores.length := by
  induction h with
  | refl => exact Nat.le_refl _
  | tail _ change ih => exact Nat.le_trans ih change.stores_le

/-- Every action leaves the cells of stores that there were. -/
theorem Turn.stores_le {target? : Option Nat} (h : d.Turn W target? d') :
    d.stores.length ≤ d'.stores.length := by
  obtain ⟨e, e', same, changes, same'⟩ := h.exists_changes
  rw [same', ← same]
  exact changes.stores_le

end Cells

/-! ## Teardowns -/

theorem registry_settleTask (id : Nat) (p : Progress × Depot) :
    (settleTask id p).registry = p.2.registry := by
  obtain ⟨progress, d⟩ := p
  cases progress <;> rfl

theorem WindsDown.registers {p : Progress × Depot} (h : WindsDown d.registry p) (now id : Nat) :
    d.Registers now (settleTask id p)
      (if (settleTask id p).isEmptying id then some .tornDown else none) := by
  cases h with
  | @flushes worker d' same =>
    have waits : (settleTask id (.waits (.flushing worker), d')).isEmptying id = false := by
      rw [isEmptying, settleTask, Assoc.get?_insert_self]
    rw [waits]
    exact .kept same
  | @clears answer d' same =>
    have begins : (settleTask id (d'.tearDown answer)).isEmptying id = true := by
      rw [isEmptying, Depot.tearDown, settleTask, Assoc.get?_insert_self]
    rw [begins]
    apply Registers.tornDown
    show d'.stopSweepers.registry = d.stopSweepers.registry
    rw [stopSweepers, stopSweepers, same]

theorem registers_beginTearDown (same : d'.registry = d.registry) (now id : Nat)
    (flushFirst : Bool) :
    d.Registers now (settleTask id (d'.beginTearDown now flushFirst))
      (if (settleTask id (d'.beginTearDown now flushFirst)).isEmptying id then some .tornDown
      else none) := by
  have found : WindsDown d.registry (d'.afterTimer now flushFirst) :=
    same ▸ windsDown_afterTimer d' now flushFirst
  have stopped : WindsDown d.registry (d'.stopTimer.afterTimer now flushFirst) :=
    same ▸ windsDown_afterTimer d'.stopTimer now flushFirst
  rw [beginTearDown]
  split
  · dsimp only
    split
    · have waits :
          (settleTask id (.waits (.stopping flushFirst), d'.stopTimer)).isEmptying id = false := by
        rw [isEmptying, settleTask, Assoc.get?_insert_self]
      rw [waits]
      exact .kept same
    · exact stopped.registers now id
  · exact found.registers now id

/-! ## Operations -/

theorem registry_load (d : Depot) (now : Nat) (h : Handle) (key : CacheKey)
    (ttl : Option Duration) (loader : Loader) :
    (d.load now h key ttl loader).2.registry = d.registry :=
  (StoresOnly.load d now h key ttl loader).registry

theorem registry_startReload (d : Depot) (h : Handle) (key : CacheKey) (ttl : Option Duration)
    (loader : Loader) : (d.startReload h key ttl loader).registry = d.registry := by
  unfold startReload
  dsimp only
  split <;> rfl

theorem registry_refreshAhead (d : Depot) (now : Nat) (store : String) (key : CacheKey)
    (ttl : Option Duration) (threshold : Threshold) (loader : Loader) :
    (d.refreshAhead now store key ttl threshold loader).2.registry = d.registry := by
  have read : (d.getEntry now (d.getCache store) key).2.registry = d.registry := rfl
  rw [refreshAhead]
  generalize d.getEntry now (d.getCache store) key = result at read ⊢
  obtain ⟨entry, d'⟩ := result
  cases entry with
  | none => exact (registry_load d' now _ key ttl loader).trans read
  | some e =>
    dsimp only
    split
    · exact (registry_startReload d' _ key ttl loader).trans read
    · exact read

theorem registry_writeBehind (d : Depot) (now : Nat) (store : String) (key : CacheKey)
    (value : Json) (ttl : Option Duration) (batchSize : Nat) (persist : Persist) :
    (d.writeBehind now store key value ttl batchSize persist).2.registry = d.registry := by
  unfold writeBehind
  dsimp only
  split <;> rfl

/-- An operation that creates no store and tears nothing down leaves the registry alone. -/
theorem registry_start (d : Depot) (now : Nat) {operation : Operation}
    (creates : ∀ name config, operation ≠ .create name config) (destroys : operation ≠ .destroy)
    (shutsDown : operation ≠ .shutdown) : (d.start now operation).2.registry = d.registry := by
  cases operation with
  | create name config => exact absurd rfl (creates name config)
  | destroy => exact absurd rfl destroys
  | shutdown => exact absurd rfl shutsDown
  | warm store items => exact (StoresOnly.warm d now store items).registry
  | cacheAside store key ttl loader =>
    exact (StoresOnly.cacheAside d now key ttl store loader).registry
  | refreshAhead store key ttl threshold loader =>
    exact registry_refreshAhead d now store key ttl threshold loader
  | writeThrough store key value ttl persist =>
    exact (StoresOnly.writeThrough d now key ttl store value persist).registry
  | writeBehind store key value ttl batchSize persist =>
    exact registry_writeBehind d now store key value ttl batchSize persist
  | tierGet first second key ttl => exact (StoresOnly.tierGet d now key ttl first second).registry
  | tierSet first second key value ttl =>
    exact (StoresOnly.tierSet d now key ttl first second value).registry
  | drain => exact awaitWorker_registry (d.startWorker .newDrain).2 now _ _
  | flush => exact awaitWorker_registry (d.startWorker .newFlush).2 now _ _
  | _ => rfl

/-- A creation that is rejected does nothing but answer why. -/
theorem act_create_of_fault {config : StoreConfig} {fault : ConfigFault}
    (rejected : config.fault? = some fault) (d : Depot) (now : Nat) (name : String) :
    d.act now (.start (.create name config)) = { d with
      tasks := d.tasks.insert d.nextTask (.ended (.failed (.ofFault fault)))
      nextTask := d.nextTask + 1 } := by
  rw [act, submit, start, createCache, rejected]
  rfl

theorem act_create_of_accepted {config : StoreConfig} (accepted : config.fault? = none) (d : Depot)
    (now : Nat) (name : String) :
    d.act now (.start (.create name config)) = { d with
      stores := d.stores ++ [.new config.capacity config.defaultTtl]
      registry :=
        d.registry.insert name ⟨⟨name, d.stores.length⟩, sweeperFor now name config⟩
      tasks := d.tasks.insert d.nextTask (.ended (.handle ⟨name, d.stores.length⟩))
      nextTask := d.nextTask + 1 } := by
  rw [act, submit, start, createCache, accepted]
  rfl

theorem registers_create (d : Depot) (now : Nat) (name : String) (config : StoreConfig) :
    d.Registers now (d.act now (.start (.create name config)))
      (d.event? now (.start (.create name config))) := by
  cases verdict : config.fault? with
  | some fault =>
    rw [event?, act_create_of_fault verdict, Assoc.get?_insert_self]
    exact .kept rfl
  | none =>
    rw [event?, act_create_of_accepted verdict, Assoc.get?_insert_self]
    refine .created verdict rfl ?_
    rw [List.length_append]
    exact Nat.lt_succ_self _

/-! ## Tasks and sweeps -/

/-- A task that tears nothing down leaves the registry alone. -/
theorem registry_resumeTask (d : Depot) (now id : Nat) {t : Task}
    (waits : ∀ flushFirst, t ≠ .stopping flushFirst) (flushes : ∀ worker, t ≠ .flushing worker) :
    (d.resumeTask now id t).registry = d.registry := by
  cases t with
  | stopping flushFirst => exact absurd rfl (waits flushFirst)
  | flushing worker => exact absurd rfl (flushes worker)
  | loading h key ttl loader due =>
    exact (StoresOnly.finishLoad d now h key ttl loader.outcome).registry
  | persisting h key value ttl attempt due => exact registry_settleTask _ _
  | caching h key value ttl => exact (StoresOnly.setKey d now h key ttl value).registry
  | clearing left answer => exact (StoresOnly.clearStores d left).registry
  | awaiting worker =>
    exact (registry_settleTask _ _).trans (d.awaitWorker_registry now worker .awaiting)
  | reloadReady h key ttl loader =>
    rw [resumeTask]
    split
    · exact (StoresOnly.finishReload _ now h key ttl loader.outcome).registry
    · rfl
  | reloading h key ttl loader due =>
    exact (StoresOnly.finishReload d now h key ttl loader.outcome).registry
  | draining worker =>
    have awaited := d.awaitWorker_registry now worker .draining
    rw [resumeTask]
    generalize d.awaitWorker now worker Task.draining finish = result at awaited ⊢
    obtain ⟨progress, d'⟩ := result
    cases progress <;> exact awaited
  | storing h key value ttl => rfl
  | ended answer => rfl

theorem registers_resume (d : Depot) (now id : Nat) :
    d.Registers now (d.act now (.resume id)) (d.event? now (.resume id)) := by
  rw [event?, act, resume]
  cases bound : d.tasks.get? id with
  | none => exact .kept rfl
  | some t =>
    dsimp only
    cases t with
    | stopping flushFirst =>
      split
      · exact (windsDown_afterTimer d now flushFirst).registers now id
      · rw [isEmptying, bound]
        exact .kept rfl
    | flushing worker =>
      split
      · exact (windsDown_awaitWorker d now worker).registers now id
      · rw [isEmptying, bound]
        exact .kept rfl
    | _ =>
      split
      · refine .kept (registry_resumeTask d now id ?_ ?_)
        · intro flushFirst stops
          cases stops
        · intro worker flushes
          cases flushes
      · exact .kept rfl

theorem registers_runSweep (d : Depot) (now : Nat) (name : String) :
    d.Registers now (d.runSweep now name) none := by
  unfold runSweep
  split
  · rename_i registered found
    split
    · rename_i ticker begun
      obtain ⟨sweeper, sweeps, begun⟩ := Option.bind_eq_some_iff.mp begun
      exact .ticked found sweeps begun rfl
    · exact .kept rfl
  · exact .kept rfl

theorem registry_emptyOne (d : Depot) (id : Nat) (h : Handle) :
    (d.emptyOne id h).registry = d.registry := by
  unfold emptyOne
  split
  · split
    · rw [registry_settleTask, snd_clearNext]
      rfl
    · rfl
  · rfl

/-- Whatever any action does to the registry is told of it. -/
theorem registers_act (d : Depot) (now : Nat) (a : Action) :
    d.Registers now (d.act now a) (d.event? now a) := by
  cases a with
  | start operation =>
    let numbered : Depot := { d with nextTask := d.nextTask + 1 }
    have same : numbered.registry = d.registry := rfl
    cases operation with
    | create name config => exact registers_create d now name config
    | destroy => exact registers_beginTearDown same now d.nextTask false
    | shutdown => exact registers_beginTearDown same now d.nextTask true
    | _ => exact .kept ((registry_settleTask _ _).trans (registry_start _ now nofun nofun nofun))
  | resume id => exact registers_resume d now id
  | clear id h => exact .kept (registry_emptyOne d id h)
  | drainTimer => exact .kept (d.runTimer_leaves now).2
  | sweep name => exact registers_runSweep d now name
  | abort id =>
    refine .kept ?_
    rw [act, abort]
    split <;> rfl

end Depot
end CacheDepot
