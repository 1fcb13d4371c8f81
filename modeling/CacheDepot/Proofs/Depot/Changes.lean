import CacheDepot.Depot.Action
import CacheDepot.Proofs.Store.Retention
import Mathlib.Logic.Relation

/-!
# What actions do to stores

Whatever a caller asks for and whatever goes on in the background, stores change by a few small
things done one after the other. Only writes bring values into them, and `Depot.writes` tells the
writes of an action. Every other value that is found after an action was there before.
-/

namespace CacheDepot

/-- A value that is put into a store. -/
structure Write where
  handle : Handle
  key : CacheKey
  value : Json

/-- Whether a write goes to this key of the store in this cell. -/
def Write.isAt (cell : Nat) (key : CacheKey) (w : Write) : Bool :=
  w.handle.cell = cell && w.key = key

/-- The value that is cached at the end of a load. -/
def LoadOutcome.cached? : LoadOutcome → Option Json
  | .returns (some value) => if value.isNull then none else some value
  | _ => none

theorem LoadOutcome.cached?_eq_some_iff {outcome : LoadOutcome} {value : Json} :
    outcome.cached? = some value ↔ outcome = .returns (some value) ∧ value.isNull = false := by
  constructor
  · intro cached
    unfold cached? at cached
    split at cached
    · split at cached
      · cases cached
      · rename_i there
        cases cached
        exact ⟨rfl, Bool.eq_false_iff.mpr there⟩
    · cases cached
  · rintro ⟨rfl, there⟩
    rw [cached?, there]
    rfl

/-- The writes at the end of a load. -/
def LoadOutcome.writes (outcome : LoadOutcome) (h : Handle) (key : CacheKey) : List Write :=
  (outcome.cached?.map fun value => ⟨h, key, value⟩).toList

/-- The writes of a load that does not wait. -/
def Loader.writes (loader : Loader) (h : Handle) (key : CacheKey) : List Write :=
  if loader.delay = 0 then loader.outcome.writes h key else []

/-- The writes of an operation before its first wait. -/
def Operation.writes (d : Depot) (now : Nat) : Operation → List Write
  | .set s key value _ => [⟨d.refer s, key, value⟩]
  | .warm store items =>
    items.map fun item => ⟨d.getCache store, .derive none item.key, item.value⟩
  | .cacheAside store key _ loader =>
    match (d.getKey now (d.getCache store) key).1 with
    | some _ => []
    | none => loader.writes (d.getCache store) key
  | .refreshAhead store key _ _ loader =>
    match (d.getEntry now (d.getCache store) key).1 with
    | some _ => []
    | none => loader.writes (d.getCache store) key
  | .writeBehind store key value _ _ _ => [⟨d.getCache store, key, value⟩]
  | .tierGet first second key _ =>
    match d.getKey now (d.getCache first) key with
    | (some _, _) => []
    | (none, d') =>
      match second with
      | some second =>
        ((d'.getEntry now (d'.getCache second) key).1.map fun e =>
          ⟨d.getCache first, key, e.value⟩).toList
      | none => []
  | .tierSet first second key value _ =>
    (second.map fun name => ⟨d.getCache name, key, value⟩).toList ++
      [⟨d.getCache first, key, value⟩]
  | _ => []

/-- The writes of a task when it goes on. -/
def Task.writes : Task → List Write
  | .loading h key _ loader _ | .reloading h key _ loader _ => loader.outcome.writes h key
  | .reloadReady h key _ loader => loader.writes h key
  | .caching h key value _ | .storing h key value _ => [⟨h, key, value⟩]
  | _ => []

namespace Depot

/-- The writes of an action. -/
def writes (d : Depot) (now : Nat) : Action → List Write
  | .start operation => operation.writes { d with nextTask := d.nextTask + 1 } now
  | .resume id =>
    match d.tasks.get? id with
    | some t => if d.isReady now t then t.writes else []
    | none => []
  | _ => []

/-- One small thing done to a depot, in the course of which these writes may occur. Tasks and
the claims of reloads are left alone. -/
inductive Change (W : List Write) (d : Depot) : Depot → Prop
  | write (now : Nat) {w : Write} (member : w ∈ W) (ttl : Option Duration) :
      Change W d (d.setKey now w.handle w.key w.value ttl).2
  | read (now : Nat) (h : Handle) (key : CacheKey) : Change W d (d.getEntry now h key).2
  | delete (h : Handle) (key : CacheKey) : Change W d (d.deleteKey h key).2
  | sweep (now : Nat) (h : Handle) : Change W d (d.onStore h fun s => s.sweep now).2
  | clear (h : Handle) : Change W d (d.onStore h fun s => ((), s.clear)).2
  | create (capacity : Nat) (defaultTtl : Option Duration) :
      Change W d { d with stores := d.stores ++ [.new capacity defaultTtl] }
  | beside (registry : Registry) (backlog : WriteBehind.Backlog) (drainTimer : Option DrainTimer)
      (journal : List Event) : Change W d { d with registry, backlog, drainTimer, journal }

/-- Any number of such things. -/
def Changes (W : List Write) : Depot → Depot → Prop := Relation.ReflTransGen (Change W)

/-- What is left under a key of the store in a cell was there before. -/
def Fades (cell : Nat) (key : CacheKey) (d d' : Depot) : Prop :=
  (d.store cell).Fades key (d'.store cell)

/-- Whatever is found under a key of the store in a cell was there before, or one of these writes
went there with its value. -/
def Stems (W : List Write) (cell : Nat) (key : CacheKey) (d d' : Depot) : Prop :=
  ∀ e, (d'.store cell).entries.get? key = some e →
    (∃ old, (d.store cell).entries.get? key = some old ∧ e.Continues old) ∨
    ∃ w ∈ W, w.isAt cell key = true ∧ w.value = e.value

variable {d d' d'' : Depot} {W : List Write} {cell : Nat} {key : CacheKey}

theorem Write.isAt_iff {w : Write} :
    w.isAt cell key = true ↔ w.handle.cell = cell ∧ w.key = key := by
  rw [Write.isAt, Bool.and_eq_true, decide_eq_true_eq, decide_eq_true_eq]

namespace Stems

theorem refl (d : Depot) : d.Stems W cell key d := fun e bound => .inl ⟨e, bound, .refl e⟩

theorem trans (h : d.Stems W cell key d') (h' : d'.Stems W cell key d'') :
    d.Stems W cell key d'' := by
  intro e bound
  rcases h' e bound with ⟨middle, bound', same⟩ | written
  · rcases h middle bound' with ⟨old, bound'', same'⟩ | ⟨w, member, here, value⟩
    · exact .inl ⟨old, bound'', same.trans same'⟩
    · exact .inr ⟨w, member, here, value.trans same.value.symm⟩
  · exact .inr written

theorem of_retains (h : (d.store cell).Retains key (d'.store cell)) : d.Stems W cell key d' :=
  fun e bound => .inl (h e bound)

/-- Where no write goes, an entry stays or goes. -/
theorem retains (h : d.Stems W cell key d') (spared : ∀ w ∈ W, w.isAt cell key = false) :
    (d.store cell).Retains key (d'.store cell) := by
  intro e bound
  rcases h e bound with old | ⟨w, member, here, -⟩
  · exact old
  · exact absurd (here.symm.trans (spared w member)) Bool.noConfusion

/-- A value that is found was there before or was written. -/
theorem resident_cases (h : d.Stems W cell key d') {value : Json}
    (there : (d'.store cell).resident? key = some value) :
    (d.store cell).resident? key = some value ∨
      ∃ w ∈ W, w.isAt cell key = true ∧ w.value = value := by
  obtain ⟨e, bound, rfl⟩ := Option.map_eq_some_iff.mp there
  rcases h e bound with ⟨old, was, same⟩ | written
  · left
    rw [Store.resident?, was, Option.map_some, same.value]
  · exact .inr written

theorem fades (h : d.Stems W cell key d') (spared : ∀ w ∈ W, w.isAt cell key = false) :
    d.Fades cell key d' := by
  intro value there
  rcases h.resident_cases there with old | ⟨w, member, here, -⟩
  · exact old
  · exact absurd (here.symm.trans (spared w member)) Bool.noConfusion

end Stems

/-- What is done to one store is done there, if the store is there, and nowhere else. -/
theorem store_onStore_eq {α : Type} (d : Depot) (h : Handle) (f : Store → α × Store)
    (cell : Nat) :
    (d.onStore h f).2.store cell =
      if h.cell = cell ∧ cell < d.stores.length then (f (d.store cell)).2 else d.store cell := by
  rw [store, store, onStore]
  dsimp only
  rw [List.getD_eq_getElem?_getD, List.getElem?_set]
  by_cases same : h.cell = cell
  · subst same
    by_cases inside : h.cell < d.stores.length
    · rw [if_pos rfl, if_pos inside, if_pos ⟨rfl, inside⟩]
      rfl
    · rw [if_pos rfl, if_neg inside, if_neg fun there => inside there.2,
        List.getD_eq_getElem?_getD, List.getElem?_eq_none (Nat.le_of_not_lt inside)]
  · rw [if_neg same, if_neg fun there => same there.1, List.getD_eq_getElem?_getD]

theorem store_onStore {α : Type} (d : Depot) (h : Handle) (f : Store → α × Store) (cell : Nat) :
    (d.onStore h f).2.store cell = (f (d.store cell)).2 ∧ h.cell = cell ∨
      (d.onStore h f).2.store cell = d.store cell := by
  rw [store_onStore_eq]
  split
  · rename_i there
    exact .inl ⟨rfl, there.1⟩
  · exact .inr rfl

/-- What is done to one store leaves the others alone. -/
theorem store_onStore_of_ne {α : Type} (d : Depot) {h : Handle} (f : Store → α × Store)
    (elsewhere : h.cell ≠ cell) : (d.onStore h f).2.store cell = d.store cell :=
  (d.store_onStore h f cell).resolve_left fun changed => elsewhere changed.2

theorem retains_onStore {α : Type} (d : Depot) (h : Handle) {f : Store → α × Store} {cell : Nat}
    {key : CacheKey} (each : h.cell = cell → (d.store cell).Retains key (f (d.store cell)).2) :
    (d.store cell).Retains key ((d.onStore h f).2.store cell) := by
  rcases d.store_onStore h f cell with ⟨changed, there⟩ | same
  · rw [changed]
    exact each there
  · rw [same]
    exact .refl key _

/-- A new store has nothing in it. -/
theorem retains_create (d : Depot) (capacity : Nat) (defaultTtl : Option Duration) (cell : Nat)
    (key : CacheKey) :
    (d.store cell).Retains key
      (({ d with stores := d.stores ++ [.new capacity defaultTtl] } : Depot).store cell) := by
  intro e there
  rw [store, List.getD_eq_getElem?_getD] at there ⊢
  by_cases old : cell < d.stores.length
  · rw [List.getElem?_append_left old] at there
    exact ⟨e, there, .refl e⟩
  · rw [List.getElem?_append_right (Nat.le_of_not_lt old), List.getElem?_singleton] at there
    split at there <;> cases there

/-- A write is followed by the entry written, if the store is there. -/
theorem get?_setKey (d : Depot) (now : Nat) (h : Handle) (key : CacheKey) (value : Json)
    (ttl : Option Duration) {e : Entry}
    (bound : ((d.setKey now h key value ttl).2.store h.cell).entries.get? key = some e) :
    e = .new now value (ttl.or (d.store h.cell).defaultTtl) := by
  rw [setKey, onStore, store] at bound
  dsimp only at bound
  rw [List.getD_eq_getElem?_getD] at bound
  by_cases inside : h.cell < d.stores.length
  · rw [List.getElem?_set_self inside, Option.getD_some, Store.get?_set_self] at bound
    exact (Option.some.inj bound).symm
  · rw [List.getElem?_eq_none (by simpa using inside)] at bound
    cases bound

/-- After a write the value is there, if the store is. -/
theorem resident?_setKey (d : Depot) (now : Nat) (h : Handle) (key : CacheKey) (value : Json)
    (ttl : Option Duration) {found : Json}
    (there : ((d.setKey now h key value ttl).2.store h.cell).resident? key = some found) :
    found = value := by
  obtain ⟨e, bound, rfl⟩ := Option.map_eq_some_iff.mp there
  rw [d.get?_setKey now h key value ttl bound]
  rfl

theorem stems_setKey (d : Depot) (now : Nat) {w : Write} (member : w ∈ W) (ttl : Option Duration) :
    d.Stems W cell key (d.setKey now w.handle w.key w.value ttl).2 := by
  by_cases here : w.isAt cell key = true
  · obtain ⟨rfl, rfl⟩ := Write.isAt_iff.mp here
    intro e bound
    rw [d.get?_setKey now w.handle w.key w.value ttl bound]
    exact .inr ⟨w, member, here, rfl⟩
  · refine .of_retains (d.retains_onStore w.handle fun there => ?_)
    exact Store.retains_set _ now (fun same => here (Write.isAt_iff.mpr ⟨there, same⟩)) _ ttl

/-- A write leaves the other keys and the other stores alone. -/
theorem fades_setKey (d : Depot) (now : Nat) {w : Write} {cell : Nat} {key : CacheKey}
    (elsewhere : w.isAt cell key = false) (ttl : Option Duration) :
    d.Fades cell key (d.setKey now w.handle w.key w.value ttl).2 :=
  (d.stems_setKey now (List.mem_singleton_self w) ttl).fades (by simpa using elsewhere)

theorem Change.stems (h : d.Change W d') (cell : Nat) (key : CacheKey) : d.Stems W cell key d' := by
  cases h with
  | write now member ttl => exact d.stems_setKey now member ttl
  | read now h key =>
    exact .of_retains (d.retains_onStore h fun _ => Store.retains_getEntry _ now key)
  | delete h key => exact .of_retains (d.retains_onStore h fun _ => Store.retains_delete _ key)
  | sweep now h => exact .of_retains (d.retains_onStore h fun _ => Store.retains_sweep _ now)
  | clear h => exact .of_retains (d.retains_onStore h fun _ => Store.retains_clear _)
  | create capacity defaultTtl => exact .of_retains (d.retains_create capacity defaultTtl cell key)
  | beside registry backlog drainTimer journal => exact .refl d

theorem Change.keeps (h : d.Change W d') :
    d'.tasks = d.tasks ∧ d'.nextTask = d.nextTask ∧ d'.reloading = d.reloading := by
  cases h <;> exact ⟨rfl, rfl, rfl⟩

namespace Changes

theorem refl (d : Depot) : d.Changes W d := Relation.ReflTransGen.refl

theorem trans (h : d.Changes W d') (h' : d'.Changes W d'') : d.Changes W d'' :=
  Relation.ReflTransGen.trans h h'

theorem stems (h : d.Changes W d') (cell : Nat) (key : CacheKey) : d.Stems W cell key d' := by
  induction h with
  | refl => exact .refl d
  | tail _ change ih => exact ih.trans (change.stems cell key)

theorem keeps (h : d.Changes W d') :
    d'.tasks = d.tasks ∧ d'.nextTask = d.nextTask ∧ d'.reloading = d.reloading := by
  induction h with
  | refl => exact ⟨rfl, rfl, rfl⟩
  | tail _ change ih =>
    obtain ⟨tasks, nextTask, reloading⟩ := change.keeps
    exact ⟨tasks.trans ih.1, nextTask.trans ih.2.1, reloading.trans ih.2.2⟩

theorem foldl {α : Type} {f : Depot → α → Depot} (l : List α)
    (each : ∀ (d : Depot), ∀ a ∈ l, d.Changes W (f d a)) (d : Depot) :
    d.Changes W (l.foldl f d) := by
  induction l generalizing d with
  | nil => exact refl d
  | cons a rest ih =>
    apply (each d a List.mem_cons_self).trans
    exact ih (fun d b later => each d b (List.mem_cons_of_mem a later)) (f d a)

/-! ## The parts of operations -/

section Parts

variable (d : Depot) (now : Nat) (h : Handle) (key : CacheKey) (ttl : Option Duration)

theorem setKey {value : Json} (member : ⟨h, key, value⟩ ∈ W) :
    d.Changes W (d.setKey now h key value ttl).2 := .single (.write now member ttl)

theorem getEntry : d.Changes W (d.getEntry now h key).2 := .single (.read now h key)

theorem getKey : d.Changes W (d.getKey now h key).2 := .single (.read now h key)

theorem deleteKey : d.Changes W (d.deleteKey h key).2 := .single (.delete h key)

theorem beside (registry : Registry) (backlog : WriteBehind.Backlog)
    (drainTimer : Option DrainTimer) (journal : List Event) :
    d.Changes W { d with registry, backlog, drainTimer, journal } :=
  .single (.beside registry backlog drainTimer journal)

theorem record (e : Event) : d.Changes W (d.record e) :=
  beside d d.registry d.backlog d.drainTimer _

theorem onBacklog (f : WriteBehind.Backlog → WriteBehind.Backlog) :
    d.Changes W (d.onBacklog f) :=
  beside d d.registry _ d.drainTimer _

theorem withBacklog (backlog : WriteBehind.Backlog) : d.Changes W { d with backlog } :=
  beside d d.registry backlog d.drainTimer d.journal

theorem withTimer (drainTimer : Option DrainTimer) : d.Changes W { d with drainTimer } :=
  beside d d.registry d.backlog drainTimer d.journal

theorem withRegistry (registry : Registry) : d.Changes W { d with registry } :=
  beside d registry d.backlog d.drainTimer d.journal

/-- The end of a load is the write of what is cached, if anything is. -/
theorem finishLoad_eq (outcome : LoadOutcome) :
    (d.finishLoad now h key ttl outcome).2 =
      match outcome.cached? with
      | some value => (d.setKey now h key value ttl).2
      | none => d := by
  cases outcome with
  | panics => rfl
  | fails cause => rfl
  | returns value =>
    cases value with
    | none => rfl
    | some value =>
      rw [Depot.finishLoad, LoadOutcome.cached?]
      split <;> rfl

theorem finishLoad (outcome : LoadOutcome) :
    d.Changes (outcome.writes h key) (d.finishLoad now h key ttl outcome).2 := by
  rw [finishLoad_eq, LoadOutcome.writes]
  cases outcome.cached? with
  | none => exact refl d
  | some value => exact setKey d now h key ttl (List.mem_singleton_self _)

theorem load (loader : Loader) :
    d.Changes (loader.writes h key) (d.load now h key ttl loader).2 := by
  rw [Depot.load, Loader.writes]
  split
  · exact (record d _).trans (finishLoad _ now h key ttl loader.outcome)
  · exact record d _

end Parts

theorem clearStore (d : Depot) (h : Handle) : d.Changes W (d.clearStore h) := .single (.clear h)

theorem clearStores (d : Depot) (handles : List Handle) : d.Changes W (d.clearStores handles) :=
  foldl handles (fun d h _ => clearStore d h) d

theorem clearNext (d : Depot) (left : List Handle) (answer : Answer) (h : Handle) :
    d.Changes W (d.clearNext left answer h).2 := by
  rw [snd_clearNext]
  exact clearStore d h

theorem tearDown (d : Depot) (answer : Answer) : d.Changes W (d.tearDown answer).2 :=
  withRegistry d _

theorem stopTimer (d : Depot) : d.Changes W d.stopTimer := withTimer d _

theorem startWorker (d : Depot) (w : WriteBehind.Worker) : d.Changes W (d.startWorker w).2 :=
  withBacklog d _

theorem awaitWorker (d : Depot) (now worker : Nat) (waiting : Nat → Task)
    {next : Depot → Answer → Progress × Depot}
    (keeps : ∀ (d : Depot) answer, d.Changes W (next d answer).2) :
    d.Changes W (d.awaitWorker now worker waiting next).2 := by
  have resumed : d.Changes W (d.onBacklog fun b => b.resume now worker) := onBacklog d _
  rw [Depot.awaitWorker]
  cases (d.onBacklog fun b => b.resume now worker).backlog.report? worker with
  | none => exact resumed
  | some report => exact (resumed.trans (withBacklog _ _)).trans (keeps _ _)

theorem runWorker (d : Depot) (now : Nat) (w : WriteBehind.Worker) :
    d.Changes W (d.runWorker now w).2 :=
  (startWorker d w).trans (awaitWorker _ now _ _ fun d _ => refl d)

theorem afterTimer (d : Depot) (now : Nat) (flushFirst : Bool) :
    d.Changes W (d.afterTimer now flushFirst).2 := by
  cases flushFirst with
  | false => exact tearDown d .nothing
  | true => exact (startWorker d .newFlush).trans (awaitWorker _ now _ _ tearDown)

theorem beginTearDown (d : Depot) (now : Nat) (flushFirst : Bool) :
    d.Changes W (d.beginTearDown now flushFirst).2 := by
  unfold Depot.beginTearDown
  split
  · dsimp only
    split
    · exact stopTimer d
    · exact (stopTimer d).trans (afterTimer _ now flushFirst)
  · exact afterTimer d now flushFirst

theorem continueTick (d : Depot) (now : Nat) (timer : DrainTimer) (worker : Nat) :
    d.Changes W (d.continueTick now timer worker) := by
  have awaited : d.Changes W (d.awaitWorker now worker Task.awaiting finish).2 :=
    awaitWorker d now worker _ fun d _ => refl d
  unfold Depot.continueTick
  generalize d.awaitWorker now worker Task.awaiting finish = result at awaited ⊢
  obtain ⟨progress, d'⟩ := result
  cases progress <;> exact awaited.trans (withTimer d' _)

theorem runTimer (d : Depot) (now : Nat) : d.Changes W (d.runTimer now) := by
  unfold Depot.runTimer
  split
  · split
    · split
      · exact continueTick d now _ _
      · exact refl d
    · split
      · split
        · exact withTimer d _
        · exact (startWorker d .newDrain).trans (continueTick _ now _ _)
      · exact refl d
  · exact refl d

theorem runSweep (d : Depot) (now : Nat) (name : String) : d.Changes W (d.runSweep now name) := by
  unfold Depot.runSweep
  split
  · split
    · exact Relation.ReflTransGen.tail (.single (.sweep now _)) (.beside ..)
    · exact refl d
  · exact refl d

theorem createCache (d : Depot) (now : Nat) (name : String) (config : StoreConfig) {handle : Handle}
    (created : d.createCache now name config = .ok (handle, d')) : d.Changes W d' := by
  rw [Depot.createCache] at created
  split at created
  · cases created
  · cases created
    exact Relation.ReflTransGen.tail (.single (.create config.capacity config.defaultTtl))
      (.beside ..)

/-! ## Operations that answer at once -/

section Operations

variable (d : Depot) (now : Nat) (key : CacheKey) (ttl : Option Duration)

theorem warm (store : String) (items : List WarmItem) :
    d.Changes ((Operation.warm store items).writes d now) (d.warm now store items).2 := by
  apply foldl
  intro d item member
  exact setKey d now _ _ item.ttl (List.mem_map.mpr ⟨item, member, rfl⟩)

theorem tierGet (first : String) (second : Option String) :
    d.Changes ((Operation.tierGet first second key ttl).writes d now)
      (d.tierGet now first second key ttl).2 := by
  have read : ∀ W, d.Changes W (d.getKey now (d.getCache first) key).2 :=
    fun W => getKey d now _ key
  rw [Operation.writes, Depot.tierGet]
  generalize d.getKey now (d.getCache first) key = result at read ⊢
  obtain ⟨value, d'⟩ := result
  cases value with
  | some value => exact read _
  | none =>
    cases second with
    | none => exact read _
    | some second =>
      have copied : ∀ W, d.Changes W (d'.getEntry now (d'.getCache second) key).2 :=
        fun W => (read W).trans (getEntry d' now _ key)
      dsimp only
      generalize d'.getEntry now (d'.getCache second) key = result at copied ⊢
      obtain ⟨entry, d''⟩ := result
      cases entry with
      | none => exact copied _
      | some e => exact (copied _).trans (setKey d'' now _ key _ (List.mem_singleton_self _))

theorem tierSet (first : String) (second : Option String) (value : Json) :
    d.Changes ((Operation.tierSet first second key value ttl).writes d now)
      (d.tierSet now first second key value ttl) := by
  cases second with
  | none => exact setKey d now _ key ttl (List.mem_singleton_self _)
  | some second =>
    have lower : d.Changes ((Operation.tierSet first (some second) key value ttl).writes d now)
        (d.setKey now (d.getCache second) key value (ttl.map Duration.doubled)).2 :=
      setKey d now _ key _ List.mem_cons_self
    exact lower.trans (setKey _ now _ key ttl (List.mem_cons_of_mem _ (List.mem_singleton_self _)))

end Operations
end Changes
end Depot
end CacheDepot
