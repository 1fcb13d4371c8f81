import CacheDepot.Depot.Action

/-!
# What operations leave alone

Reading and writing stores, with or without a loader, leaves the queue, the timed drain, the
registry and all tasks alone. So what is proved about these need not look at such operations.
-/

namespace CacheDepot.Depot

/-- The two depots differ at most in their stores, in the reloads under way and in the journal. -/
structure StoresOnly (d d' : Depot) : Prop where
  registry : d'.registry = d.registry
  backlog : d'.backlog = d.backlog
  drainTimer : d'.drainTimer = d.drainTimer
  tasks : d'.tasks = d.tasks
  nextTask : d'.nextTask = d.nextTask

namespace StoresOnly

variable {d d' d'' : Depot}

theorem refl (d : Depot) : d.StoresOnly d := ⟨rfl, rfl, rfl, rfl, rfl⟩

theorem trans (h : d.StoresOnly d') (h' : d'.StoresOnly d'') : d.StoresOnly d'' where
  registry := h'.registry.trans h.registry
  backlog := h'.backlog.trans h.backlog
  drainTimer := h'.drainTimer.trans h.drainTimer
  tasks := h'.tasks.trans h.tasks
  nextTask := h'.nextTask.trans h.nextTask

theorem onStore {α : Type} (d : Depot) (h : Handle) (f : Store → α × Store) :
    d.StoresOnly (d.onStore h f).2 := ⟨rfl, rfl, rfl, rfl, rfl⟩

theorem record (d : Depot) (e : Event) : d.StoresOnly (d.record e) := ⟨rfl, rfl, rfl, rfl, rfl⟩

theorem withReloading (d : Depot) (reloading : List ReloadId) :
    d.StoresOnly { d with reloading } := ⟨rfl, rfl, rfl, rfl, rfl⟩

/-- Doing such a thing for each element of a list is such a thing. -/
theorem foldl {α : Type} {f : Depot → α → Depot}
    (each : ∀ (d : Depot) (a : α), d.StoresOnly (f d a))
    (d : Depot) (l : List α) : d.StoresOnly (l.foldl f d) := by
  induction l generalizing d with
  | nil => exact refl d
  | cons a rest ih => exact (each d a).trans (ih (f d a))

theorem clearStore (d : Depot) (h : Handle) : d.StoresOnly (d.clearStore h) := onStore d h _

theorem clearStores (d : Depot) (handles : List Handle) : d.StoresOnly (d.clearStores handles) :=
  foldl clearStore d handles

section Operations

variable (d : Depot) (now : Nat) (h : Handle) (key : CacheKey) (ttl : Option Duration)

theorem warm (name : String) (items : List WarmItem) :
    d.StoresOnly (d.warm now name items).2 :=
  foldl (fun _ _ => onStore _ _ _) d items

theorem setKey (value : Json) : d.StoresOnly (d.setKey now h key value ttl).2 := onStore d h _

theorem finishLoad (outcome : LoadOutcome) :
    d.StoresOnly (d.finishLoad now h key ttl outcome).2 := by
  cases outcome with
  | panics => exact refl d
  | fails cause => exact refl d
  | returns value =>
    cases value with
    | none => exact refl d
    | some value =>
      rw [Depot.finishLoad]
      split
      · exact refl d
      · exact setKey d now h key ttl value

theorem finishReload (outcome : LoadOutcome) :
    d.StoresOnly (d.finishReload now h key ttl outcome) :=
  (finishLoad d now h key ttl outcome).trans (withReloading _ _)

theorem load (loader : Loader) : d.StoresOnly (d.load now h key ttl loader).2 := by
  unfold Depot.load
  split
  · exact (record d _).trans (finishLoad _ now h key ttl _)
  · exact record d _

theorem cacheAside (store : String) (loader : Loader) :
    d.StoresOnly (d.cacheAside now store key ttl loader).2 := by
  have read : d.StoresOnly (d.getKey now (d.getCache store) key).2 := onStore d _ _
  rw [Depot.cacheAside]
  generalize d.getKey now (d.getCache store) key = result at read ⊢
  obtain ⟨value, d'⟩ := result
  cases value with
  | some value => exact read
  | none => exact read.trans (load d' now _ key ttl loader)

theorem writeThrough (store : String) (value : Json) (persist : Persist) :
    d.StoresOnly (d.writeThrough now store key value ttl persist).2 := by
  rw [Depot.writeThrough]
  split <;> exact record d _

theorem tierGet (first : String) (second : Option String) :
    d.StoresOnly (d.tierGet now first second key ttl).2 := by
  have read : d.StoresOnly (d.getKey now (d.getCache first) key).2 := onStore d _ _
  rw [Depot.tierGet]
  generalize d.getKey now (d.getCache first) key = result at read ⊢
  obtain ⟨value, d'⟩ := result
  cases value with
  | some value => exact read
  | none =>
    cases second with
    | none => exact read
    | some second =>
      have copied : d.StoresOnly (d'.getEntry now (d'.getCache second) key).2 :=
        read.trans (onStore d' _ _)
      dsimp only
      generalize d'.getEntry now (d'.getCache second) key = result at copied ⊢
      obtain ⟨entry, d''⟩ := result
      cases entry with
      | none => exact copied
      | some e => exact copied.trans (setKey d'' now _ key _ e.value)

theorem tierSet (first : String) (second : Option String) (value : Json) :
    d.StoresOnly (d.tierSet now first second key value ttl) := by
  cases second with
  | none => exact setKey d now _ key ttl value
  | some second => exact (setKey d now _ key _ value).trans (setKey _ now _ key ttl value)

end Operations
end StoresOnly
end CacheDepot.Depot
