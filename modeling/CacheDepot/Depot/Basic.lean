import CacheDepot.Callback
import CacheDepot.Config
import CacheDepot.Ordered
import CacheDepot.Store
import CacheDepot.Ticker
import CacheDepot.WriteBehind.Backlog

/-!
# A depot of named stores

A depot holds the stores, the registry that names them, the write-behind queue, and every
operation and background task that waits. Stores are cells, addressed by number, so that a
handle stays good when its name is given to a new store. Waiting is data: a `Task` says what is
to happen when the wait is over, and nothing else happens to it in between.
-/

namespace CacheDepot

/-- A way to a store: the name it was created under and its cell. -/
structure Handle where
  name : String
  cell : Nat
  deriving DecidableEq, Repr

namespace Handle

/-- A description for the log of the service. -/
def describe (h : Handle) : String :=
  "StoreHandle \x7b name: " ++ Text.quoteName h.name ++ ", .. \x7d"

end Handle

/-- A store under its name, with the task that sweeps it. -/
structure Registered where
  handle : Handle
  sweeper : Option Ticker

/-- The stores that can be reached by name. -/
structure Registry where
  /-- The store that every unknown name leads to. -/
  fallback : Registered
  /-- The other stores in the order of their names. -/
  named : List (String × Registered) := []

/-- The name of the store that every unknown name leads to. -/
def defaultName : String := "default"

namespace Registry

/-- The store a name leads to. -/
def resolve (r : Registry) (name : String) : Registered :=
  (Ordered.get? name r.named).getD r.fallback

/-- Whether a store has this name. -/
def contains (r : Registry) (name : String) : Bool :=
  name = defaultName || (Ordered.get? name r.named).isSome

/-- All stores with their names, in the order of the names. -/
def toList (r : Registry) : List (String × Registered) :=
  Ordered.insert defaultName r.fallback r.named

/-- The store that was under a name, if any. -/
def get? (r : Registry) (name : String) : Option Registered :=
  if name = defaultName then some r.fallback else Ordered.get? name r.named

/-- Puts a store under a name. -/
def insert (r : Registry) (name : String) (store : Registered) : Registry :=
  if name = defaultName then { r with fallback := store }
  else { r with named := Ordered.insert name store r.named }

/-- Changes every store's entry. -/
def map (f : Registered → Registered) (r : Registry) : Registry where
  fallback := f r.fallback
  named := r.named.map fun b => (b.1, f b.2)

end Registry

/-- What an operation answers. -/
inductive Answer where
  | nothing
  | flag (value : Bool)
  | count (n : Nat)
  | found (value : Option Json)
  | entry (entry : Option Entry)
  | outcome (outcome : SetOutcome)
  | stats (stats : Stats)
  | handle (handle : Handle)
  | report (report : WriteBehind.Report)
  | failed (error : CacheError)
  /-- The operation of the caller broke down. -/
  | panicked

/-- What a background reload is known by: the name of the handle's store and the key. -/
abbrev ReloadId := String × CacheKey

/-- An operation or background task that has not come to its end. -/
inductive Task where
  /-- A caller waits for a loader whose result is then cached. -/
  | loading (handle : Handle) (key : CacheKey) (ttl : Option Duration) (loader : Loader)
      (due : Nat)
  /-- A caller waits until a value is persisted, which is then cached. -/
  | persisting (handle : Handle) (key : CacheKey) (value : Json) (ttl : Option Duration)
      (attempt : Attempt) (due : Nat)
  /-- A caller's value is persisted and waits for its store, to be cached there. -/
  | caching (handle : Handle) (key : CacheKey) (value : Json) (ttl : Option Duration)
  /-- A caller waits for a drain or a flush of its own. -/
  | awaiting (worker : Nat)
  /-- A caller waits for the timed drain to end, then tears the depot down, and persists the
  queue before that if `flushFirst`. -/
  | stopping (flushFirst : Bool)
  /-- A caller waits for its flush and then tears the depot down. -/
  | flushing (worker : Nat)
  /-- A caller tears the depot down and waits for the stores that are still to be emptied. -/
  | clearing (left : List Handle) (answer : Answer)
  /-- A background reload that has not called its loader yet. -/
  | reloadReady (handle : Handle) (key : CacheKey) (ttl : Option Duration) (loader : Loader)
  /-- A background reload that waits for its loader. -/
  | reloading (handle : Handle) (key : CacheKey) (ttl : Option Duration) (loader : Loader)
      (due : Nat)
  /-- A background drain, started because the queue had grown long enough. -/
  | draining (worker : Nat)
  /-- A response to be put into a store in the background. -/
  | storing (handle : Handle) (key : CacheKey) (value : Json) (ttl : Duration)
  /-- An operation of a caller that has ended. -/
  | ended (answer : Answer)

/-- The timed drain of the queue. -/
structure DrainTimer where
  ticker : Ticker
  /-- The drain of the tick in progress. -/
  worker : Option Nat := none

/-- Stores, registry, queue and everything that is under way. -/
structure Depot where
  /-- Every store ever created. -/
  stores : List Store
  registry : Registry
  backlog : WriteBehind.Backlog
  drainTimer : Option DrainTimer := none
  /-- The background reloads that are under way. -/
  reloading : List ReloadId := []
  tasks : Assoc Nat Task := .empty
  /-- The number of the next task. -/
  nextTask : Nat := 0
  /-- Calls of the callers' operations, the latest first. -/
  journal : List Event := []

namespace Depot

/-- The store in a cell. -/
def store (d : Depot) (cell : Nat) : Store := d.stores.getD cell (.new 1 none)

/-- Does something to the store in a cell. -/
def onStore {α : Type} (d : Depot) (h : Handle) (f : Store → α × Store) : α × Depot :=
  let (result, changed) := f (d.store h.cell)
  (result, { d with stores := d.stores.set h.cell changed })

/-- The store a name leads to. -/
def getCache (d : Depot) (name : String) : Handle := (d.registry.resolve name).handle

/-- Records a call. -/
def record (d : Depot) (e : Event) : Depot := { d with journal := e :: d.journal }

/-- Starts a task. -/
def spawn (d : Depot) (t : Task) : Nat × Depot :=
  (d.nextTask, { d with
    tasks := d.tasks.insert d.nextTask t
    nextTask := d.nextTask + 1 })

/-- The calls that new fates of items stand for. -/
def attemptEvents (fates : List WriteBehind.Fate) : List Event :=
  fates.filterMap fun
    | .attempted item => some (.persistCalled item.persist.label item.retries item.value)
    | _ => none

/-- Does something to the queue and records the attempts it makes. -/
def onBacklog (d : Depot) (f : WriteBehind.Backlog → WriteBehind.Backlog) : Depot :=
  let changed := f d.backlog
  let fresh := changed.fates.take (changed.fates.length - d.backlog.fates.length)
  { d with backlog := changed, journal := attemptEvents fresh ++ d.journal }

/-- Starts a worker on the queue. -/
def startWorker (d : Depot) (w : WriteBehind.Worker) : Nat × Depot :=
  let (id, backlog) := d.backlog.start w
  (id, { d with backlog })

/-- Writes a value into a store. -/
def setKey (d : Depot) (now : Nat) (h : Handle) (key : CacheKey) (value : Json)
    (ttl : Option Duration) : SetOutcome × Depot :=
  d.onStore h fun s => s.set now key value ttl

/-- Reads a value from a store. -/
def getKey (d : Depot) (now : Nat) (h : Handle) (key : CacheKey) : Option Json × Depot :=
  d.onStore h fun s => s.get now key

/-- Reads an entry from a store. -/
def getEntry (d : Depot) (now : Nat) (h : Handle) (key : CacheKey) : Option Entry × Depot :=
  d.onStore h fun s => s.getEntry now key

/-- Removes a key from a store. -/
def deleteKey (d : Depot) (h : Handle) (key : CacheKey) : Bool × Depot :=
  d.onStore h fun s => s.delete key

end Depot
end CacheDepot
