import CacheDepot.Depot.Basic
import CacheDepot.Refresh

/-!
# Ways to read and write through the cache

Reading through a loader, writing through to the place behind the cache at once or later, and
reloading entries before they expire. Each way is given up to its first wait; what follows a wait
is the business of the task it leaves behind.
-/

namespace CacheDepot

/-- How far an operation has come. -/
inductive Progress where
  | answered (answer : Answer)
  | waits (task : Task)

namespace Depot

/-- Ends a load: a value that is there and not null is cached, and whatever came is answered. -/
def finishLoad (d : Depot) (now : Nat) (h : Handle) (key : CacheKey) (ttl : Option Duration)
    (outcome : LoadOutcome) : Answer × Depot :=
  match outcome with
  | .panics => (.panicked, d)
  | .fails cause => (.failed (.loader cause), d)
  | .returns none => (.found none, d)
  | .returns (some value) =>
    if value.isNull then (.found (some value), d)
    else (.found (some value), (d.setKey now h key value ttl).2)

/-- Calls a loader for a caller. -/
def load (d : Depot) (now : Nat) (h : Handle) (key : CacheKey) (ttl : Option Duration)
    (loader : Loader) : Progress × Depot :=
  let d := d.record (.loaderCalled loader.label)
  if loader.delay = 0 then
    let (answer, d) := d.finishLoad now h key ttl loader.outcome
    (.answered answer, d)
  else (.waits (.loading h key ttl loader (waitEnd now loader.delay)), d)

/-- Answers the cached value, or loads one and caches it. -/
def cacheAside (d : Depot) (now : Nat) (store : String) (key : CacheKey) (ttl : Option Duration)
    (loader : Loader) : Progress × Depot :=
  let h := d.getCache store
  let (value, d) := d.getKey now h key
  match value with
  | some value => (.answered (.found (some value)), d)
  | none => d.load now h key ttl loader

/-- How a write goes on whose value was to be persisted first: a value that is persisted is to be
cached. -/
def afterPersist (h : Handle) (key : CacheKey) (value : Json) (ttl : Option Duration)
    (attempt : Attempt) : Progress :=
  match attempt.failure with
  | some cause => .answered (.failed (.persist cause))
  | none => .waits (.caching h key value ttl)

/-- Ends a write whose value is persisted. -/
def cachePersisted (d : Depot) (now : Nat) (h : Handle) (key : CacheKey) (value : Json)
    (ttl : Option Duration) : Answer × Depot :=
  (.found (some value), (d.setKey now h key value ttl).2)

/-- Persists a value and then caches it. -/
def writeThrough (d : Depot) (now : Nat) (store : String) (key : CacheKey) (value : Json)
    (ttl : Option Duration) (persist : Persist) : Progress × Depot :=
  let h := d.getCache store
  let d := d.record (.persistCalled persist.label 0 value)
  let attempt := persist.attempt 0
  if attempt.delay = 0 then (afterPersist h key value ttl attempt, d)
  else (.waits (.persisting h key value ttl attempt (waitEnd now attempt.delay)), d)

/-- The length of the queue at which a write starts a drain, unless the caller asks for
another. -/
def defaultBatchSize : Nat := 10

/-- Caches a value and queues it to be persisted. A queue that has become long enough is drained
in the background. -/
def writeBehind (d : Depot) (now : Nat) (store : String) (key : CacheKey) (value : Json)
    (ttl : Option Duration) (batchSize : Nat) (persist : Persist) : Answer × Depot :=
  let h := d.getCache store
  let (_, d) := d.setKey now h key value ttl
  let d := { d with backlog := d.backlog.push now key value persist }
  let d :=
    if max batchSize 1 ≤ d.backlog.queue.size then
      let (worker, d) := d.startWorker .newDrain
      (d.spawn (.draining worker)).2
    else d
  (.found (some value), d)

/-- Starts a background reload, unless one for the same name and key is under way. -/
def startReload (d : Depot) (h : Handle) (key : CacheKey) (ttl : Option Duration)
    (loader : Loader) : Depot :=
  let id : ReloadId := (h.name, key)
  if d.reloading.contains id then d
  else
    let d := { d with reloading := id :: d.reloading }
    (d.spawn (.reloadReady h key ttl loader)).2

/-- Ends a background reload; however it went, another one may start. -/
def finishReload (d : Depot) (now : Nat) (h : Handle) (key : CacheKey) (ttl : Option Duration)
    (outcome : LoadOutcome) : Depot :=
  let d := (d.finishLoad now h key ttl outcome).2
  { d with reloading := d.reloading.erase (h.name, key) }

/-- Answers the cached value and reloads it in the background once it is old enough; without a
cached value one is loaded for the caller. -/
def refreshAhead (d : Depot) (now : Nat) (store : String) (key : CacheKey)
    (ttl : Option Duration) (threshold : Threshold) (loader : Loader) : Progress × Depot :=
  let h := d.getCache store
  let (entry, d) := d.getEntry now h key
  match entry with
  | none => d.load now h key ttl loader
  | some e =>
    let d := if e.needsRefresh now threshold then d.startReload h key ttl loader else d
    (.answered (.found (some e.value)), d)

end Depot
end CacheDepot
