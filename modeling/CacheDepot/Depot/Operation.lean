import CacheDepot.Depot.Registry
import CacheDepot.Depot.Strategy
import CacheDepot.Depot.Tiers

/-!
# Operations of callers

Everything a caller can ask of a depot. `Depot.start` carries an operation out up to its first
wait. Names lead to stores at that moment, and an operation keeps to the store it was led to.
-/

namespace CacheDepot

/-- The store an operation is meant for. -/
inductive StoreRef where
  | named (name : String)
  | held (handle : Handle)

/-- What a caller can ask for. -/
inductive Operation where
  | get (store : StoreRef) (key : CacheKey)
  | getEntry (store : StoreRef) (key : CacheKey)
  | peek (store : StoreRef) (key : CacheKey)
  | set (store : StoreRef) (key : CacheKey) (value : Json) (ttl : Option Duration)
  | delete (store : StoreRef) (key : CacheKey)
  | sweep (store : StoreRef)
  | clear (store : StoreRef)
  | stats (store : StoreRef)
  | create (name : String) (config : StoreConfig)
  | warm (store : String) (items : List WarmItem)
  | invalidate (store : String) (key : CacheKey)
  | cacheAside (store : String) (key : CacheKey) (ttl : Option Duration) (loader : Loader)
  | refreshAhead (store : String) (key : CacheKey) (ttl : Option Duration)
      (threshold : Threshold) (loader : Loader)
  | writeThrough (store : String) (key : CacheKey) (value : Json) (ttl : Option Duration)
      (persist : Persist)
  | writeBehind (store : String) (key : CacheKey) (value : Json) (ttl : Option Duration)
      (batchSize : Nat) (persist : Persist)
  | tierGet (first : String) (second : Option String) (key : CacheKey) (ttl : Option Duration)
  | tierSet (first : String) (second : Option String) (key : CacheKey) (value : Json)
      (ttl : Option Duration)
  /-- Adds an item to the queue without caching its value. -/
  | push (key : CacheKey) (value : Json) (persist : Persist)
  | drain
  | flush
  | destroy
  /-- Persists the queue before tearing the depot down. -/
  | shutdown

namespace Depot

/-- The handle that a reference leads to. -/
def refer (d : Depot) : StoreRef → Handle
  | .named name => d.getCache name
  | .held handle => handle

/-- Ends an operation. -/
def finish (d : Depot) (answer : Answer) : Progress × Depot := (.answered answer, d)

/-- Begins to tear the depot down: the sweeps are stopped, and all stores that have a name then are
to be emptied. -/
def tearDown (d : Depot) (answer : Answer) : Progress × Depot :=
  let d := d.stopSweepers
  (.waits (.clearing d.handles answer), d)

/-- Empties one of the stores that a teardown has left; with the last one it is over. -/
def clearNext (d : Depot) (left : List Handle) (answer : Answer) (h : Handle) : Progress × Depot :=
  match left.erase h with
  | [] => (.answered answer, d.clearStore h)
  | left => (.waits (.clearing left answer), d.clearStore h)

theorem snd_clearNext (d : Depot) (left : List Handle) (answer : Answer) (h : Handle) :
    (d.clearNext left answer h).2 = d.clearStore h := by
  rw [clearNext]
  split <;> rfl

/-- Goes on with an operation that waits for a worker of its own. -/
def awaitWorker (d : Depot) (now worker : Nat) (waiting : Nat → Task)
    (next : Depot → Answer → Progress × Depot) : Progress × Depot :=
  let d := d.onBacklog fun b => b.resume now worker
  match d.backlog.report? worker with
  | some report => next { d with backlog := d.backlog.collect worker } (.report report)
  | none => (.waits (waiting worker), d)

/-- Starts a drain or a flush for a caller. -/
def runWorker (d : Depot) (now : Nat) (w : WriteBehind.Worker) : Progress × Depot :=
  let (worker, d) := d.startWorker w
  d.awaitWorker now worker .awaiting finish

/-- Persists the whole queue and tears the depot down. -/
def flushAndTearDown (d : Depot) (now : Nat) : Progress × Depot :=
  let (worker, d) := d.startWorker .newFlush
  d.awaitWorker now worker .flushing tearDown

/-- What follows once the timed drain has ended. -/
def afterTimer (d : Depot) (now : Nat) (flushFirst : Bool) : Progress × Depot :=
  if flushFirst then d.flushAndTearDown now else d.tearDown .nothing

/-- Whether the timed drain is held by the depot. -/
def holdsTimer (d : Depot) : Bool := d.drainTimer.any fun t => t.ticker.held

/-- Whether the timed drain is in the middle of a tick. -/
def timerTicks (d : Depot) : Bool := d.drainTimer.any fun t => t.ticker.isTicking

/-- Asks the timed drain to end. -/
def stopTimer (d : Depot) : Depot :=
  { d with drainTimer := d.drainTimer.map fun t => { t with ticker := t.ticker.shutDown } }

/-- Tears the depot down. Whoever finds the timed drain still held waits for its tick to end. -/
def beginTearDown (d : Depot) (now : Nat) (flushFirst : Bool) : Progress × Depot :=
  if d.holdsTimer then
    let d := d.stopTimer
    if d.timerTicks then (.waits (.stopping flushFirst), d) else d.afterTimer now flushFirst
  else d.afterTimer now flushFirst

/-- An answer that needs no waiting. -/
def answered {α : Type} (wrap : α → Answer) (result : α × Depot) : Progress × Depot :=
  (.answered (wrap result.1), result.2)

/-- Carries an operation out up to its first wait. -/
def start (d : Depot) (now : Nat) : Operation → Progress × Depot
  | .get s key => answered .found (d.getKey now (d.refer s) key)
  | .getEntry s key => answered .entry (d.getEntry now (d.refer s) key)
  | .peek s key => (.answered (.entry ((d.store (d.refer s).cell).peek now key)), d)
  | .set s key value ttl => answered .outcome (d.setKey now (d.refer s) key value ttl)
  | .delete s key => answered .flag (d.deleteKey (d.refer s) key)
  | .sweep s => answered .count (d.onStore (d.refer s) fun s => s.sweep now)
  | .clear s => answered (fun _ => .nothing) (d.onStore (d.refer s) fun s => ((), s.clear))
  | .stats s => (.answered (.stats (d.store (d.refer s).cell).stats), d)
  | .create name config =>
    match d.createCache now name config with
    | .ok (handle, d) => (.answered (.handle handle), d)
    | .error e => (.answered (.failed e), d)
  | .warm store items => answered .count (d.warm now store items)
  | .invalidate store key => answered .flag (d.deleteKey (d.getCache store) key)
  | .cacheAside store key ttl loader => d.cacheAside now store key ttl loader
  | .refreshAhead store key ttl threshold loader =>
    d.refreshAhead now store key ttl threshold loader
  | .writeThrough store key value ttl persist => d.writeThrough now store key value ttl persist
  | .writeBehind store key value ttl batchSize persist =>
    let (answer, d) := d.writeBehind now store key value ttl batchSize persist
    (.answered answer, d)
  | .tierGet first second key ttl => answered .found (d.tierGet now first second key ttl)
  | .tierSet first second key value ttl =>
    (.answered .nothing, d.tierSet now first second key value ttl)
  | .push key value persist =>
    let d := { d with backlog := d.backlog.push now key value persist }
    (.answered (.count d.backlog.queue.size), d)
  | .drain => d.runWorker now .newDrain
  | .flush => d.runWorker now .newFlush
  | .destroy => d.beginTearDown now false
  | .shutdown => d.beginTearDown now true

end Depot
end CacheDepot
