import CacheDepot.Depot.Operation

/-!
# What can happen in a depot

A depot changes in actions: a caller starts an operation, a task goes on after a wait, the timed
drain or a sweep does its next part, or an operation is given up where it waits. An action runs
from one wait to the next; it does nothing when what it waits for has not happened. Every order of
actions in time is a run of the depot.

Whoever uses a store may have to wait for it while others use it. Where an operation has done
something before that others can notice, such a wait ends an action: a value that was persisted
first waits for its store to be cached, and a teardown waits for each store that it empties. A task
that tears the depot down empties the rest of its stores at once when it goes on, and one of them
with an action of its own. The other waits for stores are left out. One before anything is done
counts as before the operation, one after a load as part of the load, and nothing comes between
the items of a warm-up or between two tiers.
-/

namespace CacheDepot

/-- What can happen. -/
inductive Action where
  /-- A caller starts an operation, which becomes a task of its own. -/
  | start (operation : Operation)
  /-- A task goes on. -/
  | resume (task : Nat)
  /-- A task that tears the depot down empties one of the stores it has left. -/
  | clear (task : Nat) (handle : Handle)
  /-- The timed drain goes on. -/
  | drainTimer
  /-- The sweep of the store with this name does its next tick. -/
  | sweep (name : String)
  /-- A task is given up where it waits. -/
  | abort (task : Nat)

namespace Depot

/-- Puts a task where its progress has brought it. -/
def settleTask (id : Nat) : Progress × Depot → Depot
  | (.answered answer, d) => { d with tasks := d.tasks.insert id (.ended answer) }
  | (.waits task, d) => { d with tasks := d.tasks.insert id task }

/-- Starts an operation as a task of its own. -/
def submit (d : Depot) (now : Nat) (operation : Operation) : Nat × Depot :=
  let id := d.nextTask
  (id, settleTask id ({ d with nextTask := id + 1 }.start now operation))

/-- Removes a task that nobody waits for. -/
def dropTask (d : Depot) (id : Nat) : Depot := { d with tasks := d.tasks.erase id }

theorem get?_dropTask (d : Depot) (id : Nat) : (d.dropTask id).tasks.get? id = none :=
  Assoc.get?_erase_self ..

/-- Whether a task can go on at `now`. -/
def isReady (d : Depot) (now : Nat) : Task → Bool
  | .loading _ _ _ _ due | .persisting _ _ _ _ _ due | .reloading _ _ _ _ due => due ≤ now
  | .awaiting worker | .flushing worker | .draining worker => d.backlog.isReady now worker
  | .stopping _ => !d.timerTicks
  | .caching _ _ _ _ | .clearing _ _ | .reloadReady _ _ _ _ | .storing _ _ _ _ => true
  | .ended _ => false

/-- What a ready task does next. -/
def resumeTask (d : Depot) (now id : Nat) : Task → Depot
  | .loading h key ttl loader _ =>
    let (answer, d) := d.finishLoad now h key ttl loader.outcome
    settleTask id (.answered answer, d)
  | .persisting h key value ttl attempt _ => settleTask id (afterPersist h key value ttl attempt, d)
  | .caching h key value ttl =>
    let (answer, d) := d.cachePersisted now h key value ttl
    settleTask id (.answered answer, d)
  | .awaiting worker => settleTask id (d.awaitWorker now worker .awaiting finish)
  | .stopping flushFirst => settleTask id (d.afterTimer now flushFirst)
  | .flushing worker => settleTask id (d.awaitWorker now worker .flushing tearDown)
  | .clearing left answer => settleTask id (.answered answer, d.clearStores left)
  | .reloadReady h key ttl loader =>
    let d := d.record (.loaderCalled loader.label)
    if loader.delay = 0 then (d.finishReload now h key ttl loader.outcome).dropTask id
    else
      { d with tasks := d.tasks.insert id (.reloading h key ttl loader (waitEnd now loader.delay)) }
  | .reloading h key ttl loader _ =>
    (d.finishReload now h key ttl loader.outcome).dropTask id
  | .draining worker =>
    match d.awaitWorker now worker .draining finish with
    | (.answered _, d) => d.dropTask id
    | (.waits _, d) => d
  | .storing h key value ttl => (d.setKey now h key value (some ttl)).2.dropTask id
  | .ended _ => d

/-- Lets a task go on if it can. -/
def resume (d : Depot) (now id : Nat) : Depot :=
  match d.tasks.get? id with
  | some t => if d.isReady now t then d.resumeTask now id t else d
  | none => d

/-- Lets a teardown empty one of the stores it has left. -/
def emptyOne (d : Depot) (id : Nat) (h : Handle) : Depot :=
  match d.tasks.get? id with
  | some (.clearing left answer) =>
    if h ∈ left then settleTask id (d.clearNext left answer h) else d
  | _ => d

/-- Goes on with the drain of a tick. -/
def continueTick (d : Depot) (now : Nat) (timer : DrainTimer) (worker : Nat) : Depot :=
  match d.awaitWorker now worker .awaiting finish with
  | (.answered _, d) => { d with drainTimer := some { ticker := timer.ticker.endTick } }
  | (.waits _, d) => { d with drainTimer := some { timer with worker := some worker } }

/-- Whether the timed drain can go on at `now`. -/
def timerReady (d : Depot) (now : Nat) : Bool :=
  match d.drainTimer with
  | some timer =>
    match timer.worker with
    | some worker => d.backlog.isReady now worker
    | none => timer.ticker.due?.any (· ≤ now)
  | none => false

/-- The next part of the timed drain. A tick that finds the queue empty is over at once. -/
def runTimer (d : Depot) (now : Nat) : Depot :=
  match d.drainTimer with
  | some timer =>
    match timer.worker with
    | some worker =>
      if d.backlog.isReady now worker then d.continueTick now timer worker else d
    | none =>
      match timer.ticker.beginTick? now with
      | some ticker =>
        if d.backlog.queue.items.isEmpty then
          { d with drainTimer := some { ticker := ticker.endTick } }
        else
          let (worker, d) := d.startWorker .newDrain
          d.continueTick now { ticker } worker
      | none => d
  | none => d

/-- The next tick of the sweep of a store, if it is due. -/
def runSweep (d : Depot) (now : Nat) (name : String) : Depot :=
  match d.registry.get? name with
  | some registered =>
    match registered.sweeper.bind (Ticker.beginTick? · now) with
    | some ticker =>
      let (_, d) := d.onStore registered.handle fun s => s.sweep now
      { d with
        registry := d.registry.insert name { registered with sweeper := some ticker.endTick } }
    | none => d
  | none => d

/-- Gives a task up where it waits. After a reload another one may start, and a
drain or flush loses what it had taken. -/
def abort (d : Depot) (id : Nat) : Depot :=
  match d.tasks.get? id with
  | some (.ended _) | none => d
  | some (.reloadReady h key _ _) | some (.reloading h key _ _ _) =>
    { d with reloading := d.reloading.erase (h.name, key) }.dropTask id
  | some (.awaiting worker) | some (.flushing worker) | some (.draining worker) =>
    (d.onBacklog fun b => b.cancel worker).dropTask id
  | some (.loading _ _ _ _ _) | some (.persisting _ _ _ _ _ _) | some (.caching _ _ _ _)
  | some (.stopping _) | some (.clearing _ _) | some (.storing _ _ _ _) => d.dropTask id

/-- What an action does at the time `now`. -/
def act (now : Nat) (d : Depot) : Action → Depot
  | .start operation => (d.submit now operation).2
  | .resume task => d.resume now task
  | .clear task handle => d.emptyOne task handle
  | .drainTimer => d.runTimer now
  | .sweep name => d.runSweep now name
  | .abort task => d.abort task

/-- A run: what happens, and when. -/
def run (d : Depot) (actions : List (Nat × Action)) : Depot :=
  actions.foldl (fun d a => act a.1 d a.2) d

end Depot
end CacheDepot
