import CacheDepot.Assoc
import CacheDepot.WriteBehind.Worker

/-!
# The queue with its workers

The queue, every drain and flush that was started and not yet collected, and the fates of all
items so far. What can happen to it is an `Action`: a push, the start of a worker, a step of one,
giving one up, or forgetting one that has ended.
-/

namespace CacheDepot.WriteBehind

/-- The queue and those who work on it. -/
structure Backlog where
  queue : Queue
  workers : Assoc Nat Worker := .empty
  /-- The number of the next worker. -/
  nextWorker : Nat := 0
  /-- What became of items, the latest first. -/
  fates : List Fate := []

namespace Backlog

/-- No items and no workers. -/
def new (batchSize maxRetries : Nat) : Backlog where
  queue := .new batchSize maxRetries

/-- Adds an item to the queue. -/
def push (b : Backlog) (now : Nat) (key : CacheKey) (value : Json) (persist : Persist) :
    Backlog :=
  { b with queue := b.queue.push now key value persist }

/-- Starts a worker, which takes no step yet. -/
def start (b : Backlog) (w : Worker) : Nat × Backlog :=
  (b.nextWorker, { b with
    workers := b.workers.insert b.nextWorker w
    nextWorker := b.nextWorker + 1 })

/-- Puts the outcome of a worker's steps in place. -/
def put (b : Backlog) (id : Nat) (outcome : Queue × Worker × List Fate) : Backlog :=
  { b with
    queue := outcome.1
    workers := b.workers.insert id outcome.2.1
    fates := outcome.2.2.reverse ++ b.fates }

/-- One step of a worker. -/
def step (b : Backlog) (now id : Nat) : Backlog :=
  match b.workers.get? id with
  | some w => b.put id (w.step now b.queue)
  | none => b

/-- The steps of a worker up to its next wait. -/
def resume (b : Backlog) (now id : Nat) : Backlog :=
  match b.workers.get? id with
  | some w => b.put id (w.resume now b.queue)
  | none => b

/-- Gives a worker up where it stands. -/
def cancel (b : Backlog) (id : Nat) : Backlog :=
  match b.workers.get? id with
  | some w => { b with
      queue := w.cancel b.queue
      workers := b.workers.erase id
      fates := (w.inFlight.map .lost).reverse ++ b.fates }
  | none => b

/-- The report of a worker that has ended. -/
def report? (b : Backlog) (id : Nat) : Option Report :=
  (b.workers.get? id).bind Worker.report?

/-- Forgets a worker if it has ended. -/
def collect (b : Backlog) (id : Nat) : Backlog :=
  if (b.report? id).isSome then { b with workers := b.workers.erase id } else b

/-- The time until which a worker waits. -/
def wait? (b : Backlog) (id : Nat) : Option Nat :=
  (b.workers.get? id).bind Worker.wait?

/-- Whether a worker can go on at `now`. -/
def isReady (b : Backlog) (now id : Nat) : Bool :=
  (b.workers.get? id).any (Worker.isReady now)

/-- What can happen to the queue. -/
inductive Action where
  | push (key : CacheKey) (value : Json) (persist : Persist)
  | startDrain
  | startFlush
  /-- One step of a worker, whether or not the time it waits for has come. -/
  | step (id : Nat)
  /-- The steps of a worker up to its next wait. -/
  | resume (id : Nat)
  | cancel (id : Nat)
  | collect (id : Nat)

/-- What an action does at the time `now`. -/
def act (now : Nat) (b : Backlog) : Action → Backlog
  | .push key value persist => b.push now key value persist
  | .startDrain => (b.start .newDrain).2
  | .startFlush => (b.start .newFlush).2
  | .step id => b.step now id
  | .resume id => b.resume now id
  | .cancel id => b.cancel id
  | .collect id => b.collect id

/-- A run: what happens, and when. -/
def run (b : Backlog) (actions : List (Nat × Action)) : Backlog :=
  actions.foldl (fun b a => act a.1 b a.2) b

end Backlog
end CacheDepot.WriteBehind
