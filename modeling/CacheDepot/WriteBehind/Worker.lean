import CacheDepot.WriteBehind.Queue

/-!
# Drains and flushes as machines

A drain and a flush share the queue with others that push and drain. Each is a machine whose
steps touch the shared state at most once, so every interleaving of several of them is an
interleaving of steps. Two stages wait: for the attempts of a batch, and between two looks at a
drain that someone else runs.
-/

namespace CacheDepot.WriteBehind

/-- What a drain does next. -/
inductive DrainStage where
  /-- Raise the flag, unless it is up. -/
  | claiming
  /-- Take a batch. -/
  | taking
  /-- Wait until all attempts are over, which is at the time `due`. -/
  | attempting (batch : List Item) (due : Nat)
  /-- Put failed items back, in the order of the batch. -/
  | settling (batch : List Item)
  /-- Lower the flag. -/
  | releasing (report : Report)
  | done (report : Report)

/-- What a flush does next. -/
inductive FlushStage where
  | readingFlag (total : Report)
  | readingItems (total : Report)
  | draining (total : Report) (stage : DrainStage)
  /-- Wait for a drain that someone else runs. -/
  | pausing (total : Report) (due : Nat)
  | done (total : Report)

/-- A drain or a flush. -/
inductive Worker where
  | drain (stage : DrainStage)
  | flush (stage : FlushStage)

/-- Milliseconds between two looks at a drain that someone else runs. -/
def pollInterval : Nat := 5

namespace DrainStage

/-- The time until which a drain waits. -/
def wait? : DrainStage → Option Nat
  | .attempting _ due => some due
  | _ => none

/-- Whether the drain has raised the flag and not lowered it. -/
def holdsFlag : DrainStage → Bool
  | .taking | .attempting _ _ | .settling _ | .releasing _ => true
  | .claiming | .done _ => false

/-- The items that a drain has taken and not settled. -/
def inFlight : DrainStage → List Item
  | .attempting batch _ | .settling batch => batch
  | _ => []

/-- When the attempts of a batch begun at `now` are over. -/
def batchDue (now : Nat) (batch : List Item) : Nat :=
  batch.foldl (fun due item => max due (waitEnd now item.nextAttempt.delay)) now

/-- One step of a drain. Attempts that end earlier are recorded earlier. -/
def step (now : Nat) (q : Queue) : DrainStage → Queue × DrainStage × List Fate
  | .claiming =>
    if q.draining then (q, .done { skipped := true }, [])
    else ({ q with draining := true }, .taking, [])
  | .taking =>
    let batch := q.batch
    if batch.isEmpty then (q, .releasing {}, [])
    else (q.dropBatch, .attempting batch (batchDue now batch), batch.map .attempted)
  | .attempting batch _ => (q, .settling batch, [])
  | .settling batch =>
    let fates := batch.map q.judge
    (q.requeue (Queue.retries fates), .releasing (Queue.tally fates),
      (Queue.byEnd batch).map q.judge)
  | .releasing report => ({ q with draining := false }, .done report, [])
  | .done report => (q, .done report, [])

end DrainStage

namespace FlushStage

/-- The stage after a drain of the flush has come to `stage`. -/
def afterDrain (now : Nat) (total : Report) : DrainStage → FlushStage
  | .done report =>
    if report.skipped then .pausing total (now + pollInterval)
    else .readingFlag (total.add report)
  | stage => .draining total stage

/-- One step of a flush. It looks at the flag first: a drain puts items back before it lowers
the flag. -/
def step (now : Nat) (q : Queue) : FlushStage → Queue × FlushStage × List Fate
  | .readingFlag total =>
    (q, if q.draining then .draining total .claiming else .readingItems total, [])
  | .readingItems total =>
    (q, if q.items.isEmpty then .done total else .draining total .claiming, [])
  | .draining total stage =>
    let (q, stage, fates) := stage.step now q
    (q, afterDrain now total stage, fates)
  | .pausing total _ => (q, .readingFlag total, [])
  | .done total => (q, .done total, [])

end FlushStage

namespace Worker

/-- A drain before its first step. -/
def newDrain : Worker := .drain .claiming

/-- A flush before its first step. -/
def newFlush : Worker := .flush (.readingFlag {})

/-- The drain that is running, on its own or inside a flush. -/
def drainStage? : Worker → Option DrainStage
  | .drain stage => some stage
  | .flush (.draining _ stage) => some stage
  | .flush _ => none

/-- The time until which a worker waits. -/
def wait? : Worker → Option Nat
  | .drain stage => stage.wait?
  | .flush (.draining _ stage) => stage.wait?
  | .flush (.pausing _ due) => some due
  | .flush _ => none

/-- The report of a worker that has ended. -/
def report? : Worker → Option Report
  | .drain (.done report) => some report
  | .flush (.done report) => some report
  | _ => none

/-- Whether a worker has raised the flag and not lowered it. -/
def holdsFlag (w : Worker) : Bool := w.drainStage?.any DrainStage.holdsFlag

/-- The items that a worker has taken and not settled. -/
def inFlight (w : Worker) : List Item := (w.drainStage?.map DrainStage.inFlight).getD []

/-- Whether a worker can go on at `now`. -/
def isReady (now : Nat) (w : Worker) : Bool :=
  w.report?.isNone && w.wait?.all (· ≤ now)

/-- One step of a worker. -/
def step (now : Nat) (q : Queue) : Worker → Queue × Worker × List Fate
  | .drain stage =>
    let (q, stage, fates) := stage.step now q
    (q, .drain stage, fates)
  | .flush stage =>
    let (q, stage, fates) := stage.step now q
    (q, .flush stage, fates)

/-- The steps of a worker up to its next wait. -/
def run (now : Nat) (q : Queue) (w : Worker) : Nat → Queue × Worker × List Fate
  | 0 => (q, w, [])
  | fuel + 1 =>
    if w.isReady now then
      let (q, w, fates) := w.step now q
      let (q, w, more) := run now q w fuel
      (q, w, fates ++ more)
    else (q, w, [])

/-- More steps than a worker takes up to its next wait: each round of a flush takes at most seven
and uses up an attempt of an item. -/
def patience (q : Queue) (w : Worker) : Nat :=
  7 * q.totalAttemptsLeft (q.items ++ w.inFlight) + 14

/-- Runs a worker up to its next wait. -/
def resume (now : Nat) (q : Queue) (w : Worker) : Queue × Worker × List Fate :=
  run now q w (patience q w)

/-- Gives a worker up where it stands. The flag is lowered if the worker had raised it; what it
had taken is lost. -/
def cancel (q : Queue) (w : Worker) : Queue :=
  if w.holdsFlag then { q with draining := false } else q

end Worker
end CacheDepot.WriteBehind
