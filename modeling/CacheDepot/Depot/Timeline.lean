import CacheDepot.Depot.Action

/-!
# Depots in time

The clock moves only while someone waits. Whatever is due is done before the clock moves on, and
the clock moves straight to the next time at which something is due.
-/

namespace CacheDepot

/-- A depot and the time it is. -/
structure Timeline where
  /-- Milliseconds since the Unix epoch. -/
  now : Nat
  depot : Depot

namespace Depot

/-- The time at which a waiting task can go on, where that is a matter of time. -/
def taskDue? (d : Depot) : Task → Option Nat
  | .loading _ _ _ _ due | .persisting _ _ _ _ _ due | .reloading _ _ _ _ due => some due
  | .awaiting worker | .flushing worker | .draining worker => d.backlog.wait? worker
  | .caching _ _ _ _ | .stopping _ | .clearing _ _ | .reloadReady _ _ _ _ | .storing _ _ _ _
  | .ended _ => none

/-- The time at which the timed drain goes on. -/
def timerDue? (d : Depot) : Option Nat :=
  d.drainTimer.bind fun timer =>
    match timer.worker with
    | some worker => d.backlog.wait? worker
    | none => timer.ticker.due?

/-- All times at which something is due. -/
def dueTimes (d : Depot) : List Nat :=
  d.tasks.bindings.filterMap (fun b => d.taskDue? b.2) ++ d.timerDue?.toList ++
    d.registry.toList.filterMap fun b => b.2.sweeper.bind Ticker.due?

/-- The next time after `now` at which something is due. -/
def nextDue? (d : Depot) (now : Nat) : Option Nat :=
  (d.dueTimes.filter (now < ·)).min?

/-- Something that can happen at `now` without anybody's asking. -/
def readyAction? (d : Depot) (now : Nat) : Option Action :=
  match d.tasks.bindings.find? fun b => d.isReady now b.2 with
  | some b => some (.resume b.1)
  | none =>
    if d.timerReady now then some .drainTimer
    else
      (d.registry.toList.find? fun b =>
        (b.2.sweeper.bind Ticker.due?).any (· ≤ now)).map fun b => .sweep b.1

/-- Does what can happen at `now`, as often as the fuel allows. -/
def settleWith (d : Depot) (now : Nat) : Nat → Depot
  | 0 => d
  | fuel + 1 =>
    match d.readyAction? now with
    | some action => settleWith (act now d action) now fuel
    | none => d

/-- More actions than can happen at one moment: every task comes to its next wait in a few, and
ticks that are overdue can be counted. -/
def settleFuel (d : Depot) (now : Nat) : Nat :=
  let tickers := d.drainTimer.toList.map DrainTimer.ticker ++
    d.registry.toList.filterMap fun b => b.2.sweeper
  let overdue := tickers.foldl (fun n t => n + t.overdue now) 0
  4 * (d.tasks.size + 2 * overdue + 4)

/-- Does everything that can happen at `now`. -/
def settle (d : Depot) (now : Nat) : Depot := d.settleWith now (d.settleFuel now)

end Depot

namespace Timeline

/-- Does everything that can happen now. -/
def settle (t : Timeline) : Timeline := { t with depot := t.depot.settle t.now }

/-- Lets time pass up to `target`; everything due by then happens at its time. -/
def passTo (target now : Nat) (d : Depot) : Depot :=
  match d.nextDue? now with
  | some due =>
    if now < due ∧ due ≤ target then passTo target due (d.settle due) else d
  | none => d
termination_by target - now
decreasing_by omega

/-- The time after a wait of this length, which ends at a whole millisecond. -/
def timeAfter (t : Timeline) (d : Duration) : Nat := waitEnd t.now (timerMillis d.nanos)

/-- Lets time pass until a time, unless it has come. -/
def waitUntil (t : Timeline) (time : Nat) : Timeline where
  now := max t.now time
  depot := passTo time t.now t.depot

/-- Lets a length of time pass. -/
def advance (t : Timeline) (d : Duration) : Timeline := t.waitUntil (t.timeAfter d)

/-- The answer of a task that has ended. -/
def answer? (t : Timeline) (id : Nat) : Option Answer :=
  match t.depot.tasks.get? id with
  | some (.ended answer) => some answer
  | _ => none

/-- The largest number of moments that anybody waits for. -/
def maxMoments : Nat := 1000000000000

/-- Lets time pass until a task has ended or nothing is due any more. -/
def waitWith (t : Timeline) (id : Nat) : Nat → Timeline
  | 0 => t
  | fuel + 1 =>
    if (t.answer? id).isSome then t
    else match t.depot.nextDue? t.now with
      | some due => waitWith { now := due, depot := t.depot.settle due } id fuel
      | none => t

/-- Lets time pass until a task has ended. -/
def wait (t : Timeline) (id : Nat) : Timeline := t.waitWith id maxMoments

/-- Starts an operation and does everything that can happen at once. -/
def submit (t : Timeline) (operation : Operation) : Nat × Timeline :=
  let (id, depot) := t.depot.submit t.now operation
  (id, { t with depot }.settle)

/-- Does something that needs no waiting, and then everything that can happen at once. -/
def atOnce {α : Type} (t : Timeline) (f : Nat → Depot → α × Depot) : α × Timeline :=
  let (result, depot) := f t.now t.depot
  (result, { t with depot }.settle)

/-- Forgets a task that has ended. -/
def collect (t : Timeline) (id : Nat) : Timeline :=
  match t.depot.tasks.get? id with
  | some (.ended _) => { t with depot := t.depot.dropTask id }
  | _ => t

/-- Carries an operation out and waits for its answer. -/
def perform (t : Timeline) (operation : Operation) : Option Answer × Timeline :=
  let (id, t) := t.submit operation
  let t := t.wait id
  (t.answer? id, t.collect id)

/-- Gives an operation up unless it has ended. -/
def abort (t : Timeline) (id : Nat) : Timeline :=
  { t with depot := t.depot.abort id }.settle

/-- The calls recorded so far, in order, and a depot that has forgotten them. -/
def takeJournal (t : Timeline) : List Event × Timeline :=
  (t.depot.journal.reverse, { t with depot := { t.depot with journal := [] } })

end Timeline
end CacheDepot
