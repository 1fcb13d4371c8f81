import CacheDepot.Assoc
import CacheDepot.Ticker

/-!
# Periodic tasks in time

Periodic tasks whose ticks take known times, under one clock. The clock moves while someone
waits, from one moment at which something is due to the next, and ticks are recorded as they
begin and end.
-/

namespace CacheDepot

/-- A periodic task and what its ticks take. -/
structure PeriodicTask where
  ticker : Ticker
  /-- Milliseconds that each tick takes. Ticks beyond the last described one go like it; without
  any description they take no time. -/
  lengths : List Nat := []
  /-- The number of ticks begun. -/
  begun : Nat := 0
  /-- When the tick in progress ends. -/
  busyUntil : Option Nat := none
  deriving DecidableEq, Repr

/-- Something that a tick does. The end of a tick that takes no time is not worth a record. -/
inductive TickEvent where
  | began (index time : Nat)
  | ended (index time : Nat)
  deriving DecidableEq, Repr

namespace PeriodicTask

/-- Starts a task at the time `now`. -/
def start (now : Nat) (name : String) (interval : Duration) (lengths : List Nat) :
    PeriodicTask where
  ticker := .start now name interval
  lengths

/-- How long the tick with this number takes. -/
def tickLength (t : PeriodicTask) (index : Nat) : Nat :=
  (t.lengths[index]?.or t.lengths.getLast?).getD 0

/-- The time at which the task goes on. -/
def due? (t : PeriodicTask) : Option Nat :=
  match t.busyUntil with
  | some time => some time
  | none => t.ticker.due?

/-- What the task does next at the time `now`, if it can go on. -/
def step? (t : PeriodicTask) (now : Nat) : Option (PeriodicTask × List TickEvent) :=
  match t.busyUntil with
  | some time =>
    if time ≤ now then
      some ({ t with ticker := t.ticker.endTick, busyUntil := none }, [.ended (t.begun - 1) now])
    else none
  | none =>
    (t.ticker.beginTick? now).map fun ticker =>
      let length := t.tickLength t.begun
      let began : PeriodicTask := { t with begun := t.begun + 1 }
      (if length = 0 then { began with ticker := ticker.endTick }
        else { began with ticker, busyUntil := some (waitEnd now length) }, [.began t.begun now])

/-- As many steps at one moment as the fuel allows, and what they record. -/
def settleWith (t : PeriodicTask) (now : Nat) : Nat → PeriodicTask × List TickEvent
  | 0 => (t, [])
  | fuel + 1 =>
    match t.step? now with
    | some (t, events) =>
      let (t, more) := settleWith t now fuel
      (t, events ++ more)
    | none => (t, [])

/-- More steps than the task can take at one moment: the end of a tick and the overdue ticks. -/
def settleFuel (t : PeriodicTask) (now : Nat) : Nat :=
  t.ticker.overdue now + 2

/-- Everything the task can do at the time `now`, and what is recorded of it. -/
def settle (t : PeriodicTask) (now : Nat) : PeriodicTask × List TickEvent :=
  t.settleWith now (t.settleFuel now)

/-- Ends the task and breaks off a tick in progress. -/
def stop (t : PeriodicTask) : PeriodicTask :=
  if t.ticker.held then { t with ticker := t.ticker.stop, busyUntil := none } else t

/-- Asks the task to end; a tick in progress goes on. -/
def shutDown (t : PeriodicTask) : PeriodicTask := { t with ticker := t.ticker.shutDown }

end PeriodicTask

/-- Periodic tasks by name, the time it is, and the record of their ticks. -/
structure Schedule where
  now : Nat
  tasks : Assoc String PeriodicTask := .empty
  /-- Names and ticks, the latest first. -/
  record : List (String × TickEvent) := []

namespace Schedule

/-- Lets one task do what it can do at the time `now`, and records it. -/
def settleTask (now : Nat)
    (state : Assoc String PeriodicTask × List (String × TickEvent)) (name : String) :
    Assoc String PeriodicTask × List (String × TickEvent) :=
  match state.1.get? name with
  | some task =>
    let (task, events) := task.settle now
    (state.1.insert name task, (events.map fun e => (name, e)).reverse ++ state.2)
  | none => state

/-- Lets every task do what it can do now. -/
def settle (s : Schedule) : Schedule :=
  let settled := s.tasks.keys.foldl (settleTask s.now) (s.tasks, s.record)
  { s with tasks := settled.1, record := settled.2 }

@[simp] theorem settle_now (s : Schedule) : s.settle.now = s.now := rfl

/-- The next time after now at which something is due. -/
def nextDue? (s : Schedule) : Option Nat :=
  ((s.tasks.bindings.filterMap fun b => b.2.due?).filter (s.now < ·)).min?

/-- Lets time pass up to `target`; everything due by then happens at its time. -/
def passTo (target : Nat) (s : Schedule) : Schedule :=
  match s.nextDue? with
  | some due =>
    if s.now < due ∧ due ≤ target then passTo target { s with now := due }.settle
    else { s with now := target }
  | none => { s with now := target }
termination_by target - s.now
decreasing_by
  simp only [settle_now]
  omega

/-- Lets a length of time pass, up to a whole millisecond. -/
def advance (s : Schedule) (d : Duration) : Schedule :=
  s.passTo (waitEnd s.now (timerMillis d.nanos))

/-- Starts a task, in place of an older one of its name. -/
def start (s : Schedule) (name : String) (interval : Duration) (lengths : List Nat) : Schedule :=
  { s with tasks := s.tasks.insert name (.start s.now name interval lengths) }.settle

/-- Does something to a task, if there is one of this name. -/
def onTask (s : Schedule) (name : String) (f : PeriodicTask → PeriodicTask) : Schedule :=
  match s.tasks.get? name with
  | some task => { s with tasks := s.tasks.insert name (f task) }
  | none => s

/-- Ends a task and breaks off a tick in progress. -/
def stop (s : Schedule) (name : String) : Schedule := s.onTask name PeriodicTask.stop

/-- Drops a task, which ends it. -/
def drop (s : Schedule) (name : String) : Schedule := { s with tasks := s.tasks.erase name }

/-- Asks a task to end and waits for a tick in progress. -/
def shutDown (s : Schedule) (name : String) : Schedule :=
  match s.tasks.get? name with
  | some task =>
    let s' := s.onTask name PeriodicTask.shutDown
    match task.busyUntil with
    | some time => if task.ticker.held then s'.passTo time else s'
    | none => s'
  | none => s

/-- The ticks recorded so far, in order, and a schedule that has forgotten them. -/
def takeRecord (s : Schedule) : List (String × TickEvent) × Schedule :=
  (s.record.reverse, { s with record := [] })

end Schedule
end CacheDepot
