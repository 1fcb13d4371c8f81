import CacheDepot.Duration

/-!
# Periodic tasks

A task that does something at a fixed interval, the first time one interval after its start. A
tick that begins more than 5 ms after it was due puts the next one a whole interval after itself;
otherwise the next is due one interval after this one was due. From one tick to the next it is
never longer than the longest wait, however long the interval. Stopping a task breaks off a tick
in progress, and shutting it down lets the tick finish first. Moments are in nanoseconds here;
the clock shows whole milliseconds.
-/

namespace CacheDepot

/-- What a periodic task is at. -/
inductive TickerPhase where
  /-- The next tick is due at this moment. -/
  | waiting (due : Nat)
  /-- A tick is in progress, and the next one is due at this moment. -/
  | ticking (next : Nat)
  | ended
  deriving DecidableEq, Repr

/-- A periodic task. -/
structure Ticker where
  name : String
  interval : Duration
  /-- Whether it was neither stopped nor shut down. -/
  held : Bool := true
  /-- Whether it was asked to end after the tick in progress. -/
  stopping : Bool := false
  phase : TickerPhase
  deriving DecidableEq, Repr

namespace Ticker

/-- How late a tick may begin without moving the ticks after it. -/
def tolerance : Nat := 5 * nanosPerMilli

/-- Starts a task at the time `now`. Without an interval it ends at once. -/
def start (now : Nat) (name : String) (interval : Duration) : Ticker where
  name
  interval
  phase := if interval.isZero then .ended else .waiting (now * nanosPerMilli + interval.nanos)

/-- The time of the clock at which the next tick begins. -/
def due? (t : Ticker) : Option Nat :=
  match t.phase with
  | .waiting due => some (timerMillis due)
  | _ => none

/-- Whether a tick is in progress. -/
def isTicking (t : Ticker) : Bool :=
  match t.phase with
  | .ticking _ => true
  | _ => false

/-- The time from one tick to the next. -/
def stride (t : Ticker) : Nat := min t.interval.nanos (longestWait * nanosPerMilli)

/-- When the tick after one that was due at `due` and begins at `now` is due. -/
def nextDue (t : Ticker) (now due : Nat) : Nat :=
  if due + tolerance < now * nanosPerMilli then now * nanosPerMilli + t.stride
  else due + t.stride

/-- Begins the tick that is due at the time `now`, if there is one. -/
def beginTick? (t : Ticker) (now : Nat) : Option Ticker :=
  match t.phase with
  | .waiting due =>
    if due ≤ now * nanosPerMilli then some { t with phase := .ticking (t.nextDue now due) }
    else none
  | _ => none

/-- Ends the tick in progress. -/
def endTick (t : Ticker) : Ticker :=
  match t.phase with
  | .ticking next => { t with phase := if t.stopping then .ended else .waiting next }
  | _ => t

/-- Ends the task and breaks off a tick in progress. -/
def stop (t : Ticker) : Ticker :=
  if t.held then { t with held := false, phase := .ended } else t

/-- Asks the task to end; a tick in progress goes on. -/
def shutDown (t : Ticker) : Ticker :=
  if t.held then
    { t with
      held := false
      stopping := true
      phase := if t.isTicking then t.phase else .ended }
  else t

/-- Whether the task goes on ticking. -/
def isRunning (t : Ticker) : Bool := t.held && t.phase ≠ .ended

/-- The number of ticks that are due at the time `now`, at most. After a long tick these are the
ticks that it held up. -/
def overdue (t : Ticker) (now : Nat) : Nat :=
  match t.phase with
  | .waiting due | .ticking due =>
    if due ≤ now * nanosPerMilli then (now * nanosPerMilli - due) / t.stride + 1 else 0
  | .ended => 0

end Ticker
end CacheDepot
