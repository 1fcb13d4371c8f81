import CacheDepot.Proofs.Depot.Periodic
import CacheDepot.Ticker.Schedule

/-!
# What a periodic task records

A periodic task goes on in turns. At each turn it may do one thing that it can do by then, or
somebody ends it, and no turn has to come on time. Whenever the turns come, the record keeps to
the schedule: no tick begins before it is due or before the one before it has ended.
-/

namespace CacheDepot

namespace Ticker

variable {t t' : Ticker} {now : Nat}

/-- Whether the ticks of a task come an interval apart: after a tick that begins late, an interval
after its beginning, and otherwise an interval after it was due. -/
def Delays (t : Ticker) : Prop :=
  ∀ now due, t.nextDue now due =
    if due + tolerance < now * nanosPerMilli then now * nanosPerMilli + t.interval.nanos
    else due + t.interval.nanos

theorem Delays.stride_eq (h : t.Delays) : t.stride = t.interval.nanos := by
  have punctual := h 0 0
  simp only [nextDue, Nat.zero_mul, Nat.not_lt_zero, if_false, Nat.zero_add] at punctual
  exact punctual

theorem delays_of_le (short : t.interval.nanos ≤ longestWait * nanosPerMilli) : t.Delays := by
  intro now due
  rw [nextDue, stride, Nat.min_eq_left short]

theorem le_nextDue (t : Ticker) (now due : Nat) :
    now * nanosPerMilli + t.stride ≤ t.nextDue now due + tolerance := by
  unfold nextDue
  split <;> omega

theorem beginTick?_eq_some_iff :
    t.beginTick? now = some t' ↔ ∃ due, t.phase = .waiting due ∧ due ≤ now * nanosPerMilli ∧
      t' = { t with phase := .ticking (t.nextDue now due) } := by
  rw [beginTick?]
  cases t.phase with
  | waiting due => simp [eq_comm]
  | ticking next => simp
  | ended => simp

theorem endTick_of_ticking {next : Nat} (ticking : t.phase = .ticking next) :
    t.endTick = { t with phase := if t.stopping then .ended else .waiting next } := by
  rw [endTick, ticking]

end Ticker

/-! ## Records -/

/-- The number of the next tick after a record, the latest event first. -/
def numberAfter : List TickEvent → Nat
  | [] => 0
  | .began index _ :: _ => index + 1
  | .ended index _ :: _ => index + 1

/-- The moment before which no tick begins after a record, the latest event first: the first tick
waits for a moment of its own, and the others for a length of time after the one before them
began, less 5 ms. -/
def earliestAfter (first gap : Nat) : List TickEvent → Nat
  | [] => first
  | .began _ time :: _ => time * nanosPerMilli + gap - Ticker.tolerance
  | .ended _ _ :: past => earliestAfter first gap past

/-- The tick that is in progress after a record, the latest event first, and when it ends. The
ticks take `length`. -/
def inProgress? (length : Nat → Nat) : List TickEvent → Option (Nat × Nat)
  | .began index time :: _ =>
    if length index = 0 then none else some (index, waitEnd time (length index))
  | _ => none

/-- Whether the last event of a record, the latest event first, happened by `now`. -/
def PastBy (now : Nat) : List TickEvent → Prop
  | [] => True
  | .began _ time :: _ => time ≤ now
  | .ended _ time :: _ => time ≤ now

/-- The records that keep to a schedule, the latest event first. Ticks are numbered as they begin.
None begins early or while another one is in progress, and the end of one that takes time is
recorded at most once, after its whole length. -/
inductive Orderly (length : Nat → Nat) (first gap : Nat) : List TickEvent → Prop where
  | nothing : Orderly length first gap []
  | began {past : List TickEvent} {time : Nat} (orderly : Orderly length first gap past)
      (rests : inProgress? length past = none) (later : PastBy time past)
      (due : earliestAfter first gap past ≤ time * nanosPerMilli) :
      Orderly length first gap (.began (numberAfter past) time :: past)
  | ended {past : List TickEvent} {index close time : Nat} (orderly : Orderly length first gap past)
      (ticks : inProgress? length past = some (index, close)) (whole : close ≤ time) :
      Orderly length first gap (.ended index time :: past)

theorem PastBy.mono {now time : Nat} {past : List TickEvent} (h : PastBy now past)
    (later : now ≤ time) : PastBy time past := by
  cases past with
  | nil => trivial
  | cons event _ => cases event <;> exact Nat.le_trans h later

theorem numberAfter_of_inProgress? {length : Nat → Nat} {past : List TickEvent} {index close : Nat}
    (ticks : inProgress? length past = some (index, close)) : numberAfter past = index + 1 := by
  cases past with
  | nil => cases ticks
  | cons event past =>
    cases event with
    | began number time =>
      simp only [inProgress?] at ticks
      split at ticks
      · cases ticks
      · cases ticks
        rfl
    | ended number time => cases ticks

/-! ## Turns -/

/-- What can happen to a periodic task: it does the next thing that it can do, or somebody ends
it. -/
inductive TaskTurn where
  | proceed
  | stop
  | shutDown
  | drop
  deriving DecidableEq, Repr

/-- Whether turns come in the order of time, between `now` and `last`. -/
def InTime : Nat → List (Nat × TaskTurn) → Nat → Prop
  | now, [], last => now ≤ last
  | now, turn :: turns, last => now ≤ turn.1 ∧ InTime turn.1 turns last

theorem InTime.le {now last : Nat} {turns : List (Nat × TaskTurn)} (h : InTime now turns last) :
    now ≤ last := by
  induction turns generalizing now with
  | nil => exact h
  | cons turn turns ih => exact Nat.le_trans h.1 (ih h.2)

theorem InTime.mem_le {now last : Nat} {turns : List (Nat × TaskTurn)} (h : InTime now turns last)
    {turn : Nat × TaskTurn} (member : turn ∈ turns) : turn.1 ≤ last := by
  induction turns generalizing now with
  | nil => cases member
  | cons head turns ih =>
    rcases List.mem_cons.mp member with rfl | member
    · exact h.2.le
    · exact ih h.2 member

theorem inTime_append {now last : Nat} {turns more : List (Nat × TaskTurn)} :
    InTime now (turns ++ more) last ↔ ∃ between, InTime now turns between ∧
      InTime between more last := by
  induction turns generalizing now with
  | nil =>
    refine ⟨fun h => ⟨now, Nat.le_refl _, h⟩, ?_⟩
    rintro ⟨between, early, h⟩
    cases more with
    | nil => exact Nat.le_trans early h
    | cons turn more => exact ⟨Nat.le_trans early h.1, h.2⟩
  | cons turn turns ih => simp only [List.cons_append, InTime, ih, and_assoc, exists_and_left]

theorem inTime_replicate (now fuel : Nat) (turn : TaskTurn) :
    InTime now (List.replicate fuel (now, turn)) now := by
  induction fuel with
  | zero => exact Nat.le_refl now
  | succ fuel ih => exact ⟨Nat.le_refl now, ih⟩

namespace PeriodicTask

variable {t t' : PeriodicTask} {now : Nat} {events : List TickEvent}

/-- What a turn does to a task, and what is recorded of it. -/
def act (t : PeriodicTask) (now : Nat) : TaskTurn → PeriodicTask × List TickEvent
  | .proceed => (t.step? now).getD (t, [])
  | .shutDown => (t.shutDown, [])
  | .stop => (t.stop, [])
  | .drop => (t.stop, [])

/-- A task and its record, the latest event first, after a turn. -/
def take (state : PeriodicTask × List TickEvent) (turn : Nat × TaskTurn) :
    PeriodicTask × List TickEvent :=
  ((state.1.act turn.1 turn.2).1, (state.1.act turn.1 turn.2).2.reverse ++ state.2)

/-- A task and its record, the latest event first, after turns. -/
def run (state : PeriodicTask × List TickEvent) (turns : List (Nat × TaskTurn)) :
    PeriodicTask × List TickEvent :=
  turns.foldl take state

@[simp] theorem run_nil (state : PeriodicTask × List TickEvent) : run state [] = state := rfl

@[simp] theorem run_cons (state : PeriodicTask × List TickEvent) (turn : Nat × TaskTurn)
    (turns : List (Nat × TaskTurn)) : run state (turn :: turns) = run (take state turn) turns := rfl

theorem run_cons_of_act {turn : TaskTurn} (acts : t.act now turn = (t', events))
    (record : List TickEvent) (turns : List (Nat × TaskTurn)) :
    run (t, record) ((now, turn) :: turns) = run (t', events.reverse ++ record) turns := by
  rw [run_cons, take, acts]

theorem run_append (state : PeriodicTask × List TickEvent) (turns more : List (Nat × TaskTurn)) :
    run state (turns ++ more) = run (run state turns) more :=
  List.foldl_append

/-- What was recorded before makes no difference to a run. -/
theorem run_append_record (t : PeriodicTask) (record base : List TickEvent)
    (turns : List (Nat × TaskTurn)) :
    run (t, record ++ base) turns =
      ((run (t, record) turns).1, (run (t, record) turns).2 ++ base) := by
  induction turns generalizing t record with
  | nil => rfl
  | cons turn turns ih =>
    rw [run_cons, run_cons, take, take, ← List.append_assoc]
    exact ih _ _

/-- The end of the tick in progress. -/
def finish (t : PeriodicTask) : PeriodicTask :=
  { t with ticker := t.ticker.endTick, busyUntil := none }

/-- A tick that begins at the time `now` and puts the next one at `next`. One that takes no time
has ended as well. -/
def begin (t : PeriodicTask) (now next : Nat) : PeriodicTask :=
  let began := { t with begun := t.begun + 1, ticker.phase := .ticking next }
  if t.tickLength t.begun = 0 then began.finish
  else { began with busyUntil := some (waitEnd now (t.tickLength t.begun)) }

/-- A task goes on by ending the tick in progress, or else by beginning a tick that is due. -/
theorem step?_eq_some_iff :
    t.step? now = some (t', events) ↔
      (∃ close, t.busyUntil = some close ∧ close ≤ now ∧ t' = t.finish ∧
        events = [.ended (t.begun - 1) now]) ∨
      (t.busyUntil = none ∧ ∃ due, t.ticker.phase = .waiting due ∧ due ≤ now * nanosPerMilli ∧
        t' = t.begin now (t.ticker.nextDue now due) ∧ events = [.began t.begun now]) := by
  rw [step?]
  cases busy : t.busyUntil with
  | some close =>
    by_cases reached : close ≤ now
    · simp [reached, finish, eq_comm]
    · simp [reached]
  | none =>
    simp only [Option.map_eq_some_iff, Ticker.beginTick?_eq_some_iff, Prod.mk.injEq]
    constructor
    · rintro ⟨ticker, ⟨due, phase, reached, rfl⟩, rfl, rfl⟩
      exact .inr ⟨trivial, due, phase, reached, rfl, rfl⟩
    · rintro (⟨close, busy', -⟩ | ⟨-, due, phase, reached, rfl, rfl⟩)
      · cases busy'
      · exact ⟨_, ⟨due, phase, reached, rfl⟩, rfl, rfl⟩

/-- How a task stands after a record at the time `now`: it waits for the next tick, it is in the
middle of one, or it is over. -/
inductive Stands (length : Nat → Nat) (first gap now : Nat) (t : PeriodicTask)
    (record : List TickEvent) : Prop where
  | waits (due : Nat) (phase : t.ticker.phase = .waiting due) (idle : t.busyUntil = none)
      (held : t.ticker.held = true) (lasting : t.ticker.stopping = false)
      (rests : inProgress? length record = none) (number : t.begun = numberAfter record)
      (past : PastBy now record) (bound : earliestAfter first gap record ≤ due)
  | ticks (next index close : Nat) (phase : t.ticker.phase = .ticking next)
      (busy : t.busyUntil = some close) (stopping : t.ticker.stopping = !t.ticker.held)
      (running : inProgress? length record = some (index, close))
      (number : t.begun = numberAfter record) (bound : earliestAfter first gap record ≤ next)
  | ended (phase : t.ticker.phase = .ended) (idle : t.busyUntil = none)
      (dropped : t.ticker.held = false)

/-- Whether a task and its record are what `task` may have come to by the time `now`. -/
structure Tracks (task : PeriodicTask) (first now : Nat) (t : PeriodicTask)
    (record : List TickEvent) : Prop where
  lengths : t.lengths = task.lengths
  interval : t.ticker.interval = task.ticker.interval
  orderly : Orderly task.tickLength first task.ticker.stride record
  stands : Stands task.tickLength first task.ticker.stride now t record

namespace Tracks

variable {task : PeriodicTask} {first time : Nat} {record : List TickEvent}

theorem finish (h : Tracks task first now t record) {close : Nat}
    (busy : t.busyUntil = some close) (reached : close ≤ time) :
    Tracks task first time t.finish (.ended (t.begun - 1) time :: record) := by
  cases h.stands with
  | waits _ _ idle => cases idle.symm.trans busy
  | ended _ idle => cases idle.symm.trans busy
  | ticks next index _ phase busy' stopping running number bound =>
    cases busy'.symm.trans busy
    have last : t.begun - 1 = index := by rw [number, numberAfter_of_inProgress? running]; rfl
    rw [last]
    have ended := Ticker.endTick_of_ticking phase
    refine ⟨h.lengths, ?_, h.orderly.ended running reached, ?_⟩
    · rw [PeriodicTask.finish, ended]
      exact h.interval
    cases held : t.ticker.held with
    | false =>
      rw [held] at stopping
      refine .ended ?_ rfl ?_ <;> simp [PeriodicTask.finish, ended, stopping, held]
    | true =>
      rw [held] at stopping
      refine .waits next ?_ rfl ?_ ?_ rfl ?_ (Nat.le_refl _) bound
      · simp [PeriodicTask.finish, ended, stopping]
      · simp [PeriodicTask.finish, ended, held]
      · simp [PeriodicTask.finish, ended, stopping]
      · exact number.trans (numberAfter_of_inProgress? running)

theorem stride_eq (h : Tracks task first now t record) : t.ticker.stride = task.ticker.stride := by
  rw [Ticker.stride, Ticker.stride, h.interval]

theorem tickLength_eq (h : Tracks task first now t record) : t.tickLength = task.tickLength := by
  funext index
  rw [tickLength, tickLength, h.lengths]

theorem begin (h : Tracks task first now t record) (later : now ≤ time)
    (idle : t.busyUntil = none) {due : Nat} (phase : t.ticker.phase = .waiting due)
    (reached : due ≤ time * nanosPerMilli) :
    Tracks task first time (t.begin time (t.ticker.nextDue time due))
      (.began t.begun time :: record) := by
  cases h.stands with
  | ticks _ _ _ _ busy => cases idle.symm.trans busy
  | ended phase' => cases phase.symm.trans phase'
  | waits _ phase' _ held lasting rests number past bound =>
    cases phase.symm.trans phase'
    have next := t.ticker.le_nextDue time due
    rw [h.stride_eq] at next
    have orderly := Orderly.began h.orderly rests (past.mono later) (Nat.le_trans bound reached)
    rw [← number] at orderly
    have apart : earliestAfter first task.ticker.stride (.began t.begun time :: record) ≤
        t.ticker.nextDue time due := by
      rw [earliestAfter]
      omega
    by_cases brief : task.tickLength t.begun = 0
    · have ended : t.begin time (t.ticker.nextDue time due) =
          { t with
            begun := t.begun + 1
            ticker.phase := .waiting (t.ticker.nextDue time due) } := by
        simp [PeriodicTask.begin, h.tickLength_eq, brief, PeriodicTask.finish, Ticker.endTick,
          lasting, idle]
      rw [ended]
      refine ⟨h.lengths, h.interval, orderly, ?_⟩
      exact .waits _ rfl idle held lasting (by simp [inProgress?, brief]) rfl (Nat.le_refl _) apart
    · have ticks : t.begin time (t.ticker.nextDue time due) =
          { t with
            begun := t.begun + 1
            ticker.phase := .ticking (t.ticker.nextDue time due)
            busyUntil := some (waitEnd time (task.tickLength t.begun)) } := by
        simp [PeriodicTask.begin, h.tickLength_eq, brief]
      rw [ticks]
      refine ⟨h.lengths, h.interval, orderly, ?_⟩
      exact .ticks _ t.begun _ rfl rfl (by simp [lasting, held]) (by simp [inProgress?, brief]) rfl
        apart

theorem stop (h : Tracks task first now t record) : Tracks task first now t.stop record := by
  unfold PeriodicTask.stop
  split
  · rename_i held
    refine ⟨h.lengths, ?_, h.orderly, .ended ?_ rfl ?_⟩ <;> simp [Ticker.stop, held, h.interval]
  · exact h

theorem shutDown (h : Tracks task first now t record) :
    Tracks task first now t.shutDown record := by
  unfold PeriodicTask.shutDown Ticker.shutDown
  split
  · rename_i held
    refine ⟨h.lengths, h.interval, h.orderly, ?_⟩
    cases h.stands with
    | waits _ phase idle => exact .ended (by simp [Ticker.isTicking, phase]) idle rfl
    | ticks next index close phase busy _ running number bound =>
      have ticks : t.ticker.isTicking = true := by rw [Ticker.isTicking, phase]
      exact .ticks next index close (by simp [ticks, phase]) busy rfl running number bound
    | ended _ _ dropped => simp [dropped] at held
  · exact h

theorem mono (h : Tracks task first now t record) (later : now ≤ time) :
    Tracks task first time t record := by
  refine ⟨h.lengths, h.interval, h.orderly, ?_⟩
  cases h.stands with
  | waits due phase idle held lasting rests number past bound =>
    exact .waits due phase idle held lasting rests number (past.mono later) bound
  | ticks next index close phase busy stopping running number bound =>
    exact .ticks next index close phase busy stopping running number bound
  | ended phase idle dropped => exact .ended phase idle dropped

/-- Whatever happens at a turn, a task and its record stay in step. -/
theorem act (h : Tracks task first now t record) (later : now ≤ time) (turn : TaskTurn) :
    Tracks task first time (t.act time turn).1 ((t.act time turn).2.reverse ++ record) := by
  cases turn with
  | proceed =>
    rw [PeriodicTask.act]
    cases step : t.step? time with
    | none => exact h.mono later
    | some result =>
      obtain ⟨t', events⟩ := result
      rcases step?_eq_some_iff.mp step with
        ⟨close, busy, reached, rfl, rfl⟩ | ⟨idle, due, phase, reached, rfl, rfl⟩
      · exact h.finish busy reached
      · exact h.begin later idle phase reached
  | stop => exact h.stop.mono later
  | shutDown => exact h.shutDown.mono later
  | drop => exact h.stop.mono later

theorem run (h : Tracks task first now t record) {turns : List (Nat × TaskTurn)} {last : Nat}
    (inTime : InTime now turns last) :
    Tracks task first last (run (t, record) turns).1 (run (t, record) turns).2 := by
  induction turns generalizing now t record with
  | nil => exact h.mono inTime
  | cons turn turns ih => exact ih (h.act inTime.1 turn.2) inTime.2

end Tracks

/-- A task that has just been started waits for its first tick. -/
theorem tracks_start (now : Nat) (name : String) {interval : Duration} (lengths : List Nat)
    (lasts : interval.isZero = false) :
    Tracks (start now name interval lengths) (now * nanosPerMilli + interval.nanos) now
      (start now name interval lengths) [] := by
  refine ⟨rfl, rfl, .nothing, ?_⟩
  have waits : (start now name interval lengths).ticker.phase =
      .waiting (now * nanosPerMilli + interval.nanos) := by simp [start, Ticker.start, lasts]
  exact .waits _ waits rfl rfl rfl rfl rfl trivial (Nat.le_refl _)

end PeriodicTask
end CacheDepot
