import CacheDepot.Proofs.Ticker.Timing

/-!
# Calls of a schedule

Tasks are started and ended while time passes. Whatever the calls, a task and what is recorded of
it come about in turns of this task.
-/

namespace CacheDepot

namespace Schedule

variable {s : Schedule} {name : String} {t : PeriodicTask} {record : List TickEvent}

/-! ## Calls -/

theorem view_onTask (s : Schedule) (other name : String) (f : PeriodicTask → PeriodicTask) :
    (s.onTask other f).view name =
      if other = name then ((s.tasks.get? name).map f, eventsOf name s.record)
      else s.view name := by
  rw [onTask]
  by_cases same : other = name
  · subst same
    cases found : s.tasks.get? other with
    | none => simp [view, found]
    | some t => simp [view]
  · cases found : s.tasks.get? other with
    | none => simp [same]
    | some t => simp [view, same, Assoc.get?_insert_of_ne _ _ same]

theorem Awake.onTask (h : s.Awake) (name : String) {f : PeriodicTask → PeriodicTask}
    (keeps : ∀ t : PeriodicTask, t.Awake s.now → (f t).Awake s.now) :
    (s.onTask name f).Awake := by
  rw [Schedule.onTask]
  cases found : s.tasks.get? name with
  | none => exact h
  | some t =>
    intro other t' found'
    dsimp only at found' ⊢
    rw [Assoc.get?_insert] at found'
    split at found'
    · cases found'
      exact keeps t (h name t found)
    · exact h other t' found'

theorem now_onTask (s : Schedule) (name : String) (f : PeriodicTask → PeriodicTask) :
    (s.onTask name f).now = s.now := by
  unfold onTask
  split <;> rfl

/-- Time passes for a task that is asked to end exactly if a tick is in progress and nobody asked
before. -/
theorem shutDown_cases (s : Schedule) (name : String) :
    (s.shutDown name = s.onTask name PeriodicTask.shutDown ∧
      ∀ t, s.tasks.get? name = some t → t.busyUntil = none ∨ t.ticker.held = false) ∨
    ∃ t close, s.tasks.get? name = some t ∧ t.busyUntil = some close ∧ t.ticker.held = true ∧
      s.shutDown name = (s.onTask name PeriodicTask.shutDown).passTo close := by
  rw [Schedule.shutDown]
  cases found : s.tasks.get? name with
  | none => simp [Schedule.onTask, found]
  | some t =>
    cases busy : t.busyUntil with
    | none => simp [busy]
    | some close =>
      cases held : t.ticker.held with
      | false => simp [busy, held]
      | true => simp [busy, held]

/-- To shut a task down in the middle of a tick takes until this tick ends, which it does once. -/
theorem shutDown_of_closing (h : s.Awake) {close : Nat} (seen : s.view name = (some t, record))
    (held : t.ticker.held = true) (closing : t.shutDown.Closing close) :
    (s.shutDown name).now = close ∧ ∃ turns, InTime s.now turns close ∧
      (∀ turn ∈ turns, turn.2 = .proceed) ∧
      (∀ past, PeriodicTask.run (t.shutDown, past) turns =
        (t.shutDown.finish, .ended (t.shutDown.begun - 1) close :: past)) ∧
      (s.shutDown name).view name =
        (some t.shutDown.finish, .ended (t.shutDown.begun - 1) close :: record) := by
  have found : s.tasks.get? name = some t := congrArg Prod.fst seen
  have busy : t.busyUntil = some close := closing.busy
  have waits : s.shutDown name = (s.onTask name PeriodicTask.shutDown).passTo close := by
    rcases s.shutDown_cases name with ⟨-, idle⟩ | ⟨t', close', found', busy', -, waits⟩
    · simpa [busy, held] using idle t found
    · cases found'.symm.trans found
      cases busy'.symm.trans busy
      exact waits
  have asked : (s.onTask name PeriodicTask.shutDown).view name = (some t.shutDown, record) := by
    rw [view_onTask, if_pos rfl, found]
    exact congrArg (_, ·) (congrArg Prod.snd seen)
  have awake : (s.onTask name PeriodicTask.shutDown).Awake := h.onTask name fun _ awake => awake
  have passed := passTo_of_closing awake asked closing
  rw [now_onTask, ← waits] at passed
  exact ⟨by rw [waits, now_passTo], passed⟩

/-- What can be done with a schedule. -/
inductive Call where
  | start (name : String) (interval : Duration) (lengths : List Nat)
  | stop (name : String)
  | shutDown (name : String)
  | drop (name : String)
  | advance (d : Duration)
  deriving DecidableEq, Repr

/-- Whether a call starts a task of this name. -/
def Call.Starts (name : String) : Call → Prop
  | .start other _ _ => other = name
  | _ => False

/-- The request to end the task of this name that a call is. -/
def Call.request? (name : String) : Call → Option TaskTurn
  | .stop other => if other = name then some .stop else none
  | .shutDown other => if other = name then some .shutDown else none
  | .drop other => if other = name then some .drop else none
  | .start _ _ _ => none
  | .advance _ => none

/-- A schedule after a call. -/
def serve (s : Schedule) : Call → Schedule
  | .start name interval lengths => s.start name interval lengths
  | .stop name => s.stop name
  | .shutDown name => s.shutDown name
  | .drop name => s.drop name
  | .advance d => s.advance d

theorem awake_serve (h : s.Awake) (call : Call) : (s.serve call).Awake := by
  cases call with
  | start name interval lengths => exact awake_settle _
  | stop name =>
    refine h.onTask name fun t awake => ?_
    unfold PeriodicTask.stop
    split
    · intro close busy
      cases busy
    · exact awake
  | shutDown name =>
    have asked := h.onTask name (f := PeriodicTask.shutDown) fun t awake => awake
    rcases s.shutDown_cases name with ⟨same, -⟩ | ⟨t, close, -, -, -, passes⟩
    · rw [serve, same]
      exact asked
    · rw [serve, passes]
      exact awake_passTo close asked
  | drop name =>
    intro other t found
    rw [serve, Schedule.drop] at found
    dsimp only at found
    rw [Assoc.get?_erase] at found
    split at found
    · cases found
    · exact h other t found
  | advance d => exact awake_passTo _ h

/-- A call that neither starts a task of this name nor ends it lets it proceed at most. -/
theorem passes_serve (h : s.Awake) {call : Call} (others : ¬ call.Starts name)
    (none : call.request? name = none) : Passes s (s.serve call) name := by
  have untouched {other : String} (differs : other ≠ name) (f : PeriodicTask → PeriodicTask) :
      Passes s (s.onTask other f) name := by
    refine .of_view (Nat.le_of_eq (now_onTask s other f).symm) ?_
    rw [view_onTask, if_neg differs]
  cases call with
  | start other interval lengths =>
    have added : Passes s { s with
        tasks := s.tasks.insert other (.start s.now other interval lengths) } name := by
      refine .of_view (Nat.le_refl s.now) ?_
      rw [view, view, Assoc.get?_insert_of_ne _ _ others]
    exact added.trans (passes_settle _ name)
  | stop other =>
    have differs : other ≠ name := fun same => by simp [Call.request?, same] at none
    exact untouched differs _
  | drop other =>
    have differs : other ≠ name := fun same => by simp [Call.request?, same] at none
    refine .of_view (Nat.le_refl s.now) ?_
    rw [view, view, serve, Schedule.drop, Assoc.get?_erase_of_ne _ differs]
  | shutDown other =>
    have differs : other ≠ name := fun same => by simp [Call.request?, same] at none
    rw [serve]
    rcases s.shutDown_cases other with ⟨same, -⟩ | ⟨t, close, found, busy, -, waits⟩
    · rw [same]
      exact untouched differs _
    · rw [waits]
      have later := Nat.le_of_lt (h other t found close busy)
      rw [← now_onTask s other PeriodicTask.shutDown] at later
      exact (untouched differs _).trans (passes_passTo later name)
  | advance d => exact passes_passTo (le_waitEnd _ _) name

/-- Whether what a schedule shows of the task of this name is a task that goes by `task`, after it
came to `state`. The record of an older task is `base`; a task that was dropped is not there any
more. -/
structure Follows (s : Schedule) (name : String) (task : PeriodicTask) (first : Nat)
    (base : List TickEvent) (state : PeriodicTask × List TickEvent) : Prop where
  awake : s.Awake
  tracks : task.Tracks first s.now state.1 state.2
  seen : (s.view name = (some state.1, state.2 ++ base) ∧
      (state.1.ticker.held = true ∨ state.1.Finished)) ∨
    s.view name = (none, state.2 ++ base) ∧ state.1.Finished

namespace Follows

variable {s' : Schedule} {task : PeriodicTask} {first : Nat} {base : List TickEvent}
  {state : PeriodicTask × List TickEvent}

theorem passes (h : s.Follows name task first base state) (awake : s'.Awake)
    (passes : Passes s s' name) :
    ∃ turns, InTime s.now turns s'.now ∧ (∀ turn ∈ turns, turn.2 = .proceed) ∧
      s'.Follows name task first base (PeriodicTask.run state turns) := by
  obtain ⟨turns, inTime, proceeds, seen⟩ := passes
  refine ⟨turns, inTime, proceeds, awake, h.tracks.run inTime, ?_⟩
  rcases h.seen with ⟨there, lasts⟩ | ⟨gone, finished⟩
  · left
    rw [seen, there, runView, PeriodicTask.run_append_record]
    refine ⟨rfl, ?_⟩
    rcases lasts with held | finished
    · exact .inl ((PeriodicTask.held_run state turns).mpr ⟨held, proceeds⟩)
    · rw [finished.run state.2 turns]
      exact .inr finished
  · right
    have rests : PeriodicTask.run state turns = state := finished.run state.2 turns
    rw [seen, gone, runView, rests]
    exact ⟨rfl, finished⟩

theorem eventsOf_eq (h : s.Follows name task first base state) :
    eventsOf name s.record = state.2 ++ base := by
  rcases h.seen with ⟨there, -⟩ | ⟨gone, -⟩
  · exact congrArg Prod.snd there
  · exact congrArg Prod.snd gone

theorem eq_of_get? (h : s.Follows name task first base state)
    (found : s.tasks.get? name = some t) : t = state.1 := by
  rcases h.seen with ⟨there, -⟩ | ⟨gone, -⟩
  · exact Option.some.inj (found.symm.trans (congrArg Prod.fst there))
  · cases found.symm.trans (congrArg Prod.fst gone)

/-- A request that leaves nothing to wait for. -/
theorem request (h : s.Follows name task first base state) (awake : s'.Awake)
    (same : s'.now = s.now) {turn : TaskTurn} {t : PeriodicTask}
    (acts : state.1.act s.now turn = (t, [])) (finished : t.Finished)
    (seen : s'.view name = (some t, state.2 ++ base) ∨ s'.view name = (none, state.2 ++ base)) :
    s'.Follows name task first base (PeriodicTask.run state [(s.now, turn)]) := by
  have led : PeriodicTask.run state [(s.now, turn)] = (t, state.2) :=
    PeriodicTask.run_cons_of_act acts state.2 []
  have inTime : InTime s.now [(s.now, turn)] s'.now :=
    ⟨Nat.le_refl _, Nat.le_of_eq same.symm⟩
  have tracks := h.tracks.run inTime
  refine ⟨awake, tracks, ?_⟩
  rw [led]
  exact seen.imp (⟨·, .inr finished⟩) (⟨·, finished⟩)

theorem held_or_finished (h : s.Follows name task first base state) :
    state.1.ticker.held = true ∨ state.1.Finished := by
  rcases h.seen with ⟨-, lasts⟩ | ⟨-, finished⟩
  · exact lasts
  · exact .inr finished

theorem view_onTask (h : s.Follows name task first base state)
    (f : PeriodicTask → PeriodicTask) :
    (s.onTask name f).view name = (some (f state.1), state.2 ++ base) ∨
      (s.onTask name f).view name = (none, state.2 ++ base) := by
  rw [Schedule.view_onTask, if_pos rfl]
  rcases h.seen with ⟨there, -⟩ | ⟨gone, -⟩
  · rw [view, Prod.mk.injEq] at there
    simp [there]
  · rw [view, Prod.mk.injEq] at gone
    simp [gone]

theorem finished_stop (h : s.Follows name task first base state) : state.1.stop.Finished :=
  h.held_or_finished.elim PeriodicTask.Tracks.finished_stop PeriodicTask.Finished.stop

theorem stop (h : s.Follows name task first base state) :
    (s.stop name).Follows name task first base (PeriodicTask.run state [(s.now, .stop)]) := by
  have acts : state.1.act s.now .stop = (state.1.stop, []) := rfl
  have awake : (s.stop name).Awake := awake_serve h.awake (.stop name)
  exact h.request awake (now_onTask s name _) acts h.finished_stop (h.view_onTask _)

theorem drop (h : s.Follows name task first base state) :
    (s.drop name).Follows name task first base (PeriodicTask.run state [(s.now, .drop)]) := by
  have acts : state.1.act s.now .drop = (state.1.stop, []) := rfl
  have awake : (s.drop name).Awake := awake_serve h.awake (.drop name)
  refine h.request awake rfl acts h.finished_stop (.inr ?_)
  rw [view, Schedule.drop, h.eventsOf_eq, Assoc.get?_erase_self]

theorem shutDown_atOnce (h : s.Follows name task first base state)
    (same : s.shutDown name = s.onTask name PeriodicTask.shutDown)
    (finished : state.1.shutDown.Finished) :
    ∃ turns, InTime s.now turns (s.shutDown name).now ∧ (∀ turn ∈ turns, turn.2 = .proceed) ∧
      (s.shutDown name).Follows name task first base
        (PeriodicTask.run state ((s.now, .shutDown) :: turns)) := by
  have acts : state.1.act s.now .shutDown = (state.1.shutDown, []) := rfl
  have awake : (s.shutDown name).Awake := awake_serve h.awake (.shutDown name)
  rw [same] at awake ⊢
  refine ⟨[], Nat.le_of_eq (now_onTask s name _).symm, by simp, ?_⟩
  exact h.request awake (now_onTask s name _) acts finished (h.view_onTask _)

theorem shutDown_afterTick (h : s.Follows name task first base state) {close : Nat}
    (found : s.tasks.get? name = some state.1) (held : state.1.ticker.held = true)
    (busy : state.1.busyUntil = some close) :
    ∃ turns, InTime s.now turns (s.shutDown name).now ∧ (∀ turn ∈ turns, turn.2 = .proceed) ∧
      (s.shutDown name).Follows name task first base
        (PeriodicTask.run state ((s.now, .shutDown) :: turns)) := by
  obtain ⟨t, record⟩ := state
  have awake : (s.shutDown name).Awake := awake_serve h.awake (.shutDown name)
  have there : s.view name = (some t, record ++ base) := by rw [view, found, h.eventsOf_eq]
  obtain ⟨⟨index, close⟩, running, rfl⟩ :=
    Option.map_eq_some_iff.mp ((h.tracks.busyUntil_eq held).symm.trans busy)
  obtain ⟨closing, -⟩ := h.tracks.closing_shutDown held running
  obtain ⟨reached, turns, inTime, proceeds, ends, seen⟩ :=
    shutDown_of_closing h.awake there held closing
  rw [← reached] at inTime
  have inTime' : InTime s.now ((s.now, .shutDown) :: turns) (s.shutDown name).now :=
    ⟨Nat.le_refl _, inTime⟩
  have led : PeriodicTask.run (t, record) ((s.now, .shutDown) :: turns) =
      (t.shutDown.finish, .ended (t.shutDown.begun - 1) close :: record) := ends record
  refine ⟨turns, inTime, proceeds, awake, h.tracks.run inTime', .inl ?_⟩
  rw [led]
  exact ⟨seen, .inr closing.finish⟩

theorem shutDown (h : s.Follows name task first base state) :
    ∃ turns, InTime s.now turns (s.shutDown name).now ∧ (∀ turn ∈ turns, turn.2 = .proceed) ∧
      (s.shutDown name).Follows name task first base
        (PeriodicTask.run state ((s.now, .shutDown) :: turns)) := by
  rcases s.shutDown_cases name with ⟨same, idle⟩ | ⟨t, close, found, busy, held, -⟩
  · rcases h.seen with ⟨there, held | finished⟩ | ⟨-, finished⟩
    · have idle := (idle state.1 (congrArg Prod.fst there)).resolve_right (by simp [held])
      have none : inProgress? task.tickLength state.2 = none :=
        Option.map_eq_none_iff.mp ((h.tracks.busyUntil_eq held).symm.trans idle)
      exact h.shutDown_atOnce same (h.tracks.finished_shutDown held none)
    · exact h.shutDown_atOnce same finished.shutDown
    · exact h.shutDown_atOnce same finished.shutDown
  · obtain rfl := h.eq_of_get? found
    exact h.shutDown_afterTick found held busy

/-- Every call, unless it starts a task of this name anew, amounts to turns of the task. -/
theorem serve (h : s.Follows name task first base state) {call : Call}
    (others : ¬ call.Starts name) :
    ∃ turns, InTime s.now turns (s.serve call).now ∧
      turns.filter (·.2 ≠ .proceed) = ((call.request? name).map (s.now, ·)).toList ∧
      (s.serve call).Follows name task first base (PeriodicTask.run state turns) := by
  cases request : call.request? name with
  | none =>
    have untouched := passes_serve h.awake others request
    obtain ⟨turns, inTime, proceeds, follows⟩ := h.passes (awake_serve h.awake call) untouched
    exact ⟨turns, inTime, by simpa using proceeds, follows⟩
  | some turn =>
    cases call with
    | start other interval lengths => cases request
    | advance d => cases request
    | stop other =>
      obtain ⟨rfl, rfl⟩ : other = name ∧ .stop = turn := by simpa [Call.request?] using request
      have stays : (s.stop other).now = s.now := now_onTask s other _
      exact ⟨[(s.now, .stop)], ⟨Nat.le_refl _, Nat.le_of_eq stays.symm⟩, by simp, h.stop⟩
    | drop other =>
      obtain ⟨rfl, rfl⟩ : other = name ∧ .drop = turn := by simpa [Call.request?] using request
      exact ⟨[(s.now, .drop)], ⟨Nat.le_refl _, Nat.le_refl _⟩, by simp, h.drop⟩
    | shutDown other =>
      obtain ⟨rfl, rfl⟩ : other = name ∧ .shutDown = turn := by
        simpa [Call.request?] using request
      obtain ⟨turns, inTime, proceeds, follows⟩ := h.shutDown
      exact ⟨(s.now, .shutDown) :: turns, ⟨Nat.le_refl _, inTime⟩, by simpa using proceeds,
        follows⟩

end Follows

/-! ## All calls -/

/-- A schedule after calls. -/
def serveAll (s : Schedule) (calls : List Call) : Schedule := calls.foldl serve s

/-- The requests to end the task of this name that calls make, each with its time. -/
def requestsOf (name : String) : Schedule → List Call → List (Nat × TaskTurn)
  | _, [] => []
  | s, call :: calls =>
    ((call.request? name).map (s.now, ·)).toList ++ requestsOf name (s.serve call) calls

theorem Follows.serveAll {task : PeriodicTask} {first : Nat} {base : List TickEvent}
    {state : PeriodicTask × List TickEvent} (h : s.Follows name task first base state)
    {calls : List Call} (others : ∀ call ∈ calls, ¬ call.Starts name) :
    ∃ turns, InTime s.now turns (s.serveAll calls).now ∧
      turns.filter (·.2 ≠ .proceed) = s.requestsOf name calls ∧
      (s.serveAll calls).Follows name task first base (PeriodicTask.run state turns) := by
  induction calls generalizing s state with
  | nil => exact ⟨[], Nat.le_refl _, rfl, h⟩
  | cons call calls ih =>
    rw [List.forall_mem_cons] at others
    obtain ⟨turns, inTime, requests, follows⟩ := h.serve others.1
    obtain ⟨more, inTime', requests', follows'⟩ := ih follows others.2
    refine ⟨turns ++ more, inTime_append.mpr ⟨_, inTime, inTime'⟩, ?_, ?_⟩
    · rw [List.filter_append, requests, requests', requestsOf]
    · rw [PeriodicTask.run_append]
      exact follows'

/-- A schedule shows a task that was just started as it goes by turns. -/
theorem follows_start (h : s.Awake) (name : String) {interval : Duration} (lengths : List Nat)
    (lasts : interval.isZero = false) :
    ∃ turns, InTime s.now turns s.now ∧ (∀ turn ∈ turns, turn.2 = .proceed) ∧
      (s.start name interval lengths).Follows name
        (.start s.now name interval lengths) (s.now * nanosPerMilli + interval.nanos)
        (eventsOf name s.record)
        (PeriodicTask.run (.start s.now name interval lengths, []) turns) := by
  let task := PeriodicTask.start s.now name interval lengths
  let added : Schedule := { s with tasks := s.tasks.insert name task }
  have awake : added.Awake := by
    intro other t found
    dsimp only [added] at found ⊢
    rw [Assoc.get?_insert] at found
    split at found
    · cases found
      intro close busy
      cases busy
    · exact h other t found
  have begins : added.Follows name task (s.now * nanosPerMilli + interval.nanos)
      (eventsOf name s.record) (task, []) := by
    refine ⟨awake, PeriodicTask.tracks_start s.now name lengths lasts, .inl ⟨?_, .inl rfl⟩⟩
    rw [view, Assoc.get?_insert_self]
    rfl
  exact begins.passes (awake_settle added) (passes_settle added name)

/-- Whatever is done to a schedule after a task was started, this task goes by turns, and its
record is the record of these turns. The requests among the turns are the ones that the calls made
of the task, in their order and at their times. -/
theorem exists_turns_serveAll (h : s.Awake) (name : String) {interval : Duration}
    (lengths : List Nat) (lasts : interval.isZero = false) {calls : List Call}
    (others : ∀ call ∈ calls, ¬ call.Starts name) :
    let task := PeriodicTask.start s.now name interval lengths
    let started := s.start name interval lengths
    ∃ turns, InTime s.now turns (started.serveAll calls).now ∧
      turns.filter (·.2 ≠ .proceed) = started.requestsOf name calls ∧
      eventsOf name (started.serveAll calls).record =
        (PeriodicTask.run (task, []) turns).2 ++ eventsOf name s.record ∧
      ∀ t, (started.serveAll calls).tasks.get? name = some t →
        t = (PeriodicTask.run (task, []) turns).1 := by
  intro task started
  obtain ⟨turns, inTime, proceeds, follows⟩ := follows_start h name lengths lasts
  obtain ⟨more, inTime', requests, follows'⟩ := follows.serveAll others
  refine ⟨turns ++ more, inTime_append.mpr ⟨_, inTime, inTime'⟩, ?_, ?_, ?_⟩
  · rw [List.filter_append, requests, List.filter_eq_nil_iff.mpr (by simpa using proceeds)]
    rfl
  · rw [PeriodicTask.run_append, follows'.eventsOf_eq]
  · intro t found
    rw [PeriodicTask.run_append, follows'.eq_of_get? found]

end Schedule

/-! ## Ticks, stops and shutdowns -/

namespace PeriodicTask

/-- Ticks take turns until somebody ends the task. Whenever the turns of a task come, the first
tick begins no earlier than an interval after the start; every other one begins when the one before
it has ended, and no earlier than an interval less 5 ms after that one began. Once the task is
stopped, dropped or shut down no tick begins, and no other request changes anything. A tick in
progress when the task is shut down ends exactly once before the task is over, and for a schedule,
before the call returns; one that is in progress at a stop or a drop never ends. -/
theorem ticks_in_turn_until_ended {start last : Nat} (name : String) {interval : Duration}
    (lengths : List Nat) (lasts : interval.isZero = false) {turns : List (Nat × TaskTurn)}
    (inTime : InTime start turns last) :
    let task := PeriodicTask.start start name interval lengths
    let first := start * nanosPerMilli + interval.nanos
    let state := run (task, []) turns
    Orderly task.tickLength first task.ticker.stride state.2 ∧
    (task.ticker.Delays → Orderly task.tickLength first interval.nanos state.2) ∧
    (∀ before now request after, turns = before ++ (now, request) :: after → request ≠ .proceed →
      Obeyed task.tickLength before after now request (run (task, []) before) state) ∧
    (∀ s : Schedule, s.Awake → s.tasks.get? name = some state.1 →
      (∀ turn ∈ turns, turn.2 = .proceed) →
      ∀ index close, inProgress? task.tickLength state.2 = some (index, close) →
      let s' := s.shutDown name
      s'.now = close ∧
      Schedule.eventsOf name s'.record =
        .ended index close :: Schedule.eventsOf name s.record ∧
      ∃ t, s'.tasks.get? name = some t ∧ t.ticker.phase = .ended) := by
  intro task first state
  have starts := tracks_start start name lengths lasts
  have tracks : Tracks task first last state.1 state.2 := starts.run inTime
  refine ⟨tracks.orderly, ?_, ?_, ?_⟩
  · intro delays
    have same : task.ticker.stride = interval.nanos := delays.stride_eq
    exact same ▸ tracks.orderly
  · intro before now request after split ends
    subst split
    obtain ⟨between, inTime, -⟩ := inTime_append.mp inTime
    have held := held_run (task, []) before
    have result : state = run (run (task, []) before) ((now, request) :: after) := run_append _ _ _
    rw [result]
    exact obeyed_run (starts.run inTime) (held.trans (and_iff_right rfl)) ends now after
  · intro s awake found alone index close running s'
    have held : state.1.ticker.held = true := (held_run (task, []) turns).mpr ⟨rfl, alone⟩
    obtain ⟨closing, number⟩ := tracks.closing_shutDown held running
    have shown : s.view name = (some state.1, Schedule.eventsOf name s.record) := by
      rw [Schedule.view, found]
    obtain ⟨reached, -, -, -, -, seen⟩ := Schedule.shutDown_of_closing awake shown held closing
    rw [number] at seen
    refine ⟨reached, congrArg Prod.snd seen, _, congrArg Prod.fst seen, closing.finish.phase⟩

/-- The first tick takes 25 ms of an interval of 10 ms. The second begins as it ends, 15 ms late,
and is in progress when the task is shut down. -/
theorem late_tick_ends_after_shutDown :
    let task := PeriodicTask.start 0 "sweep" (.ofMillis 10) [25, 3]
    let before := [(10, .proceed), (35, .proceed), (35, .proceed)]
    let after := [(38, .proceed), (45, .proceed), (50, .stop)]
    let state := run (task, []) (before ++ (36, .shutDown) :: after)
    InTime 0 (before ++ (36, .shutDown) :: after) 60 ∧
    state.2 = [.ended 1 38, .began 1 35, .ended 0 35, .began 0 10] ∧
    Orderly task.tickLength (10 * nanosPerMilli) (10 * nanosPerMilli) state.2 ∧
    Obeyed task.tickLength before after 36 .shutDown (run (task, []) before) state := by
  intro task before after state
  have inTime : InTime 0 (before ++ (36, .shutDown) :: after) 60 := by
    simp [InTime, before, after]
  have lasts : (Duration.ofMillis 10).isZero = false := rfl
  obtain ⟨-, orderly, obeyed, -⟩ := ticks_in_turn_until_ended "sweep" [25, 3] lasts inTime
  have delays : task.ticker.Delays := Ticker.delays_of_le (by decide)
  refine ⟨inTime, ?_, orderly delays, obeyed before 36 .shutDown after rfl (by simp)⟩
  decide

end PeriodicTask
end CacheDepot
