import CacheDepot.Proofs.Depot.Workers
import CacheDepot.Proofs.Ticker.Recording

/-!
# The end of a periodic task

A task ends once somebody stops it, drops it or shuts it down. From then on no tick begins. If it
is shut down in the middle of a tick, this one tick goes on to its end; otherwise the task is over
at once. Whoever ends the task after that changes nothing.
-/

namespace CacheDepot

namespace PeriodicTask

variable {t : PeriodicTask} {now : Nat} {turn : TaskTurn} {record : List TickEvent}

/-- Whether a task is over because somebody ended it. -/
structure Finished (t : PeriodicTask) : Prop where
  phase : t.ticker.phase = .ended
  idle : t.busyUntil = none
  dropped : t.ticker.held = false

/-- Whether a task was shut down and will be over after the tick in progress, which ends at
`close`. -/
structure Closing (t : PeriodicTask) (close : Nat) : Prop where
  ticking : t.ticker.isTicking = true
  stopping : t.ticker.stopping = true
  busy : t.busyUntil = some close
  dropped : t.ticker.held = false

/-! ## Nobody ends a task twice -/

theorem act_of_dropped (dropped : t.ticker.held = false) (ends : turn ≠ .proceed) (now : Nat) :
    t.act now turn = (t, []) := by
  cases turn with
  | proceed => exact absurd rfl ends
  | shutDown => simp [act, shutDown, Ticker.shutDown, dropped]
  | stop => simp [act, stop, dropped]
  | drop => simp [act, stop, dropped]

theorem held_finish (t : PeriodicTask) : t.finish.ticker.held = t.ticker.held :=
  Ticker.held_endTick t.ticker

theorem held_begin (t : PeriodicTask) (now next : Nat) :
    (t.begin now next).ticker.held = t.ticker.held := by
  unfold begin
  split
  · exact held_finish _
  · rfl

theorem held_act : (t.act now turn).1.ticker.held = true ↔
    t.ticker.held = true ∧ turn = .proceed := by
  have stopped : t.stop.ticker.held = false := by
    cases held : t.ticker.held <;> simp [stop, Ticker.stop, held]
  cases turn with
  | proceed =>
    rw [act]
    cases step : t.step? now with
    | none => simp
    | some result =>
      obtain ⟨t', events⟩ := result
      rcases step?_eq_some_iff.mp step with ⟨_, -, -, rfl, -⟩ | ⟨-, _, -, -, rfl, -⟩
      · simp [held_finish]
      · simp [held_begin]
  | shutDown => simp [act, shutDown, Ticker.held_shutDown]
  | stop => simp [act, stopped]
  | drop => simp [act, stopped]

/-- A task is held as long as nobody ended it. -/
theorem held_run (state : PeriodicTask × List TickEvent) (turns : List (Nat × TaskTurn)) :
    (run state turns).1.ticker.held = true ↔
      state.1.ticker.held = true ∧ ∀ turn ∈ turns, turn.2 = .proceed := by
  induction turns generalizing state with
  | nil => simp
  | cons turn turns ih => rw [run_cons, ih, take, held_act, List.forall_mem_cons, and_assoc]

/-! ## What is left of a task that was ended -/

theorem Finished.act (h : t.Finished) (now : Nat) (turn : TaskTurn) : t.act now turn = (t, []) := by
  by_cases proceeds : turn = .proceed
  · subst proceeds
    simp [PeriodicTask.act, step?, h.idle, Ticker.beginTick?_of_ended h.phase]
  · exact act_of_dropped h.dropped proceeds now

theorem Finished.stop (h : t.Finished) : t.stop.Finished := by
  have same : t.stop = t := congrArg Prod.fst (h.act 0 .stop)
  rwa [same]

theorem Finished.shutDown (h : t.Finished) : t.shutDown.Finished := by
  have same : t.shutDown = t := congrArg Prod.fst (h.act 0 .shutDown)
  rwa [same]

theorem Finished.run (h : t.Finished) (record : List TickEvent) (turns : List (Nat × TaskTurn)) :
    run (t, record) turns = (t, record) := by
  induction turns with
  | nil => rfl
  | cons turn turns ih =>
    rw [run_cons_of_act (h.act turn.1 turn.2)]
    exact ih

namespace Closing

variable {close : Nat}

theorem act_of_lt (h : t.Closing close) (early : now < close) (turn : TaskTurn) :
    t.act now turn = (t, []) := by
  by_cases proceeds : turn = .proceed
  · subst proceeds
    simp [PeriodicTask.act, step?, h.busy, Nat.not_le_of_lt early]
  · exact act_of_dropped h.dropped proceeds now

theorem phase_ne_ended (h : t.Closing close) : t.ticker.phase ≠ .ended := by
  intro ended
  have ticking := h.ticking
  rw [Ticker.isTicking, ended] at ticking
  cases ticking

theorem finish (h : t.Closing close) : t.finish.Finished where
  phase := Ticker.phase_endTick h.ticking h.stopping
  idle := rfl
  dropped := (held_finish t).trans h.dropped

theorem act_of_le (h : t.Closing close) (reached : close ≤ now) :
    t.act now .proceed = (t.finish, [.ended (t.begun - 1) now]) := by
  simp [PeriodicTask.act, step?, h.busy, reached, PeriodicTask.finish]

/-- A task that is to end after the tick in progress is as it was until it proceeds at the end of
this tick, and then it is over. -/
theorem run (h : t.Closing close) (record : List TickEvent) (turns : List (Nat × TaskTurn)) :
    (run (t, record) turns = (t, record) ∧ ∀ time, (time, .proceed) ∈ turns → time < close) ∨
    ∃ time, close ≤ time ∧ (time, .proceed) ∈ turns ∧
      run (t, record) turns = (t.finish, .ended (t.begun - 1) time :: record) := by
  induction turns with
  | nil => exact .inl ⟨rfl, by simp⟩
  | cons turn turns ih =>
    obtain ⟨now, turn⟩ := turn
    by_cases ends : turn = .proceed ∧ close ≤ now
    · obtain ⟨rfl, reached⟩ := ends
      refine .inr ⟨now, reached, List.mem_cons_self, ?_⟩
      rw [run_cons_of_act (h.act_of_le reached)]
      exact h.finish.run _ turns
    · have unchanged : t.act now turn = (t, []) := by
        by_cases proceeds : turn = .proceed
        · exact h.act_of_lt (Nat.lt_of_not_le fun reached => ends ⟨proceeds, reached⟩) turn
        · exact act_of_dropped h.dropped proceeds now
      rw [run_cons_of_act unchanged, List.reverse_nil, List.nil_append]
      rcases ih with ⟨waits, early⟩ | ⟨time, reached, member, led⟩
      · refine .inl ⟨waits, fun time member => ?_⟩
        rcases List.mem_cons.mp member with first | member
        · cases first
          exact Nat.lt_of_not_le fun reached => ends ⟨rfl, reached⟩
        · exact early time member
      · exact .inr ⟨time, reached, List.mem_cons_of_mem _ member, led⟩

end Closing

/-- A task that is over or about to end begins no tick. -/
theorem silent_run (ended : t.Finished ∨ ∃ close, t.Closing close) (record : List TickEvent)
    (turns : List (Nat × TaskTurn)) :
    ∃ since, (run (t, record) turns).2 = since ++ record ∧
      ∀ index time, .began index time ∉ since := by
  rcases ended with finished | ⟨close, closing⟩
  · rw [finished.run]
    exact ⟨[], rfl, by simp⟩
  · rcases closing.run record turns with ⟨waits, -⟩ | ⟨time, -, -, ends⟩
    · rw [waits]
      exact ⟨[], rfl, by simp⟩
    · rw [ends]
      exact ⟨[.ended (t.begun - 1) time], rfl, by simp⟩

/-! ## What comes of a request -/

namespace Tracks

variable {task : PeriodicTask} {first index close : Nat}

theorem finished_stop (held : t.ticker.held = true) : t.stop.Finished := by
  refine ⟨?_, ?_, ?_⟩ <;> simp [PeriodicTask.stop, Ticker.stop, held]

theorem finished_shutDown (h : Tracks task first now t record) (held : t.ticker.held = true)
    (rests : inProgress? task.tickLength record = none) : t.shutDown.Finished := by
  cases h.stands with
  | waits due phase idle =>
    refine ⟨?_, idle, Ticker.held_shutDown _⟩
    simp [PeriodicTask.shutDown, Ticker.shutDown, held, Ticker.isTicking, phase]
  | ticks next index close phase busy stopping running => cases rests.symm.trans running
  | ended phase idle dropped => simp [dropped] at held

theorem closing_shutDown (h : Tracks task first now t record) (held : t.ticker.held = true)
    (running : inProgress? task.tickLength record = some (index, close)) :
    t.shutDown.Closing close ∧ t.shutDown.begun - 1 = index := by
  cases h.stands with
  | waits due phase idle held lasting rests => cases rests.symm.trans running
  | ended phase idle dropped => simp [dropped] at held
  | ticks next index' close' phase busy stopping running' number bound =>
    cases running'.symm.trans running
    constructor
    · refine ⟨?_, ?_, busy, Ticker.held_shutDown _⟩
      · rw [PeriodicTask.shutDown, Ticker.isTicking_shutDown, Ticker.isTicking, phase]
      · simp [PeriodicTask.shutDown, Ticker.shutDown, held]
    · have counted := number.trans (numberAfter_of_inProgress? running)
      exact congrArg (· - 1) counted

theorem busyUntil_eq (h : Tracks task first now t record) (held : t.ticker.held = true) :
    t.busyUntil = (inProgress? task.tickLength record).map Prod.snd := by
  cases h.stands with
  | waits due phase idle held lasting rests => simp [idle, rests]
  | ticks next index close phase busy stopping running => simp [busy, running]
  | ended phase idle dropped => simp [dropped] at held

/-- A task that somebody ended, now or before, is over or about to end. -/
theorem ended_act (h : Tracks task first now t record) (ends : turn ≠ .proceed) (time : Nat) :
    ∃ t', t.act time turn = (t', []) ∧ (t'.Finished ∨ ∃ close, t'.Closing close) := by
  cases held : t.ticker.held with
  | false =>
    refine ⟨t, act_of_dropped held ends time, ?_⟩
    cases h.stands with
    | waits due phase idle holds => simp [held] at holds
    | ended phase idle => exact .inl ⟨phase, idle, held⟩
    | ticks next index close phase busy stopping =>
      rw [held] at stopping
      exact .inr ⟨close, by rw [Ticker.isTicking, phase], stopping, busy, held⟩
  | true =>
    cases turn with
    | proceed => exact absurd rfl ends
    | stop => exact ⟨t.stop, rfl, .inl (finished_stop held)⟩
    | drop => exact ⟨t.stop, rfl, .inl (finished_stop held)⟩
    | shutDown =>
      refine ⟨t.shutDown, rfl, ?_⟩
      cases running : inProgress? task.tickLength record with
      | none => exact .inl (h.finished_shutDown held running)
      | some tick => exact .inr ⟨tick.2, (h.closing_shutDown held running).1⟩

end Tracks

/-- What comes of a request to end a task, made at the time `now` when the task and its record had
come to `state` in the turns `before`. The turns `after` it lead to `result`; the ticks take
`length`. -/
structure Obeyed (length : Nat → Nat) (before after : List (Nat × TaskTurn)) (now : Nat)
    (request : TaskTurn) (state result : PeriodicTask × List TickEvent) : Prop where
  /-- No tick begins any more. -/
  silent : ∃ since, result.2 = since ++ state.2 ∧ ∀ index time, .began index time ∉ since
  /-- A request after another one changes nothing. -/
  again : (∃ turn ∈ before, turn.2 ≠ .proceed) → state.1.act now request = (state.1, [])
  /-- A task that is stopped or dropped, or shut down between ticks, is over at once; a tick in
  progress does not end. -/
  atOnce : (∀ turn ∈ before, turn.2 = .proceed) →
    request ≠ .shutDown ∨ inProgress? length state.2 = none →
    result.1.ticker.phase = .ended ∧ result.2 = state.2
  /-- A task that is shut down in the middle of a tick is over once this tick has ended, which it
  does when the task first goes on after the tick's whole length. -/
  afterTick : (∀ turn ∈ before, turn.2 = .proceed) → request = .shutDown →
    ∀ index close, inProgress? length state.2 = some (index, close) →
    (result.1.ticker.phase ≠ .ended ∧ result.2 = state.2 ∧
      ∀ time, (time, .proceed) ∈ after → time < close) ∨
    ∃ time, close ≤ time ∧ (time, .proceed) ∈ after ∧ result.1.ticker.phase = .ended ∧
      result.2 = .ended index time :: state.2

theorem obeyed_run {task : PeriodicTask} {first last : Nat} {before : List (Nat × TaskTurn)}
    {state : PeriodicTask × List TickEvent} (h : Tracks task first last state.1 state.2)
    (held : state.1.ticker.held = true ↔ ∀ turn ∈ before, turn.2 = .proceed)
    {request : TaskTurn} (ends : request ≠ .proceed) (now : Nat) (after : List (Nat × TaskTurn)) :
    Obeyed task.tickLength before after now request state
      (run state ((now, request) :: after)) := by
  obtain ⟨t, record⟩ := state
  obtain ⟨t', acts, ended⟩ := h.ended_act ends now
  rw [run_cons_of_act acts, List.reverse_nil, List.nil_append]
  constructor
  case silent => exact silent_run ended record after
  case again =>
    rintro ⟨turn, member, earlier⟩
    refine act_of_dropped ?_ ends now
    by_contra holds
    exact earlier (held.mp (by simpa using holds) turn member)
  case atOnce =>
    intro alone idle
    have holds := held.mpr alone
    have finished : t'.Finished := by
      cases request with
      | proceed => exact absurd rfl ends
      | stop =>
        cases acts
        exact Tracks.finished_stop holds
      | drop =>
        cases acts
        exact Tracks.finished_stop holds
      | shutDown =>
        cases acts
        exact h.finished_shutDown holds (idle.resolve_left (· rfl))
    rw [finished.run]
    exact ⟨finished.phase, rfl⟩
  case afterTick =>
    rintro alone rfl index close running
    cases acts
    obtain ⟨closing, rfl⟩ := h.closing_shutDown (held.mpr alone) running
    rcases closing.run record after with ⟨waits, early⟩ | ⟨time, reached, member, led⟩
    · left
      rw [waits]
      exact ⟨closing.phase_ne_ended, rfl, early⟩
    · right
      rw [led]
      exact ⟨time, reached, member, closing.finish.phase, rfl⟩

end PeriodicTask
end CacheDepot
