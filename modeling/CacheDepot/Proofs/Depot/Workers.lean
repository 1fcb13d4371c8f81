import CacheDepot.Proofs.Depot.Queue
import CacheDepot.Proofs.Depot.Registry
import CacheDepot.Proofs.WriteBehind.Rest

/-!
# The workers of a depot

Every drain and flush works for one task or for the timed drain. The timed drain is in the middle
of a tick exactly while a drain of its own waits for attempts, and so has the flag up. This holds
in every state of a depot.
-/

namespace CacheDepot

open WriteBehind (Backlog)

namespace Ticker

variable {t t' : Ticker} {now : Nat}

theorem isTicking_endTick (t : Ticker) : t.endTick.isTicking = false := by
  obtain ⟨name, interval, held, stopping, phase⟩ := t
  cases phase with
  | ticking next => cases stopping <;> rfl
  | _ => rfl

theorem held_endTick (t : Ticker) : t.endTick.held = t.held := by
  unfold endTick
  split <;> rfl

theorem phase_endTick (ticking : t.isTicking = true) (stopping : t.stopping = true) :
    t.endTick.phase = .ended := by
  obtain ⟨name, interval, held, _, phase⟩ := t
  cases stopping
  cases phase with
  | ticking next => rfl
  | _ => cases ticking

theorem isTicking_beginTick? (begun : t.beginTick? now = some t') :
    t.phase ≠ .ended ∧ t'.isTicking = true ∧ t'.held = t.held := by
  rw [beginTick?] at begun
  split at begun
  · rename_i due waits
    split at begun
    · cases begun
      exact ⟨by simp [waits], rfl, rfl⟩
    · simp at begun
  · simp at begun

theorem beginTick?_of_ended (ended : t.phase = .ended) (now : Nat) : t.beginTick? now = none := by
  rw [beginTick?, ended]

theorem isTicking_shutDown (t : Ticker) : t.shutDown.isTicking = t.isTicking := by
  obtain ⟨name, interval, held, stopping, phase⟩ := t
  cases held <;> cases phase <;> rfl

theorem held_shutDown (t : Ticker) : t.shutDown.held = false := by
  unfold shutDown
  split
  · rfl
  · rename_i dropped
    exact Bool.eq_false_iff.mpr dropped

/-- A task that was asked to end is over, or it is after the tick. -/
theorem phase_shutDown (t : Ticker)
    (sound : t.held = false → t.phase = .ended ∨ t.isTicking = true ∧ t.stopping = true) :
    t.shutDown.phase = .ended ∨ t.shutDown.isTicking = true ∧ t.shutDown.stopping = true := by
  obtain ⟨name, interval, held, stopping, phase⟩ := t
  cases held with
  | false => exact sound rfl
  | true => cases phase <;> simp [shutDown, isTicking]

theorem phase_stop (t : Ticker) (sound : t.held = true ∨ t.phase = .ended) :
    t.stop.phase = .ended := by
  unfold stop
  split
  · rfl
  · rename_i dropped
    exact sound.resolve_left dropped

end Ticker

/-- The worker that a task waits for. -/
def Task.worker? : Task → Option Nat
  | .awaiting worker | .flushing worker | .draining worker => some worker
  | _ => none

/-- Whether the worker that a task waits for, if any, was started, is not the one of the timed
drain, and is a flush if the task tears the depot down after it. -/
structure Task.Staffed (b : Backlog) (timed : Option Nat) (t : Task) : Prop where
  known : ∀ id, t.worker? = some id → id < b.nextWorker
  apart : ∀ id, t.worker? = some id → timed ≠ some id
  flush : ∀ id w, t = .flushing id → b.workers.get? id = some w → w.isFlush = true

namespace Task

variable {b b' : Backlog} {timed : Option Nat} {t : Task} {id : Nat}

theorem staffed_of_worker? (alone : t.worker? = none) : t.Staffed b timed where
  known := fun _ waits => nomatch alone.symm.trans waits
  apart := fun _ waits => nomatch alone.symm.trans waits
  flush := fun _ _ same _ => nomatch alone.symm.trans (congrArg worker? same)

theorem Staffed.untimed (h : t.Staffed b timed) : t.Staffed b none :=
  ⟨h.known, nofun, h.flush⟩

theorem Staffed.leavesOthers (h : t.Staffed b timed) (on : b.LeavesOthers id b') :
    t.Staffed b' timed := by
  refine ⟨fun id waits => Nat.lt_of_lt_of_le (h.known id waits) on.nextWorker, h.apart, ?_⟩
  rintro own w rfl bound
  have known := h.known own rfl
  by_cases same : own = id
  · subst same
    obtain ⟨old, bound', kind⟩ := on.kind known w bound
    exact kind.trans (h.flush own old rfl bound')
  · rw [on.others own known same] at bound
    exact h.flush own w rfl bound

end Task

/-- What the timed drain is at: it ticks exactly while a drain of its own waits for attempts, and
once it was asked to end it is over after the tick. -/
structure DrainTimer.Staffed (b : Backlog) (timer : DrainTimer) : Prop where
  ticks : timer.ticker.isTicking = timer.worker.isSome
  drains : ∀ id, timer.worker = some id →
    ∃ w, b.workers.get? id = some w ∧ w.isFlush = false ∧ w.wait?.isSome = true
  stopped : timer.ticker.held = false →
    timer.ticker.phase = .ended ∨ timer.ticker.isTicking = true ∧ timer.ticker.stopping = true

theorem DrainTimer.Staffed.leavesOthers {b b' : Backlog} {timer : DrainTimer} {id : Nat}
    (h : timer.Staffed b) (guarded : b.Guarded) (on : b.LeavesOthers id b')
    (apart : timer.worker ≠ some id) : timer.Staffed b' := by
  refine ⟨h.ticks, ?_, h.stopped⟩
  intro own drains
  obtain ⟨w, bound, drain, waits⟩ := h.drains own drains
  refine ⟨w, ?_, drain, waits⟩
  have differs : own ≠ id := fun same => apart (same ▸ drains)
  rwa [on.others own (guarded.known own w bound) differs]

/-- Whether the sweep of a store, once it is not held any more, is over. -/
def Registered.Sound (r : Registered) : Prop :=
  ∀ sweeper, r.sweeper = some sweeper → sweeper.held = true ∨ sweeper.phase = .ended

/-- Whether no sweep of a store is left. -/
def Registered.Silent (r : Registered) : Prop :=
  ∀ sweeper, r.sweeper = some sweeper → sweeper.phase = .ended

theorem Registered.Silent.sound {r : Registered} (silent : r.Silent) : r.Sound :=
  fun sweeper found => .inr (silent sweeper found)

theorem Registered.Sound.stop {r : Registered} (sound : r.Sound) :
    Registered.Silent { r with sweeper := r.sweeper.map Ticker.stop } := by
  intro sweeper found
  obtain ⟨old, was, rfl⟩ := Option.map_eq_some_iff.mp found
  exact old.phase_stop (sound old was)

namespace Depot

/-- The worker of the timed drain. -/
def timerWorker? (d : Depot) : Option Nat := d.drainTimer.bind DrainTimer.worker

/-- What holds of a depot between any two actions. -/
structure Sound (d : Depot) : Prop where
  resting : d.backlog.Resting
  tasks : ∀ id t, d.tasks.get? id = some t → t.Staffed d.backlog d.timerWorker?
  timer : ∀ timer, d.drainTimer = some timer → timer.Staffed d.backlog
  sweepers : d.registry.Every Registered.Sound

namespace Sound

variable {d d' : Depot}

theorem storesOnly (h : d.Sound) (only : d.StoresOnly d') : d'.Sound := by
  obtain ⟨registry, backlog, drainTimer, tasks, -⟩ := only
  have timed : d'.timerWorker? = d.timerWorker? := by rw [timerWorker?, drainTimer, timerWorker?]
  refine ⟨backlog ▸ h.resting, ?_, ?_, registry ▸ h.sweepers⟩
  · rw [tasks, backlog, timed]
    exact h.tasks
  · rw [drainTimer, backlog]
    exact h.timer

theorem withBacklog {id : Nat} (h : d.Sound) (resting : d'.backlog.Resting)
    (on : d.backlog.LeavesOthers id d'.backlog) (apart : d.timerWorker? ≠ some id)
    (registry : d'.registry = d.registry) (drainTimer : d'.drainTimer = d.drainTimer)
    (tasks : d'.tasks = d.tasks) : d'.Sound := by
  have timed : d'.timerWorker? = d.timerWorker? := by rw [timerWorker?, drainTimer, timerWorker?]
  refine ⟨resting, ?_, ?_, registry ▸ h.sweepers⟩
  · rw [tasks, timed]
    exact fun id t bound => (h.tasks id t bound).leavesOthers on
  · rw [drainTimer]
    intro timer timed
    refine (h.timer timer timed).leavesOthers h.resting.guarded on fun same => apart ?_
    rw [timerWorker?, timed, Option.bind_some, same]

theorem insertTask {t : Task} (h : d.Sound) (staffed : t.Staffed d.backlog d.timerWorker?)
    (id nextTask : Nat) : { d with tasks := d.tasks.insert id t, nextTask }.Sound := by
  refine ⟨h.resting, ?_, h.timer, h.sweepers⟩
  intro other t' bound
  rw [Assoc.get?_insert] at bound
  split at bound
  · cases bound
    exact staffed
  · exact h.tasks other t' bound

theorem dropTask (h : d.Sound) (id : Nat) : (d.dropTask id).Sound := by
  refine ⟨h.resting, ?_, h.timer, h.sweepers⟩
  intro other t bound
  rw [Depot.dropTask, Assoc.get?_erase] at bound
  split at bound
  · simp at bound
  · exact h.tasks other t bound

/-- The timed drain has not got the next worker yet. -/
theorem untimed (h : d.Sound) : d.timerWorker? ≠ some d.backlog.nextWorker := by
  intro same
  obtain ⟨timer, found, drains⟩ := Option.bind_eq_some_iff.mp same
  obtain ⟨v, bound, -⟩ := (h.timer timer found).drains _ drains
  exact Nat.lt_irrefl _ (h.resting.guarded.known _ v bound)

theorem startWorker {w : WriteBehind.Worker} (h : d.Sound) (fresh : w.Fresh) :
    (d.startWorker w).2.Sound :=
  h.withBacklog (h.resting.start fresh)
    (d.backlog.leavesOthers_start w) h.untimed rfl rfl rfl

/-- A worker that was just started may work for a new task. -/
theorem staffed_startWorker {w : WriteBehind.Worker} {t : Task} (h : d.Sound)
    (waits : t.worker? = some d.backlog.nextWorker)
    (kind : ∀ id, t = .flushing id → w.isFlush = true) :
    t.Staffed (d.startWorker w).2.backlog (d.startWorker w).2.timerWorker? := by
  refine ⟨?_, ?_, ?_⟩
  · intro id same
    cases waits.symm.trans same
    exact Nat.lt_succ_self _
  · intro id same
    cases waits.symm.trans same
    exact h.untimed
  · intro id v flushes bound
    cases waits.symm.trans (congrArg Task.worker? flushes)
    have new : (d.startWorker w).2.backlog.workers.get? d.backlog.nextWorker = some w :=
      Assoc.get?_insert_self ..
    rw [new] at bound
    cases bound
    exact kind _ flushes

theorem stopSweepers (h : d.Sound) : d.stopSweepers.Sound :=
  ⟨h.resting, h.tasks, h.timer, h.sweepers.map fun _ sound => sound.stop.sound⟩

theorem stopTimer (h : d.Sound) : d.stopTimer.Sound := by
  have timed : d.stopTimer.timerWorker? = d.timerWorker? := by
    rw [timerWorker?, timerWorker?, Depot.stopTimer]
    cases d.drainTimer <;> rfl
  refine ⟨h.resting, timed ▸ h.tasks, ?_, h.sweepers⟩
  intro timer found
  obtain ⟨old, was, rfl⟩ := Option.map_eq_some_iff.mp found
  have staffed := h.timer old was
  exact ⟨(Ticker.isTicking_shutDown _).trans staffed.ticks, staffed.drains,
    fun _ => old.ticker.phase_shutDown staffed.stopped⟩

end Sound

end Depot
end CacheDepot
