import CacheDepot.Depot.Timeline
import CacheDepot.Proofs.Depot.Agreement
import CacheDepot.Proofs.Depot.Periodic
import CacheDepot.Proofs.Depot.Soundness
import Mathlib.Algebra.GroupWithZero.Nat
import Mathlib.Algebra.Order.BigOperators.Group.List
import Mathlib.Algebra.Order.Group.Nat

/-!
# How a depot comes to rest at a moment

What can still happen at a moment is counted: each task counts as often as it may go on before
its next wait, and each periodic task by the ticks that are due. Whatever happens makes the
count smaller, so the depot comes to rest before the fuel is used up.
-/

namespace CacheDepot

/-! ## Workers that can go on -/

namespace WriteBehind.Backlog

variable {now : Nat} {b b' b'' : Backlog}

/-- Whether of the workers that were there before only those can go on that could. -/
structure Calms (now : Nat) (b b' : Backlog) : Prop where
  grows : b.nextWorker ≤ b'.nextWorker
  ready : ∀ id < b.nextWorker, b'.isReady now id = true → b.isReady now id = true

theorem Calms.refl (now : Nat) (b : Backlog) : b.Calms now b :=
  ⟨Nat.le_refl _, fun _ _ ready => ready⟩

theorem Calms.trans (h : Calms now b b') (h' : Calms now b' b'') : Calms now b b'' where
  grows := Nat.le_trans h.grows h'.grows
  ready := fun id known ready =>
    h.ready id known (h'.ready id (Nat.lt_of_lt_of_le known h.grows) ready)

theorem calms_start (now : Nat) (b : Backlog) (w : Worker) : b.Calms now (b.start w).2 where
  grows := Nat.le_succ _
  ready := by
    intro id known ready
    rwa [isReady, b.get?_start w known] at ready

/-- A worker that was resumed, and collected if it has ended, cannot go on. -/
theorem Resting.not_isReady_await (h : b.Resting) (now id : Nat) :
    ((b.resume now id).collect id).isReady now id = false := by
  cases found : b.workers.get? id with
  | none =>
    have idle : b.resume now id = b := by rw [Backlog.resume, found]
    have same : b.collect id = b := collect_of_running (by rw [report?, found]; rfl)
    rw [idle, same, isReady, found]
    rfl
  | some old =>
    obtain ⟨new, bound, steady, idle, kind⟩ := h.resume now found
    have report : (b.resume now id).report? id = new.report? := by
      rw [report?, bound, Option.bind_some]
    rw [isReady, collect, report]
    split
    · rw [Assoc.get?_erase_self]
      rfl
    · rw [bound, Option.any_some, idle]

theorem Resting.calms_await (h : b.Resting) (now id : Nat) :
    b.Calms now ((b.resume now id).collect id) where
  grows := (h.leavesOthers_await now id).nextWorker
  ready := by
    intro other known ready
    by_cases own : other = id
    · subst own
      rw [h.not_isReady_await now other] at ready
      cases ready
    · rwa [isReady, (h.leavesOthers_await now id).others other known own] at ready

end WriteBehind.Backlog

/-- How many turns a task that can go on may take before its next wait. -/
def Task.turns : Task → Nat
  | .persisting _ _ _ _ _ _ | .stopping _ | .flushing _ | .reloadReady _ _ _ _ => 2
  | _ => 1

theorem Task.turns_le_two (t : Task) : t.turns ≤ 2 := by
  unfold turns
  split <;> omega

theorem Task.turns_pos (t : Task) : 0 < t.turns := by
  unfold turns
  split <;> omega

namespace Depot

open WriteBehind (Backlog)

variable {d d' : Depot} {now id : Nat} {t : Task} {a : Action}

/-! ## Tasks -/

/-- How often a task may go on before its next wait. One that waits for the timed drain may be able
to at any time. -/
def urgency (d : Depot) (now : Nat) (t : Task) : Nat :=
  match t with
  | .stopping _ => 2
  | t => t.turns * (d.isReady now t).toNat

theorem urgency_le_two (d : Depot) (now : Nat) (t : Task) : d.urgency now t ≤ 2 := by
  unfold urgency
  split
  · exact Nat.le_refl _
  · exact Nat.mul_le_mul t.turns_le_two (Bool.toNat_le _)

theorem urgency_of_isReady (ready : d.isReady now t = true) : d.urgency now t = t.turns := by
  unfold urgency
  split
  · rfl
  · rw [ready]
    exact Nat.mul_one _

theorem urgency_of_worker? {worker : Nat} (waits : t.worker? = some worker) :
    d.urgency now t = t.turns * (d.backlog.isReady now worker).toNat := by
  cases t with
  | awaiting own =>
    cases waits
    rfl
  | flushing own =>
    cases waits
    rfl
  | draining own =>
    cases waits
    rfl
  | _ => cases waits

/-- Only the workers matter to what a task counts for. -/
theorem urgency_congr (same : d'.backlog = d.backlog) (now : Nat) (t : Task) :
    d'.urgency now t = d.urgency now t := by
  cases t with
  | awaiting worker => rw [urgency_of_worker? rfl, urgency_of_worker? rfl, same]
  | flushing worker => rw [urgency_of_worker? rfl, urgency_of_worker? rfl, same]
  | draining worker => rw [urgency_of_worker? rfl, urgency_of_worker? rfl, same]
  | _ => rfl

/-- A task counts for no more once the workers that can go on are among those that could. -/
theorem urgency_le (calms : d.backlog.Calms now d'.backlog)
    (known : ∀ worker, t.worker? = some worker → worker < d.backlog.nextWorker) :
    d'.urgency now t ≤ d.urgency now t := by
  cases waits : t.worker? with
  | some worker =>
    rw [urgency_of_worker? waits, urgency_of_worker? waits]
    apply Nat.mul_le_mul_left
    cases ready : d'.backlog.isReady now worker with
    | false => exact Nat.zero_le _
    | true =>
      rw [calms.ready worker (known worker waits) ready]
  | none =>
    cases t with
    | awaiting worker => cases waits
    | flushing worker => cases waits
    | draining worker => cases waits
    | _ => exact Nat.le_refl _

/-- What a task counts for after its turn. -/
def weightAfter (w : Task → Nat) (t : Task) : TaskEdit → Nat
  | .put t' => w t'
  | .drop => 0
  | .keep => w t

/-- If a task counts for less after its turn, and no other for more, then all together count for
less. -/
theorem sum_apply_lt {w w' : Task → Nat} {tasks : Assoc Nat Task} {e : TaskEdit}
    (bound : tasks.get? id = some t) (lighter : weightAfter w' t e < w t)
    (others : ∀ b ∈ tasks.bindings, w' b.2 ≤ w b.2) :
    ((e.apply id tasks).bindings.map fun b => w' b.2).sum <
      (tasks.bindings.map fun b => w b.2).sum := by
  obtain ⟨before, after, split, inserted, erased⟩ := Assoc.exists_split bound
  have first : (before.map fun b => w' b.2).sum ≤ (before.map fun b => w b.2).sum :=
    List.sum_le_sum fun b member => others b (split ▸ List.mem_append_left _ member)
  have last : (after.map fun b => w' b.2).sum ≤ (after.map fun b => w b.2).sum :=
    List.sum_le_sum fun b member =>
      others b (split ▸ List.mem_append_right _ (List.mem_cons_of_mem _ member))
  cases e with
  | put t' =>
    rw [TaskEdit.apply, inserted, split]
    simp only [weightAfter, List.map_append, List.map_cons, List.sum_append,
      List.sum_cons] at lighter ⊢
    omega
  | drop =>
    rw [TaskEdit.apply, erased, split]
    simp only [weightAfter, List.map_append, List.map_cons, List.sum_append,
      List.sum_cons] at lighter ⊢
    omega
  | keep =>
    rw [TaskEdit.apply, split]
    simp only [weightAfter, List.map_append, List.map_cons, List.sum_append,
      List.sum_cons] at lighter ⊢
    omega

/-- What an operation leaves that waits for a worker of its own cannot go on at once; so it counts
for what follows its worker at most. -/
theorem urgency_awaitWorker (resting : d.backlog.Resting) (now : Nat) {worker : Nat}
    (waiting : Nat → Task) (waits : (waiting worker).worker? = some worker)
    {next : Depot → Answer → Progress × Depot}
    (keeps : ∀ d answer, (next d answer).2.backlog = d.backlog) {n : Nat}
    (most : ∀ d answer, (next d answer).2.urgency now (next d answer).1.task ≤ n) :
    (d.awaitWorker now worker waiting next).2.urgency now
      (d.awaitWorker now worker waiting next).1.task ≤ n := by
  have backlog := d.awaitWorker_backlog now worker waiting keeps
  rw [awaitWorker] at backlog ⊢
  cases ended : (d.onBacklog fun b => b.resume now worker).backlog.report? worker with
  | some report => exact most _ _
  | none =>
    rw [ended] at backlog
    dsimp only [Progress.task] at backlog ⊢
    rw [urgency_of_worker? waits, backlog, resting.not_isReady_await]
    exact Nat.zero_le _

theorem urgency_drain (resting : d.backlog.Resting) (now : Nat) {worker : Nat}
    (waiting : Nat → Task) (waits : (waiting worker).worker? = some worker) :
    (d.awaitWorker now worker waiting finish).2.urgency now
      (d.awaitWorker now worker waiting finish).1.task = 0 :=
  Nat.le_zero.mp (urgency_awaitWorker resting now waiting waits (fun _ _ => rfl)
    fun _ _ => Nat.le_refl _)

theorem urgency_flush (resting : d.backlog.Resting) (now worker : Nat) :
    (d.awaitWorker now worker .flushing tearDown).2.urgency now
      (d.awaitWorker now worker .flushing tearDown).1.task ≤ 1 :=
  urgency_awaitWorker resting now .flushing rfl (fun _ _ => rfl) fun _ _ => Nat.le_refl _

theorem urgency_afterTimer (h : d.Sound) (now : Nat) (flushFirst : Bool) :
    (d.afterTimer now flushFirst).2.urgency now (d.afterTimer now flushFirst).1.task ≤ 1 := by
  cases flushFirst with
  | false => exact Nat.le_refl _
  | true =>
    have started := h.startWorker WriteBehind.Worker.fresh_newFlush
    exact urgency_flush started.resting now _

theorem urgency_afterPersist (d : Depot) (now : Nat) (h : Handle) (key : CacheKey) (value : Json)
    (ttl : Option Duration) (attempt : Attempt) :
    d.urgency now (afterPersist h key value ttl attempt).task ≤ 1 := by
  rw [afterPersist]
  cases attempt.failure with
  | some cause => exact Nat.zero_le _
  | none => exact Nat.le_refl _

theorem calms_resumeTask (h : d.Sound) (now id : Nat) (t : Task) :
    d.backlog.Calms now (d.resumeTask now id t).backlog := by
  have awaited (worker : Nat) (waiting : Nat → Task) {next : Depot → Answer → Progress × Depot}
      (keeps : ∀ d answer, (next d answer).2.backlog = d.backlog) :
      d.backlog.Calms now (d.awaitWorker now worker waiting next).2.backlog := by
    rw [awaitWorker_backlog d now worker waiting keeps]
    exact h.resting.calms_await now worker
  cases uses : t.usesQueue with
  | false =>
    obtain ⟨e, -, edits, -⟩ := (Agree.refl (S := fun _ => True) d).resumeTask now id id uses
    exact edits.backlog ▸ .refl now d.backlog
  | true =>
    cases t with
    | awaiting worker =>
      exact settleTask_backlog id _ ▸ awaited worker .awaiting fun _ _ => rfl
    | flushing worker =>
      exact settleTask_backlog id _ ▸ awaited worker .flushing fun _ _ => rfl
    | stopping flushFirst =>
      rw [resumeTask, settleTask_backlog]
      cases flushFirst with
      | false => exact .refl now d.backlog
      | true =>
        have started := h.startWorker WriteBehind.Worker.fresh_newFlush
        have flushed := awaitWorker_backlog (d.startWorker .newFlush).2 now
          (d.startWorker .newFlush).1 .flushing fun d answer =>
            (rfl : (d.tearDown answer).2.backlog = _)
        exact flushed ▸ (Backlog.calms_start now d.backlog .newFlush).trans
          (started.resting.calms_await now _)
    | draining worker =>
      have drained : d.backlog.Calms now (d.awaitWorker now worker .draining finish).2.backlog :=
        awaited worker .draining fun _ _ => rfl
      rw [resumeTask]
      generalize d.awaitWorker now worker Task.draining finish = result at drained ⊢
      obtain ⟨progress, d'⟩ := result
      cases progress <;> exact drained
    | _ => cases uses

/-- After its turn a task counts for less. -/
theorem exists_edit_resumeTask (h : d.Sound) (id : Nat) (ready : d.isReady now t = true) :
    ∃ e : TaskEdit, (d.resumeTask now id t).tasks = e.apply id d.tasks ∧
      weightAfter ((d.resumeTask now id t).urgency now) t e < d.urgency now t := by
  rw [urgency_of_isReady ready]
  have settled {p : Progress × Depot} (tasks : p.2.tasks = d.tasks)
      (lighter : p.2.urgency now p.1.task < t.turns) :
      ∃ e : TaskEdit, (settleTask id p).tasks = e.apply id d.tasks ∧
        weightAfter ((settleTask id p).urgency now) t e < t.turns := by
    refine ⟨.put p.1.task, ?_, ?_⟩
    · rw [settleTask_eq, ← tasks]
      rfl
    · rwa [weightAfter, urgency_congr (settleTask_backlog id p)]
  have positive := t.turns_pos
  have dropped {d' : Depot} (tasks : d'.tasks = d.tasks) :
      ∃ e : TaskEdit, (d'.dropTask id).tasks = e.apply id d.tasks ∧
        weightAfter ((d'.dropTask id).urgency now) t e < t.turns :=
    ⟨.drop, congrArg (Assoc.erase · id) tasks, positive⟩
  cases t with
  | loading handle key ttl loader due =>
    exact settled (p := (.answered _, _)) (StoresOnly.finishLoad d now handle key ttl _).tasks
      positive
  | persisting handle key value ttl attempt due =>
    exact settled (p := (afterPersist handle key value ttl attempt, d)) rfl
      (Nat.lt_succ_of_le (urgency_afterPersist ..))
  | caching handle key value ttl => exact settled (p := (.answered _, _)) rfl positive
  | awaiting worker =>
    exact settled (Beside.awaitWorker d now worker _ fun d _ => Beside.refl d).tasks
      (Nat.lt_of_le_of_lt (Nat.le_of_eq (urgency_drain h.resting now .awaiting rfl)) positive)
  | stopping flushFirst =>
    exact settled (Beside.afterTimer d now flushFirst).tasks
      (Nat.lt_succ_of_le (urgency_afterTimer h now flushFirst))
  | flushing worker =>
    exact settled (Beside.awaitWorker d now worker _ fun d _ => Beside.stopSweepers d).tasks
      (Nat.lt_succ_of_le (urgency_flush h.resting now worker))
  | clearing left answer =>
    exact settled (p := (.answered answer, _)) (StoresOnly.clearStores d left).tasks positive
  | reloadReady handle key ttl loader =>
    have called := StoresOnly.record d (.loaderCalled loader.label)
    rw [resumeTask]
    split
    · exact dropped (called.trans (.finishReload _ now handle key ttl _)).tasks
    · refine ⟨.put _, rfl, ?_⟩
      exact Nat.lt_succ_of_le (Nat.le_trans (Nat.le_of_eq (Nat.one_mul _)) (Bool.toNat_le _))
  | reloading handle key ttl loader due =>
    exact dropped (StoresOnly.finishReload d now handle key ttl _).tasks
  | draining worker =>
    have tasks : (d.awaitWorker now worker Task.draining finish).2.tasks = d.tasks :=
      (Beside.awaitWorker d now worker Task.draining fun d _ => Beside.refl d).tasks
    have idle := urgency_drain h.resting now Task.draining (rfl : _ = some worker)
    rw [resumeTask]
    rw [awaitWorker] at tasks idle ⊢
    cases ended : (d.onBacklog fun b => b.resume now worker).backlog.report? worker with
    | some report =>
      rw [ended] at tasks
      exact dropped tasks
    | none =>
      rw [ended] at tasks idle
      refine ⟨.keep, tasks, ?_⟩
      rw [weightAfter]
      exact Nat.lt_of_le_of_lt (Nat.le_of_eq idle) positive
  | storing handle key value ttl => exact dropped rfl
  | ended answer => cases ready

/-! ## Ticks -/

/-- How often the timed drain may go on: once with the drain of a tick, and once for each tick. -/
def timerUrgency (d : Depot) (now : Nat) : Nat :=
  match d.drainTimer with
  | some timer => (timer.worker.any (d.backlog.isReady now)).toNat + timer.ticker.overdue now
  | none => 0

theorem timerUrgency_of_drainTimer {timer : DrainTimer} (timed : d.drainTimer = some timer)
    (now : Nat) :
    d.timerUrgency now =
      (timer.worker.any (d.backlog.isReady now)).toNat + timer.ticker.overdue now := by
  rw [timerUrgency, timed]

/-- The timed drain counts for no more once the workers that can go on are among those that
could. -/
theorem timerUrgency_le (h : d.Sound) (same : d'.drainTimer = d.drainTimer)
    (calms : d.backlog.Calms now d'.backlog) : d'.timerUrgency now ≤ d.timerUrgency now := by
  rw [timerUrgency, timerUrgency, same]
  cases timed : d.drainTimer with
  | none => exact Nat.le_refl _
  | some timer =>
    apply Nat.add_le_add_right
    cases drains : timer.worker with
    | none => exact Nat.le_refl _
    | some worker =>
      obtain ⟨w, bound, -⟩ := (h.timer timer timed).drains worker drains
      cases ready : d'.backlog.isReady now worker with
      | false =>
        rw [Option.any_some, ready]
        exact Nat.zero_le _
      | true =>
        have could := calms.ready worker (h.resting.guarded.known worker w bound) ready
        rw [Option.any_some, Option.any_some, ready, could]

theorem timerUrgency_continueTick (resting : d.backlog.Resting) (now : Nat) (timer : DrainTimer)
    (worker : Nat) :
    (d.continueTick now timer worker).timerUrgency now ≤ timer.ticker.overdue now := by
  have idle := urgency_drain resting now Task.awaiting (rfl : _ = some worker)
  rw [continueTick]
  rw [awaitWorker] at idle ⊢
  cases ended : (d.onBacklog fun b => b.resume now worker).backlog.report? worker with
  | some report =>
    rw [timerUrgency_of_drainTimer rfl, Option.any_none]
    exact Nat.le_trans (Nat.le_of_eq (Nat.zero_add _)) (timer.ticker.overdue_endTick_le now)
  | none =>
    rw [ended] at idle
    have waits : ((d.onBacklog fun b => b.resume now worker).backlog.isReady now worker).toNat =
        0 := (Nat.one_mul _).symm.trans idle
    rw [timerUrgency_of_drainTimer rfl, Option.any_some]
    dsimp only
    rw [waits, Nat.zero_add]

theorem timerUrgency_runTimer (h : d.Sound) (paced : d.Paced) (ready : d.timerReady now = true) :
    (d.runTimer now).timerUrgency now < d.timerUrgency now := by
  rw [timerReady] at ready
  rw [runTimer]
  cases timed : d.drainTimer with
  | none =>
    rw [timed] at ready
    cases ready
  | some timer =>
    rw [timed] at ready
    rw [timerUrgency_of_drainTimer timed]
    dsimp only at ready ⊢
    cases drains : timer.worker with
    | some worker =>
      rw [drains] at ready
      dsimp only at ready ⊢
      rw [if_pos ready, Option.any_some, ready]
      have ticks := timerUrgency_continueTick h.resting now timer worker
      exact Nat.lt_of_le_of_lt ticks (Nat.lt_add_of_pos_left Nat.one_pos)
    | none =>
      rw [drains] at ready
      dsimp only at ready ⊢
      obtain ⟨ticker, begun⟩ := Ticker.exists_beginTick? ready
      have fewer := Ticker.overdue_of_beginTick? (paced.timer timer timed) begun
      rw [begun, Option.any_none]
      refine Nat.lt_of_le_of_lt ?_ (Nat.lt_of_lt_of_eq fewer (Nat.zero_add _).symm)
      dsimp only
      split
      · rw [timerUrgency_of_drainTimer rfl, Option.any_none]
        exact Nat.le_trans (Nat.le_of_eq (Nat.zero_add _)) (ticker.overdue_endTick_le now)
      · have started := h.startWorker WriteBehind.Worker.fresh_newDrain
        exact timerUrgency_continueTick started.resting now { ticker } _

/-- How often a store may be swept. -/
def sweepUrgency (now : Nat) (r : Registered) : Nat :=
  (r.sweeper.map (Ticker.overdue · now)).getD 0

/-- How often the stores of a list may be swept. -/
def sweepsUrgency (now : Nat) (stores : List (String × Registered)) : Nat :=
  (stores.map fun b => sweepUrgency now b.2).sum

theorem sweepsUrgency_insert_of_not_mem {stores : List (String × Registered)} {name : String}
    (absent : name ∉ Ordered.keys stores) (store : Registered) :
    sweepsUrgency now (Ordered.insert name store stores) =
      sweepUrgency now store + sweepsUrgency now stores := by
  induction stores with
  | nil => rfl
  | cons first rest ih =>
    obtain ⟨other, old⟩ := first
    obtain ⟨differs, absent⟩ := not_or.mp (List.mem_cons.not.mp absent)
    rw [Ordered.insert]
    split
    · rfl
    · have later := ih absent
      simp only [sweepsUrgency, List.map_cons, List.sum_cons] at later ⊢
      omega

theorem sweepsUrgency_insert_lt {stores : List (String × Registered)} {name : String}
    {old store : Registered} (sorted : Ordered.Sorted stores)
    (found : Ordered.get? name stores = some old)
    (fewer : sweepUrgency now store < sweepUrgency now old) :
    sweepsUrgency now (Ordered.insert name store stores) < sweepsUrgency now stores := by
  induction stores with
  | nil => cases found
  | cons first rest ih =>
    obtain ⟨other, first⟩ := first
    obtain ⟨smaller, sorted⟩ := List.pairwise_cons.mp sorted
    rw [Ordered.get?] at found
    split at found
    · rename_i same
      cases found
      subst same
      rw [Ordered.insert, if_neg (String.lt_irrefl _), if_pos rfl]
      exact Nat.add_lt_add_right fewer _
    · rename_i differs
      have before : other < name :=
        smaller name (Ordered.isSome_get?_iff.mp (Option.isSome_of_eq_some found))
      have notBefore : ¬ name < other := fun after =>
        String.lt_irrefl name (String.lt_trans after before)
      rw [Ordered.insert, if_neg notBefore, if_neg (Ne.symm differs)]
      exact Nat.add_lt_add_left (ih sorted found) _

/-- A tick of a sweep that is due leaves fewer. -/
theorem sweepsUrgency_runSweep (paced : d.Paced) {name : String} {store : Registered}
    (found : d.registry.get? name = some store)
    (due : (store.sweeper.bind Ticker.due?).any (· ≤ now) = true) :
    sweepsUrgency now (d.runSweep now name).registry.toList <
      sweepsUrgency now d.registry.toList := by
  cases sweeps : store.sweeper with
  | none =>
    rw [sweeps] at due
    cases due
  | some sweeper =>
    rw [sweeps, Option.bind_some] at due
    obtain ⟨ticker, begun⟩ := Ticker.exists_beginTick? due
    have fewer : sweepUrgency now { store with sweeper := some ticker.endTick } <
        sweepUrgency now store := by
      have left := Ticker.overdue_of_beginTick? (paced.sweepers.get? found sweeper sweeps) begun
      rw [sweepUrgency, sweepUrgency, sweeps]
      exact Nat.lt_of_le_of_lt (ticker.overdue_endTick_le now) left
    have registry : (d.runSweep now name).registry =
        d.registry.insert name { store with sweeper := some ticker.endTick } := by
      rw [runSweep, found]
      dsimp only
      rw [sweeps, Option.bind_some, begun]
      rfl
    rw [registry, Registry.toList, Registry.toList]
    rw [Registry.get?] at found
    rw [Registry.insert]
    split at found
    · rename_i default
      cases found
      rw [if_pos default, sweepsUrgency_insert_of_not_mem paced.inOrder.apart,
        sweepsUrgency_insert_of_not_mem paced.inOrder.apart]
      exact Nat.add_lt_add_right fewer _
    · rename_i named
      have apart : defaultName ∉ Ordered.keys (Ordered.insert name
          { store with sweeper := some ticker.endTick } d.registry.named) := by
        rw [Ordered.mem_keys_insert]
        exact not_or.mpr ⟨Ne.symm named, paced.inOrder.apart⟩
      rw [if_neg named]
      dsimp only
      rw [sweepsUrgency_insert_of_not_mem apart,
        sweepsUrgency_insert_of_not_mem paced.inOrder.apart]
      exact Nat.add_lt_add_left (sweepsUrgency_insert_lt paced.inOrder.sorted found fewer) _

/-- Sweeps that are stopped have no more ticks. -/
theorem sweepsUrgency_stopSweepers (paced : d.Paced) (now : Nat) :
    sweepsUrgency now d.stopSweepers.registry.toList ≤ sweepsUrgency now d.registry.toList := by
  have each (store : Registered) :
      sweepUrgency now { store with sweeper := store.sweeper.map Ticker.stop } ≤
        sweepUrgency now store := by
    rw [sweepUrgency, sweepUrgency]
    cases store.sweeper with
    | none => exact Nat.le_refl _
    | some sweeper => exact sweeper.overdue_stop_le now
  have stopped := paced.inOrder.map fun r => { r with sweeper := r.sweeper.map Ticker.stop }
  rw [stopSweepers, Registry.toList, Registry.toList, sweepsUrgency_insert_of_not_mem stopped.apart,
    sweepsUrgency_insert_of_not_mem paced.inOrder.apart]
  refine Nat.add_le_add (each _) ?_
  rw [Registry.map, sweepsUrgency, sweepsUrgency, List.map_map]
  exact List.sum_le_sum fun b _ => each b.2

/-! ## The count -/

/-- What can still happen at a moment, counted. -/
def pending (d : Depot) (now : Nat) : Nat :=
  (d.tasks.bindings.map fun b => d.urgency now b.2).sum + d.timerUrgency now +
    sweepsUrgency now d.registry.toList

/-- What can happen next at a moment. -/
theorem readyAction?_cases (inOrder : d.registry.InOrder) (next : d.readyAction? now = some a) :
    (∃ id t, a = .resume id ∧ d.tasks.get? id = some t ∧ d.isReady now t = true) ∨
    (a = .drainTimer ∧ d.timerReady now = true) ∨
    (∃ name store, a = .sweep name ∧ d.registry.get? name = some store ∧
      (store.sweeper.bind Ticker.due?).any (· ≤ now) = true) := by
  rw [readyAction?] at next
  split at next
  · rename_i b found
    cases next
    have member := List.mem_of_find?_eq_some found
    have ready := List.find?_some found
    exact .inl ⟨b.1, b.2, rfl, Assoc.get?_eq_some_iff.mpr member, ready⟩
  · split at next
    · rename_i ready
      cases next
      exact .inr (.inl ⟨rfl, ready⟩)
    · obtain ⟨b, found, rfl⟩ := Option.map_eq_some_iff.mp next
      have member := inOrder.mem_toList.mp (List.mem_of_find?_eq_some found)
      have due := List.find?_some found
      exact .inr (.inr ⟨b.1, b.2, rfl, member, due⟩)

theorem sum_urgency_le (h : d.Sound) (tasks : d'.tasks = d.tasks)
    (calms : d.backlog.Calms now d'.backlog) :
    (d'.tasks.bindings.map fun b => d'.urgency now b.2).sum ≤
      (d.tasks.bindings.map fun b => d.urgency now b.2).sum := by
  rw [tasks]
  apply List.sum_le_sum
  intro b member
  exact urgency_le calms (h.tasks b.1 b.2 (Assoc.get?_eq_some_iff.mpr member)).known

theorem calms_continueTick (resting : d.backlog.Resting) (now : Nat) (timer : DrainTimer)
    (worker : Nat) : d.backlog.Calms now (d.continueTick now timer worker).backlog := by
  have awaited := resting.calms_await now worker
  rw [← awaitWorker_backlog d now worker .awaiting
    fun d answer => (rfl : (d.finish answer).2.backlog = _)] at awaited
  rw [continueTick]
  generalize d.awaitWorker now worker Task.awaiting finish = result at awaited ⊢
  obtain ⟨progress, d'⟩ := result
  cases progress <;> exact awaited

theorem calms_runTimer (h : d.Sound) (now : Nat) :
    d.backlog.Calms now (d.runTimer now).backlog := by
  unfold runTimer
  split
  · split
    · split
      · exact calms_continueTick h.resting now _ _
      · exact .refl now d.backlog
    · split
      · split
        · exact .refl now d.backlog
        · have started := h.startWorker WriteBehind.Worker.fresh_newDrain
          exact (Backlog.calms_start now d.backlog .newDrain).trans
            (calms_continueTick started.resting now _ _)
      · exact .refl now d.backlog
  · exact .refl now d.backlog

theorem WindsDown.registry_eq {r : Registry} {p : Progress × Depot} (h : WindsDown r p)
    (same : r = d.registry) :
    p.2.registry = d.registry ∨ p.2.registry = d.stopSweepers.registry := by
  subst same
  cases h with
  | flushes worker same => exact .inl same
  | @clears answer d' same =>
    right
    show d'.stopSweepers.registry = d.stopSweepers.registry
    rw [stopSweepers, stopSweepers, same]

/-- A task that goes on leaves the registry alone, unless it tears the depot down. -/
theorem registry_of_resumeTask (d : Depot) (now id : Nat) (t : Task) :
    (d.resumeTask now id t).registry = d.registry ∨
      (d.resumeTask now id t).registry = d.stopSweepers.registry := by
  cases t with
  | stopping flushFirst =>
    rw [resumeTask, registry_settleTask]
    exact (windsDown_afterTimer d now flushFirst).registry_eq rfl
  | flushing worker =>
    rw [resumeTask, registry_settleTask]
    exact (windsDown_awaitWorker d now worker).registry_eq rfl
  | _ => exact .inl (d.registry_resumeTask now id (by rintro _ ⟨⟩) (by rintro _ ⟨⟩))

theorem act_resume (bound : d.tasks.get? id = some t) (ready : d.isReady now t = true) :
    d.act now (.resume id) = d.resumeTask now id t := by
  rw [act, resume, bound]
  exact if_pos ready

/-- Whatever happens at a moment, less can still happen. -/
theorem pending_act_lt (h : d.Sound) (paced : d.Paced) (next : d.readyAction? now = some a) :
    (d.act now a).pending now < d.pending now := by
  rcases readyAction?_cases paced.inOrder next with ⟨id, t, rfl, bound, ready⟩ | ⟨rfl, ready⟩ |
    ⟨name, store, rfl, found, due⟩
  · have calms := calms_resumeTask h now id t
    obtain ⟨e, tasks, lighter⟩ := exists_edit_resumeTask h id ready
    have fewer := sum_apply_lt bound lighter fun b member =>
      urgency_le calms (h.tasks b.1 b.2 (Assoc.get?_eq_some_iff.mpr member)).known
    have timer := timerUrgency_le h (d.leavesOthers_resumeTask now id t).drainTimer calms
    have sweeps : sweepsUrgency now (d.resumeTask now id t).registry.toList ≤
        sweepsUrgency now d.registry.toList := by
      rcases d.registry_of_resumeTask now id t with same | stopped
      · rw [same]
      · rw [stopped]
        exact sweepsUrgency_stopSweepers paced now
    rw [act_resume bound ready, pending, pending, tasks]
    omega
  · have tasks := sum_urgency_le h (d.runTimer_leaves now).1 (calms_runTimer h now)
    have timer := timerUrgency_runTimer h paced ready
    have same := (d.runTimer_leaves now).2
    rw [act, pending, pending, same]
    omega
  · have same := d.runSweep_backlog now name
    have calms : d.backlog.Calms now (d.runSweep now name).backlog := same ▸ .refl now d.backlog
    have tasks := sum_urgency_le h (d.runSweep_tasks now name).1 calms
    have timer := timerUrgency_le h (d.runSweep_tasks now name).2 calms
    have sweeps := sweepsUrgency_runSweep paced found due
    rw [act, pending, pending]
    omega

theorem sum_sweeper (now : Nat) (stores : List (String × Registered)) :
    ((stores.filterMap fun b => b.2.sweeper).map (Ticker.overdue · now)).sum =
      sweepsUrgency now stores := by
  induction stores with
  | nil => rfl
  | cons first rest ih =>
    rw [List.filterMap_cons]
    cases sweeps : first.2.sweeper with
    | none =>
      have none : sweepUrgency now first.2 = 0 := by rw [sweepUrgency, sweeps]; rfl
      rw [sweepsUrgency, List.map_cons, List.sum_cons, none, Nat.zero_add]
      exact ih
    | some sweeper =>
      have some : sweepUrgency now first.2 = sweeper.overdue now := by
        rw [sweepUrgency, sweeps]
        rfl
      rw [sweepsUrgency, List.map_cons, List.sum_cons, List.map_cons, List.sum_cons, some, ih]
      rfl

/-- The fuel is enough for all that can happen. -/
theorem pending_le_settleFuel (d : Depot) (now : Nat) : d.pending now ≤ d.settleFuel now := by
  have tasks : (d.tasks.bindings.map fun b => d.urgency now b.2).sum ≤ d.tasks.size * 2 := by
    have each := List.sum_le_card_nsmul (d.tasks.bindings.map fun b => d.urgency now b.2) 2
    rw [List.length_map] at each
    refine each ?_
    intro n member
    obtain ⟨b, -, rfl⟩ := List.mem_map.mp member
    exact d.urgency_le_two now b.2
  have timer : d.timerUrgency now ≤
      1 + ((d.drainTimer.toList.map DrainTimer.ticker).map (Ticker.overdue · now)).sum := by
    cases timed : d.drainTimer with
    | none =>
      rw [timerUrgency, timed]
      exact Nat.zero_le _
    | some timer =>
      rw [timerUrgency_of_drainTimer timed]
      exact Nat.add_le_add_right (Bool.toNat_le _) _
  have sweeps := sum_sweeper now d.registry.toList
  rw [pending, settleFuel]
  rw [← List.foldl_map, ← List.sum_eq_foldl, List.map_append, List.sum_append, sweeps]
  omega

/-! ## Rest -/

/-- What happens at a moment, one thing after the other, until nothing more can happen. -/
inductive Settles (now : Nat) : Depot → Depot → Prop
  | rests {d : Depot} (rests : d.readyAction? now = none) : Settles now d d
  | acts {d d' : Depot} {a : Action} (next : d.readyAction? now = some a)
      (settles : Settles now (d.act now a) d') : Settles now d d'

theorem settles_settleWith (h : d.Sound) (paced : d.Paced) {fuel : Nat}
    (enough : d.pending now ≤ fuel) : Settles now d (d.settleWith now fuel) := by
  induction fuel generalizing d with
  | zero =>
    cases next : d.readyAction? now with
    | none => exact .rests next
    | some a => exact absurd (pending_act_lt h paced next) (by omega)
  | succ fuel ih =>
    rw [settleWith]
    cases next : d.readyAction? now with
    | none => exact .rests next
    | some a =>
      have fewer := pending_act_lt h paced next
      exact .acts next (ih (h.act now a) (paced.act now a) (by omega))

/-- The fuel is never used up: a depot comes to rest at every moment. -/
theorem settles_settle (h : d.Sound) (paced : d.Paced) (now : Nat) :
    Settles now d (d.settle now) :=
  settles_settleWith h paced (d.pending_le_settleFuel now)

theorem Settles.readyAction?_eq_none (h : Settles now d d') : d'.readyAction? now = none := by
  induction h with
  | rests rests => exact rests
  | acts next settles ih => exact ih

end Depot
end CacheDepot
