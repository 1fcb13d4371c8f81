import CacheDepot.Proofs.Depot.TaskOrigins
import CacheDepot.Proofs.Depot.Periodic
import CacheDepot.Proofs.WriteBehind.Accounting

/-!
# What a shutdown leaves behind

A shutdown asks the timed drain to end, waits for a tick in progress, flushes the queue, waiting
out every drain that somebody else runs, and tears the depot down. When it returns, every write has
come to its end, and nothing goes on ticking. The stores are emptied one after the other, so a store
that is emptied early may be filled again by a reload before the last one is emptied.
-/

namespace CacheDepot

open WriteBehind (Backlog Item Ledger)

/-- Whether an action is neither a call of a caller nor a cancellation. -/
def Action.isUnasked : Action → Bool
  | .resume _ | .clear _ _ | .drainTimer | .sweep _ => true
  | .start _ | .abort _ => false

theorem Action.uncalled_of_isUnasked {a : Action} (unasked : a.isUnasked = true) :
    ∀ operation, a ≠ .start operation := by
  rintro operation rfl
  cases unasked

namespace Depot

/-! ## The end of a flush -/

theorem lasting_idle : Lasting Backlog.Idle where
  start := fun fresh idle => idle.start fresh
  await := fun now id idle => idle.await now id

/-- What the flush of a shutdown leaves behind: nothing to persist, and no sweep. -/
structure Settled (d : Depot) : Prop where
  idle : d.backlog.Idle
  silent : d.registry.Every Registered.Silent

/-- What is not asked for leaves what the flush of a shutdown has left. -/
theorem Settled.act {d : Depot} (h : d.Settled) (now : Nat) {a : Action}
    (unasked : a.isUnasked = true) : (d.act now a).Settled := by
  have pushes : a.pushInto now d.backlog = d.backlog := by
    cases a with
    | start operation => cases unasked
    | _ => rfl
  refine ⟨lasting_idle.act now ?_ ?_, ?_⟩
  · rw [pushes]
    exact h.idle
  · rintro task rfl
    cases unasked
  · cases a with
    | start operation => cases unasked
    | abort id => cases unasked
    | resume id => exact (d.leavesOthers_resume now id).silent h.silent
    | clear id handle => exact (d.leavesOthers_emptyOne id handle).silent h.silent
    | drainTimer => exact (d.runTimer_leaves now).2 ▸ h.silent
    | sweep name =>
      rw [Depot.act, runSweep_of_silent h.silent]
      exact h.silent

/-- Whether an operation of a shutdown waits for its flush, or empties the stores after it. -/
def FlushesOn (p : Progress × Depot) : Prop :=
  (∃ worker, p.1 = .waits (.flushing worker)) ∨
    (∃ left answer, p.1 = .waits (.clearing left answer)) ∧ p.2.Settled

namespace Sound

variable {d : Depot}

theorem settled_stopSweepers (h : d.Sound) (items : d.backlog.queue.items = [])
    (down : d.backlog.queue.draining = false) : d.stopSweepers.Settled :=
  ⟨.of_not_draining h.resting.guarded items down, h.sweepers.map fun _ sound => sound.stop⟩

/-- A flush that has come to its end has just seen the flag down and the queue empty. -/
theorem flushesOn (h : d.Sound) (now : Nat) {worker : Nat}
    (staffed : (Task.flushing worker).Staffed d.backlog d.timerWorker?) :
    FlushesOn (d.awaitWorker now worker .flushing Depot.tearDown) := by
  have sound : (d.awaitWorker now worker .flushing finish).2.Sound :=
    (h.awaitWorker now rfl staffed fun _ _ h => .answered h).sound
  rw [Depot.awaitWorker] at sound ⊢
  cases ended : (d.onBacklog fun b => b.resume now worker).backlog.report? worker with
  | none => exact .inl ⟨worker, rfl⟩
  | some report =>
    rw [ended] at sound
    obtain ⟨v, found, ended⟩ := Backlog.exists_of_report ended
    have empty : (d.backlog.resume now worker).queue.draining = false ∧
        (d.backlog.resume now worker).queue.items = [] := by
      cases bound : d.backlog.workers.get? worker with
      | none =>
        have idle : d.backlog.resume now worker = d.backlog := by rw [Backlog.resume, bound]
        have found : (d.backlog.resume now worker).workers.get? worker = some v := found
        rw [idle, bound] at found
        simp at found
      | some w =>
        obtain ⟨w', found', steady, -, kind⟩ := h.resting.resume now bound
        cases found'.symm.trans found
        exact steady.empty (kind.trans (staffed.flush worker w rfl bound))
          (Option.isSome_iff_exists.mpr ⟨report, ended⟩)
    have kept : ∀ b : Backlog, ∀ id, (b.collect id).queue = b.queue := by
      intro b id
      unfold Backlog.collect
      split <;> rfl
    refine .inr ⟨⟨_, _, rfl⟩, sound.settled_stopSweepers ?_ ?_⟩
    · exact (congrArg WriteBehind.Queue.items (kept _ worker)).trans empty.2
    · exact (congrArg WriteBehind.Queue.draining (kept _ worker)).trans empty.1

theorem flushesOn_start (h : d.Sound) (now : Nat) : FlushesOn (d.afterTimer now true) :=
  (h.startWorker WriteBehind.Worker.fresh_newFlush).flushesOn now
    (h.staffed_startWorker rfl fun _ _ => rfl)

end Sound

/-! ## The course of a shutdown -/

/-- How far the task `id` has come with a shutdown. Nothing is left to persist once it empties the
stores. -/
inductive Shuts (id : Nat) (d : Depot) : Prop
  | stopping (bound : d.tasks.get? id = some (.stopping true))
  | flushing (worker : Nat) (bound : d.tasks.get? id = some (.flushing worker))
  | clearing (left : List Handle) (answer : Answer)
      (bound : d.tasks.get? id = some (.clearing left answer)) (settled : d.Settled)

/-- A depot in which the task `id` shuts it down. -/
structure ShuttingDown (id : Nat) (d : Depot) : Prop where
  sound : d.Sound
  dropped : d.TimerDropped
  shuts : d.Shuts id

/-- A depot at the moment when the task `id` has shut it down. -/
structure ShutDown (id : Nat) (d : Depot) : Prop where
  sound : d.Sound
  dropped : d.TimerDropped
  settled : d.Settled
  ended : d.hasEnded id = true

variable {d : Depot} {id : Nat}

theorem Shuts.not_ended (h : d.Shuts id) : d.hasEnded id = false := by
  unfold hasEnded
  cases h with
  | stopping bound => rw [bound]
  | flushing worker bound => rw [bound]
  | clearing left answer bound settled => rw [bound]

/-- A shutdown that goes on with its flush waits for it, or it empties the stores. -/
theorem FlushesOn.shuts {p : Progress × Depot} (h : FlushesOn p) (id : Nat) :
    (settleTask id p).Shuts id := by
  obtain ⟨progress, d⟩ := p
  rcases h with ⟨worker, waits⟩ | ⟨⟨left, answer, clears⟩, settled⟩
  · cases waits
    exact .flushing worker (Assoc.get?_insert_self ..)
  · cases clears
    exact .clearing left answer (Assoc.get?_insert_self ..) ⟨settled.idle, settled.silent⟩

theorem timerDropped_beginTearDown (d : Depot) (now : Nat) (flushFirst : Bool) :
    (d.beginTearDown now flushFirst).2.TimerDropped := by
  rw [beginTearDown]
  split
  · dsimp only
    split
    · exact .stopTimer d
    · exact (TimerDropped.stopTimer d).congr (Beside.afterTimer _ now flushFirst).drainTimer
  · rename_i free
    exact (TimerDropped.of_not_holdsTimer free).congr
      (Beside.afterTimer d now flushFirst).drainTimer

theorem Sound.shuts_beginTearDown (h : d.Sound) (now id : Nat) :
    (settleTask id (d.beginTearDown now true)).Shuts id := by
  rw [Depot.beginTearDown]
  split
  · dsimp only
    split
    · exact .stopping (Assoc.get?_insert_self ..)
    · exact (h.stopTimer.flushesOn_start now).shuts id
  · exact (h.flushesOn_start now).shuts id

theorem shuttingDown_start (h : d.Sound) (now : Nat) :
    (d.act now (.start .shutdown)).ShuttingDown d.nextTask := by
  have numbered : { d with nextTask := d.nextTask + 1 }.Sound :=
    ⟨h.resting, h.tasks, h.timer, h.sweepers⟩
  refine ⟨h.act now _, ?_, numbered.shuts_beginTearDown now d.nextTask⟩
  exact (timerDropped_beginTearDown _ now true).congr (settleTask_drainTimer _ _)

/-- What is not asked for leaves the timed drain to its end. -/
theorem TimerDropped.act (h : d.TimerDropped) (now : Nat) {a : Action}
    (unasked : a.isUnasked = true) : (d.act now a).TimerDropped := by
  cases a with
  | start operation => cases unasked
  | abort id => cases unasked
  | resume id => exact h.congr (d.leavesOthers_resume now id).drainTimer
  | clear id handle => exact h.congr (d.leavesOthers_emptyOne id handle).drainTimer
  | drainTimer => exact h.runTimer now
  | sweep name => exact h.congr (d.runSweep_tasks now name).2

/-- A shutdown that goes on waits again, or it has emptied the last stores. -/
theorem Shuts.resume (h : d.Shuts id) (sound : d.Sound) (now : Nat) :
    (d.resume now id).Shuts id ∨ (d.resume now id).hasEnded id = true ∧ (d.Settled) := by
  rw [Depot.resume]
  cases h with
  | stopping bound =>
    rw [bound]
    dsimp only
    split
    · exact .inl ((sound.flushesOn_start now).shuts id)
    · exact .inl (.stopping bound)
  | flushing worker bound =>
    rw [bound]
    dsimp only
    split
    · exact .inl ((sound.flushesOn now (sound.tasks id _ bound)).shuts id)
    · exact .inl (.flushing worker bound)
  | clearing left answer bound settled =>
    rw [bound]
    exact .inr ⟨hasEnded_answered id answer _, settled⟩

/-- A shutdown that empties one store has others left, or it is over. -/
theorem Shuts.emptyOne (h : d.Shuts id) (handle : Handle) :
    (d.emptyOne id handle).Shuts id ∨
      (d.emptyOne id handle).hasEnded id = true ∧ d.Settled := by
  cases h with
  | stopping bound =>
    have same : d.emptyOne id handle = d := by rw [Depot.emptyOne, bound]
    exact .inl (same.symm ▸ .stopping bound)
  | flushing worker bound =>
    have same : d.emptyOne id handle = d := by rw [Depot.emptyOne, bound]
    exact .inl (same.symm ▸ .flushing worker bound)
  | clearing left answer bound settled =>
    rw [emptyOne_of_clearing bound]
    split
    · rw [clearNext]
      split
      · exact .inr ⟨hasEnded_answered id answer _, settled⟩
      · exact .inl (.clearing _ answer (Assoc.get?_insert_self ..) ⟨settled.idle, settled.silent⟩)
    · exact .inl (.clearing left answer bound settled)

/-- Whatever comes next but calls of callers and cancellations, the shutdown goes on or is over. -/
theorem ShuttingDown.act (h : d.ShuttingDown id) (old : id < d.nextTask) (now : Nat) {a : Action}
    (unasked : a.isUnasked = true) :
    (d.act now a).ShuttingDown id ∨ (d.act now a).ShutDown id := by
  have sound := h.sound.act now a
  have dropped := h.dropped.act now unasked
  have goes : (d.act now a).Shuts id ∨ (d.act now a).hasEnded id = true ∧ d.Settled := by
    by_cases own : a.target? = some id
    · rcases Action.cases_of_target? own with rfl | ⟨handle, rfl⟩ | rfl
      · exact h.shuts.resume h.sound now
      · exact h.shuts.emptyOne handle
      · cases unasked
    · have same := (d.turn_act now a).get?_of_ne old own
      left
      cases h.shuts with
      | stopping bound => exact .stopping (same.trans bound)
      | flushing worker bound => exact .flushing worker (same.trans bound)
      | clearing left answer bound settled =>
        exact .clearing left answer (same.trans bound) (settled.act now unasked)
  rcases goes with shuts | ⟨ended, settled⟩
  · exact .inl ⟨sound, dropped, shuts⟩
  · exact .inr ⟨sound, dropped, settled.act now unasked, ended⟩

/-- Once it has been called, a shutdown that returns has done what it is for. -/
theorem shutDown_of_returns {actions : List (Nat × Action)} (h : d.ShuttingDown id)
    (old : id < d.nextTask) (returns : d.Returns id actions)
    (unasked : ∀ a ∈ actions, a.2.isUnasked = true) : (d.run actions).ShutDown id := by
  have act (d : Depot) now a (h : d.ShuttingDown id ∧ id < d.nextTask)
      (unasked : a.isUnasked = true) :
      ((d.act now a).ShuttingDown id ∧ id < (d.act now a).nextTask) ∨ (d.act now a).ShutDown id :=
    (h.1.act h.2 now unasked).imp_left fun goes =>
      ⟨goes, Nat.lt_of_lt_of_le h.2 (d.turn_act now a).nextTask_le⟩
  exact of_returns (fun _ going => going.1.shuts.not_ended) (fun _ done => done.ended) act
    (.inl ⟨h, old⟩) returns unasked

theorem ShutDown.still (h : d.ShutDown id) : d.Still := by
  refine ⟨?_, h.settled.silent⟩
  intro timer found
  have staffed := h.sound.timer timer found
  have free : timer.worker = none := by
    cases drains : timer.worker with
    | none => rfl
    | some worker =>
      obtain ⟨w, bound, drain, waits⟩ := staffed.drains worker drains
      have up := WriteBehind.Worker.holdsFlag_of_wait? waits drain
      have down := h.sound.resting.guarded.not_holdsFlag
        (h.settled.idle.not_draining h.sound.resting) bound
      exact absurd (up.symm.trans down) Bool.noConfusion
  refine ⟨free, ?_⟩
  rcases staffed.stopped (h.dropped timer found) with ended | ⟨ticking, -⟩
  · exact ended
  · rw [staffed.ticks, free] at ticking
    simp at ticking

/-! ## The writes -/

theorem lasting_lost (items : List WriteBehind.Fate) : Lasting fun b => b.lost = items where
  start := fun _ same => same
  await := fun now id same =>
    (Backlog.lost_collect _ id).trans ((Backlog.lost_resume _ now id).trans same)

/-- Without a cancellation nothing is lost. -/
theorem lost_act (d : Depot) (now : Nat) {a : Action} (kept : ∀ task, a ≠ .abort task) :
    (d.act now a).backlog.lost = d.backlog.lost := by
  refine (lasting_lost d.backlog.lost).act now ?_ fun task same => absurd same (kept task)
  unfold Action.pushInto
  split <;> rfl

theorem lost_run (d : Depot) {actions : List (Nat × Action)}
    (unasked : ∀ a ∈ actions, a.2.isUnasked = true) :
    (d.run actions).backlog.lost = d.backlog.lost := by
  induction actions generalizing d with
  | nil => rfl
  | cons first rest ih =>
    obtain ⟨now, a⟩ := first
    have kept : ∀ task, a ≠ .abort task := by
      rintro task rfl
      cases unasked _ List.mem_cons_self
    exact (ih _ fun a member => unasked a (List.mem_cons_of_mem _ member)).trans
      (d.lost_act now kept)

theorem issued_of_unasked (ticket : Nat) {actions : List (Nat × Action)}
    (unasked : ∀ a ∈ actions, a.2.isUnasked = true) : issued ticket actions = [] := by
  induction actions with
  | nil => rfl
  | cons first rest ih =>
    obtain ⟨now, a⟩ := first
    have own := unasked _ List.mem_cons_self
    have later := ih fun a member => unasked a (List.mem_cons_of_mem _ member)
    cases a with
    | start operation => cases own
    | _ => exact later

/-! ## The stores -/

/-- A teardown brings nothing itself. -/
theorem Brings.of_start {operation : Operation}
    (tearsDown : operation = .destroy ∨ operation = .shutdown) {now : Nat} {other : Nat} {w : Write}
    (brings : (d.act now (.start operation)).Brings other w) : d.Brings other w := by
  obtain ⟨t, bound, member⟩ := brings
  by_cases own : other = d.nextTask
  · subst own
    rcases awaitsQueue_start tearsDown d now with
      (⟨flushFirst, own⟩ | ⟨worker, own⟩) | ⟨answer, own⟩
    all_goals
      cases own.symm.trans bound
      cases member
  · have kept : (d.act now (.start operation)).tasks.get? other = d.tasks.get? other := by
      rcases tearsDown with rfl | rfl
      all_goals
        refine (get?_settleTask_of_ne own _).trans ?_
        have keeps (flushFirst : Bool) :=
          (Changes.beginTearDown (W := []) { d with nextTask := d.nextTask + 1 } now
            flushFirst).keeps
        exact congrArg (fun tasks : Assoc Nat Task => tasks.get? other) (keeps _).1
    exact ⟨t, kept.symm.trans bound, member⟩

/-- What is found in a store that a teardown has emptied was brought by a task that was under way
when the teardown was called. -/
theorem Empties.exists_brings {operation : Operation}
    (tearsDown : operation = .destroy ∨ operation = .shutdown) {now : Nat} {h : Handle}
    {actions : List (Nat × Action)}
    (empties : (d.act now (.start operation)).Empties d.nextTask h actions)
    (uncalled : ∀ a ∈ actions, ∀ operation, a.2 ≠ .start operation) {key : CacheKey} {value : Json}
    (there : (((d.act now (.start operation)).run actions).store h.cell).resident? key =
      some value) :
    ∃ id w, d.Brings id w ∧ w.isAt h.cell key = true ∧ w.value = value := by
  obtain ⟨before, a, after, rfl, -, empty, -⟩ := empties
  rw [List.append_cons] at uncalled there
  have early := LeftAlone.run (d.act now (.start operation)) (before ++ [a])
    fun a member => uncalled a (List.mem_append_left _ member)
  have late := LeftAlone.run ((d.act now (.start operation)).run (before ++ [a])) after
    fun a member => uncalled a (List.mem_append_right _ member)
  rw [run_append] at there
  obtain ⟨id, w, brings, here, same⟩ := late.exists_brings_of_isEmpty empty there
  exact ⟨id, w, (early.brings id w brings).of_start tearsDown, here, same⟩

/-- What holds when a shutdown returns: nothing waits and no drain is running, every item was
persisted, was abandoned after its last attempt, or had been lost when the shutdown was called,
whatever is found in a store with a name was brought by a task that was under way when the shutdown
was called, so that the other stores are empty, and unless a caller asks for something more, the
timed drain and the sweeps never do anything again. -/
structure Concluded (maxRetries : Nat) (items : List Item) (called d : Depot) : Prop where
  empty : d.backlog.queue.items = []
  down : d.backlog.queue.draining = false
  idle : ∀ id w, d.backlog.workers.get? id = some w → w.holdsFlag = false
  writes : ∀ item ∈ items, ∃ place failures,
    d.backlog.Accounted maxRetries item place failures ∧
      (place = .persisted ∨ place = .abandoned ∨
        place = .lost ∧ called.backlog.placesOf item.ticket = [(.lost, item.after failures)])
  found : ∀ h ∈ d.handles, ∀ key value, (d.store h.cell).resident? key = some value →
    ∃ id t w, called.tasks.get? id = some t ∧
      (t.isCallers = true ∨ t.reloadId?.isSome = true ∨ t.isStoring = true) ∧
      w ∈ t.brings ∧ w.isAt h.cell key = true ∧ w.value = value
  cleared : ∀ h ∈ d.handles,
    (∀ id t, called.tasks.get? id = some t → ∀ w ∈ t.brings, w.handle.cell ≠ h.cell) →
      (d.store h.cell).isEmpty = true
  still : ∀ more : List (Nat × Action), (∀ a ∈ more, ∀ operation, a.2 ≠ .start operation) →
    ∀ now, (d.run more).runTimer now = d.run more ∧
      ∀ name, (d.run more).runSweep now name = d.run more

theorem new_backlog {d : Depot} {now : Nat} {store : StoreConfig}
    {writeBehind : WriteBehindConfig} (made : Depot.new now store writeBehind = .ok d) :
    d.backlog = .new writeBehind.batchSize writeBehind.maxRetries := by
  rw [Depot.new] at made
  split at made
  · simp at made
  · cases made
    rfl

/-- Where nothing waits and no drain is running, an item has been persisted or abandoned unless it
was lost, and if nothing was lost since, it had been lost before. -/
theorem exists_final_place {items : List Item} {called d : Depot}
    (was : Ledger items called.backlog) (h : Ledger items d.backlog)
    (empty : d.backlog.queue.items = []) (down : d.backlog.queue.draining = false)
    (kept : d.backlog.lost = called.backlog.lost) {item : Item} (member : item ∈ items) :
    ∃ place failures, d.backlog.Accounted d.backlog.queue.maxRetries item place failures ∧
      (place = .persisted ∨ place = .abandoned ∨
        place = .lost ∧ called.backlog.placesOf item.ticket = [(.lost, item.after failures)]) := by
  obtain ⟨place, failures, accounted⟩ := h.accounted member
  have there : (place, item.after failures) ∈ d.backlog.placesOf item.ticket := by
    rw [accounted.places]
    exact List.mem_singleton_self _
  have final := h.guarded.isFinal empty down there
  refine ⟨place, failures, accounted, ?_⟩
  cases place with
  | queued => cases final
  | inFlight => cases final
  | persisted => exact .inl rfl
  | abandoned => exact .inr (.inl rfl)
  | lost =>
    have early : WriteBehind.Fate.lost (item.after failures) ∈ d.backlog.lost :=
      Backlog.mem_lost_iff.mpr there
    rw [kept] at early
    have was' := Backlog.mem_lost_iff.mp early
    obtain ⟨place, failures', before⟩ := was.accounted member
    rw [Item.after_ticket, before.places, List.mem_singleton] at was'
    exact .inr (.inr ⟨rfl, by rw [before.places, was']⟩)

/-- Whatever is under way when a shutdown is called, and in whatever order it goes on: if nothing
more is called and nothing is cancelled, the shutdown has settled every write when it returns. It
has emptied every store with a name since it was called, and what is found there was written after
that. -/
theorem shutdown_concludes {made : Depot} {start : Nat} {store : StoreConfig}
    {writeBehind : WriteBehindConfig} (new : Depot.new start store writeBehind = .ok made)
    (before later : List (Nat × Action)) (now : Nat)
    (unasked : ∀ a ∈ later, a.2.isUnasked = true)
    (returns : ((made.run before).act now (.start .shutdown)).Returns
      (made.run before).nextTask later) :
    let last := ((made.run before).act now (.start .shutdown)).run later
    Concluded writeBehind.maxRetries (issued 0 before) (made.run before) last ∧
      ∀ h ∈ last.handles, ((made.run before).act now (.start .shutdown)).Empties
        (made.run before).nextTask h later := by
  intro last
  have sound : (made.run before).Sound := (sound_new new).run before
  have paced : (made.run before).Paced := (paced_new new).run before
  have done : last.ShutDown (made.run before).nextTask :=
    shutDown_of_returns (shuttingDown_start sound now) (nextTask_lt_start _ now _) returns unasked
  have uncalled : ∀ a ∈ later, ∀ operation, a.2 ≠ .start operation :=
    fun a member => Action.uncalled_of_isUnasked (unasked a member)
  have emptied : ∀ h ∈ last.handles, ((made.run before).act now (.start .shutdown)).Empties
      (made.run before).nextTask h later := by
    obtain ⟨earlier, emptying, rfl, -, empties⟩ := empties_of_returns (.inr rfl) returns
    intro h member
    have names : (((made.run before).act now (.start .shutdown)).run earlier).SameNames last := by
      have alone := LeftAlone.run (((made.run before).act now (.start .shutdown)).run earlier)
        emptying fun a member => uncalled a (List.mem_append_right _ member)
      rw [← run_append] at alone
      exact alone.names
    have inOrder := ((paced.act now (.start .shutdown)).run earlier).inOrder
    have inOrder' : last.registry.InOrder := ((paced.act now (.start .shutdown)).run _).inOrder
    exact .prepend (empties h ((names.mem_handles_iff inOrder inOrder').mp member))
  have found : ∀ h ∈ last.handles, ∀ key value, (last.store h.cell).resident? key = some value →
      ∃ id w, (made.run before).Brings id w ∧ w.isAt h.cell key = true ∧ w.value = value :=
    fun h member _ _ there => (emptied h member).exists_brings (.inr rfl) uncalled there
  have fresh : Ledger [] made.backlog := new_backlog new ▸ .new _ _
  have ledger : Ledger (issued 0 before) (made.run before).backlog := ledger_run fresh before
  have lost : last.backlog.lost = (made.run before).backlog.lost :=
    (lost_run _ unasked).trans (lost_act _ now (by simp))
  have maxRetries : last.backlog.queue.maxRetries = writeBehind.maxRetries := by
    rw [maxRetries_run (guarded_act ledger.guarded now _), maxRetries_act ledger.guarded,
      maxRetries_run fresh.guarded, new_backlog new]
    rfl
  have ledger' : Ledger (issued 0 before) last.backlog := by
    have ran := ledger_run (ledger_act ledger now (.start .shutdown)) later
    rw [issued_of_unasked _ unasked] at ran
    simpa [issued, Action.pushed?] using ran
  have down := done.settled.idle.not_draining done.sound.resting
  refine ⟨⟨done.settled.idle.items, down, ?_, ?_, ?_, ?_, ?_⟩, emptied⟩
  · intro id w bound
    exact ledger'.guarded.not_holdsFlag down bound
  · intro item member
    rw [← maxRetries]
    exact exists_final_place ledger ledger' done.settled.idle.items down lost member
  · intro h member key value there
    obtain ⟨id, w, ⟨t, bound, brings⟩, here, same⟩ := found h member key value there
    exact ⟨id, t, w, bound, Task.cases_of_mem_brings brings, brings, here, same⟩
  · intro h member elsewhere
    apply Store.isEmpty_of_resident?
    intro key
    rw [Option.eq_none_iff_forall_ne_some]
    intro value there
    obtain ⟨id, w, ⟨t, bound, brings⟩, here, -⟩ := found h member key value there
    exact elsewhere id t bound w brings (Write.isAt_iff.mp here).1
  · intro more uncalled now
    have still := done.still.run uncalled
    exact ⟨still.runTimer now, still.runSweep now⟩

/-- A write whose first attempt fails, and a tick of the timed drain that makes it. -/
def tickingWrites : List (Nat × Action) :=
  [(0, .start (.writeBehind "default" ⟨"k"⟩ (.string "v") none 10
      ⟨"a", [{ delay := 3, failure := some { message := "down" } }, { delay := 2 }]⟩)),
    (5, .drainTimer)]

/-- The tick ends, a sweep has its turn, and the shutdown goes on with its flush. -/
def remainingTurns : List (Nat × Action) :=
  [(8, .drainTimer), (8, .sweep "default"), (8, .resume 1), (10, .resume 1), (10, .resume 1)]

/-- A shutdown in the middle of a tick persists what the tick has put back. -/
theorem tickingWrites_concluded :
    ∃ made, Depot.new 0 ⟨9, none, some (.ofMillis 7)⟩ ⟨1, 1, some (.ofMillis 5)⟩ = .ok made ∧
      Concluded 1 (issued 0 tickingWrites) (made.run tickingWrites)
        (((made.run tickingWrites).act 6 (.start .shutdown)).run remainingTurns) ∧
      ((((made.run tickingWrites).act 6 (.start .shutdown)).run remainingTurns).backlog.placesOf
        0).map (fun x => (x.1, x.2.retries)) = [(.persisted, 1)] := by
  have new : Depot.new 0 ⟨9, none, some (.ofMillis 7)⟩ ⟨1, 1, some (.ofMillis 5)⟩ = .ok _ := rfl
  refine ⟨_, new, (shutdown_concludes new tickingWrites remainingTurns 6 (by decide) ?_).1, rfl⟩
  exact ⟨rfl, rfl, rfl, rfl, rfl, rfl⟩

/-- A depot with a second store, in which a reload of a value in the first one waits for its
loader. -/
def awaitingReload (d : Depot) : Depot :=
  d.run [(0, .start (.create "s" ⟨9, none, none⟩)),
    (0, .start (.set (.named "default") ⟨"k"⟩ (.string "old") (some (.ofMillis 1000)))),
    (900, .start (.refreshAhead "default" ⟨"k"⟩ (some (.ofMillis 1000)) .default
      { label := "r", delay := 50, outcome := .returns (some (.string "reloaded")) })),
    (900, .resume 3)]

/-- The loader answers when the first store has been emptied and the second one has not. -/
def reloadBetweenStores : List (Nat × Action) :=
  [(950, .clear 4 ⟨"default", 0⟩), (950, .resume 3), (950, .clear 4 ⟨"s", 1⟩)]

/-- No caller waits for anything when a shutdown is called, and nothing is asked for after that: a
reload that ends between two stores leaves a store filled when the shutdown returns. -/
theorem shutdown_returns_with_filled_store :
    ∃ made, Depot.new 0 ⟨9, none, none⟩ ⟨10, 3, none⟩ = .ok made ∧
      made.awaitingReload.isUnattended = true ∧
      (∀ a ∈ reloadBetweenStores, a.2.isUnasked = true) ∧
      (made.awaitingReload.act 950 (.start .shutdown)).Returns made.awaitingReload.nextTask
        reloadBetweenStores ∧
      let last := (made.awaitingReload.act 950 (.start .shutdown)).run reloadBetweenStores
      last.handles = [⟨"default", 0⟩, ⟨"s", 1⟩] ∧
      (last.store 0).resident? ⟨"k"⟩ = some (.string "reloaded") := by
  have new : Depot.new 0 ⟨9, none, none⟩ ⟨10, 3, none⟩ = .ok _ := rfl
  exact ⟨_, new, rfl, by decide, ⟨rfl, rfl, rfl, rfl⟩, rfl, rfl⟩

end Depot
end CacheDepot
