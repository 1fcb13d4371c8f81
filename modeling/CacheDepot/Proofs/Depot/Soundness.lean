import CacheDepot.Proofs.Depot.Workers

/-!
# Every reachable depot is sound

Each operation, each part of a task, of the timed drain and of a sweep, and giving a task up leave
a sound depot sound.
-/

namespace CacheDepot.Depot

open WriteBehind (Backlog)

/-- A depot that an operation has left, with the task that the operation leaves behind. -/
structure SoundAfter (p : Progress × Depot) : Prop where
  sound : p.2.Sound
  staffed : ∀ t, p.1 = .waits t → t.Staffed p.2.backlog p.2.timerWorker?

namespace SoundAfter

variable {d : Depot} {p : Progress × Depot}

theorem answered {answer : Answer} (h : d.Sound) : SoundAfter (.answered answer, d) := ⟨h, nofun⟩

theorem settleTask (h : SoundAfter p) (id : Nat) : (settleTask id p).Sound := by
  obtain ⟨progress, d⟩ := p
  cases progress with
  | answered answer => exact h.sound.insertTask (Task.staffed_of_worker? rfl) id d.nextTask
  | waits t => exact h.sound.insertTask (h.staffed t rfl) id d.nextTask

end SoundAfter

namespace Sound

variable {d : Depot}

theorem awaitWorker (h : d.Sound) (now : Nat) {worker : Nat} {waiting : Nat → Task}
    (waits : (waiting worker).worker? = some worker)
    (staffed : (waiting worker).Staffed d.backlog d.timerWorker?)
    {next : Depot → Answer → Progress × Depot}
    (keeps : ∀ (d : Depot) answer, d.Sound → SoundAfter (next d answer)) :
    SoundAfter (d.awaitWorker now worker waiting next) := by
  have rests := h.resting.await now worker
  have on := h.resting.leavesOthers_await now worker
  have apart := staffed.apart worker waits
  rw [Depot.awaitWorker]
  cases ended : (d.onBacklog fun b => b.resume now worker).backlog.report? worker with
  | none =>
    have same : (d.backlog.resume now worker).collect worker = d.backlog.resume now worker :=
      Backlog.collect_of_running ended
    rw [same] at rests on
    refine ⟨h.withBacklog rests on apart rfl rfl rfl, ?_⟩
    intro t same
    cases same
    exact staffed.leavesOthers on
  | some report => exact keeps _ _ (h.withBacklog rests on apart rfl rfl rfl)

theorem tearDown (h : d.Sound) (answer : Answer) : SoundAfter (d.tearDown answer) := by
  refine ⟨h.stopSweepers, ?_⟩
  intro t same
  cases same
  exact Task.staffed_of_worker? rfl

theorem clearNext (h : d.Sound) (left : List Handle) (answer : Answer) (handle : Handle) :
    SoundAfter (d.clearNext left answer handle) := by
  have cleared := h.storesOnly (.clearStore d handle)
  rw [Depot.clearNext]
  split
  · exact .answered cleared
  · refine ⟨cleared, ?_⟩
    intro t same
    cases same
    exact Task.staffed_of_worker? rfl

theorem runWorker (h : d.Sound) (now : Nat) {w : WriteBehind.Worker} (fresh : w.Fresh) :
    SoundAfter (d.runWorker now w) := by
  have staffed := h.staffed_startWorker (w := w) (t := .awaiting d.backlog.nextWorker) rfl
    (by simp)
  exact (h.startWorker fresh).awaitWorker now rfl staffed fun _ _ h => .answered h

theorem afterTimer (h : d.Sound) (now : Nat) (flushFirst : Bool) :
    SoundAfter (d.afterTimer now flushFirst) := by
  cases flushFirst with
  | false => exact h.tearDown .nothing
  | true =>
    exact (h.startWorker WriteBehind.Worker.fresh_newFlush).awaitWorker now rfl
      (h.staffed_startWorker rfl fun _ _ => rfl) fun _ _ h => h.tearDown _

theorem beginTearDown (h : d.Sound) (now : Nat) (flushFirst : Bool) :
    SoundAfter (d.beginTearDown now flushFirst) := by
  unfold Depot.beginTearDown
  split
  · dsimp only
    split
    · refine ⟨h.stopTimer, ?_⟩
      intro t same
      cases same
      exact Task.staffed_of_worker? rfl
    · exact h.stopTimer.afterTimer now flushFirst
  · exact h.afterTimer now flushFirst

/-! ## The timed drain and the sweeps -/

theorem withoutTimer (h : d.Sound) : { d with drainTimer := none }.Sound :=
  ⟨h.resting, fun id t bound => (h.tasks id t bound).untimed, nofun, h.sweepers⟩

/-- The timed drain goes on with a drain of its own. -/
theorem continueTick (h : { d with drainTimer := none }.Sound) (now : Nat) {timer : DrainTimer}
    {worker : Nat} {w : WriteBehind.Worker}
    (apart : ∀ id t, d.tasks.get? id = some t → t.worker? ≠ some worker)
    (bound : d.backlog.workers.get? worker = some w) (drain : w.isFlush = false)
    (ticking : timer.ticker.isTicking = true)
    (stopped : timer.ticker.held = false → timer.ticker.stopping = true) :
    (d.continueTick now timer worker).Sound := by
  have rests := h.resting.await now worker
  have on := h.resting.leavesOthers_await now worker
  have tasks : ∀ timed, (∀ own, timed = some own → own = worker) →
      ∀ id t, d.tasks.get? id = some t →
        t.Staffed ((d.backlog.resume now worker).collect worker) timed := by
    intro timed own id t found
    have staffed := (h.tasks id t found).leavesOthers on
    refine ⟨staffed.known, ?_, staffed.flush⟩
    intro other waits same
    exact apart id t found (own other same ▸ waits)
  rw [Depot.continueTick, Depot.awaitWorker]
  cases ended : (d.onBacklog fun b => b.resume now worker).backlog.report? worker with
  | some report =>
    refine ⟨rests, tasks none (by simp), ?_, h.sweepers⟩
    intro timer' same
    cases same
    refine ⟨timer.ticker.isTicking_endTick, by simp, fun dropped => .inl ?_⟩
    rw [Ticker.held_endTick] at dropped
    exact Ticker.phase_endTick ticking (stopped dropped)
  | none =>
    rw [Backlog.collect_of_running (b := d.backlog.resume now worker) ended] at rests tasks
    refine ⟨rests, tasks (some worker) fun own same => (Option.some.inj same).symm, ?_, h.sweepers⟩
    intro timer' same
    cases same
    refine ⟨ticking, ?_, fun dropped => .inr ⟨ticking, stopped dropped⟩⟩
    intro id same
    cases same
    obtain ⟨w', bound', -, idle, kind⟩ := h.resting.resume now bound
    have running : w'.report? = none := by
      have report : (d.backlog.resume now worker).report? worker = none := ended
      rwa [Backlog.report?, bound', Option.bind_some] at report
    exact ⟨w', bound', kind.trans drain, WriteBehind.Worker.waits_of_not_ready idle running⟩

/-- The timed drain rests until its next tick. -/
theorem withTimer (h : { d with drainTimer := none }.Sound) {ticker : Ticker}
    (resting : ticker.isTicking = false) (stopped : ticker.held = false → ticker.phase = .ended) :
    { d with drainTimer := some { ticker } }.Sound := by
  refine ⟨h.resting, h.tasks, ?_, h.sweepers⟩
  intro timer same
  cases same
  exact ⟨resting, by simp, fun dropped => .inl (stopped dropped)⟩

theorem runTimer (h : d.Sound) (now : Nat) : (d.runTimer now).Sound := by
  unfold Depot.runTimer
  cases found : d.drainTimer with
  | none => exact h
  | some timer =>
    have staffed := h.timer timer found
    have timed : d.timerWorker? = timer.worker := by rw [timerWorker?, found, Option.bind_some]
    dsimp only
    cases drains : timer.worker with
    | some worker =>
      dsimp only
      split
      · obtain ⟨w, bound, drain, -⟩ := staffed.drains worker drains
        have ticking : timer.ticker.isTicking = true := by
          rw [staffed.ticks, drains, Option.isSome_some]
        refine h.withoutTimer.continueTick now (fun id t found waits => ?_) bound drain ticking ?_
        · exact (h.tasks id t found).apart worker waits (timed.trans drains)
        · intro dropped
          rcases staffed.stopped dropped with ended | ⟨-, stopping⟩
          · rw [Ticker.isTicking, ended] at ticking
            simp at ticking
          · exact stopping
      · exact h
    | none =>
      dsimp only
      split
      · rename_i ticker begun
        obtain ⟨going, ticking, held⟩ := Ticker.isTicking_beginTick? begun
        have kept : ¬ ticker.held = false := by
          intro dropped
          rcases staffed.stopped (held ▸ dropped) with ended | ⟨busy, -⟩
          · exact going ended
          · rw [staffed.ticks, drains] at busy
            simp at busy
        split
        · apply h.withoutTimer.withTimer ticker.isTicking_endTick
          intro dropped
          exact absurd (ticker.held_endTick.symm.trans dropped) kept
        · have started := h.withoutTimer.startWorker WriteBehind.Worker.fresh_newDrain
          refine started.continueTick (d := (d.startWorker .newDrain).2) now
            (fun id t found waits => ?_) (Assoc.get?_insert_self ..) rfl ticking
            fun dropped => absurd dropped kept
          exact Nat.lt_irrefl _ ((h.tasks id t found).known _ waits)
      · exact h

theorem runSweep (h : d.Sound) (now : Nat) (name : String) : (d.runSweep now name).Sound := by
  unfold Depot.runSweep
  split
  · rename_i registered found
    split
    · rename_i ticker begun
      obtain ⟨sweeper, sweeps, begun⟩ := Option.bind_eq_some_iff.mp begun
      obtain ⟨going, -, held⟩ := Ticker.isTicking_beginTick? begun
      have kept : ticker.endTick.held = true := by
        rw [Ticker.held_endTick, held]
        exact (h.sweepers.get? found sweeper sweeps).resolve_right going
      refine ⟨h.resting, h.tasks, h.timer, h.sweepers.insert name ?_⟩
      intro sweeper same
      cases same
      exact .inl kept
    · exact h
  · exact h

/-! ## Operations and tasks -/

theorem createCache (h : d.Sound) (now : Nat) (name : String) (config : StoreConfig)
    {handle : Handle} {d' : Depot} (created : d.createCache now name config = .ok (handle, d')) :
    d'.Sound := by
  rw [Depot.createCache] at created
  split at created
  · simp at created
  · cases created
    refine ⟨h.resting, h.tasks, h.timer, h.sweepers.insert name ?_⟩
    intro sweeper same
    obtain ⟨interval, -, rfl⟩ := Option.map_eq_some_iff.mp same
    exact .inl rfl

theorem spawn {t : Task} (h : d.Sound) (staffed : t.Staffed d.backlog d.timerWorker?) :
    (d.spawn t).2.Sound :=
  h.insertTask staffed d.nextTask (d.nextTask + 1)

theorem push (h : d.Sound) (now : Nat) (key : CacheKey) (value : Json) (persist : Persist) :
    { d with backlog := d.backlog.push now key value persist }.Sound :=
  h.withBacklog (h.resting.push now key value persist)
    (d.backlog.leavesOthers_push d.backlog.nextWorker now key value persist) h.untimed rfl rfl rfl

theorem writeBehind (h : d.Sound) (now : Nat) (store : String) (key : CacheKey) (value : Json)
    (ttl : Option Duration) (batchSize : Nat) (persist : Persist) :
    (d.writeBehind now store key value ttl batchSize persist).2.Sound := by
  have pushed := (h.storesOnly (.setKey d now (d.getCache store) key ttl value)).push now key value
    persist
  unfold Depot.writeBehind
  dsimp only
  split
  · have started := pushed.startWorker WriteBehind.Worker.fresh_newDrain
    exact started.spawn (pushed.staffed_startWorker rfl (by simp))
  · exact pushed

theorem load (h : d.Sound) (now : Nat) (handle : Handle) (key : CacheKey) (ttl : Option Duration)
    (loader : Loader) : SoundAfter (d.load now handle key ttl loader) := by
  have called := StoresOnly.record d (.loaderCalled loader.label)
  unfold Depot.load
  split
  · exact .answered (h.storesOnly (called.trans (.finishLoad _ now handle key ttl _)))
  · refine ⟨h.storesOnly called, ?_⟩
    intro t same
    cases same
    exact Task.staffed_of_worker? rfl

theorem cacheAside (h : d.Sound) (now : Nat) (store : String) (key : CacheKey)
    (ttl : Option Duration) (loader : Loader) :
    SoundAfter (d.cacheAside now store key ttl loader) := by
  have read : d.StoresOnly (d.getKey now (d.getCache store) key).2 := .onStore d _ _
  rw [Depot.cacheAside]
  generalize d.getKey now (d.getCache store) key = result at read ⊢
  obtain ⟨value, d'⟩ := result
  cases value with
  | some value => exact .answered (h.storesOnly read)
  | none => exact (h.storesOnly read).load now _ key ttl loader

theorem startReload (h : d.Sound) (handle : Handle) (key : CacheKey) (ttl : Option Duration)
    (loader : Loader) : (d.startReload handle key ttl loader).Sound := by
  unfold Depot.startReload
  dsimp only
  split
  · exact h
  · exact (h.storesOnly (.withReloading d _)).spawn (Task.staffed_of_worker? rfl)

theorem refreshAhead (h : d.Sound) (now : Nat) (store : String) (key : CacheKey)
    (ttl : Option Duration) (threshold : Threshold) (loader : Loader) :
    SoundAfter (d.refreshAhead now store key ttl threshold loader) := by
  have read : d.StoresOnly (d.getEntry now (d.getCache store) key).2 := .onStore d _ _
  rw [Depot.refreshAhead]
  generalize d.getEntry now (d.getCache store) key = result at read ⊢
  obtain ⟨entry, d'⟩ := result
  cases entry with
  | none => exact (h.storesOnly read).load now _ key ttl loader
  | some e =>
    dsimp only
    split
    · exact .answered ((h.storesOnly read).startReload _ key ttl loader)
    · exact .answered (h.storesOnly read)

theorem afterPersist (h : d.Sound) (handle : Handle) (key : CacheKey) (value : Json)
    (ttl : Option Duration) (attempt : Attempt) :
    SoundAfter (Depot.afterPersist handle key value ttl attempt, d) := by
  rw [Depot.afterPersist]
  cases attempt.failure with
  | some cause => exact .answered h
  | none =>
    refine ⟨h, ?_⟩
    intro t same
    cases same
    exact Task.staffed_of_worker? rfl

theorem writeThrough (h : d.Sound) (now : Nat) (store : String) (key : CacheKey) (value : Json)
    (ttl : Option Duration) (persist : Persist) :
    SoundAfter (d.writeThrough now store key value ttl persist) := by
  have called := StoresOnly.record d (.persistCalled persist.label 0 value)
  rw [Depot.writeThrough]
  split
  · exact (h.storesOnly called).afterPersist _ key value ttl _
  · refine ⟨h.storesOnly called, ?_⟩
    intro t same
    cases same
    exact Task.staffed_of_worker? rfl

theorem start (h : d.Sound) (now : Nat) (operation : Operation) :
    SoundAfter (d.start now operation) := by
  have stores : ∀ {d' : Depot} {answer : Answer}, d.StoresOnly d' →
      SoundAfter (.answered answer, d') := fun only => .answered (h.storesOnly only)
  cases operation with
  | get s key => exact stores (.onStore d _ _)
  | getEntry s key => exact stores (.onStore d _ _)
  | peek s key => exact stores (.refl d)
  | set s key value ttl => exact stores (.onStore d _ _)
  | delete s key => exact stores (.onStore d _ _)
  | sweep s => exact stores (.onStore d _ _)
  | clear s => exact stores (.onStore d _ _)
  | stats s => exact stores (.refl d)
  | create name config =>
    rw [Depot.start]
    split
    · rename_i handle d' created
      exact .answered (h.createCache now name config created)
    · exact stores (.refl d)
  | warm store items => exact stores (.warm d now store items)
  | invalidate store key => exact stores (.onStore d _ _)
  | cacheAside store key ttl loader => exact h.cacheAside now store key ttl loader
  | refreshAhead store key ttl threshold loader =>
    exact h.refreshAhead now store key ttl threshold loader
  | writeThrough store key value ttl persist =>
    exact h.writeThrough now store key value ttl persist
  | writeBehind store key value ttl batchSize persist =>
    exact .answered (h.writeBehind now store key value ttl batchSize persist)
  | tierGet first second key ttl => exact stores (.tierGet d now key ttl first second)
  | tierSet first second key value ttl => exact stores (.tierSet d now key ttl first second value)
  | push key value persist => exact .answered (h.push now key value persist)
  | drain => exact h.runWorker now WriteBehind.Worker.fresh_newDrain
  | flush => exact h.runWorker now WriteBehind.Worker.fresh_newFlush
  | destroy => exact h.beginTearDown now false
  | shutdown => exact h.beginTearDown now true

theorem resumeTask (h : d.Sound) (now : Nat) {id : Nat} {t : Task}
    (bound : d.tasks.get? id = some t) : (d.resumeTask now id t).Sound := by
  have staffed := h.tasks id t bound
  cases t with
  | loading handle key ttl loader due =>
    exact (SoundAfter.answered
      (h.storesOnly (.finishLoad d now handle key ttl loader.outcome))).settleTask id
  | persisting handle key value ttl attempt due =>
    exact (h.afterPersist handle key value ttl attempt).settleTask id
  | caching handle key value ttl =>
    exact (SoundAfter.answered (h.storesOnly (.setKey d now handle key ttl value))).settleTask id
  | awaiting worker => exact (h.awaitWorker now rfl staffed fun _ _ h => .answered h).settleTask id
  | stopping flushFirst => exact (h.afterTimer now flushFirst).settleTask id
  | flushing worker => exact (h.awaitWorker now rfl staffed fun _ _ h => h.tearDown _).settleTask id
  | clearing left answer =>
    exact (SoundAfter.answered (h.storesOnly (.clearStores d left))).settleTask id
  | reloadReady handle key ttl loader =>
    have called := StoresOnly.record d (.loaderCalled loader.label)
    rw [Depot.resumeTask]
    split
    · exact (h.storesOnly (called.trans (.finishReload _ now handle key ttl _))).dropTask id
    · exact (h.storesOnly called).insertTask (Task.staffed_of_worker? rfl) id d.nextTask
  | reloading handle key ttl loader due =>
    exact (h.storesOnly (.finishReload d now handle key ttl loader.outcome)).dropTask id
  | draining worker =>
    have awaited : SoundAfter (d.awaitWorker now worker Task.draining finish) :=
      h.awaitWorker now rfl staffed fun _ _ h => .answered h
    rw [Depot.resumeTask]
    generalize d.awaitWorker now worker Task.draining finish = result at awaited ⊢
    obtain ⟨progress, d'⟩ := result
    cases progress with
    | answered answer => exact awaited.sound.dropTask id
    | waits t => exact awaited.sound
  | storing handle key value ttl =>
    exact (h.storesOnly (.setKey d now handle key (some ttl) value)).dropTask id
  | ended answer => exact h

theorem abort (h : d.Sound) (id : Nat) : (d.abort id).Sound := by
  unfold Depot.abort
  cases found : d.tasks.get? id with
  | none => exact h
  | some t =>
    have cancel : ∀ worker, t.worker? = some worker →
        ((d.onBacklog fun b => b.cancel worker).dropTask id).Sound := by
      intro worker waits
      have cancelled : (d.onBacklog fun b => b.cancel worker).Sound :=
        h.withBacklog (h.resting.cancel worker) (d.backlog.leavesOthers_cancel worker)
          ((h.tasks id t found).apart worker waits) rfl rfl rfl
      exact cancelled.dropTask id
    cases t with
    | awaiting worker => exact cancel worker rfl
    | flushing worker => exact cancel worker rfl
    | draining worker => exact cancel worker rfl
    | ended answer => exact h
    | reloadReady handle key ttl loader => exact (h.storesOnly (.withReloading d _)).dropTask id
    | reloading handle key ttl loader due => exact (h.storesOnly (.withReloading d _)).dropTask id
    | _ => exact h.dropTask id

theorem emptyOne (h : d.Sound) (id : Nat) (handle : Handle) : (d.emptyOne id handle).Sound := by
  unfold Depot.emptyOne
  split
  · split
    · exact (h.clearNext _ _ handle).settleTask id
    · exact h
  · exact h

theorem act (h : d.Sound) (now : Nat) (a : Action) : (d.act now a).Sound := by
  cases a with
  | start operation =>
    have numbered : { d with nextTask := d.nextTask + 1 }.Sound :=
      ⟨h.resting, h.tasks, h.timer, h.sweepers⟩
    exact (numbered.start now operation).settleTask d.nextTask
  | resume id =>
    rw [Depot.act, Depot.resume]
    split
    · rename_i t bound
      split
      · exact h.resumeTask now bound
      · exact h
    · exact h
  | clear id handle => exact h.emptyOne id handle
  | drainTimer => exact h.runTimer now
  | sweep name => exact h.runSweep now name
  | abort id => exact h.abort id

theorem run (h : d.Sound) (actions : List (Nat × Action)) : (d.run actions).Sound := by
  induction actions generalizing d with
  | nil => exact h
  | cons first rest ih => exact ih (h.act first.1 first.2)

end Sound

theorem sound_new {d : Depot} {now : Nat} {store : StoreConfig} {writeBehind : WriteBehindConfig}
    (made : Depot.new now store writeBehind = .ok d) : d.Sound := by
  rw [Depot.new] at made
  split at made
  · simp at made
  · cases made
    refine ⟨Backlog.resting_new _ _, ?_, ?_, ?_, by simp⟩
    · intro _ _ bound
      cases bound
    · intro timer same
      obtain ⟨interval, -, rfl⟩ := Option.map_eq_some_iff.mp same
      refine ⟨?_, by simp, by simp [Ticker.start]⟩
      show (Ticker.start now drainTimerName interval).isTicking = false
      rw [Ticker.isTicking, Ticker.start]
      cases interval.isZero <;> rfl
    · intro sweeper same
      obtain ⟨interval, -, rfl⟩ := Option.map_eq_some_iff.mp same
      exact .inl rfl

end CacheDepot.Depot
