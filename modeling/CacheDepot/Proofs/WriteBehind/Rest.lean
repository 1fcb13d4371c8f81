import CacheDepot.Proofs.WriteBehind.Waiting

/-!
# A backlog at rest

When none of its workers is at work, every worker of a backlog has not begun or waits. Whoever is
resumed comes to a wait or to its end, so the backlog is at rest again, and a flush that came to
its end has just seen the flag down and the queue empty. Once no item waits and none is being
attempted, this stays so until something is pushed.
-/

namespace CacheDepot.WriteBehind

namespace Backlog

variable {b b' : Backlog} {id : Nat} {w : Worker}

/-- The state of a backlog at a moment when none of its workers is at work. -/
structure Resting (b : Backlog) : Prop where
  guarded : b.Guarded
  size : 0 < b.queue.batchSize
  fits : b.course.Fits b.queue.maxRetries
  parked : ∀ id w, b.workers.get? id = some w → w.Parked

theorem resting_new (batchSize maxRetries : Nat) : (new batchSize maxRetries).Resting where
  guarded := guarded_new batchSize maxRetries
  size := Nat.lt_of_lt_of_le Nat.one_pos (Nat.le_max_right _ _)
  fits := nofun
  parked := fun _ _ bound => nomatch bound

theorem Resting.push (h : b.Resting) (now : Nat) (key : CacheKey) (value : Json)
    (persist : Persist) : (b.push now key value persist).Resting := by
  refine ⟨h.guarded.push now key value persist, h.size, ?_, h.parked⟩
  intro item member
  rcases List.mem_append.mp member with waiting | busy
  · rcases List.mem_append.mp waiting with old | new
    · exact h.fits item (List.mem_append_left _ old)
    · obtain rfl := List.mem_singleton.mp new
      exact Nat.zero_le _
  · exact h.fits item (List.mem_append_right _ busy)

theorem Resting.onward (h : b.Resting) (on : b.Onward b')
    (parked : ∀ id w, b'.workers.get? id = some w → w.Parked) : b'.Resting where
  guarded := on.guarded
  size := on.batchSize ▸ h.size
  fits := on.maxRetries ▸ on.course.fits h.fits
  parked := parked

theorem Resting.start (h : b.Resting) (fresh : w.Fresh) : (b.start w).2.Resting := by
  apply h.onward (h.guarded.start fresh.not_holdsFlag)
  intro id v bound
  rw [Backlog.start, Assoc.get?_insert] at bound
  split at bound
  · cases bound
    exact fresh.parked
  · exact h.parked id v bound

theorem Resting.cancel (h : b.Resting) (id : Nat) : (b.cancel id).Resting := by
  apply h.onward (h.guarded.cancel id)
  intro other v bound
  rw [Backlog.cancel] at bound
  split at bound
  · rw [Assoc.get?_erase] at bound
    split at bound
    · simp at bound
    · exact h.parked other v bound
  · exact h.parked other v bound

/-- A worker that is resumed comes to a wait or to its end. -/
theorem Resting.resume (h : b.Resting) (now : Nat) (bound : b.workers.get? id = some w) :
    ∃ w', (b.resume now id).workers.get? id = some w' ∧
      Worker.Steady (b.resume now id).queue w' ∧ w'.isReady now = false ∧
      w'.isFlush = w.isFlush := by
  have own : ∀ item ∈ w.inFlight, item ∈ taken b.workers := fun item member =>
    List.mem_flatMap.mpr ⟨(id, w), Assoc.get?_eq_some_iff.mp bound, member⟩
  have steady : Worker.Steady b.queue w := by
    refine ⟨h.size, fun item member => h.fits item ?_, (h.parked id w bound).loaded,
      (h.parked id w bound).checked b.queue⟩
    exact List.mem_append.mpr ((List.mem_append.mp member).imp_right (own item))
  obtain ⟨steady, idle, kind⟩ := steady.run now _ (w.distance_lt_patience now b.queue)
  rw [Backlog.resume, bound]
  exact ⟨_, Assoc.get?_insert_self .., steady, idle, kind⟩

/-- A worker that is still there after it was resumed and collected if it had ended waits. -/
theorem Resting.get?_await (h : b.Resting) (now : Nat)
    (bound : ((b.resume now id).collect id).workers.get? id = some w) :
    w.Parked ∧ w.wait?.isSome = true ∧
      ∃ old, b.workers.get? id = some old ∧ w.isFlush = old.isFlush := by
  cases found : b.workers.get? id with
  | none =>
    have idle : b.resume now id = b := by rw [Backlog.resume, found]
    rw [idle, Backlog.collect, report?, found] at bound
    simp [found] at bound
  | some old =>
    obtain ⟨new, bound', steady, idle, kind⟩ := h.resume now found
    have report : (b.resume now id).report? id = new.report? := by
      rw [report?, bound', Option.bind_some]
    rw [Backlog.collect, report] at bound
    split at bound
    · rw [Assoc.get?_erase_self] at bound
      simp at bound
    · rename_i running
      rw [bound'] at bound
      cases bound
      have waits := Worker.waits_of_not_ready idle (by simpa using running)
      exact ⟨⟨steady.loaded, .inr waits⟩, waits, old, rfl, kind⟩

/-- A worker that is resumed, and collected if it has ended, leaves all at rest again. -/
theorem Resting.await (h : b.Resting) (now id : Nat) :
    ((b.resume now id).collect id).Resting := by
  have resumed := h.guarded.resume now id
  apply h.onward (resumed.trans (resumed.guarded.collect id))
  intro other v bound
  by_cases same : other = id
  · subst same
    exact (h.get?_await now bound).1
  · rw [get?_collect_of_ne _ same, b.get?_resume_of_ne now same] at bound
    exact h.parked other v bound

/-- Whether at most worker `id` was touched, which then is of the kind that it was. -/
structure LeavesOthers (id : Nat) (b b' : Backlog) : Prop where
  nextWorker : b.nextWorker ≤ b'.nextWorker
  others : ∀ other < b.nextWorker, other ≠ id → b'.workers.get? other = b.workers.get? other
  kind : id < b.nextWorker → ∀ w, b'.workers.get? id = some w →
    ∃ old, b.workers.get? id = some old ∧ w.isFlush = old.isFlush

theorem leavesOthers_push (b : Backlog) (id now : Nat) (key : CacheKey) (value : Json)
    (persist : Persist) : b.LeavesOthers id (b.push now key value persist) :=
  ⟨Nat.le_refl _, fun _ _ _ => rfl, fun _ w bound => ⟨w, bound, rfl⟩⟩

theorem leavesOthers_start (b : Backlog) (w : Worker) :
    b.LeavesOthers b.nextWorker (b.start w).2 :=
  ⟨Nat.le_succ _, fun _ known _ => b.get?_start w known, fun new => absurd new (Nat.lt_irrefl _)⟩

theorem leavesOthers_cancel (b : Backlog) (id : Nat) : b.LeavesOthers id (b.cancel id) := by
  refine ⟨nextWorker_le_act b 0 (.cancel id), fun _ _ => b.get?_cancel_of_ne, fun _ w bound => ?_⟩
  rw [cancel] at bound
  cases found : b.workers.get? id with
  | none => simp [found] at bound
  | some old =>
    rw [found] at bound
    dsimp only at bound
    rw [Assoc.get?_erase_self] at bound
    simp at bound

theorem Resting.leavesOthers_await (h : b.Resting) (now id : Nat) :
    b.LeavesOthers id ((b.resume now id).collect id) where
  nextWorker := Nat.le_trans (nextWorker_le_act b now (.resume id))
    (nextWorker_le_act _ now (.collect id))
  others := fun _ _ differs =>
    (get?_collect_of_ne _ differs).trans (b.get?_resume_of_ne now differs)
  kind := fun _ _ bound => (h.get?_await now bound).2.2

/-! ## Nothing to do -/

/-- Whether no item waits and none is being attempted. -/
structure Idle (b : Backlog) : Prop where
  items : b.queue.items = []
  untaken : ∀ id w, b.workers.get? id = some w → w.inFlight = []

namespace Idle

/-- While the flag is down, an empty queue is all there is. -/
theorem of_not_draining (guarded : b.Guarded) (items : b.queue.items = [])
    (down : b.queue.draining = false) : b.Idle :=
  ⟨items, fun _ _ bound => Worker.inFlight_of_not_holdsFlag (guarded.not_holdsFlag down bound)⟩

theorem start (h : b.Idle) (fresh : w.Fresh) : (b.start w).2.Idle := by
  refine ⟨h.items, ?_⟩
  intro id v bound
  rw [Backlog.start, Assoc.get?_insert] at bound
  split at bound
  · cases bound
    exact Worker.inFlight_of_not_holdsFlag fresh.not_holdsFlag
  · exact h.untaken id v bound

theorem step (h : b.Idle) (now id : Nat) : (b.step now id).Idle := by
  rw [Backlog.step]
  cases bound : b.workers.get? id with
  | none => exact h
  | some w =>
    obtain ⟨items, untaken⟩ :=
      Worker.nil_of_move (w.step_move now b.queue) h.items (h.untaken id w bound)
    refine ⟨items, ?_⟩
    intro other v found
    rw [get?_put] at found
    split at found
    · cases found
      exact untaken
    · exact h.untaken other v found

theorem await (h : b.Idle) (now id : Nat) : ((b.resume now id).collect id).Idle := by
  have resumed : (b.resume now id).Idle := resume_induction (fun _ h => h.step now id) h
  rw [Backlog.collect]
  split
  · refine ⟨resumed.items, ?_⟩
    intro other v found
    rw [Assoc.get?_erase] at found
    split at found
    · cases found
    · exact resumed.untaken other v found
  · exact resumed

/-- With nothing to do nobody who waits has the flag up. -/
theorem not_draining (h : b.Idle) (resting : b.Resting) : b.queue.draining = false := by
  have none : flagsUp b.workers = 0 := by
    rw [flagsUp, List.countP_eq_zero]
    intro bound member
    have found := Assoc.get?_eq_some_iff.mpr member
    have down := (resting.parked _ _ found).not_holdsFlag (h.untaken _ _ found)
    exact fun up => Bool.noConfusion (up.symm.trans down)
  have flags := resting.guarded.flags
  rw [none] at flags
  cases up : b.queue.draining with
  | false => rfl
  | true =>
    rw [up] at flags
    cases flags

end Idle
end Backlog
end CacheDepot.WriteBehind
