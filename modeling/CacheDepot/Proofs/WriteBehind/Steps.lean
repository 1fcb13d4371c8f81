import CacheDepot.Proofs.WriteBehind.Course
import CacheDepot.WriteBehind.Backlog

/-!
# Steps of drains and flushes

Whatever a worker is at, one step of it does one of five things to the queue. At most one worker
has the flag up, so the items that are taken and not settled are always one batch. For the items
it does not matter who acts: every action but a push shifts them in one of four ways.
-/

namespace CacheDepot.WriteBehind

/-- What one step does to the queue, to the flag as far as it is the worker's, and to the items
that the worker has taken. -/
inductive Move (q : Queue) : Bool → List Item → Queue → Bool → List Item → List Fate → Prop
  | look (flag : Bool) (items : List Item) : Move q flag items q flag items []
  | raise (free : q.draining = false) : Move q false [] { q with draining := true } true [] []
  | take : Move q true [] q.dropBatch true q.batch (q.batch.map .attempted)
  | settle (batch : List Item) :
      Move q true batch (q.requeue (Queue.retries (batch.map q.judge))) true []
        ((Queue.byEnd batch).map q.judge)
  | lower : Move q true [] { q with draining := false } false [] []

theorem DrainStage.step_move (now : Nat) (q : Queue) (stage : DrainStage) :
    Move q stage.holdsFlag stage.inFlight (stage.step now q).1 (stage.step now q).2.1.holdsFlag
      (stage.step now q).2.1.inFlight (stage.step now q).2.2 := by
  cases stage with
  | claiming =>
    rw [step]
    split
    · exact .look false []
    · rename_i free
      exact .raise (by simpa using free)
  | taking =>
    rw [step]
    split
    · exact .look true []
    · exact .take
  | attempting batch due => exact .look true batch
  | settling batch => exact .settle batch
  | releasing report => exact .lower
  | done report => exact .look false []

namespace FlushStage

variable (now : Nat) (total : Report) (stage : DrainStage)

theorem holdsFlag_afterDrain :
    (Worker.flush (afterDrain now total stage)).holdsFlag = stage.holdsFlag := by
  cases stage with
  | done report => rw [afterDrain]; split <;> rfl
  | _ => rfl

theorem inFlight_afterDrain :
    (Worker.flush (afterDrain now total stage)).inFlight = stage.inFlight := by
  cases stage with
  | done report => rw [afterDrain]; split <;> rfl
  | _ => rfl

end FlushStage

namespace Worker

theorem step_move (now : Nat) (q : Queue) (w : Worker) :
    Move q w.holdsFlag w.inFlight (w.step now q).1 (w.step now q).2.1.holdsFlag
      (w.step now q).2.1.inFlight (w.step now q).2.2 := by
  cases w with
  | drain stage => exact stage.step_move now q
  | flush stage =>
    cases stage with
    | readingFlag total => simp only [step, FlushStage.step]; split <;> exact .look false []
    | readingItems total => simp only [step, FlushStage.step]; split <;> exact .look false []
    | draining total stage =>
      have move := stage.step_move now q
      rw [← FlushStage.holdsFlag_afterDrain now total (stage.step now q).2.1,
        ← FlushStage.inFlight_afterDrain now total (stage.step now q).2.1] at move
      exact move
    | pausing total due => exact .look false []
    | done total => exact .look false []

/-- A step that finds nothing to do leaves nothing to do. -/
theorem nil_of_move {q q' : Queue} {flag flag' : Bool} {batch batch' : List Item}
    {fates : List Fate} (move : Move q flag batch q' flag' batch' fates) (items : q.items = [])
    (untaken : batch = []) :
    q'.items = [] ∧ batch' = [] := by
  cases move with
  | look flag batch => exact ⟨items, untaken⟩
  | raise free => exact ⟨items, rfl⟩
  | take =>
    rw [Queue.dropBatch, Queue.batch, items, List.drop_nil, List.take_nil]
    exact ⟨rfl, rfl⟩
  | settle batch =>
    subst untaken
    exact ⟨(List.append_nil _).trans items, rfl⟩
  | lower => exact ⟨items, rfl⟩

/-- Only who has the flag up has taken items. -/
theorem inFlight_of_not_holdsFlag {w : Worker} (down : w.holdsFlag = false) : w.inFlight = [] := by
  have idle : ∀ stage : DrainStage, stage.holdsFlag = false → stage.inFlight = [] := by
    intro stage down
    cases stage with
    | attempting batch due => exact absurd down Bool.noConfusion
    | settling batch => exact absurd down Bool.noConfusion
    | _ => rfl
  cases w with
  | drain stage => exact idle stage down
  | flush stage =>
    cases stage with
    | draining total stage => exact idle stage down
    | _ => rfl

/-- A worker that has ended does not have the flag up. -/
theorem not_holdsFlag_of_report {w : Worker} (ended : w.report?.isSome = true) :
    w.holdsFlag = false := by
  cases w with
  | drain stage =>
    cases stage with
    | claiming => rfl
    | done report => rfl
    | _ => exact absurd ended Bool.noConfusion
  | flush stage =>
    cases stage with
    | draining total stage => exact absurd ended Bool.noConfusion
    | _ => rfl

/-- A worker before its first step. -/
def Fresh (w : Worker) : Prop := w = .newDrain ∨ w = .newFlush

theorem fresh_newDrain : newDrain.Fresh := .inl rfl

theorem fresh_newFlush : newFlush.Fresh := .inr rfl

theorem Fresh.not_holdsFlag {w : Worker} (fresh : w.Fresh) : w.holdsFlag = false := by
  rcases fresh with rfl | rfl <;> rfl

end Worker

/-! ## At most one batch at a time -/

/-- The number of workers that have the flag up. -/
def flagsUp (workers : Assoc Nat Worker) : Nat :=
  workers.bindings.countP fun x => x.2.holdsFlag

/-- The items that these workers have taken and not settled. -/
def taken (workers : Assoc Nat Worker) : List Item :=
  workers.bindings.flatMap fun x => x.2.inFlight

/-- A worker and the others: what it has up and has taken stands among what they have, whatever
becomes of it. -/
theorem exists_others {workers : Assoc Nat Worker} {id : Nat} {w : Worker}
    (bound : workers.get? id = some w) :
    ∃ (up : Nat) (before after : List Item),
      flagsUp workers = up + w.holdsFlag.toNat ∧ taken workers = before ++ w.inFlight ++ after ∧
      (∀ w', flagsUp (workers.insert id w') = up + w'.holdsFlag.toNat ∧
        taken (workers.insert id w') = before ++ w'.inFlight ++ after) ∧
      flagsUp (workers.erase id) = up ∧ taken (workers.erase id) = before ++ after ∧
      (up = 0 → before = [] ∧ after = []) := by
  obtain ⟨before, after, split, rebound, erased⟩ := Assoc.exists_split bound
  have idle : ∀ l : List (Nat × Worker), l.countP (fun x => x.2.holdsFlag) = 0 →
      l.flatMap (fun x => x.2.inFlight) = [] := by
    intro l none
    rw [List.countP_eq_zero] at none
    rw [List.flatMap_eq_nil_iff]
    intro x member
    exact Worker.inFlight_of_not_holdsFlag (by simpa using none x member)
  have counts : ∀ w' : Worker,
      (before ++ (id, w') :: after).countP (fun x => x.2.holdsFlag) =
        before.countP (fun x => x.2.holdsFlag) + after.countP (fun x => x.2.holdsFlag) +
          w'.holdsFlag.toNat := by
    intro w'
    rw [List.countP_append, List.countP_cons]
    cases w'.holdsFlag <;> simp [Nat.add_assoc]
  refine ⟨before.countP (fun x => x.2.holdsFlag) + after.countP fun x => x.2.holdsFlag,
    before.flatMap fun x => x.2.inFlight, after.flatMap fun x => x.2.inFlight, ?_, ?_,
    fun w' => ⟨?_, ?_⟩, ?_, ?_, ?_⟩
  · rw [flagsUp, split, counts]
  · rw [taken, split, List.flatMap_append, List.flatMap_cons, List.append_assoc]
  · rw [flagsUp, rebound, counts]
  · rw [taken, rebound, List.flatMap_append, List.flatMap_cons, List.append_assoc]
  · rw [flagsUp, erased, List.countP_append]
  · rw [taken, erased, List.flatMap_append]
  · intro none
    exact ⟨idle before (by omega), idle after (by omega)⟩

namespace Backlog

variable {b b' : Backlog} {now id : Nat} {w : Worker}

/-- The course of the items of a backlog. -/
def course (b : Backlog) : Course := ⟨b.queue.items, taken b.workers, b.fates.reverse⟩

/-- The flag is up exactly while one worker has it up, and no number is given to two workers. -/
structure Guarded (b : Backlog) : Prop where
  flags : flagsUp b.workers = b.queue.draining.toNat
  known : ∀ id w, b.workers.get? id = some w → id < b.nextWorker

theorem guarded_new (batchSize maxRetries : Nat) : (Backlog.new batchSize maxRetries).Guarded :=
  ⟨rfl, fun _ _ bound => nomatch bound⟩

/-- While the flag is down nobody has it up. -/
theorem Guarded.not_holdsFlag (h : b.Guarded) (down : b.queue.draining = false)
    (bound : b.workers.get? id = some w) : w.holdsFlag = false := by
  have none := h.flags
  rw [down, Bool.toNat_false, flagsUp, List.countP_eq_zero] at none
  simpa using none (id, w) (Assoc.get?_eq_some_iff.mp bound)

/-- What comes of a backlog while nothing is pushed. -/
structure Onward (b b' : Backlog) : Prop where
  guarded : b'.Guarded
  batchSize : b'.queue.batchSize = b.queue.batchSize
  maxRetries : b'.queue.maxRetries = b.queue.maxRetries
  pushed : b'.queue.pushed = b.queue.pushed
  course : b.course.Shifts b.queue b'.course

theorem Guarded.onward (h : b.Guarded) : b.Onward b := ⟨h, rfl, rfl, rfl, .refl⟩

theorem Onward.trans {b'' : Backlog} (h : b.Onward b') (h' : b'.Onward b'') : b.Onward b'' where
  guarded := h'.guarded
  batchSize := h'.batchSize.trans h.batchSize
  maxRetries := h'.maxRetries.trans h.maxRetries
  pushed := h'.pushed.trans h.pushed
  course := Relation.ReflTransGen.trans h.course (h'.course.congr h.maxRetries)

theorem Guarded.put {q : Queue} {w' : Worker} {fates : List Fate} (h : b.Guarded)
    (bound : b.workers.get? id = some w)
    (move : Move b.queue w.holdsFlag w.inFlight q w'.holdsFlag w'.inFlight fates) :
    b.Onward (b.put id (q, w', fates)) := by
  obtain ⟨up, before, after, flags, held, rebound, -, -, alone⟩ := exists_others bound
  obtain ⟨flags', held'⟩ := rebound w'
  rw [h.flags] at flags
  have one := Bool.toNat_le b.queue.draining
  have known : ∀ id' v, (b.workers.insert id w').get? id' = some v → id' < b.nextWorker := by
    intro id' v found
    rw [Assoc.get?_insert] at found
    split at found
    · rename_i same
      exact same ▸ h.known id w bound
    · exact h.known id' v found
  suffices flagsUp (b.workers.insert id w') = q.draining.toNat ∧
      (q.batchSize = b.queue.batchSize ∧ q.maxRetries = b.queue.maxRetries ∧
        q.pushed = b.queue.pushed) ∧
      b.course.Shift b.queue ⟨q.items, taken (b.workers.insert id w'),
        b.fates.reverse ++ fates⟩ by
    obtain ⟨flags, ⟨batchSize, maxRetries, pushed⟩, shift⟩ := this
    refine ⟨⟨flags, known⟩, batchSize, maxRetries, pushed, .single ?_⟩
    rw [Backlog.put, Backlog.course, Backlog.course, List.reverse_append, List.reverse_reverse]
    exact shift
  have same : b.course = ⟨b.queue.items, taken b.workers, b.fates.reverse ++ []⟩ := by
    rw [List.append_nil, Backlog.course]
  rw [flags', held']
  -- Nobody else has the flag up if this worker has, so what is in flight is its own batch.
  generalize w.holdsFlag = flag, w.inFlight = items, w'.holdsFlag = flag', w'.inFlight = items'
    at move flags held
  cases move with
  | look flag items =>
    rw [← held, ← same]
    exact ⟨flags.symm, ⟨rfl, rfl, rfl⟩, .stay⟩
  | raise free =>
    rw [free, Bool.toNat_false] at flags
    rw [← held, ← same]
    exact ⟨by rw [Bool.toNat_true]; omega, ⟨rfl, rfl, rfl⟩, .stay⟩
  | take =>
    rw [Bool.toNat_true] at flags
    obtain ⟨rfl, rfl⟩ := alone (by omega)
    rw [List.nil_append, List.append_nil]
    exact ⟨flags.symm, ⟨rfl, rfl, rfl⟩, .take held (List.take_append_drop ..).symm⟩
  | settle batch =>
    rw [Bool.toNat_true] at flags
    obtain ⟨rfl, rfl⟩ := alone (by omega)
    rw [List.nil_append, List.append_nil] at held
    refine ⟨flags.symm, ⟨rfl, rfl, rfl⟩, ?_⟩
    rw [← held]
    exact .settle
  | lower =>
    rw [Bool.toNat_true] at flags
    rw [← held, ← same]
    exact ⟨by rw [Bool.toNat_false]; omega, ⟨rfl, rfl, rfl⟩, .stay⟩

theorem Guarded.step (h : b.Guarded) (now id : Nat) : b.Onward (b.step now id) := by
  unfold Backlog.step
  split
  · rename_i w bound
    exact h.put bound (w.step_move now b.queue)
  · exact h.onward

theorem Guarded.start (h : b.Guarded) (down : w.holdsFlag = false) : b.Onward (b.start w).2 := by
  have fresh : b.workers.get? b.nextWorker = none := by
    cases found : b.workers.get? b.nextWorker with
    | none => rfl
    | some v => exact absurd (h.known _ v found) (Nat.lt_irrefl _)
  have bound := Assoc.bindings_insert_of_fresh w fresh
  have flags : flagsUp (b.workers.insert b.nextWorker w) = flagsUp b.workers := by
    rw [flagsUp, bound, List.countP_append, flagsUp]
    simp [down]
  have kept : taken (b.workers.insert b.nextWorker w) = taken b.workers := by
    rw [taken, bound, List.flatMap_append, List.flatMap_singleton,
      Worker.inFlight_of_not_holdsFlag down, List.append_nil, taken]
  refine ⟨⟨flags.trans h.flags, ?_⟩, rfl, rfl, rfl, .single ?_⟩
  · intro id' v found
    rw [Backlog.start, Assoc.get?_insert] at found
    split at found
    · rename_i same
      exact Nat.lt_succ_of_le (Nat.le_of_eq same)
    · exact Nat.lt_succ_of_lt (h.known id' v found)
  · rw [Backlog.start, Backlog.course, Backlog.course, kept]
    exact .stay

theorem Guarded.known_erase (h : b.Guarded) (id : Nat) :
    ∀ id' v, (b.workers.erase id).get? id' = some v → id' < b.nextWorker := by
  intro id' v found
  rw [Assoc.get?_erase] at found
  split at found
  · simp at found
  · exact h.known id' v found

theorem Guarded.cancel (h : b.Guarded) (id : Nat) : b.Onward (b.cancel id) := by
  unfold Backlog.cancel
  split
  · rename_i w bound
    obtain ⟨up, before, after, flags, held, -, flags', held', alone⟩ := exists_others bound
    rw [h.flags] at flags
    cases down : w.holdsFlag with
    | false =>
      have idle := Worker.inFlight_of_not_holdsFlag down
      rw [down] at flags
      rw [idle, List.append_nil, ← held'] at held
      rw [Worker.cancel, down, idle]
      refine ⟨⟨flags'.trans flags.symm, h.known_erase id⟩, rfl, rfl, rfl, .single ?_⟩
      rw [Backlog.course, Backlog.course, ← held]
      exact .stay
    | true =>
      have one := Bool.toNat_le b.queue.draining
      rw [down, Bool.toNat_true] at flags
      obtain ⟨rfl, rfl⟩ := alone (by omega)
      rw [List.nil_append, List.append_nil] at held
      rw [Worker.cancel, if_pos down]
      refine ⟨⟨flags'.trans (by rw [Bool.toNat_false]; omega), h.known_erase id⟩, rfl, rfl, rfl,
        .single ?_⟩
      rw [Backlog.course, Backlog.course, held', List.reverse_append, List.reverse_reverse, ← held]
      exact .lose
  · exact h.onward

theorem exists_of_report {report : Report} (ended : b.report? id = some report) :
    ∃ w, b.workers.get? id = some w ∧ w.report? = some report :=
  Option.bind_eq_some_iff.mp ended

theorem collect_of_running (running : b.report? id = none) : b.collect id = b := by
  rw [collect, running]
  rfl

theorem Guarded.collect (h : b.Guarded) (id : Nat) : b.Onward (b.collect id) := by
  unfold Backlog.collect
  split
  · rename_i ended
    obtain ⟨report, ended⟩ := Option.isSome_iff_exists.mp ended
    obtain ⟨w, bound, ended⟩ := exists_of_report ended
    obtain ⟨up, before, after, flags, held, -, flags', held', -⟩ := exists_others bound
    have down := Worker.not_holdsFlag_of_report (Option.isSome_iff_exists.mpr ⟨report, ended⟩)
    rw [h.flags, down] at flags
    rw [Worker.inFlight_of_not_holdsFlag down, List.append_nil, ← held'] at held
    refine ⟨⟨flags'.trans flags.symm, h.known_erase id⟩, rfl, rfl, rfl, .single ?_⟩
    rw [Backlog.course, Backlog.course, held]
    exact .stay
  · exact h.onward

/-! ## Actions and runs -/

theorem put_put (b : Backlog) (id : Nat) (first next : Queue × Worker × List Fate) :
    (b.put id first).put id next = b.put id (next.1, next.2.1, first.2.2 ++ next.2.2) := by
  simp only [put, Assoc.insert_insert, List.reverse_append, List.append_assoc]

theorem step_of_get? (bound : b.workers.get? id = some w) (now : Nat) :
    b.step now id = b.put id (w.step now b.queue) := by
  rw [step, bound]

/-- A worker that can go on takes a step and then runs as it stands. -/
theorem put_run_succ (b : Backlog) (id now : Nat) (ready : w.isReady now = true) (fuel : Nat) :
    b.put id (w.run now b.queue (fuel + 1)) = (b.put id (w.step now b.queue)).put id
      ((w.step now b.queue).2.1.run now (w.step now b.queue).1 fuel) := by
  rw [put_put, Worker.run, if_pos ready]

/-- At most so many steps of a worker, up to its next wait. -/
def advance (b : Backlog) (now id steps : Nat) : Backlog :=
  match b.workers.get? id with
  | some w => b.put id (w.run now b.queue steps)
  | none => b

theorem advance_zero (b : Backlog) (now id : Nat) : b.advance now id 0 = b := by
  unfold advance
  split
  · rename_i w bound
    simp [Worker.run, put, Assoc.insert_of_get? bound]
  · rfl

theorem advance_of_not_ready (waits : b.isReady now id = false) (steps : Nat) :
    b.advance now id steps = b := by
  unfold advance
  split
  · rename_i w bound
    have idle : ¬ w.isReady now = true := by simpa [isReady, bound] using waits
    have same : w.run now b.queue steps = (b.queue, w, []) := by
      cases steps with
      | zero => rfl
      | succ steps => rw [Worker.run, if_neg idle]
    simp [same, put, Assoc.insert_of_get? bound]
  · rfl

theorem advance_succ (ready : b.isReady now id = true) (steps : Nat) :
    b.advance now id (steps + 1) = (b.step now id).advance now id steps := by
  cases bound : b.workers.get? id with
  | none => simp [isReady, bound] at ready
  | some w =>
    have goes : w.isReady now = true := by simpa [isReady, bound] using ready
    have bound' := Assoc.get?_insert_self b.workers id (w.step now b.queue).2.1
    rw [advance, bound, step_of_get? bound, advance]
    show b.put id (w.run now b.queue (steps + 1)) = match (b.workers.insert id _).get? id with
      | some v => (b.put id (w.step now b.queue)).put id (v.run now (w.step now b.queue).1 steps)
      | none => b.put id (w.step now b.queue)
    rw [bound', put_run_succ b id now goes]

theorem exists_advance (b : Backlog) (now id : Nat) :
    ∃ steps, b.resume now id = b.advance now id (steps + 14) := by
  cases bound : b.workers.get? id with
  | none => exact ⟨0, by rw [resume, advance, bound]⟩
  | some w =>
    refine ⟨7 * b.queue.totalAttemptsLeft (b.queue.items ++ w.inFlight), ?_⟩
    rw [resume, advance, bound]
    rfl

/-- What every step keeps is kept by all of them. -/
theorem advance_induction {P : Backlog → Prop} (step : ∀ b : Backlog, P b → P (b.step now id))
    (steps : Nat) (holds : P b) : P (b.advance now id steps) := by
  induction steps generalizing b with
  | zero => rwa [advance_zero]
  | succ steps ih =>
    cases ready : b.isReady now id with
    | true =>
      rw [advance_succ ready]
      exact ih (step b holds)
    | false => rwa [advance_of_not_ready ready]

theorem run_induction {P : Backlog → Prop} (step : ∀ b : Backlog, P b → P (b.step now id))
    (fuel : Nat) (bound : b.workers.get? id = some w) (holds : P b) :
    P (b.put id (w.run now b.queue fuel)) := by
  have advanced := advance_induction step fuel holds
  rwa [advance, bound] at advanced

theorem resume_induction {P : Backlog → Prop} (step : ∀ b : Backlog, P b → P (b.step now id))
    (holds : P b) : P (b.resume now id) := by
  obtain ⟨steps, resumed⟩ := b.exists_advance now id
  rw [resumed]
  exact advance_induction step _ holds

theorem Guarded.advance (h : b.Guarded) (now id steps : Nat) : b.Onward (b.advance now id steps) :=
  advance_induction (fun _ on => on.trans (on.guarded.step now id)) steps h.onward

theorem Guarded.resume (h : b.Guarded) (now id : Nat) : b.Onward (b.resume now id) :=
  resume_induction (fun _ on => on.trans (on.guarded.step now id)) h.onward

theorem Guarded.push (h : b.Guarded) (now : Nat) (key : CacheKey) (value : Json)
    (persist : Persist) : (b.push now key value persist).Guarded :=
  ⟨h.flags, h.known⟩

/-- Every action but a push leads onward. -/
theorem Guarded.act (h : b.Guarded) (now : Nat) {a : Action}
    (quiet : ∀ key value persist, a ≠ .push key value persist) : b.Onward (b.act now a) := by
  cases a with
  | push key value persist => exact absurd rfl (quiet key value persist)
  | startDrain => exact h.start rfl
  | startFlush => exact h.start rfl
  | step id => exact h.step now id
  | resume id => exact h.resume now id
  | cancel id => exact h.cancel id
  | collect id => exact h.collect id

/-- A run keeps the guard and what the queue was set up with. -/
theorem Guarded.run (h : b.Guarded) (actions : List (Nat × Action)) :
    (b.run actions).Guarded ∧ (b.run actions).queue.batchSize = b.queue.batchSize ∧
      (b.run actions).queue.maxRetries = b.queue.maxRetries := by
  induction actions generalizing b with
  | nil => exact ⟨h, rfl, rfl⟩
  | cons first rest ih =>
    obtain ⟨now, a⟩ := first
    have quiet : (∀ key value persist, a ≠ .push key value persist) →
        ((b.act now a).run rest).Guarded ∧
          ((b.act now a).run rest).queue.batchSize = b.queue.batchSize ∧
          ((b.act now a).run rest).queue.maxRetries = b.queue.maxRetries := by
      intro quiet
      have on := h.act now quiet
      obtain ⟨guarded, batchSize, maxRetries⟩ := ih on.guarded
      exact ⟨guarded, batchSize.trans on.batchSize, maxRetries.trans on.maxRetries⟩
    cases a with
    | push key value persist => exact ih (h.push now key value persist)
    | _ => exact quiet (by simp)

/-- The worker that an action is about. -/
def Action.worker? : Action → Option Nat
  | .step id | .resume id | .cancel id | .collect id => some id
  | .push _ _ _ | .startDrain | .startFlush => none

theorem get?_put (b : Backlog) (id other : Nat) (outcome : Queue × Worker × List Fate) :
    (b.put id outcome).workers.get? other =
      if other = id then some outcome.2.1 else b.workers.get? other :=
  Assoc.get?_insert ..

theorem get?_start (b : Backlog) (w : Worker) {other : Nat} (known : other < b.nextWorker) :
    (b.start w).2.workers.get? other = b.workers.get? other :=
  Assoc.get?_insert_of_ne _ _ (Nat.ne_of_gt known)

theorem get?_step_of_ne (b : Backlog) (now : Nat) {id other : Nat} (differs : other ≠ id) :
    (b.step now id).workers.get? other = b.workers.get? other := by
  unfold step
  split
  · rw [get?_put, if_neg differs]
  · rfl

theorem get?_resume_of_ne (b : Backlog) (now : Nat) {id other : Nat} (differs : other ≠ id) :
    (b.resume now id).workers.get? other = b.workers.get? other := by
  unfold resume
  split
  · rw [get?_put, if_neg differs]
  · rfl

theorem get?_cancel_of_ne (b : Backlog) {id other : Nat} (differs : other ≠ id) :
    (b.cancel id).workers.get? other = b.workers.get? other := by
  unfold cancel
  split
  · exact Assoc.get?_erase_of_ne _ (Ne.symm differs)
  · rfl

theorem get?_collect_of_ne (b : Backlog) {id other : Nat} (differs : other ≠ id) :
    (b.collect id).workers.get? other = b.workers.get? other := by
  unfold collect
  split
  · exact Assoc.get?_erase_of_ne _ (Ne.symm differs)
  · rfl

/-- An action leaves a worker alone that it is not about. -/
theorem get?_act_of_ne (b : Backlog) (now : Nat) {a : Action} {other : Nat}
    (known : other < b.nextWorker) (differs : a.worker? ≠ some other) :
    (b.act now a).workers.get? other = b.workers.get? other := by
  cases a with
  | push key value persist => rfl
  | startDrain => exact b.get?_start .newDrain known
  | startFlush => exact b.get?_start .newFlush known
  | step id => exact b.get?_step_of_ne now fun same => differs (congrArg some same.symm)
  | resume id => exact b.get?_resume_of_ne now fun same => differs (congrArg some same.symm)
  | cancel id => exact b.get?_cancel_of_ne fun same => differs (congrArg some same.symm)
  | collect id => exact b.get?_collect_of_ne fun same => differs (congrArg some same.symm)

theorem nextWorker_step (b : Backlog) (now id : Nat) :
    (b.step now id).nextWorker = b.nextWorker := by
  unfold step
  split <;> rfl

theorem nextWorker_le_act (b : Backlog) (now : Nat) (a : Action) :
    b.nextWorker ≤ (b.act now a).nextWorker := by
  cases a with
  | push key value persist => exact Nat.le_refl _
  | startDrain => exact Nat.le_succ _
  | startFlush => exact Nat.le_succ _
  | step id => exact Nat.le_of_eq (b.nextWorker_step now id).symm
  | resume id => rw [act, resume]; split <;> exact Nat.le_refl _
  | cancel id => rw [act, cancel]; split <;> exact Nat.le_refl _
  | collect id => rw [act, collect]; split <;> exact Nat.le_refl _

end Backlog
end CacheDepot.WriteBehind
