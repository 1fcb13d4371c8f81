import CacheDepot.Proofs.WriteBehind.Waiting
import CacheDepot.Proofs.WriteBehind.CallOrder

/-!
# A flush that has the queue to itself

While nobody else drains or pushes, a flush is never skipped and never waits for the drain of
someone else. What it has reported and what the waiting items will come to make up the same sum
all the time, and every drain uses up an attempt of each item of its batch. So it ends, and its
report tells how the attempts of every item went.
-/

namespace CacheDepot.WriteBehind

/-- Whether the next attempt of an item fails. -/
def Item.fails (item : Item) : Bool := item.nextAttempt.failure.isSome

namespace Queue

variable {q : Queue} {item : Item} {batch : List Item}

/-- Whether one of the attempts that an item has left succeeds. -/
def willPersist (q : Queue) (item : Item) : Bool :=
  (List.range (q.attemptsLeft item)).any fun call =>
    (item.persist.attempt (item.retries + call)).failure.isNone

/-- Whether all attempts that an item has left fail. -/
def willAbandon (q : Queue) (item : Item) : Bool := !q.willPersist item

theorem attemptsLeft_eq (few : item.retries ≤ q.maxRetries) :
    q.attemptsLeft item = q.attemptsLeft item.retried + 1 := by
  simp only [attemptsLeft, Item.retried]
  omega

/-- An item is persisted by its next attempt or by one of those after it. -/
theorem willPersist_eq (few : item.retries ≤ q.maxRetries) :
    q.willPersist item = (!item.fails || q.willPersist item.retried) := by
  have later : ∀ call, item.retries + (call + 1) = item.retried.retries + call := by
    intro call
    simp only [Item.retried]
    omega
  rw [willPersist, attemptsLeft_eq few, List.range_succ_eq_map, List.any_cons, List.any_map,
    Item.fails, Option.not_isSome]
  simp only [Function.comp_def, Nat.succ_eq_add_one, later]
  rfl

/-- What becomes of an item after one attempt, in numbers: it is reported as persisted or abandoned,
or it goes back into the queue and can still come to either. -/
theorem counts_judge (few : item.retries ≤ q.maxRetries) :
    (tally [q.judge item]).persisted + (retries [q.judge item]).countP q.willPersist =
        (q.willPersist item).toNat ∧
      (tally [q.judge item]).abandoned + (retries [q.judge item]).countP q.willAbandon =
        (q.willAbandon item).toNat ∧
      (tally [q.judge item]).requeued + (tally [q.judge item]).abandoned = item.fails.toNat := by
  have first := willPersist_eq few
  unfold judge
  rw [willAbandon, first, Item.fails, Option.not_isSome]
  cases item.nextAttempt.failure with
  | none => exact ⟨rfl, rfl, rfl⟩
  | some cause =>
    rw [if_neg (by simp), Option.isNone_some, Bool.false_or]
    by_cases more : item.retries < q.maxRetries
    · rw [if_pos more]
      refine ⟨?_, ?_, rfl⟩ <;>
        cases later : q.willPersist item.retried <;> simp [tally, retries, willAbandon, later]
    · have last : q.willPersist item.retried = false := by
        have none : q.attemptsLeft item.retried = 0 := by
          simp only [attemptsLeft, Item.retried]
          omega
        rw [willPersist, none]
        rfl
      rw [if_neg more, last]
      exact ⟨rfl, rfl, rfl⟩

theorem tally_cons (fate : Fate) (fates : List Fate) :
    tally (fate :: fates) = (tally [fate]).add (tally fates) := by
  simp only [tally, Report.add, List.countP_cons, List.countP_nil, Nat.zero_add, Nat.add_comm]

/-- What becomes of a batch, in numbers. -/
theorem counts_settle (fits : ∀ item ∈ batch, item.retries ≤ q.maxRetries) :
    (tally (batch.map q.judge)).persisted + (q.back batch).countP q.willPersist =
        batch.countP q.willPersist ∧
      (tally (batch.map q.judge)).abandoned + (q.back batch).countP q.willAbandon =
        batch.countP q.willAbandon ∧
      (tally (batch.map q.judge)).requeued + (tally (batch.map q.judge)).abandoned =
        batch.countP Item.fails := by
  rw [← q.retries_map_judge]
  induction batch with
  | nil => exact ⟨rfl, rfl, rfl⟩
  | cons item rest ih =>
    obtain ⟨persisted, abandoned, failed⟩ := ih fun other member =>
      fits other (List.mem_cons_of_mem item member)
    obtain ⟨persisted', abandoned', failed'⟩ := counts_judge (fits item List.mem_cons_self)
    have split : retries ((item :: rest).map q.judge) =
        retries [q.judge item] ++ retries (rest.map q.judge) :=
      List.filterMap_append (l := [q.judge item]) ..
    have cons : ∀ p : Item → Bool, (item :: rest).countP p = rest.countP p + (p item).toNat := by
      intro p
      rw [List.countP_cons]
      cases p item <;> rfl
    rw [split, List.countP_append, List.countP_append, cons, cons, cons, List.map_cons, tally_cons]
    simp only [Report.add]
    omega

end Queue

/-- Whether a worker begins a drain with its next step. -/
def Worker.beginsDrain : Worker → Bool
  | .drain .claiming | .flush (.draining _ .claiming) => true
  | _ => false

namespace FlushStage

variable {q q' : Queue} {stage stage' : FlushStage} {fates : List Fate} {called : List Item}
  {persist abandon : Nat}

/-- Where a flush can be that has the queue to itself: the flag is up exactly if it raised it, what
it has seen of the queue still holds, and its drains are not skipped. -/
inductive Alone (q : Queue) : FlushStage → Prop
  | readingFlag {total : Report} (down : q.draining = false) : Alone q (.readingFlag total)
  | readingItems {total : Report} (down : q.draining = false) : Alone q (.readingItems total)
  | claiming {total : Report} (down : q.draining = false) (full : q.items ≠ []) :
      Alone q (.draining total .claiming)
  | taking {total : Report} (full : q.items ≠ []) : Alone q (.draining total .taking)
  | attempting {total : Report} {batch : List Item} {due : Nat} (loaded : batch ≠ []) :
      Alone q (.draining total (.attempting batch due))
  | settling {total : Report} {batch : List Item} (loaded : batch ≠ []) :
      Alone q (.draining total (.settling batch))
  | releasing {total report : Report} (ran : report.skipped = false) :
      Alone q (.draining total (.releasing report))
  | done {total : Report} (down : q.draining = false) (empty : q.items = []) : Alone q (.done total)

/-- What a step of such a flush does. -/
inductive Stride (q : Queue) : FlushStage → Queue → FlushStage → List Fate → Prop
  | look {total : Report} (down : q.draining = false) :
      Stride q (.readingFlag total) q (.readingItems total) []
  | finish {total : Report} (down : q.draining = false) (empty : q.items = []) :
      Stride q (.readingItems total) q (.done total) []
  | begin {total : Report} (down : q.draining = false) (full : q.items ≠ []) :
      Stride q (.readingItems total) q (.draining total .claiming) []
  | raise {total : Report} (full : q.items ≠ []) :
      Stride q (.draining total .claiming) { q with draining := true } (.draining total .taking) []
  | take {total : Report} {due : Nat} (loaded : q.batch ≠ []) :
      Stride q (.draining total .taking) q.dropBatch (.draining total (.attempting q.batch due))
        (q.batch.map .attempted)
  | wait {total : Report} {batch : List Item} {due : Nat} (loaded : batch ≠ []) :
      Stride q (.draining total (.attempting batch due)) q (.draining total (.settling batch)) []
  | settle {total : Report} {batch : List Item} (loaded : batch ≠ []) :
      Stride q (.draining total (.settling batch)) (q.requeue (q.back batch))
        (.draining total (.releasing (Queue.tally (batch.map q.judge))))
        ((Queue.byEnd batch).map q.judge)
  | lower {total report : Report} :
      Stride q (.draining total (.releasing report)) { q with draining := false }
        (.readingFlag (total.add report)) []
  | rest {total : Report} (down : q.draining = false) (empty : q.items = []) :
      Stride q (.done total) q (.done total) []

theorem Alone.stride (alone : stage.Alone q) (size : 0 < q.batchSize) (now : Nat) :
    Stride q stage (stage.step now q).1 (stage.step now q).2.1 (stage.step now q).2.2 := by
  cases alone with
  | readingFlag down =>
    rw [step, down]
    exact .look down
  | readingItems down =>
    rw [step]
    split
    · rename_i empty
      exact .finish down (List.isEmpty_iff.mp empty)
    · rename_i full
      exact .begin down fun empty => full (List.isEmpty_iff.mpr empty)
  | claiming down full =>
    simp only [step, DrainStage.step, down, Bool.false_eq_true, if_false]
    exact .raise full
  | taking full =>
    have loaded : q.batch ≠ [] := fun empty =>
      full ((List.take_eq_nil_iff.mp empty).resolve_left (Nat.ne_of_gt size))
    simp only [step, DrainStage.step, List.isEmpty_iff, if_neg loaded]
    exact .take loaded
  | attempting loaded => exact .wait loaded
  | settling loaded =>
    simp only [step, DrainStage.step, Queue.retries_map_judge]
    exact .settle loaded
  | releasing ran =>
    simp only [step, DrainStage.step, afterDrain, ran, Bool.false_eq_true, if_false]
    exact .lower
  | done down empty => exact .rest down empty

theorem Stride.alone (stride : Stride q stage q' stage' fates) : stage'.Alone q' := by
  cases stride with
  | look down => exact .readingItems down
  | finish down empty => exact .done down empty
  | begin down full => exact .claiming down full
  | raise full => exact .taking full
  | take loaded => exact .attempting loaded
  | wait loaded => exact .settling loaded
  | settle loaded => exact .releasing rfl
  | lower => exact .readingFlag rfl
  | rest down empty => exact .done down empty

theorem Stride.eq_of_ended (stride : Stride q stage q' stage' fates)
    (ended : (Worker.flush stage).report?.isSome = true) : q' = q ∧ stage' = stage := by
  cases stride with
  | rest down empty => exact ⟨rfl, rfl⟩
  | _ => cases ended

/-- The items that a flush has taken and not settled. -/
def inFlight (stage : FlushStage) : List Item := (Worker.flush stage).inFlight

/-- What a flush has to report so far, with the drain that has settled its batch. -/
def soFar : FlushStage → Report
  | .draining total (.releasing report) => total.add report
  | .readingFlag total | .readingItems total | .draining total _ | .pausing total _ | .done total =>
    total

/-- The calls among what happened to items. -/
def callsIn (fates : List Fate) : List Item := Course.calls ⟨[], [], fates⟩

/-- Whether a flush that is to persist and to abandon so many items and has made these calls can
account for all of them, with what it has to report so far and what the items in its hands will
come to. -/
structure Accounts (persist abandon : Nat) (q : Queue) (stage : FlushStage) (called : List Item) :
    Prop where
  size : 0 < q.batchSize
  fits : ∀ item ∈ q.items ++ stage.inFlight, item.retries ≤ q.maxRetries
  alone : stage.Alone q
  persisted : stage.soFar.persisted + (q.items ++ stage.inFlight).countP q.willPersist =
    persist
  abandoned : stage.soFar.abandoned + (q.items ++ stage.inFlight).countP q.willAbandon =
    abandon
  failed : stage.soFar.requeued + stage.soFar.abandoned + stage.inFlight.countP Item.fails =
    called.countP Item.fails

/-- A batch is taken from the queue, and nothing else happens to the items. -/
theorem perm_take (q : Queue) : (q.dropBatch.items ++ q.batch).Perm (q.items ++ []) := by
  rw [List.append_nil, Queue.dropBatch, Queue.batch]
  exact List.perm_append_comm.trans (.of_eq (List.take_append_drop ..))

theorem Accounts.stride (h : Accounts persist abandon q stage called)
    (stride : Stride q stage q' stage' fates) :
    Accounts persist abandon q' stage' (called ++ callsIn fates) := by
  have alone := stride.alone
  obtain ⟨size, fits, -, persisted, abandoned, failed⟩ := h
  have none : called ++ callsIn [] = called := List.append_nil _
  cases stride with
  | take loaded =>
    have moved := perm_take q
    rw [callsIn, Course.calls_map_attempted]
    refine ⟨size, ?_, alone, ?_, ?_, ?_⟩
    · exact fun item member => fits item (moved.mem_iff.mp member)
    · exact (moved.countP_eq _).symm ▸ persisted
    · exact (moved.countP_eq _).symm ▸ abandoned
    · rw [List.countP_append, ← failed]
      rfl
  | settle loaded =>
    rename_i total batch
    have few : ∀ item ∈ batch, item.retries ≤ q.maxRetries := fun item member =>
      fits item (List.mem_append_right _ member)
    obtain ⟨persisted', abandoned', failed'⟩ := Queue.counts_settle few
    rw [callsIn, Course.calls_map_judge, List.append_nil]
    refine ⟨size, ?_, alone, ?_, ?_, ?_⟩
    · intro item member
      rw [← q.retries_map_judge] at member
      rcases List.mem_append.mp (List.append_nil _ ▸ member) with waits | back
      · exact fits item (List.mem_append_left _ waits)
      · exact Queue.retries_le back
    · have before : total.persisted + (q.items ++ batch).countP q.willPersist = _ := persisted
      rw [List.countP_append, ← persisted'] at before
      show total.persisted + (Queue.tally (batch.map q.judge)).persisted +
        (q.items ++ q.back batch ++ []).countP q.willPersist = persist
      rw [List.append_nil, List.countP_append]
      omega
    · have before : total.abandoned + (q.items ++ batch).countP q.willAbandon = _ := abandoned
      rw [List.countP_append, ← abandoned'] at before
      show total.abandoned + (Queue.tally (batch.map q.judge)).abandoned +
        (q.items ++ q.back batch ++ []).countP q.willAbandon = abandon
      rw [List.append_nil, List.countP_append]
      omega
    · have before : total.requeued + total.abandoned + batch.countP Item.fails = _ := failed
      show total.requeued + (Queue.tally (batch.map q.judge)).requeued +
        (total.abandoned + (Queue.tally (batch.map q.judge)).abandoned) + 0 = _
      omega
  | _ => exact ⟨size, fits, alone, persisted, abandoned, none.symm ▸ failed⟩

/-! ## How many drains there are -/

/-- The attempts that are left to the items of a flush. -/
def attemptsLeft (q : Queue) (stage : FlushStage) : Nat :=
  q.totalAttemptsLeft (q.items ++ stage.inFlight)

/-- Whether a flush has begun a drain that will use up attempts. -/
def owesAttempt : FlushStage → Bool
  | .draining _ .taking | .draining _ (.attempting _ _) | .draining _ (.settling _) => true
  | _ => false

/-- A drain is begun at the cost of an attempt, which it uses up when it settles its batch. -/
theorem Stride.attemptsLeft (stride : Stride q stage q' stage' fates)
    (fits : ∀ item ∈ q.items ++ stage.inFlight, item.retries ≤ q.maxRetries) :
    (Worker.flush stage).beginsDrain.toNat + stage'.attemptsLeft q' + stage.owesAttempt.toNat ≤
      stage.attemptsLeft q + stage'.owesAttempt.toNat := by
  cases stride with
  | look down => exact Nat.le_of_eq (Nat.zero_add _)
  | finish down empty => exact Nat.le_of_eq (Nat.zero_add _)
  | begin down full => exact Nat.le_of_eq (Nat.zero_add _)
  | raise full =>
    have same := q.totalAttemptsLeft_congr { q with draining := true } rfl (q.items ++ [])
    show 1 + Queue.totalAttemptsLeft { q with draining := true } (q.items ++ []) ≤
      q.totalAttemptsLeft (q.items ++ []) + 1
    omega
  | take loaded =>
    have same := q.totalAttemptsLeft_congr q.dropBatch rfl (q.dropBatch.items ++ q.batch)
    rw [q.totalAttemptsLeft_take] at same
    show 0 + q.dropBatch.totalAttemptsLeft (q.dropBatch.items ++ q.batch) + 1 ≤
      q.totalAttemptsLeft (q.items ++ []) + 1
    rw [List.append_nil]
    omega
  | wait loaded => exact Nat.le_of_eq (congrArg (· + 1) (Nat.zero_add _))
  | settle loaded =>
    rename_i total batch
    have few : ∀ item ∈ batch, item.retries ≤ q.maxRetries := fun item member =>
      fits item (List.mem_append_right q.items member)
    have used := q.totalAttemptsLeft_settle few
    have some : 0 < batch.length := List.length_pos_iff.mpr loaded
    have same := q.totalAttemptsLeft_congr (q.requeue (q.back batch)) rfl
      (q.items ++ q.back batch ++ [])
    show 0 + (q.requeue (q.back batch)).totalAttemptsLeft (q.items ++ q.back batch ++ []) + 1 ≤
      q.totalAttemptsLeft (q.items ++ batch) + 0
    rw [q.retries_map_judge] at used
    rw [List.append_nil, q.totalAttemptsLeft_append] at same
    rw [List.append_nil, same, q.totalAttemptsLeft_append]
    omega
  | lower =>
    have same := q.totalAttemptsLeft_congr { q with draining := false } rfl (q.items ++ [])
    show 0 + Queue.totalAttemptsLeft { q with draining := false } (q.items ++ []) ≤
      q.totalAttemptsLeft (q.items ++ [])
    omega
  | rest down empty => exact Nat.le_of_eq (Nat.zero_add _)

/-- An attempt that is owed is left. -/
theorem Accounts.owesAttempt_le (h : Accounts persist abandon q stage called) :
    stage.owesAttempt.toNat ≤ stage.attemptsLeft q := by
  have some : ∀ waiting : List Item, waiting ≠ [] →
      (∀ item ∈ waiting, item.retries ≤ q.maxRetries) → 0 < q.totalAttemptsLeft waiting := by
    intro waiting full fits
    obtain ⟨item, rest, rfl⟩ := List.exists_cons_of_ne_nil full
    have few := fits item List.mem_cons_self
    rw [Queue.totalAttemptsLeft, Queue.attemptsLeft]
    omega
  have fits := h.fits
  cases h.alone with
  | taking full => exact some _ (List.append_ne_nil_of_left_ne_nil full _) fits
  | attempting loaded => exact some _ (List.append_ne_nil_of_right_ne_nil _ loaded) fits
  | settling loaded => exact some _ (List.append_ne_nil_of_right_ne_nil _ loaded) fits
  | _ => exact Nat.zero_le _

/-! ## When it ends -/

theorem Accounts.steady (h : Accounts persist abandon q stage called) :
    Worker.Steady q (.flush stage) where
  size := h.size
  fits := h.fits
  loaded := by
    cases h.alone with
    | attempting loaded => exact ⟨loaded, nofun⟩
    | settling loaded => exact ⟨loaded, nofun⟩
    | readingFlag down => trivial
    | readingItems down => trivial
    | done down empty => trivial
    | _ => exact ⟨trivial, nofun⟩
  checked := by
    cases h.alone with
    | readingItems down => exact down
    | done down empty => exact ⟨down, empty⟩
    | _ => trivial

/-- A bound on the steps up to the end of a flush that is alone; the time does not matter. -/
def distance (q : Queue) (stage : FlushStage) : Nat := (Worker.flush stage).distance 0 q

theorem Alone.distance_eq (alone : stage.Alone q) (now : Nat) :
    (Worker.flush stage).distance now q = stage.distance q := by
  cases alone <;> rfl

theorem Accounts.distance_step (h : Accounts persist abandon q stage called)
    (running : (Worker.flush stage).report? = none) (now : Nat) :
    (stage.step now q).2.1.distance (stage.step now q).1 < stage.distance q := by
  have never : ∀ total due, Worker.flush stage = .flush (.pausing total due) → due ≤ now := by
    rintro total due same
    cases same
    cases h.alone
  rw [← h.alone.distance_eq now, ← (h.alone.stride h.size now).alone.distance_eq now]
  exact h.steady.distance_step now running never

/-- A flush that is alone and cannot go on has ended or waits for its batch. -/
theorem Accounts.ended_or_waits (h : Accounts persist abandon q stage called) {now : Nat}
    (idle : (Worker.flush stage).isReady now = false) :
    (Worker.flush stage).report?.isSome = true ∨
      ∃ left, 0 < left ∧ stage.distance q = 7 * left + 2 := by
  have owed := h.owesAttempt_le
  cases h.alone with
  | attempting loaded => exact .inr ⟨_, owed, rfl⟩
  | done down empty => exact .inl rfl
  | _ => cases idle

end FlushStage

namespace Backlog

variable {b : Backlog} {id persist abandon : Nat} {old called : List Item} {stage : FlushStage}

/-- Whether worker `id` is a flush that accounts for so many items to be persisted and abandoned,
after calls that were made before. -/
structure FlushesAlone (persist abandon : Nat) (old : List Item) (id : Nat) (stage : FlushStage)
    (b : Backlog) : Prop where
  bound : b.workers.get? id = some (.flush stage)
  accounts : ∃ called, b.course.calls = old ++ called ∧
    stage.Accounts persist abandon b.queue called

theorem FlushesAlone.report?_eq (h : FlushesAlone persist abandon old id stage b) :
    b.report? id = (Worker.flush stage).report? := by
  rw [report?, h.bound, Option.bind_some]

/-- A step of the flush is a stride, and brings it nearer to its end. -/
theorem FlushesAlone.step (h : FlushesAlone persist abandon old id stage b) (now : Nat) :
    ∃ stage' fates, FlushesAlone persist abandon old id stage' (b.step now id) ∧
      FlushStage.Stride b.queue stage (b.step now id).queue stage' fates ∧
      (b.report? id = none → stage'.distance (b.step now id).queue < stage.distance b.queue) := by
  obtain ⟨bound, called, calls, accounts⟩ := h
  have stride := accounts.alone.stride accounts.size now
  have report : b.report? id = (Worker.flush stage).report? := by
    rw [report?, bound, Option.bind_some]
  rw [step_of_get? bound, report]
  refine ⟨_, _, ⟨Assoc.get?_insert_self .., _, ?_, accounts.stride stride⟩, stride,
    fun running => accounts.distance_step running now⟩
  rw [put, course, List.reverse_append, List.reverse_reverse, Course.calls_append,
    ← List.append_assoc, ← calls]
  rfl

/-- Only worker `id` goes on, with one step at each of these times. -/
def walk (b : Backlog) (id : Nat) (times : List Nat) : Backlog :=
  b.run (times.map fun now => (now, .step id))

/-- Only worker `id` goes on, up to its next wait at each of these times. -/
def resumes (b : Backlog) (id : Nat) (times : List Nat) : Backlog :=
  b.run (times.map fun now => (now, .resume id))

/-- How many drains worker `id` begins with these steps. -/
def drainsBegun (b : Backlog) (id : Nat) : List Nat → Nat
  | [] => 0
  | now :: times =>
    ((b.workers.get? id).any Worker.beginsDrain).toNat + (b.step now id).drainsBegun id times

/-- Whether worker `id` is never resumed before the time until which it waits. -/
def isOnTime (b : Backlog) (id : Nat) : List Nat → Bool
  | [] => true
  | now :: times => (b.wait? id).all (· ≤ now) && (b.resume now id).isOnTime id times

/-- A walk and then another one are a walk. -/
theorem walk_append (b : Backlog) (id : Nat) (times more : List Nat) :
    b.walk id (times ++ more) = (b.walk id times).walk id more := by
  rw [walk, List.map_append, run, List.foldl_append]
  rfl

/-- A resumption is a walk. -/
theorem exists_walk_of_resume (b : Backlog) (now id : Nat) :
    ∃ times, b.resume now id = b.walk id times := by
  refine resume_induction (P := fun b' => ∃ times, b' = b.walk id times) ?_ ⟨[], rfl⟩
  rintro _ ⟨times, rfl⟩
  exact ⟨times ++ [now], (b.walk_append id times [now]).symm⟩

/-- Whatever the worker does on its own is a walk. -/
theorem exists_walk_of_run (b : Backlog) (id : Nat) (actions : List (Nat × Action))
    (own : ∀ a ∈ actions, a.2 = .step id ∨ a.2 = .resume id) :
    ∃ times, b.run actions = b.walk id times := by
  induction actions generalizing b with
  | nil => exact ⟨[], rfl⟩
  | cons first rest ih =>
    obtain ⟨now, a⟩ := first
    obtain ⟨times, first⟩ : ∃ times, b.act now a = b.walk id times := by
      rcases own _ List.mem_cons_self with rfl | rfl
      · exact ⟨[now], rfl⟩
      · exact b.exists_walk_of_resume now id
    obtain ⟨more, rest⟩ := ih (b.act now a) fun a member => own a (List.mem_cons_of_mem _ member)
    refine ⟨times ++ more, ?_⟩
    rw [walk_append, ← first, ← rest]
    rfl

/-- No step takes the flush further from its end. -/
theorem FlushesAlone.distance_le (h : FlushesAlone persist abandon old id stage b) (now : Nat) :
    ∃ stage', FlushesAlone persist abandon old id stage' (b.step now id) ∧
      stage'.distance (b.step now id).queue ≤ stage.distance b.queue := by
  obtain ⟨stage', fates, h', stride, nearer⟩ := h.step now
  refine ⟨stage', h', ?_⟩
  cases ended : b.report? id with
  | none => exact Nat.le_of_lt (nearer ended)
  | some report =>
    obtain ⟨queue, same⟩ := stride.eq_of_ended (by rw [← h.report?_eq, ended]; rfl)
    exact Nat.le_of_eq (by rw [queue, same])

theorem FlushesAlone.walk (h : FlushesAlone persist abandon old id stage b) (times : List Nat) :
    ∃ stage', FlushesAlone persist abandon old id stage' (b.walk id times) := by
  induction times generalizing b stage with
  | nil => exact ⟨stage, h⟩
  | cons now times ih =>
    obtain ⟨stage', h', -⟩ := h.distance_le now
    exact ih h'

/-- How many drains a flush begins is bounded by the attempts that are left to its items. -/
theorem FlushesAlone.drainsBegun_le (h : FlushesAlone persist abandon old id stage b)
    (times : List Nat) :
    b.drainsBegun id times + stage.owesAttempt.toNat ≤ stage.attemptsLeft b.queue := by
  induction times generalizing b stage with
  | nil =>
    obtain ⟨called, -, accounts⟩ := h.accounts
    rw [drainsBegun, Nat.zero_add]
    exact accounts.owesAttempt_le
  | cons now times ih =>
    obtain ⟨stage', fates, h', stride, -⟩ := h.step now
    obtain ⟨called, -, accounts⟩ := h.accounts
    have used := stride.attemptsLeft accounts.fits
    have later := ih h'
    rw [drainsBegun, h.bound, Option.any_some]
    omega

/-- Who has ended does not go on. -/
theorem FlushesAlone.step_of_ended (h : FlushesAlone persist abandon old id stage b)
    (ended : (b.report? id).isSome = true) (now : Nat) :
    ((b.step now id).report? id).isSome = true := by
  obtain ⟨stage', fates, h', stride, -⟩ := h.step now
  rw [h.report?_eq] at ended
  rw [h'.report?_eq, (stride.eq_of_ended ended).2]
  exact ended

/-- Whenever the steps come, enough of them bring the flush to its end. -/
theorem FlushesAlone.ends_walk (h : FlushesAlone persist abandon old id stage b) {times : List Nat}
    (enough : stage.distance b.queue ≤ times.length ∨ (b.report? id).isSome = true) :
    ((b.walk id times).report? id).isSome = true := by
  induction times generalizing b stage with
  | nil =>
    obtain ⟨stage', fates, -, -, nearer⟩ := h.step 0
    rcases enough with short | ended
    · cases ended : b.report? id with
      | none => exact absurd (nearer ended) (by rw [List.length_nil] at short; omega)
      | some report => rw [Backlog.walk, List.map_nil, Backlog.run, List.foldl_nil, ended]; rfl
    · exact ended
  | cons now times ih =>
    obtain ⟨stage', fates, h', -, nearer⟩ := h.step now
    refine ih h' ?_
    cases ended : b.report? id with
    | some report => exact .inr (h.step_of_ended (by rw [ended]; rfl) now)
    | none =>
      have nearer := nearer ended
      rw [ended, List.length_cons] at enough
      have short := enough.resolve_right Bool.false_ne_true
      exact .inl (Nat.le_of_lt_succ (Nat.lt_of_lt_of_le nearer short))

/-- A flush that is resumed when it can go on ends or comes to wait for a batch, nearer to its
end. -/
theorem FlushesAlone.resume (h : FlushesAlone persist abandon old id stage b) {now : Nat}
    (ready : b.isReady now id = true) :
    ∃ stage', FlushesAlone persist abandon old id stage' (b.resume now id) ∧
      stage'.distance (b.resume now id).queue < stage.distance b.queue ∧
      (((b.resume now id).report? id).isSome = true ∨
        ∃ left, 0 < left ∧ stage'.distance (b.resume now id).queue = 7 * left + 2) := by
  obtain ⟨first, -, h₁, -, nearer⟩ := h.step now
  have running : b.report? id = none := by
    rw [isReady, h.bound, Option.any_some] at ready
    rw [h.report?_eq, Worker.report?_of_ready ready]
  have idle : (b.resume now id).isReady now id = false := by
    obtain ⟨called, -, accounts⟩ := h.accounts
    obtain ⟨-, idle, -⟩ := accounts.steady.run now _ (Worker.distance_lt_patience now b.queue _)
    rw [isReady, Backlog.resume, h.bound]
    exact (congrArg (Option.any _) (Assoc.get?_insert_self ..)).trans idle
  obtain ⟨steps, resumed⟩ := b.exists_advance now id
  obtain ⟨stage', h', near⟩ : ∃ stage',
      FlushesAlone persist abandon old id stage' (b.resume now id) ∧
        stage'.distance (b.resume now id).queue ≤ first.distance (b.step now id).queue := by
    rw [resumed, advance_succ ready]
    refine advance_induction
      (P := fun b' => ∃ stage', FlushesAlone persist abandon old id stage' b' ∧
        stage'.distance b'.queue ≤ first.distance (b.step now id).queue)
      ?_ _ ⟨first, h₁, Nat.le_refl _⟩
    rintro b' ⟨stage, h, near⟩
    obtain ⟨stage', h', nearer⟩ := h.distance_le now
    exact ⟨stage', h', Nat.le_trans nearer near⟩
  refine ⟨stage', h', Nat.lt_of_le_of_lt near (nearer running), ?_⟩
  obtain ⟨called, -, accounts⟩ := h'.accounts
  rw [isReady, h'.bound, Option.any_some] at idle
  rw [h'.report?_eq]
  exact accounts.ended_or_waits idle

theorem FlushesAlone.isReady (h : FlushesAlone persist abandon old id stage b) {now : Nat}
    (running : b.report? id = none) (due : (b.wait? id).all (· ≤ now) = true) :
    b.isReady now id = true := by
  rw [wait?, h.bound, Option.bind_some] at due
  rw [h.report?_eq] at running
  rw [Backlog.isReady, h.bound, Option.any_some, Worker.isReady, running, due]
  rfl

/-- A flush that waits and is always resumed in time ends after as many waits as its items have
attempts left. -/
theorem FlushesAlone.ends_resumes (h : FlushesAlone persist abandon old id stage b)
    {times : List Nat} (onTime : b.isOnTime id times = true)
    (enough : (b.report? id).isSome = true ∨
      ∃ left, 0 < left ∧ left ≤ times.length ∧ stage.distance b.queue = 7 * left + 2) :
    ((b.resumes id times).report? id).isSome = true := by
  induction times generalizing b stage with
  | nil =>
    refine enough.resolve_right ?_
    rintro ⟨left, some, none, -⟩
    exact Nat.not_lt_of_le none some
  | cons now times ih =>
    show (((b.resume now id).resumes id times).report? id).isSome = true
    obtain ⟨due, later⟩ := (Bool.and_eq_true ..).mp onTime
    cases ended : b.report? id with
    | some report =>
      have idle : b.isReady now id = false := by
        rw [Backlog.isReady, h.bound, Option.any_some, Worker.isReady, ← h.report?_eq, ended]
        rfl
      obtain ⟨steps, resumed⟩ := b.exists_advance now id
      rw [resumed, advance_of_not_ready idle] at later ⊢
      exact ih h later (.inl (by rw [ended]; rfl))
    | none =>
      obtain ⟨left, -, few, far⟩ := enough.resolve_left (by rw [ended]; exact Bool.false_ne_true)
      obtain ⟨stage', h', nearer, stops⟩ := h.resume (h.isReady ended due)
      refine ih h' later (stops.imp_right ?_)
      rintro ⟨left', some, waits⟩
      rw [List.length_cons] at few
      exact ⟨left', some, by omega, waits⟩

/-- What a flush that is alone has to report when it has ended. -/
theorem FlushesAlone.of_report (h : FlushesAlone persist abandon old id stage b) {report : Report}
    (ended : b.report? id = some report) :
    b.queue.items = [] ∧ b.queue.draining = false ∧
      report.persisted = persist ∧ report.abandoned = abandon ∧
      ∃ called, b.course.calls = old ++ called ∧
        report.requeued + report.abandoned = called.countP Item.fails := by
  obtain ⟨called, calls, size, fits, alone, persisted, abandoned, failed⟩ := h.accounts
  rw [h.report?_eq] at ended
  cases alone with
  | done down empty =>
    cases ended
    rw [empty] at persisted abandoned
    exact ⟨empty, down, persisted, abandoned, called, calls, failed⟩
  | _ => cases ended

theorem flushesAlone_start (b : Backlog) (size : 0 < b.queue.batchSize)
    (fits : ∀ item ∈ b.queue.items, item.retries ≤ b.queue.maxRetries)
    (down : b.queue.draining = false) :
    FlushesAlone (b.queue.items.countP b.queue.willPersist)
      (b.queue.items.countP b.queue.willAbandon) b.course.calls b.nextWorker (.readingFlag {})
      (b.start .newFlush).2 where
  bound := Assoc.get?_insert_self ..
  accounts := by
    have all : b.queue.items ++ (FlushStage.readingFlag {}).inFlight = b.queue.items :=
      List.append_nil _
    refine ⟨[], (List.append_nil _).symm, size, ?_, .readingFlag down, ?_, ?_, rfl⟩
    · exact all.symm ▸ fits
    · exact (Nat.zero_add _).trans (congrArg (List.countP _) all)
    · exact (Nat.zero_add _).trans (congrArg (List.countP _) all)

/-- A flush that has the queue to itself, which holds any items that may still be tried, begins at
most as many drains as these have attempts left together. Whenever its steps come it ends when
enough of them are taken, and so it does when it is resumed as often, each time as soon as its wait
is over. Then the queue is empty and the flag is down; the report counts as persisted the items
one of whose attempts succeeds and as abandoned those whose attempts all fail, which makes all of
them, and as requeued the calls that failed, but for those that made an item be abandoned. -/
theorem flush_alone (b : Backlog) (size : 0 < b.queue.batchSize)
    (fits : ∀ item ∈ b.queue.items, item.retries ≤ b.queue.maxRetries)
    (down : b.queue.draining = false) :
    let q := b.queue
    let id := b.nextWorker
    let started := (b.start .newFlush).2
    let most := q.totalAttemptsLeft q.items
    (∀ times, started.drainsBegun id times ≤ most) ∧
    (∀ times, 7 * most + 6 ≤ times.length →
      ((started.walk id times).report? id).isSome = true) ∧
    (∀ times, most < times.length → started.isOnTime id times = true →
      ((started.resumes id times).report? id).isSome = true) ∧
    ∀ actions, (∀ a ∈ actions, a.2 = .step id ∨ a.2 = .resume id) →
      (∃ times, started.run actions = started.walk id times) ∧
      ∀ report, (started.run actions).report? id = some report →
        (started.run actions).queue.items = [] ∧ (started.run actions).queue.draining = false ∧
        report.persisted = q.items.countP q.willPersist ∧
        report.abandoned = q.items.countP q.willAbandon ∧
        report.persisted + report.abandoned = q.items.length ∧
        ∃ called, (started.run actions).course.calls = b.course.calls ++ called ∧
          report.requeued + report.abandoned = called.countP Item.fails := by
  intro q id started most
  have alone := b.flushesAlone_start size fits down
  have most_eq : (FlushStage.readingFlag {}).attemptsLeft q = most :=
    congrArg q.totalAttemptsLeft (List.append_nil q.items)
  have far : (FlushStage.readingFlag {}).distance q = 7 * most + 6 := by
    rw [← most_eq]
    rfl
  refine ⟨?_, ?_, ?_, ?_⟩
  · intro times
    exact most_eq ▸ alone.drainsBegun_le times
  · intro times enough
    exact alone.ends_walk (.inl (far.symm ▸ enough))
  · intro times enough onTime
    cases times with
    | nil => exact absurd enough (Nat.not_lt_zero _)
    | cons now times =>
      obtain ⟨due, later⟩ := (Bool.and_eq_true ..).mp onTime
      obtain ⟨stage, alone, nearer, stops⟩ := alone.resume (alone.isReady alone.report?_eq due)
      refine alone.ends_resumes later (stops.imp_right ?_)
      rintro ⟨left, some, waits⟩
      have near : 7 * left + 2 < 7 * most + 6 := waits ▸ far ▸ nearer
      rw [List.length_cons] at enough
      exact ⟨left, some, by omega, waits⟩
  · intro actions own
    obtain ⟨times, walks⟩ := started.exists_walk_of_run id actions own
    refine ⟨⟨times, walks⟩, ?_⟩
    intro report ended
    rw [walks] at ended ⊢
    obtain ⟨stage, alone⟩ := alone.walk times
    obtain ⟨empty, down, persisted, abandoned, accounts⟩ := alone.of_report ended
    refine ⟨empty, down, persisted, abandoned, ?_, accounts⟩
    rw [persisted, abandoned, List.length_eq_countP_add_countP q.willPersist]
    refine congrArg (_ + ·) (List.countP_congr fun item _ => ?_)
    simp [Queue.willAbandon, q]

/-- Three items before a flush: one whose first attempt fails, one whose attempts all fail, and one
that may be tried for the last time. -/
def threeWaiting : Backlog where
  queue := { Queue.new 2 2 with
    items :=
      [⟨0, ⟨"a"⟩, .null, ⟨"first", [{ failure := some { message := "down" } }, {}]⟩, 0, 0⟩,
        ⟨1, ⟨"b"⟩, .null, ⟨"second", [{ failure := some { message := "down" } }]⟩, 0, 1⟩,
        ⟨2, ⟨"c"⟩, .null, ⟨"third", [{ delay := 3 }]⟩, 0, 2⟩]
    pushed := 3 }

/-- The items have six attempts left, of which the flush makes five in three drains. -/
theorem threeWaiting_flush :
    let started := (threeWaiting.start .newFlush).2
    let steps : List (Nat × Action) := [(0, .resume 0), (3, .step 0), (3, .resume 0)]
    threeWaiting.queue.totalAttemptsLeft threeWaiting.queue.items = 6 ∧
    started.drainsBegun 0 (List.replicate 48 4) ≤ 6 ∧
    started.drainsBegun 0 (List.replicate 48 4) = 3 ∧
    ((started.walk 0 (List.replicate 48 4)).report? 0).isSome = true ∧
    ((started.resumes 0 [0, 3, 3, 3, 3, 3, 3]).report? 0).isSome = true ∧
    (started.run steps).report? 0 = some ⟨2, 2, 1, false⟩ ∧
    (started.run steps).queue.items = [] := by
  intro started steps
  have own : ∀ a ∈ steps, a.2 = .step 0 ∨ a.2 = .resume 0 := by
    simp [steps]
  have report : (started.run steps).report? 0 = some ⟨2, 2, 1, false⟩ := by decide
  obtain ⟨drains, walks, resumes, settles⟩ :=
    threeWaiting.flush_alone (by decide) (by decide) rfl
  obtain ⟨empty, -⟩ := (settles steps own).2 _ report
  exact ⟨by decide, drains _, by decide, walks _ (by decide), resumes _ (by decide) (by decide),
    report, empty⟩

end Backlog
end CacheDepot.WriteBehind
