import CacheDepot.Proofs.WriteBehind.Steps

/-!
# Workers come to a wait

A worker that goes on stops at a wait or comes to its end; the number of steps granted to it is
never what stops it. Each round of a flush uses up an attempt of an item, and within a round
the stages follow each other in order.
-/

namespace CacheDepot.WriteBehind

namespace Queue

variable (q q' : Queue)

theorem totalAttemptsLeft_congr (same : q'.maxRetries = q.maxRetries) (items : List Item) :
    q'.totalAttemptsLeft items = q.totalAttemptsLeft items := by
  induction items with
  | nil => rfl
  | cons item rest ih =>
    rw [totalAttemptsLeft, totalAttemptsLeft, ih, attemptsLeft, attemptsLeft, same]

theorem totalAttemptsLeft_append (items more : List Item) :
    q.totalAttemptsLeft (items ++ more) = q.totalAttemptsLeft items + q.totalAttemptsLeft more := by
  induction items with
  | nil => rw [List.nil_append, totalAttemptsLeft, Nat.zero_add]
  | cons item rest ih =>
    rw [List.cons_append, totalAttemptsLeft, ih, totalAttemptsLeft, Nat.add_assoc]

/-- Taking a batch uses up no attempt. -/
theorem totalAttemptsLeft_take :
    q.totalAttemptsLeft (q.dropBatch.items ++ q.batch) = q.totalAttemptsLeft q.items := by
  have split := q.totalAttemptsLeft_append q.batch q.dropBatch.items
  rw [batch, dropBatch, List.take_append_drop] at split
  rw [split, totalAttemptsLeft_append, Nat.add_comm, batch, dropBatch]

/-- An attempt that is over uses itself up. -/
theorem totalAttemptsLeft_settle {batch : List Item}
    (fits : ∀ item ∈ batch, item.retries ≤ q.maxRetries) :
    q.totalAttemptsLeft (retries (batch.map q.judge)) + batch.length ≤
      q.totalAttemptsLeft batch := by
  induction batch with
  | nil => exact Nat.le_refl _
  | cons item rest ih =>
    have few := fits item List.mem_cons_self
    have later := ih fun other member => fits other (List.mem_cons_of_mem item member)
    have left : q.attemptsLeft item = q.attemptsLeft item.retried + 1 := by
      simp only [attemptsLeft, Item.retried]
      omega
    have back : q.totalAttemptsLeft (retries ((item :: rest).map q.judge)) ≤
        q.attemptsLeft item.retried + q.totalAttemptsLeft (retries (rest.map q.judge)) := by
      rw [List.map_cons]
      rcases q.judge_cases item with judged | judged | judged <;> rw [judged]
      · exact Nat.le_add_left _ _
      · exact Nat.le_refl _
      · exact Nat.le_add_left _ _
    rw [totalAttemptsLeft, List.length_cons, left]
    omega

end Queue

namespace DrainStage

variable {q : Queue} {stage : DrainStage}

/-- Whether a batch that the drain has taken holds items. -/
def Loaded : DrainStage → Prop
  | .attempting batch _ | .settling batch => batch ≠ []
  | .claiming | .taking | .releasing _ | .done _ => True

/-- How far a drain is from its next wait, as far as its stage tells. A drain that finds no items
has to lower the flag again. -/
def rank (q : Queue) : DrainStage → Nat
  | .claiming => if q.draining then 1 else if q.items.isEmpty then 9 else 4
  | .taking => if q.items.isEmpty then 8 else 3
  | .attempting _ _ => 2
  | .settling _ => 1
  | .releasing _ => 7
  | .done _ => 0

/-- A bound on the steps of a drain up to its next wait, with what a flush does after it. -/
def distance (q : Queue) (stage : DrainStage) : Nat :=
  7 * q.totalAttemptsLeft (q.items ++ stage.inFlight) + stage.rank q

theorem Loaded.step (h : stage.Loaded) (now : Nat) (q : Queue) :
    (stage.step now q).2.1.Loaded := by
  cases stage with
  | claiming => rw [DrainStage.step]; split <;> trivial
  | taking =>
    rw [DrainStage.step]
    split
    · trivial
    · rename_i full
      exact fun empty => full (List.isEmpty_iff.mpr empty)
  | attempting batch due => exact h
  | _ => trivial

theorem rank_le (q : Queue) (stage : DrainStage) : stage.rank q ≤ 9 := by
  cases stage <;> rw [rank] <;> (repeat' split) <;> omega

/-- A drain comes to its end when it is skipped or has lowered the flag. -/
theorem skipped_or_released {now : Nat} {report : Report}
    (ended : (stage.step now q).2.1 = .done report) :
    report.skipped = true ∨ stage = .releasing report ∨ stage = .done report := by
  cases stage with
  | claiming =>
    rw [step] at ended
    split at ended
    · cases ended
      exact .inl rfl
    · simp at ended
  | taking => rw [step] at ended; split at ended <;> simp at ended
  | attempting batch due => cases ended
  | settling batch => cases ended
  | releasing other => cases ended; exact .inr (.inl rfl)
  | done other => cases ended; exact .inr (.inr rfl)

/-- Every step of a drain brings it nearer to its next wait. -/
theorem distance_step (now : Nat) (size : 0 < q.batchSize) (loaded : stage.Loaded)
    (fits : ∀ item ∈ stage.inFlight, item.retries ≤ q.maxRetries)
    (running : ∀ report, stage ≠ .done report) :
    (stage.step now q).2.1.distance (stage.step now q).1 < stage.distance q := by
  cases stage with
  | claiming =>
    rw [step]
    split
    · rename_i up
      simp only [distance, rank, inFlight, if_pos up]
      omega
    · rename_i down
      have same := q.totalAttemptsLeft_congr { q with draining := true } rfl
      simp only [distance, rank, inFlight, if_neg down, same]
      split <;> omega
  | taking =>
    rw [step]
    split
    · rename_i none
      have empty : q.items.isEmpty = true := by
        rw [List.isEmpty_iff] at none ⊢
        exact (List.take_eq_nil_iff.mp none).resolve_left (Nat.ne_of_gt size)
      simp only [distance, rank, inFlight, if_pos empty]
      omega
    · have taken := q.totalAttemptsLeft_take
      have same := q.totalAttemptsLeft_congr q.dropBatch rfl
      simp only [distance, rank, inFlight, same, taken, List.append_nil]
      split <;> omega
  | attempting batch due =>
    simp only [step, distance, rank, inFlight]
    omega
  | settling batch =>
    have settled : q.totalAttemptsLeft (Queue.retries (batch.map q.judge)) + batch.length ≤
        q.totalAttemptsLeft batch := q.totalAttemptsLeft_settle fits
    have some := List.length_pos_iff.mpr loaded
    have same := q.totalAttemptsLeft_congr
      (q.requeue (Queue.retries (batch.map q.judge))) rfl
    have items : (q.requeue (Queue.retries (batch.map q.judge))).items =
        q.items ++ Queue.retries (batch.map q.judge) := rfl
    simp only [step, distance, rank, inFlight, same, items, List.append_nil,
      Queue.totalAttemptsLeft_append]
    omega
  | releasing report =>
    have same := q.totalAttemptsLeft_congr { q with draining := false } rfl
    simp only [step, distance, rank, inFlight, same]
    omega
  | done report => exact absurd rfl (running report)

end DrainStage

/-- Only items that may be tried again are put back. -/
theorem Queue.retries_le {q : Queue} {batch : List Item} {item : Item}
    (back : item ∈ Queue.retries (batch.map q.judge)) : item.retries ≤ q.maxRetries := by
  obtain ⟨fate, judged, kept⟩ := List.mem_filterMap.mp back
  obtain ⟨old, -, rfl⟩ := List.mem_map.mp judged
  cases judged : q.judge old with
  | requeued other =>
    rw [judged] at kept
    obtain rfl : other = item := Option.some.inj kept
    rw [judge] at judged
    split at judged
    · simp at judged
    · split at judged
      · rename_i more
        cases judged
        exact more
      · simp at judged
  | _ => rw [judged] at kept; simp at kept

namespace Course

variable {q : Queue} {c c' : Course}

/-- Whether no item waits or is in flight that may not be tried again. -/
def Fits (maxRetries : Nat) (c : Course) : Prop :=
  ∀ item ∈ c.queued ++ c.inFlight, item.retries ≤ maxRetries

theorem Shift.fits (shift : c.Shift q c') (fits : c.Fits q.maxRetries) : c'.Fits q.maxRetries := by
  cases shift with
  | stay => exact fits
  | take idle split =>
    intro item member
    refine fits item (List.mem_append_left _ ?_)
    rw [split]
    exact List.mem_append.mpr (List.mem_append.mp member).symm
  | settle =>
    intro item member
    rw [List.append_nil] at member
    rcases List.mem_append.mp member with old | back
    · exact fits item (List.mem_append_left _ old)
    · exact Queue.retries_le back
  | lose => exact fun item member => fits item (List.mem_append_left _ (by simpa using member))

theorem Shifts.fits (shifts : c.Shifts q c') (fits : c.Fits q.maxRetries) :
    c'.Fits q.maxRetries := by
  induction shifts with
  | refl => exact fits
  | tail _ shift ih => exact shift.fits ih

end Course

namespace Move

variable {q q' : Queue} {flag flag' : Bool} {items items' : List Item} {fates : List Fate}

/-- For a worker alone a step is a shift. -/
theorem shift (move : Move q flag items q' flag' items' fates) :
    Course.Shift q ⟨q.items, items, []⟩ ⟨q'.items, items', fates⟩ := by
  cases move with
  | look => exact .stay
  | raise free => exact .stay
  | take => exact .take rfl (List.take_append_drop ..).symm
  | settle batch => exact .settle
  | lower => exact .stay

theorem batchSize (move : Move q flag items q' flag' items' fates) :
    q'.batchSize = q.batchSize := by
  cases move <;> rfl

theorem maxRetries (move : Move q flag items q' flag' items' fates) :
    q'.maxRetries = q.maxRetries := by
  cases move <;> rfl

end Move

namespace Worker

variable {q : Queue} {w : Worker} {now : Nat}

/-- Whether a worker is a flush. -/
def isFlush : Worker → Bool
  | .drain _ => false
  | .flush _ => true

/-- Whether a batch that the worker has taken holds items. A flush does not stay at a drain that
is over. -/
def Loaded : Worker → Prop
  | .drain stage => stage.Loaded
  | .flush (.draining _ stage) => stage.Loaded ∧ ∀ report, stage ≠ .done report
  | .flush _ => True

/-- What a flush has seen of the queue since its last wait still holds. -/
def Checked (q : Queue) : Worker → Prop
  | .flush (.readingItems _) => q.draining = false
  | .flush (.done _) => q.draining = false ∧ q.items = []
  | _ => True

/-- How far a worker is from its next wait, as far as its stage tells. -/
def rank (now : Nat) (q : Queue) : Worker → Nat
  | .drain stage => stage.rank q
  | .flush (.readingFlag _) => 6
  | .flush (.readingItems _) => 5
  | .flush (.draining _ stage) => stage.rank q
  | .flush (.pausing _ due) => if due ≤ now then 7 else 0
  | .flush (.done _) => 0

/-- A bound on the steps of a worker up to its next wait. -/
def distance (now : Nat) (q : Queue) (w : Worker) : Nat :=
  7 * q.totalAttemptsLeft (q.items ++ w.inFlight) + w.rank now q

/-- A queue and a worker on it while nobody else acts. -/
structure Steady (q : Queue) (w : Worker) : Prop where
  size : 0 < q.batchSize
  fits : Course.Fits q.maxRetries ⟨q.items, w.inFlight, []⟩
  loaded : w.Loaded
  checked : w.Checked q

theorem distance_lt_patience (now : Nat) (q : Queue) (w : Worker) :
    w.distance now q < patience q w := by
  have small : w.rank now q ≤ 9 := by
    cases w with
    | drain stage => exact stage.rank_le q
    | flush stage =>
      cases stage with
      | draining total stage => exact stage.rank_le q
      | pausing total due => rw [rank]; split <;> omega
      | _ => rw [rank]; omega
  rw [distance, patience]
  omega

/-- A flush does not go on at once after a drain that it skipped. -/
theorem distance_afterDrain (now : Nat) (total : Report) {stage : DrainStage}
    (goesOn : ∀ report, stage = .done report → report.skipped = true) :
    (Worker.flush (FlushStage.afterDrain now total stage)).distance now q = stage.distance q := by
  cases stage with
  | done report =>
    have later : ¬ now + pollInterval ≤ now :=
      Nat.not_le_of_lt (Nat.lt_add_of_pos_right (Nat.succ_pos 4))
    rw [FlushStage.afterDrain, if_pos (goesOn report rfl), distance, rank, if_neg later]
    rfl
  | _ => rfl

theorem isFlush_step (now : Nat) (q : Queue) (w : Worker) :
    (w.step now q).2.1.isFlush = w.isFlush := by
  cases w <;> rfl

theorem Steady.step (h : Steady q w) (now : Nat) :
    Steady (w.step now q).1 (w.step now q).2.1 := by
  have move := w.step_move now q
  refine ⟨move.batchSize ▸ h.size, move.maxRetries ▸ move.shift.fits h.fits, ?_, ?_⟩
  · cases w with
    | drain stage => exact DrainStage.Loaded.step h.loaded now q
    | flush stage =>
      cases stage with
      | readingFlag total =>
        simp only [Worker.step, FlushStage.step]
        split
        · exact ⟨trivial, by simp⟩
        · trivial
      | readingItems total =>
        simp only [Worker.step, FlushStage.step]
        split
        · trivial
        · exact ⟨trivial, by simp⟩
      | draining total stage =>
        have loaded := DrainStage.Loaded.step h.loaded.1 now q
        show (Worker.flush (FlushStage.afterDrain now total (stage.step now q).2.1)).Loaded
        cases reached : (stage.step now q).2.1 with
        | done report => rw [FlushStage.afterDrain]; split <;> trivial
        | _ => exact ⟨reached ▸ loaded, by simp⟩
      | _ => trivial
  · cases w with
    | drain stage => trivial
    | flush stage =>
      cases stage with
      | readingFlag total =>
        simp only [Worker.step, FlushStage.step]
        split
        · trivial
        · rename_i down
          exact Bool.eq_false_iff.mpr down
      | readingItems total =>
        simp only [Worker.step, FlushStage.step]
        split
        · rename_i empty
          exact ⟨h.checked, List.isEmpty_iff.mp empty⟩
        · trivial
      | draining total stage =>
        show (Worker.flush (FlushStage.afterDrain now total (stage.step now q).2.1)).Checked _
        cases (stage.step now q).2.1 with
        | done report => rw [FlushStage.afterDrain]; split <;> trivial
        | _ => trivial
      | pausing total due => trivial
      | done total => exact h.checked

/-- Every step of a worker that has not ended brings it nearer to its next wait, also a step out of
the wait for a batch. -/
theorem Steady.distance_step (h : Steady q w) (now : Nat) (running : w.report? = none)
    (passed : ∀ total due, w = .flush (.pausing total due) → due ≤ now) :
    (w.step now q).2.1.distance now (w.step now q).1 < w.distance now q := by
  cases w with
  | drain stage =>
    refine DrainStage.distance_step now h.size h.loaded (fun item member => ?_) ?_
    · exact h.fits item (List.mem_append_right _ member)
    · rintro report rfl
      cases running
  | flush stage =>
    cases stage with
    | readingFlag total =>
      simp only [Worker.step, FlushStage.step]
      split
      · rename_i up
        show _ * q.totalAttemptsLeft (q.items ++ []) + DrainStage.rank q .claiming <
          _ * q.totalAttemptsLeft (q.items ++ []) + 6
        rw [DrainStage.rank, if_pos up]
        omega
      · exact Nat.lt_succ_self _
    | readingItems total =>
      simp only [Worker.step, FlushStage.step]
      split
      · exact Nat.lt_add_of_pos_right (Nat.succ_pos 4)
      · rename_i full
        show _ * q.totalAttemptsLeft (q.items ++ []) + DrainStage.rank q .claiming <
          _ * q.totalAttemptsLeft (q.items ++ []) + 5
        rw [DrainStage.rank]
        split <;> omega
    | draining total stage =>
      have nearer := DrainStage.distance_step now h.size h.loaded.1
        (fun item member => h.fits item (List.mem_append_right _ member)) h.loaded.2
      show (Worker.flush (FlushStage.afterDrain now total (stage.step now q).2.1)).distance now
        (stage.step now q).1 < stage.distance q
      by_cases goesOn : ∀ report, (stage.step now q).2.1 = .done report → report.skipped = true
      · rwa [distance_afterDrain now total goesOn]
      · push Not at goesOn
        obtain ⟨report, reached, ran⟩ := goesOn
        have ended := (DrainStage.skipped_or_released reached).resolve_left ran
        obtain rfl : stage = .releasing report := ended.resolve_right (h.loaded.2 report)
        have same := q.totalAttemptsLeft_congr { q with draining := false } rfl (q.items ++ [])
        rw [reached, FlushStage.afterDrain, if_neg ran]
        show 7 * Queue.totalAttemptsLeft { q with draining := false } (q.items ++ []) + 6 <
          7 * q.totalAttemptsLeft (q.items ++ []) + 7
        rw [same]
        omega
    | pausing total due =>
      have due := passed total due rfl
      show _ * q.totalAttemptsLeft (q.items ++ []) + 6 <
          _ * q.totalAttemptsLeft (q.items ++ []) + rank now q (.flush (.pausing total _))
      rw [rank, if_pos due]
      omega
    | done total => cases running

theorem report?_of_ready (ready : w.isReady now = true) : w.report? = none := by
  rw [isReady, Bool.and_eq_true] at ready
  exact Option.isNone_iff_eq_none.mp ready.1

/-- A worker comes to a wait or to its end before its steps run out. -/
theorem Steady.run (h : Steady q w) (now fuel : Nat) (enough : w.distance now q < fuel) :
    Steady (w.run now q fuel).1 (w.run now q fuel).2.1 ∧
      (w.run now q fuel).2.1.isReady now = false ∧
      (w.run now q fuel).2.1.isFlush = w.isFlush := by
  induction fuel generalizing q w with
  | zero => exact absurd enough (Nat.not_lt_zero _)
  | succ fuel ih =>
    unfold Worker.run
    split
    · rename_i ready
      have nearer := h.distance_step now (report?_of_ready ready) fun total due same => by
        subst same
        simpa [isReady, report?, wait?] using ready
      obtain ⟨steady, idle, kind⟩ := ih (h.step now) (by omega)
      exact ⟨steady, idle, kind.trans (isFlush_step now q w)⟩
    · rename_i idle
      exact ⟨h, Bool.eq_false_iff.mpr idle, rfl⟩

/-- A worker between two goes at the queue: it has not begun or it waits. -/
structure Parked (w : Worker) : Prop where
  loaded : w.Loaded
  waits : w.Fresh ∨ w.wait?.isSome = true

theorem Fresh.parked (fresh : w.Fresh) : w.Parked := by
  refine ⟨?_, .inl fresh⟩
  rcases fresh with rfl | rfl <;> trivial

theorem Parked.checked (h : w.Parked) (q : Queue) : w.Checked q := by
  rcases h.waits with (rfl | rfl) | waits
  · trivial
  · trivial
  · cases w with
    | drain stage => trivial
    | flush stage =>
      cases stage with
      | readingItems total => cases waits
      | done total => cases waits
      | _ => trivial

/-- Who has not begun or waits, and has taken nothing, does not have the flag up. -/
theorem Parked.not_holdsFlag (h : w.Parked) (untaken : w.inFlight = []) : w.holdsFlag = false := by
  have idle : ∀ stage : DrainStage, stage.Loaded → stage.wait?.isSome = true →
      stage.inFlight = [] → stage.holdsFlag = false := by
    intro stage loaded waits untaken
    cases stage with
    | attempting batch due => exact absurd untaken loaded
    | _ => cases waits
  rcases h.waits with fresh | waits
  · exact fresh.not_holdsFlag
  · have loaded := h.loaded
    cases w with
    | drain stage => exact idle stage loaded waits untaken
    | flush stage =>
      cases stage with
      | draining total stage => exact idle stage loaded.1 waits untaken
      | _ => rfl

/-- A worker that cannot go on has ended or waits. -/
theorem waits_of_not_ready (idle : w.isReady now = false) (running : w.report? = none) :
    w.wait?.isSome = true := by
  rw [isReady, running] at idle
  cases waits : w.wait? with
  | none => rw [waits] at idle; simp at idle
  | some due => rfl

/-- A drain that waits has the flag up. -/
theorem holdsFlag_of_wait? (waits : w.wait?.isSome = true) (drain : w.isFlush = false) :
    w.holdsFlag = true := by
  cases w with
  | drain stage =>
    cases stage with
    | attempting batch due => rfl
    | _ => cases waits
  | flush stage => cases drain

/-- A flush that ends leaves the queue empty and the flag down. -/
theorem Steady.empty (h : Steady q w) (flush : w.isFlush = true) (ended : w.report?.isSome = true) :
    q.draining = false ∧ q.items = [] := by
  cases w with
  | drain stage => cases flush
  | flush stage =>
    cases stage with
    | done total => exact h.checked
    | _ => cases ended

end Worker

end CacheDepot.WriteBehind
