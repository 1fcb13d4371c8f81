import CacheDepot.Proofs.WriteBehind.Ledger
import CacheDepot.Proofs.WriteBehind.Reports

/-!
# No item is lost or duplicated

In every state that pushes, drains, flushes and cancellations can lead to, in whatever order their
steps come, each item that was pushed is in one place, and the calls made for it are those that
its place tells.
-/

namespace CacheDepot.WriteBehind

/-- Where an item can be. -/
inductive Place where
  | queued
  /-- In the batch of the drain that is running. -/
  | inFlight
  | persisted
  | abandoned
  /-- In the batch of a drain that was given up. -/
  | lost
  deriving DecidableEq, Repr

namespace Place

/-- The number of calls made for an item that is there after so many failures. -/
def calls (failures : Nat) : Place → Nat
  | .queued => failures
  | .inFlight | .persisted | .abandoned | .lost => failures + 1

/-- Whether items stay there. -/
def isFinal : Place → Bool
  | .queued | .inFlight => false
  | .persisted | .abandoned | .lost => true

end Place

/-- Where a fate leaves its item for good. -/
def Fate.place? : Fate → Option Place
  | .attempted _ | .requeued _ => none
  | .persisted _ => some .persisted
  | .abandoned _ => some .abandoned
  | .lost _ => some .lost

namespace Course

/-- The items with their places. -/
def places (c : Course) : List (Place × Item) :=
  c.queued.map (fun item => (.queued, item)) ++ c.inFlight.map (fun item => (.inFlight, item)) ++
    c.history.filterMap fun fate => fate.place?.map fun place => (place, fate.item)

/-- The items as they were when they were tried, the earliest first. -/
def calls (c : Course) : List Item :=
  c.history.filterMap fun
    | .attempted item => some item
    | _ => none

end Course

namespace Backlog

/-- Every place of the item with this ticket. -/
def placesOf (b : Backlog) (ticket : Nat) : List (Place × Item) :=
  (b.course.only fun t => t == ticket).places

/-- The calls made for the item with this ticket. -/
def callsOf (b : Backlog) (ticket : Nat) : List Item :=
  (b.course.only fun t => t == ticket).calls

/-- An item is in one place only and has failed so often. -/
structure Accounted (b : Backlog) (maxRetries : Nat) (item : Item) (place : Place)
    (failures : Nat) : Prop where
  places : b.placesOf item.ticket = [(place, item.after failures)]
  calls : b.callsOf item.ticket = (List.range (place.calls failures)).map item.after
  few : failures ≤ maxRetries
  failed : ∀ call < failures, (item.persist.attempt call).failure.isSome = true
  succeeds : place = .persisted → (item.persist.attempt failures).failure = none
  exhausted : place = .abandoned →
    failures = maxRetries ∧ (item.persist.attempt failures).failure.isSome = true
  /-- Nothing happens to it any more once it is in a final place. -/
  final : place.isFinal = true → ∀ later : List (Nat × Action),
    (b.run later).placesOf item.ticket = b.placesOf item.ticket ∧
      (b.run later).callsOf item.ticket = b.callsOf item.ticket

end Backlog

namespace Item

theorem filterMap_place?_rounds (item : Item) (n : Nat) :
    (item.rounds n).filterMap (fun fate => fate.place?.map fun place => (place, fate.item)) =
      [] := by
  induction n with
  | zero => rfl
  | succ n ih =>
    rw [rounds, List.filterMap_append, ih]
    rfl

theorem calls_rounds (item : Item) (queued inFlight : List Item) (n : Nat) (rest : List Fate) :
    Course.calls ⟨queued, inFlight, item.rounds n ++ rest⟩ =
      (List.range n).map item.after ++ Course.calls ⟨queued, inFlight, rest⟩ := by
  induction n generalizing rest with
  | zero => rfl
  | succ n ih =>
    rw [rounds, List.append_assoc, ih, List.range_succ, List.map_append, List.append_assoc]
    rfl

end Item

namespace Ledger

variable {items : List Item} {b : Backlog} {item : Item}

/-- Every pushed item is accounted for. -/
theorem accounted (h : Ledger items b) (member : item ∈ items) :
    ∃ place failures, b.Accounted b.queue.maxRetries item place failures := by
  have standing := h.standing item member
  generalize course : b.course.only (fun t => t == item.ticket) = c at standing
  cases standing with
  | queued failing =>
    rename_i n
    refine ⟨.queued, n, ?_, ?_, failing.few, failing.failed, by simp, by simp,
      by simp [Place.isFinal]⟩
    · rw [Backlog.placesOf, course, Course.places, Item.filterMap_place?_rounds]
      rfl
    · rw [Backlog.callsOf, course, ← List.append_nil (item.rounds n), Item.calls_rounds]
      exact List.append_nil _
  | inFlight failing =>
    rename_i n
    refine ⟨.inFlight, n, ?_, ?_, failing.few, failing.failed, by simp, by simp,
      by simp [Place.isFinal]⟩
    · rw [Backlog.placesOf, course, Course.places, List.filterMap_append,
        Item.filterMap_place?_rounds]
      rfl
    · rw [Backlog.callsOf, course, Item.calls_rounds, Place.calls, List.range_succ,
        List.map_append]
      rfl
  | settled failing final =>
    rename_i n fate
    have stays : ∀ later : List (Nat × Backlog.Action),
        (b.run later).placesOf item.ticket = b.placesOf item.ticket ∧
          (b.run later).callsOf item.ticket = b.callsOf item.ticket := by
      intro later
      have same := h.only_run_of_settled (h.ticket_lt member) course later
      rw [Backlog.placesOf, Backlog.placesOf, Backlog.callsOf, Backlog.callsOf, same, course]
      exact ⟨rfl, rfl⟩
    have places : b.placesOf item.ticket =
        (fate.place?.map fun place => (place, fate.item)).toList := by
      rw [Backlog.placesOf, course, Course.places, List.filterMap_append,
        Item.filterMap_place?_rounds]
      cases fate <;> rfl
    have calls : b.callsOf item.ticket = (List.range (n + 1)).map item.after := by
      rw [Backlog.callsOf, course, Item.calls_rounds, List.range_succ, List.map_append]
      cases final <;> rfl
    cases final with
    | persisted succeeds =>
      exact ⟨.persisted, n, places, calls, failing.few, failing.failed, fun _ => succeeds, by simp,
        fun _ => stays⟩
    | abandoned last fails =>
      exact ⟨.abandoned, n, places, calls, failing.few, failing.failed, by simp,
        fun _ => ⟨last, fails⟩, fun _ => stays⟩
    | lost =>
      exact ⟨.lost, n, places, calls, failing.few, failing.failed, by simp, by simp,
        fun _ => stays⟩

end Ledger

/-! ## Items that are lost -/

/-- Whether an item was lost. -/
def Fate.isLost : Fate → Bool
  | .lost _ => true
  | _ => false

theorem Move.not_lost {q q' : Queue} {flag flag' : Bool} {items items' : List Item}
    {fates : List Fate} (move : Move q flag items q' flag' items' fates) :
    ∀ fate ∈ fates, ¬ fate.isLost = true := by
  intro fate member
  cases move with
  | look => simp at member
  | raise free => simp at member
  | take =>
    obtain ⟨item, -, rfl⟩ := List.mem_map.mp member
    exact Bool.false_ne_true
  | settle batch =>
    obtain ⟨item, -, rfl⟩ := List.mem_map.mp member
    rcases q.judge_cases item with judged | judged | judged <;> rw [judged] <;>
      exact Bool.false_ne_true
  | lower => simp at member

namespace Backlog

/-- The items lost so far with the drains that were given up. -/
def lost (b : Backlog) : List Fate := b.fates.filter Fate.isLost

/-- A worker that goes on loses nothing. -/
theorem lost_step (b : Backlog) (now id : Nat) : (b.step now id).lost = b.lost := by
  unfold step
  split
  · rename_i w _
    have none : (w.step now b.queue).2.2.reverse.filter Fate.isLost = [] :=
      List.filter_eq_nil_iff.mpr fun fate member =>
        (w.step_move now b.queue).not_lost fate (List.mem_reverse.mp member)
    rw [lost, put, List.filter_append, none, List.nil_append]
    rfl
  · rfl

theorem lost_resume (b : Backlog) (now id : Nat) : (b.resume now id).lost = b.lost := by
  refine resume_induction (P := fun b' => b'.lost = b.lost) ?_ rfl
  intro b' same
  exact (b'.lost_step now id).trans same

theorem lost_collect (b : Backlog) (id : Nat) : (b.collect id).lost = b.lost := by
  unfold collect
  split <;> rfl

/-- An item is where it is because it waits, because a worker has taken it, or by its fate. -/
theorem cases_of_mem_placesOf {b : Backlog} {ticket : Nat} {place : Place} {item : Item}
    (there : (place, item) ∈ b.placesOf ticket) :
    (place = .queued ∧ item ∈ b.queue.items) ∨ (place = .inFlight ∧ item ∈ taken b.workers) ∨
      ∃ fate ∈ b.fates, fate.place? = some place ∧ fate.item = item := by
  rw [placesOf, Course.places, List.mem_append, List.mem_append] at there
  rcases there with (waiting | busy) | settled
  · obtain ⟨other, member, same⟩ := List.mem_map.mp waiting
    cases same
    exact .inl ⟨rfl, (List.mem_filter.mp member).1⟩
  · obtain ⟨other, member, same⟩ := List.mem_map.mp busy
    cases same
    exact .inr (.inl ⟨rfl, (List.mem_filter.mp member).1⟩)
  · obtain ⟨fate, member, same⟩ := List.mem_filterMap.mp settled
    obtain ⟨place', left, same⟩ := Option.map_eq_some_iff.mp same
    cases same
    exact .inr (.inr ⟨fate, List.mem_reverse.mp (List.mem_filter.mp member).1, left, rfl⟩)

theorem mem_lost_iff {b : Backlog} {item : Item} :
    .lost item ∈ b.lost ↔ (.lost, item) ∈ b.placesOf item.ticket := by
  constructor
  · intro member
    rw [placesOf, Course.places, List.mem_append]
    refine .inr (List.mem_filterMap.mpr ⟨.lost item, List.mem_filter.mpr ⟨?_, ?_⟩, rfl⟩)
    · exact List.mem_reverse.mpr (List.mem_filter.mp member).1
    · exact beq_self_eq_true item.ticket
  · intro there
    rcases cases_of_mem_placesOf there with ⟨same, -⟩ | ⟨same, -⟩ | ⟨fate, recorded, left, same⟩
    · cases same
    · cases same
    · cases fate with
      | lost other =>
        cases same
        exact List.mem_filter.mpr ⟨recorded, rfl⟩
      | _ => cases left

/-- Where nothing waits and nobody is at work, every item is in a final place. -/
theorem Guarded.isFinal {b : Backlog} (h : b.Guarded) (empty : b.queue.items = [])
    (down : b.queue.draining = false) {ticket : Nat} {place : Place} {item : Item}
    (there : (place, item) ∈ b.placesOf ticket) : place.isFinal = true := by
  have idle : taken b.workers = [] := by
    apply List.flatMap_eq_nil_iff.mpr
    intro x member
    exact Worker.inFlight_of_not_holdsFlag
      (h.not_holdsFlag down (Assoc.get?_eq_some_iff.mpr member))
  rcases cases_of_mem_placesOf there with ⟨-, waits⟩ | ⟨-, busy⟩ | ⟨fate, -, left, -⟩
  · rw [empty] at waits
    cases waits
  · rw [idle] at busy
    cases busy
  · cases fate with
    | attempted other => cases left
    | requeued other => cases left
    | _ => cases left; rfl

/-- Only the one drain that is running has items in flight. -/
theorem Guarded.eq_of_holdsFlag {b : Backlog} (h : b.Guarded) {id id' : Nat} {w w' : Worker}
    (bound : b.workers.get? id = some w) (up : w.holdsFlag = true)
    (bound' : b.workers.get? id' = some w') (up' : w'.holdsFlag = true) : id' = id := by
  obtain ⟨others, -, -, flags, -, -, flags', -, -⟩ := exists_others bound
  have one := Bool.toNat_le b.queue.draining
  rw [h.flags, up, Bool.toNat_true] at flags
  by_cases same : id' = id
  · exact same
  · have member := Assoc.get?_eq_some_iff.mp
      ((Assoc.get?_erase_of_ne _ (Ne.symm same)).trans bound')
    have none : flagsUp (b.workers.erase id) = 0 := by omega
    rw [flagsUp, List.countP_eq_zero] at none
    exact absurd up' (none _ member)

/-- Whatever is pushed, drained, flushed and cancelled, and in whatever order the steps come: every
pushed item is in exactly one place, with the calls made for it that belong there, and nothing
else is found in the queue, in flight or among the fates; at most one drain has items in flight;
and a drain that is not skipped reports as many items as a batch of the queue it met has, whether
it is looked at before it lowers the flag or, as a drain of its own, once it has ended. -/
theorem run_new_accounts (batchSize maxRetries : Nat) (actions : List (Nat × Action)) :
    let b := (Backlog.new batchSize maxRetries).run actions
    (∀ item ∈ issued 0 actions, ∃ place failures, b.Accounted maxRetries item place failures) ∧
    (∀ ticket, (issued 0 actions).length ≤ ticket →
      b.placesOf ticket = [] ∧ b.callsOf ticket = []) ∧
    (∀ id w, b.workers.get? id = some w → w.inFlight ≠ [] → w.holdsFlag = true ∧
      ∀ id' w', b.workers.get? id' = some w' → w'.holdsFlag = true → id' = id) ∧
    (∀ now id w later w' report, b.workers.get? id = some w → w.drainStage? = some .taking →
      (b.step now id).KeepsFlag id later →
      ((b.step now id).run later).workers.get? id = some w' →
      w'.drainStage? = some (.releasing report) →
      report.skipped = false ∧
        report.processed = min (max batchSize 1) b.queue.items.length) ∧
    (∀ now id later report, b.workers.get? id = some .newDrain →
      ((b.resume now id).run later).report? id = some report → report.skipped = false →
      report.processed = min (max batchSize 1) b.queue.items.length) := by
  intro b
  have ledger : Ledger (issued 0 actions) b := (Ledger.new batchSize maxRetries).run actions
  obtain ⟨guarded, size, retries⟩ := (guarded_new batchSize maxRetries).run actions
  have size : b.queue.batchSize = max batchSize 1 := size
  have retries : b.queue.maxRetries = maxRetries := retries
  refine ⟨?_, ?_, ?_, ?_, ?_⟩
  · intro item member
    rw [← retries]
    exact ledger.accounted member
  · intro ticket unused
    rw [placesOf, callsOf, ledger.unknown ticket unused]
    exact ⟨rfl, rfl⟩
  · intro id w bound busy
    have up : w.holdsFlag = true := by
      cases flag : w.holdsFlag with
      | true => rfl
      | false => exact absurd (Worker.inFlight_of_not_holdsFlag flag) busy
    exact ⟨up, fun id' w' bound' up' => guarded.eq_of_holdsFlag bound up bound' up'⟩
  · intro now id w later w' report bound takes keeps bound' releases
    have taken := (atDrain_take now (guarded.known id w bound) bound takes).run keeps
    obtain ⟨v, stage, found, drains, accounts⟩ := taken.accounts
    rw [bound'] at found
    cases found
    rw [releases] at drains
    cases drains
    exact size ▸ accounts
  · intro now id later report bound ended ran
    have own := (ownDrain_resume now (guarded.known id _ bound) bound).run later
    obtain ⟨w, found, ended⟩ := exists_of_report ended
    obtain ⟨stage, rfl, accounts⟩ := own.accounts w found
    cases stage with
    | done report => cases ended; exact size ▸ accounts ran
    | _ => cases ended

/-- Three items of which the first succeeds when it is tried again and the second never does,
drained twice in batches of two; the second drain is given up. -/
def mixedRun : List (Nat × Action) :=
  [(0, .push ⟨"a"⟩ .null ⟨"first", [{ failure := some { message := "down" } }, {}]⟩),
    (0, .push ⟨"b"⟩ .null ⟨"second", [{ failure := some { message := "down" } }]⟩),
    (1, .push ⟨"c"⟩ .null ⟨"third", [{ delay := 9 }]⟩),
    (2, .startDrain), (2, .resume 0), (3, .startDrain), (3, .resume 1), (4, .cancel 1),
    (5, .startDrain)]

/-- The first item was tried twice and then lost, and the third drain, which meets one item, reports
one: once it has ended, and when it is about to lower the flag after its single steps. -/
theorem mixedRun_accounts :
    (∃ place failures, ((Backlog.new 2 1).run mixedRun).Accounted 1
      ⟨0, ⟨"a"⟩, .null, ⟨"first", [{ failure := some { message := "down" } }, {}]⟩, 0, 0⟩
      place failures) ∧
    (((Backlog.new 2 1).run mixedRun).placesOf 0).map Prod.fst = [.lost] ∧
    (((Backlog.new 2 1).run mixedRun).callsOf 0).length = 2 ∧
    (((Backlog.new 2 1).run mixedRun).resume 5 2).report? 2 = some ⟨0, 0, 1, false⟩ ∧
    (⟨0, 0, 1, false⟩ : Report).processed = min 2 1 ∧
    ((⟨0, 0, 1, false⟩ : Report).skipped = false ∧
      (⟨0, 0, 1, false⟩ : Report).processed = min 2 1) := by
  obtain ⟨accounted, -, -, -, ended⟩ := run_new_accounts 2 1 mixedRun
  obtain ⟨-, -, -, releasing, -⟩ := run_new_accounts 2 1 (mixedRun ++ [(5, .step 2)])
  have report : (((Backlog.new 2 1).run mixedRun).resume 5 2).report? 2 =
      some ⟨0, 0, 1, false⟩ := by decide
  refine ⟨accounted _ List.mem_cons_self, by decide, by decide, report,
    ended 5 2 [] _ rfl report rfl, ?_⟩
  exact releasing 5 2 _ [(5, .step 2), (5, .step 2)] _ _ rfl rfl
    ⟨by simp, rfl, by simp, rfl, trivial⟩ rfl rfl

end Backlog
end CacheDepot.WriteBehind
