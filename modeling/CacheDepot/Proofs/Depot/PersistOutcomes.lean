import CacheDepot.Proofs.Depot.Unqueued
import CacheDepot.Proofs.Depot.Timeline

/-!
# What becomes of queued values stays with the queue

Values that are written behind are persisted at some time, or given up. Neither is seen by callers:
a depot in time is followed by its mirror, which knows nothing of the queue, so the answers of all
operations and the contents and counters of all stores are at any time the same, however the
attempts to persist turn out.
-/

namespace CacheDepot

/-- A depot goes on as it should without queueing what is written behind. -/
theorem Depot.Steady.submitUnqueued {d : Depot} (h : d.Steady) (now : Nat) (operation : Operation) :
    (d.submitUnqueued now operation).Steady := by
  let numbered : Depot := { d with nextTask := d.nextTask + 1 }
  have sound : numbered.Sound := ⟨h.sound.resting, h.sound.tasks, h.sound.timer, h.sound.sweepers⟩
  have plain (same : numbered.startUnqueued now operation = numbered.start now operation) :
      (d.submitUnqueued now operation).Steady := by
    rw [Depot.submitUnqueued, same]
    exact h.act now (.start operation)
  cases operation with
  | writeBehind store key value ttl batchSize persist =>
    have cached := sound.storesOnly (.setKey numbered now (d.getCache store) key ttl value)
    refine ⟨(SoundAfter.answered cached).settleTask d.nextTask, ?_, ?_⟩
    · exact ⟨h.paced.inOrder, h.paced.timer, h.paced.sweepers⟩
    · exact h.flights.turn (.starts (.answered numbered
        (.setKey numbered now (d.getCache store) key ttl (List.mem_singleton_self _))))
  | _ => exact plain rfl

namespace Depot.Mirrors

open Timeline (passTo_induction passTo_of_late passTo_of_due passTo_later)

variable {pairs : List TaskPair} {d r : Depot} {now : Nat}

/-- What is due in the mirror is due in the depot. -/
theorem dueTimes (h : Mirrors pairs d r) : ∀ due ∈ r.dueTimes, due ∈ d.dueTimes := by
  have same {t : Task} (alone : t.usesQueue = false) : r.taskDue? t = d.taskDue? t := by
    cases t with
    | awaiting worker => cases alone
    | flushing worker => cases alone
    | draining worker => cases alone
    | _ => rfl
  have untimed : r.timerDue? = none := by rw [timerDue?, h.untimed, Option.bind_none]
  intro due member
  rw [Depot.dueTimes, untimed, h.agree.registry, Option.toList_none, List.append_nil] at member
  rw [Depot.dueTimes]
  rcases List.mem_append.mp member with member | member
  · obtain ⟨b, bound, shown⟩ := List.mem_filterMap.mp member
    rw [h.paired.right] at bound
    obtain ⟨p, inside, rfl⟩ := List.mem_map.mp bound
    have bound' := Assoc.get?_eq_some_iff.mp (h.paired.get?_left inside)
    refine List.mem_append_left _ (List.mem_append_left _ ?_)
    refine List.mem_filterMap.mpr ⟨_, bound', ?_⟩
    exact (same (h.paired.alone p inside)).symm.trans shown
  · exact List.mem_append_right _ member

/-- As time passes, a depot and its mirror come from rest to rest together. -/
theorem passTo (h : Mirrors pairs d r) (steady : d.Steady) (steady' : r.Steady)
    (rests : d.readyAction? now = none) (target : Nat) :
    ∃ pairs', Mirrors pairs' (Timeline.passTo target now d) (Timeline.passTo target now r) ∧
      KeepsAwaited pairs pairs' := by
  induction now, d using passTo_induction target generalizing pairs r with
  | late now d late =>
    rw [passTo_of_late late, passTo_of_late fun due member => late due (h.dueTimes due member)]
    exact ⟨pairs, h, .refl pairs⟩
  | moves now d due next inTime ih =>
    obtain ⟨-, after, first⟩ := nextDue?_eq_some_iff.mp next
    have first' : ∀ other ∈ r.dueTimes, now < other → due ≤ other :=
      fun other member => first other (h.dueTimes other member)
    rw [passTo_of_due next inTime]
    by_cases shared : due ∈ r.dueTimes
    · have next' : r.nextDue? now = some due :=
        nextDue?_eq_some_iff.mpr ⟨shared, after, first'⟩
      obtain ⟨pairs', mirrors, keeps⟩ :=
        h.settles (steady.settles_settle due) (steady'.settles_settle due)
      obtain ⟨pairs'', passed, keeps'⟩ :=
        ih mirrors (steady.settle due) (steady'.settle due) (steady.rests_settle due)
      rw [passTo_of_due next' inTime]
      exact ⟨pairs'', passed, keeps.trans keeps'⟩
    · -- what is due has to do with the queue alone, and nothing happens in the mirror
      have nothing : ∀ other ∈ r.dueTimes, ¬ Between now due other := by
        rintro other member ⟨later, before⟩
        exact shared (Nat.le_antisymm before (first' other member later) ▸ member)
      have waits := rests_later (h.rests rests) nothing
      obtain ⟨pairs', mirrors, keeps⟩ := h.settles (steady.settles_settle due) (.rests waits)
      obtain ⟨pairs'', passed, keeps'⟩ :=
        ih mirrors (steady.settle due) steady' (steady.rests_settle due)
      rw [← passTo_later (Nat.le_of_lt after) nothing]
      exact ⟨pairs'', passed, keeps.trans keeps'⟩

end Depot.Mirrors

namespace Timeline

/-- A depot in time that is at rest, and its mirror at the same time. -/
structure Mirrors (pairs : List TaskPair) (t r : Timeline) : Prop where
  now : r.now = t.now
  depots : t.depot.Mirrors pairs r.depot
  steady : t.depot.Steady
  steadyMirror : r.depot.Steady
  rests : t.depot.readyAction? t.now = none

/-- Starts operations one after the other, each at its time or as soon as the one before it was
started. -/
def issue (t : Timeline) : List (Nat × Operation) → List Nat × Timeline
  | [] => ([], t)
  | (time, operation) :: rest =>
    let (id, t) := (t.waitUntil time).submit operation
    let (ids, t) := t.issue rest
    (id :: ids, t)

/-- Starts an operation without queueing what is written behind, and does everything that can happen
at once. -/
def submitUnqueued (t : Timeline) (operation : Operation) : Nat × Timeline :=
  (t.depot.nextTask, { t with depot := t.depot.submitUnqueued t.now operation }.settle)

/-- Starts operations in their order without queueing what is written behind. -/
def issueUnqueued (t : Timeline) : List (Nat × Operation) → List Nat × Timeline
  | [] => ([], t)
  | (time, operation) :: rest =>
    let (id, t) := (t.waitUntil time).submitUnqueued operation
    let (ids, t) := t.issueUnqueued rest
    (id :: ids, t)

namespace Mirrors

variable {pairs : List TaskPair} {t r : Timeline}

theorem waitUntil (h : Mirrors pairs t r) (time : Nat) :
    ∃ pairs', Mirrors pairs' (t.waitUntil time) (r.waitUntil time) ∧ KeepsAwaited pairs pairs' := by
  obtain ⟨pairs', depots, keeps⟩ := h.depots.passTo h.steady h.steadyMirror h.rests time
  obtain ⟨steady, rests⟩ := h.steady.passTo h.rests time
  obtain ⟨steadyMirror, -⟩ := h.steadyMirror.passTo (h.depots.rests h.rests) time
  refine ⟨pairs', ?_, keeps⟩
  rw [Timeline.waitUntil, Timeline.waitUntil, h.now]
  exact ⟨rfl, depots, steady, steadyMirror, rests⟩

theorem submit (h : Mirrors pairs t r) {operation : Operation}
    (detached : operation.isDetached = true) :
    ∃ pairs', Mirrors pairs' (t.submit operation).2 (r.submitUnqueued operation).2 ∧
      KeepsAwaited pairs pairs' ∧
      Shared pairs' (t.submit operation).1 (r.submitUnqueued operation).1 := by
  obtain ⟨started, depots, keeps, shared⟩ :=
    h.depots.submit h.steady.flights.numbered h.steadyMirror.flights.numbered t.now detached
  have steady := h.steady.act t.now (.start operation)
  have steadyMirror := h.steadyMirror.submitUnqueued t.now operation
  obtain ⟨pairs', settled, keeps'⟩ :=
    depots.settles (steady.settles_settle t.now) (steadyMirror.settles_settle t.now)
  refine ⟨pairs', ?_, keeps.trans keeps', shared.keep keeps'⟩
  obtain ⟨now, depot⟩ := r
  cases h.now
  exact ⟨rfl, settled, steady.settle _, steadyMirror.settle _, steady.rests_settle _⟩

theorem issue (h : Mirrors pairs t r) {script : List (Nat × Operation)}
    (detached : ∀ entry ∈ script, entry.2.isDetached = true) :
    ∃ pairs', Mirrors pairs' (t.issue script).2 (r.issueUnqueued script).2 ∧
      KeepsAwaited pairs pairs' ∧
      List.Forall₂ (Shared pairs') (t.issue script).1 (r.issueUnqueued script).1 := by
  induction script generalizing pairs t r with
  | nil => exact ⟨pairs, h, .refl pairs, .nil⟩
  | cons entry rest ih =>
    obtain ⟨waited, mirrors, keeps⟩ := h.waitUntil entry.1
    obtain ⟨started, mirrors, keeps', shared⟩ := mirrors.submit (detached entry List.mem_cons_self)
    obtain ⟨pairs', mirrors, keeps'', all⟩ :=
      ih mirrors fun other member => detached other (List.mem_cons_of_mem _ member)
    refine ⟨pairs', mirrors, keeps.trans (keeps'.trans keeps''), ?_⟩
    exact .cons (shared.keep keeps'') all

theorem answer?_eq {id id' : Nat} (h : Mirrors pairs t r) (shared : Shared pairs id id') :
    r.answer? id' = t.answer? id := by
  obtain ⟨p, member, rfl, rfl, -⟩ := shared
  rw [answer?, answer?, h.depots.paired.get?_left member, h.depots.paired.get?_right member]

theorem answers_eq {ids ids' : List Nat} (h : Mirrors pairs t r)
    (shared : List.Forall₂ (Shared pairs) ids ids') : ids'.map r.answer? = ids.map t.answer? := by
  induction shared with
  | nil => rfl
  | cons first rest ih => rw [List.map_cons, List.map_cons, h.answer?_eq first, ih]

end Mirrors

/-! ## What callers see -/

/-- What callers see at some time. -/
structure View where
  /-- The answers that have come to the operations they started, in that order. -/
  answers : List (Option Answer)
  /-- The stores under their names. -/
  registry : Registry
  /-- Every store ever created, with all its entries and counters. -/
  stores : List Store

/-- What callers see at a time of the operations that they start. -/
def view (t : Timeline) (script : List (Nat × Operation)) (time : Nat) : View :=
  let (ids, t) := t.issue script
  let t := t.waitUntil time
  ⟨ids.map t.answer?, t.depot.registry, t.depot.stores⟩

/-- What callers see at a time if what is written behind is not queued. -/
def viewUnqueued (t : Timeline) (script : List (Nat × Operation)) (time : Nat) : View :=
  let (ids, t) := t.issueUnqueued script
  let t := t.waitUntil time
  ⟨ids.map t.answer?, t.depot.registry, t.depot.stores⟩

/-- Callers see the same in the mirror. -/
theorem Mirrors.view_eq {t r : Timeline} {pairs : List TaskPair} (h : Mirrors pairs t r)
    {script : List (Nat × Operation)} (detached : ∀ entry ∈ script, entry.2.isDetached = true)
    (time : Nat) : r.viewUnqueued script time = t.view script time := by
  obtain ⟨issued, mirrors, -, shared⟩ := h.issue detached
  obtain ⟨pairs', mirrors, keeps⟩ := mirrors.waitUntil time
  have answers := mirrors.answers_eq (shared.imp fun _ _ known => known.keep keeps)
  have agree := mirrors.depots.agree
  rw [viewUnqueued, view]
  dsimp only
  rw [answers, agree.registry, agree.stores_eq]

end Timeline

/-! ## Outcomes -/

/-- The operation with another fate for the value that it writes behind. -/
def Operation.persisting (persist : Persist) : Operation → Operation
  | .writeBehind store key value ttl batchSize _ =>
    .writeBehind store key value ttl batchSize persist
  | operation => operation

/-- A script in which the attempts to persist turn out as is given for each operation. -/
def withOutcomes (outcomes : Nat → Persist) (script : List (Nat × Operation)) :
    List (Nat × Operation) :=
  script.mapIdx fun i entry => (entry.1, entry.2.persisting (outcomes i))

/-- Where nothing is queued, it does not matter how it would be persisted. -/
theorem Timeline.issueUnqueued_withOutcomes (t : Timeline) (outcomes : Nat → Persist)
    (script : List (Nat × Operation)) :
    t.issueUnqueued (withOutcomes outcomes script) = t.issueUnqueued script := by
  induction script generalizing t outcomes with
  | nil => rfl
  | cons entry rest ih =>
    obtain ⟨time, operation⟩ := entry
    have same (t : Timeline) :
        t.submitUnqueued (operation.persisting (outcomes 0)) = t.submitUnqueued operation := by
      cases operation <;> rfl
    have later (t : Timeline) := ih t fun i => outcomes (i + 1)
    rw [withOutcomes, List.mapIdx_cons, issueUnqueued, issueUnqueued, same]
    dsimp only
    rw [← later]
    rfl

theorem isDetached_withOutcomes {script : List (Nat × Operation)}
    (detached : ∀ entry ∈ script, entry.2.isDetached = true) (outcomes : Nat → Persist) :
    ∀ entry ∈ withOutcomes outcomes script, entry.2.isDetached = true := by
  intro entry member
  obtain ⟨i, inside, rfl⟩ := List.mem_mapIdx.mp member
  have plain := detached _ (List.getElem_mem inside)
  generalize script[i] = old at plain ⊢
  obtain ⟨time, operation⟩ := old
  cases operation <;> exact plain

namespace Timeline

theorem mirrors_new {now : Nat} {store : StoreConfig} {writeBehind : WriteBehindConfig} {d : Depot}
    (made : Depot.new now store writeBehind = .ok d) :
    Mirrors [] ⟨now, d⟩ ⟨now, { d with drainTimer := none }⟩ where
  now := rfl
  depots := by
    refine ⟨⟨rfl, rfl, rfl, fun _ _ => rfl⟩, ?_, rfl⟩
    rw [Depot.new] at made
    split at made
    · cases made
    · cases made
      exact .empty
  steady := Depot.steady_new made
  steadyMirror := (Depot.steady_new made).withoutTimer
  rests := Depot.rests_new made

/-- However the attempts to persist what is written behind turn out, callers see the same. -/
theorem view_withOutcomes {now : Nat} {store : StoreConfig} {writeBehind : WriteBehindConfig}
    {d : Depot} (made : Depot.new now store writeBehind = .ok d)
    {script : List (Nat × Operation)} (detached : ∀ entry ∈ script, entry.2.isDetached = true)
    (outcomes outcomes' : Nat → Persist) (time : Nat) :
    view ⟨now, d⟩ (withOutcomes outcomes script) time =
      view ⟨now, d⟩ (withOutcomes outcomes' script) time := by
  have mirrored (outcomes : Nat → Persist) :=
    (mirrors_new made).view_eq (isDetached_withOutcomes detached outcomes) time
  rw [← mirrored outcomes, ← mirrored outcomes', viewUnqueued, viewUnqueued,
    issueUnqueued_withOutcomes, issueUnqueued_withOutcomes]

/-- A write that starts a drain at once, one that is left to the timed drain, and reads. -/
def queuedWrites : List (Nat × Operation) :=
  [(0, .writeBehind "default" ⟨"k"⟩ (.string "a") none 1 ⟨"", []⟩),
    (3, .writeBehind "default" ⟨"k"⟩ (.string "b") (some (.ofMillis 20)) 10 ⟨"", []⟩),
    (4, .get (.named "default") ⟨"k"⟩),
    (30, .get (.named "default") ⟨"k"⟩)]

/-- Each value is persisted by one call in the end, or given up after two slow ones. -/
theorem view_withOutcomes_queuedWrites :
    ∃ d, Depot.new 0 ⟨9, none, none⟩ ⟨10, 1, some (.ofMillis 5)⟩ = .ok d ∧
      (∀ entry ∈ queuedWrites, entry.2.isDetached = true) ∧
      let persisted := withOutcomes (fun _ => ⟨"p", []⟩) queuedWrites
      let failed := withOutcomes (fun _ => ⟨"p", [⟨1, some ⟨"down", none⟩⟩]⟩) queuedWrites
      (((issue ⟨0, d⟩ persisted).2.waitUntil 50).depot.journal.length = 2 ∧
        ((issue ⟨0, d⟩ failed).2.waitUntil 50).depot.journal.length = 4) ∧
      view ⟨0, d⟩ persisted 50 = view ⟨0, d⟩ failed 50 := by
  have detached : ∀ entry ∈ queuedWrites, entry.2.isDetached = true := by decide
  have new : Depot.new 0 ⟨9, none, none⟩ ⟨10, 1, some (.ofMillis 5)⟩ = .ok _ := rfl
  refine ⟨_, new, detached, ⟨by decide +kernel, by decide +kernel⟩, ?_⟩
  exact view_withOutcomes new detached _ _ 50

end Timeline
end CacheDepot
