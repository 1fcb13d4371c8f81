import CacheDepot.Proofs.Depot.Agreement
import Mathlib.Logic.Basic

/-!
# The same tasks under other numbers

Background drains take numbers of their own, so the other tasks of two depots can have different
numbers. They are paired in the order in which they were started, and stay so: what is done to a
task is done to its partner, and tasks that are started are started in both.
-/

namespace CacheDepot

/-- Whether a task is a background drain. -/
def Task.isDraining : Task → Bool
  | .draining _ => true
  | _ => false

theorem Task.isDraining_of_usesQueue {t : Task} (alone : t.usesQueue = false) :
    t.isDraining = false := by
  cases t with
  | draining worker => cases alone
  | _ => rfl

/-- A task with the numbers that it has in two depots. -/
structure TaskPair where
  left : Nat
  right : Nat
  task : Task

namespace TaskPair

def onLeft (p : TaskPair) : Nat × Task := (p.left, p.task)

def onRight (p : TaskPair) : Nat × Task := (p.right, p.task)

/-- What becomes of a pair. -/
def after (p : TaskPair) : TaskEdit → List TaskPair
  | .put t => [{ p with task := t }]
  | .drop => []
  | .keep => [p]

end TaskPair

namespace Assoc

variable {κ ν : Type} [DecidableEq κ] {map : Assoc κ ν} {key : κ} {value : ν}
  {before after : List (κ × ν)}

theorem put_of_split (absent : key ∉ before.map Prod.fst) (new : ν) :
    put key new (before ++ (key, value) :: after) = before ++ (key, new) :: after := by
  induction before with
  | nil => simp [put]
  | cons b rest ih =>
    obtain ⟨differs, absent⟩ := not_or.mp ((not_congr List.mem_cons).mp absent)
    rw [List.cons_append, put, if_neg (Ne.symm differs), ih absent, List.cons_append]

omit [DecidableEq κ] in
theorem notMem_of_split (distinct : ((before ++ (key, value) :: after).map Prod.fst).Nodup) :
    key ∉ before.map Prod.fst ∧ key ∉ after.map Prod.fst := by
  rw [List.map_append, List.map_cons, List.nodup_append] at distinct
  obtain ⟨-, later, apart⟩ := distinct
  exact ⟨fun member => apart key member key List.mem_cons_self rfl, (List.nodup_cons.mp later).1⟩

/-- Wherever the bindings are split at a key, rebinding it changes its own binding only. -/
theorem bindings_of_split (split : map.bindings = before ++ (key, value) :: after) :
    (∀ new, (map.insert key new).bindings = before ++ (key, new) :: after) ∧
      (map.erase key).bindings = before ++ after := by
  obtain ⟨bindings, distinct⟩ := map
  subst split
  obtain ⟨first, last⟩ := notMem_of_split distinct
  have others {rest : List (κ × ν)} (absent : key ∉ rest.map Prod.fst) :
      rest.filter (fun b => b.1 ≠ key) = rest := by
    rw [List.filter_eq_self]
    intro b member
    exact decide_eq_true fun same => absent (same ▸ List.mem_map_of_mem member)
  refine ⟨put_of_split first, ?_⟩
  show (before ++ (key, value) :: after).filter (fun b => b.1 ≠ key) = _
  rw [List.filter_append, List.filter_cons_of_neg (by simp), others first, others last]

end Assoc

namespace TaskPair

variable {p : TaskPair} {tasks : Assoc Nat Task} {before after : List (Nat × Task)}

theorem bindings_left (split : tasks.bindings = before ++ p.onLeft :: after) (e : TaskEdit) :
    (e.apply p.left tasks).bindings = before ++ (p.after e).map onLeft ++ after := by
  obtain ⟨inserted, erased⟩ := Assoc.bindings_of_split split
  cases e with
  | put t => exact (inserted t).trans (List.append_cons ..)
  | drop => exact erased.trans (congrArg (· ++ after) (List.append_nil before).symm)
  | keep => exact split.trans (List.append_cons ..)

theorem bindings_right (split : tasks.bindings = before ++ p.onRight :: after) (e : TaskEdit) :
    (e.apply p.right tasks).bindings = before ++ (p.after e).map onRight ++ after := by
  obtain ⟨inserted, erased⟩ := Assoc.bindings_of_split split
  cases e with
  | put t => exact (inserted t).trans (List.append_cons ..)
  | drop => exact erased.trans (congrArg (· ++ after) (List.append_nil before).symm)
  | keep => exact split.trans (List.append_cons ..)

theorem alone_after (alone : p.task.usesQueue = false) {e : TaskEdit} (suits : e.Suits p.task) :
    ∀ q ∈ p.after e, q.task.usesQueue = false := by
  intro q member
  cases e with
  | put t =>
    obtain rfl := List.mem_singleton.mp member
    exact suits.1
  | drop => cases member
  | keep =>
    obtain rfl := List.mem_singleton.mp member
    exact alone

end TaskPair

/-! ## Pairs -/

/-- The pairs are the tasks of two depots but for the background drains of the first one, in the
order in which they were started. -/
structure Paired (pairs : List TaskPair) (tasks tasks' : Assoc Nat Task) : Prop where
  left : tasks.bindings.filter (fun b => !b.2.isDraining) = pairs.map TaskPair.onLeft
  right : tasks'.bindings = pairs.map TaskPair.onRight
  alone : ∀ p ∈ pairs, p.task.usesQueue = false

namespace Paired

variable {pairs before after : List TaskPair} {p : TaskPair} {tasks tasks' : Assoc Nat Task}
  {id : Nat} {t : Task}

theorem empty : Paired [] .empty .empty := ⟨rfl, rfl, by rintro _ ⟨⟩⟩

theorem get?_left (h : Paired pairs tasks tasks') (member : p ∈ pairs) :
    tasks.get? p.left = some p.task := by
  have shown : p.onLeft ∈ pairs.map TaskPair.onLeft := List.mem_map_of_mem member
  rw [← h.left] at shown
  exact Assoc.get?_eq_some_iff.mpr (List.mem_filter.mp shown).1

theorem get?_right (h : Paired pairs tasks tasks') (member : p ∈ pairs) :
    tasks'.get? p.right = some p.task := by
  have shown : p.onRight ∈ pairs.map TaskPair.onRight := List.mem_map_of_mem member
  rw [← h.right] at shown
  exact Assoc.get?_eq_some_iff.mpr shown

theorem filter_onLeft (alone : ∀ q ∈ pairs, q.task.usesQueue = false) :
    (pairs.map TaskPair.onLeft).filter (fun b => !b.2.isDraining) =
      pairs.map TaskPair.onLeft := by
  rw [List.filter_eq_self]
  intro b member
  obtain ⟨q, inside, rfl⟩ := List.mem_map.mp member
  rw [TaskPair.onLeft, Task.isDraining_of_usesQueue (alone q inside)]
  rfl

/-- What becomes of a task becomes of its partner. -/
theorem edit (h : Paired (before ++ p :: after) tasks tasks') {e : TaskEdit}
    (suits : e.Suits p.task) :
    Paired (before ++ p.after e ++ after) (e.apply p.left tasks) (e.apply p.right tasks') := by
  have alone := TaskPair.alone_after
    (h.alone p (List.mem_append_right _ List.mem_cons_self)) suits
  refine ⟨?_, ?_, ?_⟩
  · have left := h.left
    rw [List.map_append, List.map_cons, List.filter_eq_append_iff] at left
    obtain ⟨first, rest, split, ofFirst, ofRest⟩ := left
    obtain ⟨hidden, last, rfl, hides, -, ofLast⟩ := List.filter_eq_cons_iff.mp ofRest
    rw [← List.append_assoc] at split
    rw [TaskPair.bindings_left split e, List.filter_append, List.filter_append, List.filter_append,
      ofFirst, List.filter_eq_nil_iff.mpr hides, filter_onLeft alone, ofLast, List.append_nil,
      List.map_append, List.map_append]
  · have right := h.right
    rw [List.map_append, List.map_cons] at right
    rw [TaskPair.bindings_right right e, List.map_append, List.map_append]
  · intro q member
    rcases List.mem_append.mp member with member | member
    · rcases List.mem_append.mp member with member | member
      · exact h.alone q (List.mem_append_left _ member)
      · exact alone q member
    · exact h.alone q (List.mem_append_right _ (List.mem_cons_of_mem _ member))

/-- Tasks that are started at the same time are partners. -/
theorem append (h : Paired pairs tasks tasks') (alone : p.task.usesQueue = false)
    (fresh : tasks.get? p.left = none) (fresh' : tasks'.get? p.right = none) :
    Paired (pairs ++ [p]) (tasks.insert p.left p.task) (tasks'.insert p.right p.task) where
  left := by
    have single : ∀ q ∈ [p], q.task.usesQueue = false := by
      intro q member
      obtain rfl := List.mem_singleton.mp member
      exact alone
    rw [Assoc.bindings_insert_of_fresh _ fresh, List.filter_append, h.left, List.map_append]
    exact congrArg _ (filter_onLeft single)
  right := by
    rw [Assoc.bindings_insert_of_fresh _ fresh', h.right, List.map_append]
    rfl
  alone := by
    intro q member
    rcases List.mem_append.mp member with member | member
    · exact h.alone q member
    · obtain rfl := List.mem_singleton.mp member
      exact alone

/-- A background drain has no partner. -/
theorem insert_left (h : Paired pairs tasks tasks') (drains : t.isDraining = true)
    (fresh : tasks.get? id = none) : Paired pairs (tasks.insert id t) tasks' where
  left := by
    rw [Assoc.bindings_insert_of_fresh _ fresh, List.filter_append, h.left,
      List.filter_eq_nil_iff.mpr, List.append_nil]
    intro b member
    obtain rfl := List.mem_singleton.mp member
    rw [drains]
    exact Bool.false_ne_true
  right := h.right
  alone := h.alone

theorem erase_left (h : Paired pairs tasks tasks') (drains : t.isDraining = true)
    (bound : tasks.get? id = some t) : Paired pairs (tasks.erase id) tasks' where
  left := by
    obtain ⟨before, after, split, -, erased⟩ := Assoc.exists_split bound
    have shown := h.left
    rw [split, List.filter_append, List.filter_cons_of_neg (by simp [drains])] at shown
    rw [erased, List.filter_append]
    exact shown
  right := h.right
  alone := h.alone

/-! ## The first that can go on -/

/-- The first of all tasks with a property is a background drain, or its partner is the first of
the other depot's. -/
theorem find?_cases (h : Paired pairs tasks tasks') {can can' : Task → Bool}
    (same : ∀ t, t.usesQueue = false → can' t = can t) {b : Nat × Task}
    (found : tasks.bindings.find? (fun b => can b.2) = some b) :
    b.2.isDraining = true ∨ ∃ p ∈ pairs, b = p.onLeft ∧
      tasks'.bindings.find? (fun b => can' b.2) = some p.onRight := by
  obtain ⟨ready, first, last, split, idle⟩ := List.find?_eq_some_iff_append.mp found
  cases drains : b.2.isDraining with
  | true => exact .inl rfl
  | false =>
    right
    have left := h.left
    rw [split, List.filter_append, List.filter_cons_of_pos (by rw [drains]; rfl)] at left
    obtain ⟨before, rest, rfl, ofBefore, ofRest⟩ := List.map_eq_append_iff.mp left.symm
    obtain ⟨p, after, rfl, rfl, ofAfter⟩ := List.map_eq_cons_iff.mp ofRest
    have member : p ∈ before ++ p :: after := List.mem_append_right _ List.mem_cons_self
    have right := h.right
    rw [List.map_append, List.map_cons] at right
    refine ⟨p, member, rfl, List.find?_eq_some_iff_append.mpr ⟨?_, _, _, right, ?_⟩⟩
    · exact (same p.task (h.alone p member)).trans ready
    · intro c earlier
      obtain ⟨q, inside, rfl⟩ := List.mem_map.mp earlier
      have shown : q.onLeft ∈ first.filter fun b => !b.2.isDraining :=
        ofBefore ▸ List.mem_map_of_mem inside
      have waits := idle q.onLeft (List.mem_filter.mp shown).1
      rw [TaskPair.onRight, same q.task (h.alone q (List.mem_append_left _ inside))]
      exact waits

theorem find?_right_eq_none (h : Paired pairs tasks tasks') {can can' : Task → Bool}
    (same : ∀ t, t.usesQueue = false → can' t = can t)
    (none : tasks.bindings.find? (fun b => can b.2) = none) :
    tasks'.bindings.find? (fun b => can' b.2) = Option.none := by
  rw [List.find?_eq_none] at none ⊢
  intro b member
  rw [h.right] at member
  obtain ⟨p, inside, rfl⟩ := List.mem_map.mp member
  rw [TaskPair.onRight, same p.task (h.alone p inside)]
  exact none p.onLeft (Assoc.get?_eq_some_iff.mp (h.get?_left inside))

end Paired

/-- Whether the tasks that callers wait for keep their numbers. -/
def KeepsAwaited (pairs pairs' : List TaskPair) : Prop :=
  ∀ p ∈ pairs, p.task.isAwaited = true →
    ∃ p' ∈ pairs', p'.left = p.left ∧ p'.right = p.right ∧ p'.task.isAwaited = true

namespace KeepsAwaited

variable {pairs pairs' pairs'' before after : List TaskPair} {p : TaskPair}

theorem refl (pairs : List TaskPair) : KeepsAwaited pairs pairs :=
  fun p member awaited => ⟨p, member, rfl, rfl, awaited⟩

theorem trans (h : KeepsAwaited pairs pairs') (h' : KeepsAwaited pairs' pairs'') :
    KeepsAwaited pairs pairs'' := by
  intro p member awaited
  obtain ⟨p', member', left, right, awaited'⟩ := h p member awaited
  obtain ⟨p'', member'', left', right', awaited''⟩ := h' p' member' awaited'
  exact ⟨p'', member'', left'.trans left, right'.trans right, awaited''⟩

theorem append (pairs more : List TaskPair) : KeepsAwaited pairs (pairs ++ more) :=
  fun p member awaited => ⟨p, List.mem_append_left _ member, rfl, rfl, awaited⟩

theorem edit {e : TaskEdit} (suits : e.Suits p.task) :
    KeepsAwaited (before ++ p :: after) (before ++ p.after e ++ after) := by
  intro q member awaited
  rcases List.mem_append.mp member with member | member
  · exact ⟨q, List.mem_append_left _ (List.mem_append_left _ member), rfl, rfl, awaited⟩
  rcases List.mem_cons.mp member with rfl | member
  · cases e with
    | put t =>
      refine ⟨{ q with task := t }, ?_, rfl, rfl, suits.2.trans awaited⟩
      exact List.mem_append_left _ (List.mem_append_right _ (List.mem_singleton_self _))
    | drop => exact absurd (suits.symm.trans awaited) Bool.false_ne_true
    | keep =>
      refine ⟨q, ?_, rfl, rfl, awaited⟩
      exact List.mem_append_left _ (List.mem_append_right _ (List.mem_singleton_self _))
  · exact ⟨q, List.mem_append_right _ member, rfl, rfl, awaited⟩

end KeepsAwaited

/-- Whether two numbers are those of one operation, which has been answered or is waited for. -/
def Shared (pairs : List TaskPair) (id id' : Nat) : Prop :=
  ∃ p ∈ pairs, p.left = id ∧ p.right = id' ∧ p.task.isAwaited = true

theorem Shared.keep {pairs pairs' : List TaskPair} {id id' : Nat} (h : Shared pairs id id')
    (keeps : KeepsAwaited pairs pairs') : Shared pairs' id id' := by
  obtain ⟨p, member, rfl, rfl, awaited⟩ := h
  exact keeps p member awaited

end CacheDepot
