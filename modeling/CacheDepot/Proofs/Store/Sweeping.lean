import CacheDepot.Proofs.Store.Capacity
import Mathlib.Data.List.Perm.Subperm

/-!
# Nobody sees a sweep

A store that is swept now and then differs from one that is not: it lacks some entries that are
expired. A look finds no expired entry in either of them, so it finds the same in both, and the
store that is swept has no less room. Each operation keeps this as long as no entry has to be
dropped to make room, and so does a sweep of the one store alone.
-/

namespace CacheDepot

/-- What is among the keys that are erased is not bound any more. -/
theorem Assoc.get?_foldl_erase_of_mem {κ ν : Type} [DecidableEq κ] {keys : List κ} {key : κ}
    (member : key ∈ keys) (map : Assoc κ ν) : (keys.foldl erase map).get? key = none := by
  induction keys generalizing map with
  | nil => cases member
  | cons first rest ih =>
    by_cases later : key ∈ rest
    · exact ih later _
    · obtain rfl := (List.mem_cons.mp member).resolve_right later
      exact (get?_foldl_erase_of_not_mem later _).trans (get?_erase_self map key)

namespace StoreOperation

def isSweep : StoreOperation → Bool
  | .sweep => true
  | _ => false

/-- Whether an operation asks what is in the store, and only that. -/
def isLook : StoreOperation → Bool
  | .get _ | .getEntry _ | .peek _ => true
  | _ => false

end StoreOperation

namespace Store

variable {s t : Store} {key other : CacheKey} {now later : Nat}

/-! ## What one operation leaves under a key -/

theorem get?_set {value : Json} {ttl : Option Duration}
    (room : s.HasRoomFor (.set key value ttl)) (now : Nat) (other : CacheKey) :
    (s.set now key value ttl).2.entries.get? other =
      if other = key then some (.new now value (ttl.or s.defaultTtl))
      else s.entries.get? other := by
  split
  · rename_i same
    rw [same]
    exact s.get?_set_self now key value ttl
  · rename_i differs
    exact get?_set_of_room (Ne.symm differs) room now

theorem get?_getEntry (s : Store) (now : Nat) (key other : CacheKey) :
    (s.getEntry now key).2.entries.get? other =
      if other = key then (s.getEntry now key).1 else s.entries.get? other := by
  split
  · rename_i same
    rw [same, getEntry]
    split
    · split
      · exact Assoc.get?_erase_self _ _
      · exact Assoc.get?_insert_self _ _ _
    · assumption
  · rename_i differs
    exact get?_getEntry_of_ne (Ne.symm differs) now

theorem get?_delete (s : Store) (key other : CacheKey) :
    (s.delete key).2.entries.get? other =
      if other = key then none else s.entries.get? other := by
  split
  · rename_i same
    rw [same, delete]
    split
    · exact Assoc.get?_erase_self _ _
    · rename_i absent
      rwa [Assoc.contains, Option.not_isSome_iff_eq_none] at absent
  · rename_i differs
    exact get?_delete_of_ne (Ne.symm differs)

/-- A sweep leaves what a look at that time finds. -/
theorem get?_sweep (s : Store) (now : Nat) (key : CacheKey) :
    (s.sweep now).2.entries.get? key = s.peek now key := by
  by_cases swept : key ∈ s.expiredKeys now
  · obtain ⟨e, bound, expired⟩ := mem_expiredKeys_iff.mp swept
    have gone : (s.sweep now).2.entries.get? key = none := Assoc.get?_foldl_erase_of_mem swept _
    rw [gone, peek, bound, Option.filter_some_neg (by simp [expired])]
  · have kept : (s.sweep now).2.entries.get? key = s.entries.get? key :=
      Assoc.get?_foldl_erase_of_not_mem swept _
    rw [kept, peek]
    cases bound : s.entries.get? key with
    | none => rfl
    | some e =>
      have live : e.isExpired now = false := Bool.eq_false_iff.mpr fun expired =>
        swept (mem_expiredKeys_iff.mpr ⟨e, bound, expired⟩)
      rw [Option.filter_some_pos (by simp [live])]

theorem peek_eq_none_mono (notBefore : now ≤ later) (nothing : s.peek now key = none) :
    s.peek later key = none := by
  rw [peek, Option.filter_eq_none_iff] at nothing ⊢
  intro e bound
  have expired : e.isExpired now = true := by simpa using nothing e bound
  simpa using Entry.isExpired_mono notBefore expired

theorem limits_evict (s : Store) :
    s.evict.2.capacity = s.capacity ∧ s.evict.2.defaultTtl = s.defaultTtl := by
  rw [evict]
  split <;> exact ⟨rfl, rfl⟩

theorem limits_perform (s : Store) (now : Nat) (operation : StoreOperation) :
    (s.perform now operation).2.capacity = s.capacity ∧
      (s.perform now operation).2.defaultTtl = s.defaultTtl := by
  have read (key : CacheKey) : (s.getEntry now key).2.capacity = s.capacity ∧
      (s.getEntry now key).2.defaultTtl = s.defaultTtl := by
    rw [getEntry]
    split
    · split <;> exact ⟨rfl, rfl⟩
    · exact ⟨rfl, rfl⟩
  cases operation with
  | set key value ttl =>
    rw [perform, Prod.map_snd, id, set]
    dsimp only
    split
    · exact s.limits_evict
    · exact ⟨rfl, rfl⟩
  | get key => exact read key
  | getEntry key => exact read key
  | delete key =>
    rw [perform, Prod.map_snd, id, delete]
    split <;> exact ⟨rfl, rfl⟩
  | _ => exact ⟨rfl, rfl⟩

/-! ## Stores that differ in expired entries only -/

/-- The second store is the first one without some entries that are expired at `now`. -/
structure Thinned (now : Nat) (s t : Store) : Prop where
  capacity : t.capacity = s.capacity
  defaultTtl : t.defaultTtl = s.defaultTtl
  entries : ∀ key, t.entries.get? key = s.entries.get? key ∨
    t.entries.get? key = none ∧ s.peek now key = none

namespace Thinned

theorem refl (now : Nat) (s : Store) : Thinned now s s := ⟨rfl, rfl, fun _ => .inl rfl⟩

theorem mono (h : Thinned now s t) (notBefore : now ≤ later) : Thinned later s t where
  capacity := h.capacity
  defaultTtl := h.defaultTtl
  entries key := (h.entries key).imp_right (And.imp_right (peek_eq_none_mono notBefore))

theorem peek (h : Thinned now s t) (key : CacheKey) : t.peek now key = s.peek now key := by
  rcases h.entries key with same | ⟨gone, nothing⟩
  · exact peek_of_get? same now
  · rw [nothing, Store.peek, gone]
    rfl

theorem fst_getEntry (h : Thinned now s t) (key : CacheKey) :
    (t.getEntry now key).1 = (s.getEntry now key).1 := by
  rw [Store.fst_getEntry, Store.fst_getEntry, h.peek]

theorem contains (h : Thinned now s t) (bound : t.entries.contains key = true) :
    s.entries.contains key = true := by
  rcases h.entries key with same | ⟨gone, -⟩
  · rwa [Assoc.contains, ← same]
  · rw [Assoc.contains, gone] at bound
    cases bound

/-- If the one store need not drop an entry, then neither need the other. -/
theorem hasRoomFor (h : Thinned now s t) (within : s.entries.size ≤ s.capacity)
    {operation : StoreOperation} (room : s.HasRoomFor operation) : t.HasRoomFor operation := by
  cases operation with
  | set key value ttl =>
    cases resident : t.entries.contains key with
    | true => exact .inl resident
    | false =>
      refine .inr ?_
      have distinct : t.entries.keys.Nodup := t.entries.distinct
      have kept : t.entries.keys ⊆ s.entries.keys := fun other member =>
        Assoc.contains_iff.mp (h.contains (Assoc.contains_iff.mpr member))
      rw [h.capacity]
      rcases room with bound | below
      · have fresh : key ∉ t.entries.keys := by
          rw [← Assoc.contains_iff, resident]
          exact Bool.false_ne_true
        have fewer := (List.subperm_of_subset (List.nodup_cons.mpr ⟨fresh, distinct⟩)
          (List.cons_subset.mpr ⟨Assoc.contains_iff.mp bound, kept⟩)).length_le
        rw [List.length_cons, Assoc.length_keys, Assoc.length_keys] at fewer
        exact Nat.lt_of_lt_of_le fewer within
      · have noMore := (List.subperm_of_subset distinct kept).length_le
        rw [Assoc.length_keys, Assoc.length_keys] at noMore
        exact Nat.lt_of_le_of_lt noMore below
  | _ => exact trivial

/-- Stores stay alike where the same is put under a key of both. -/
theorem rebind (h : Thinned now s t) {s' t' : Store} {found : Option Entry}
    (bound : ∀ other, s'.entries.get? other =
      if other = key then found else s.entries.get? other)
    (bound' : ∀ other, t'.entries.get? other =
      if other = key then found else t.entries.get? other) (other : CacheKey) :
    t'.entries.get? other = s'.entries.get? other ∨
      t'.entries.get? other = none ∧ s'.peek now other = none := by
  by_cases same : other = key
  · exact .inl (by rw [bound', bound, if_pos same, if_pos same])
  · have kept := (bound other).trans (if_neg same)
    have kept' := (bound' other).trans (if_neg same)
    rw [kept', kept, peek_of_get? kept]
    exact h.entries other

/-- Both stores carry out an operation other than a sweep. -/
theorem perform (h : Thinned now s t) {operation : StoreOperation}
    (room : s.HasRoomFor operation) (room' : t.HasRoomFor operation)
    (plain : operation.isSweep = false) :
    Thinned now (s.perform now operation).2 (t.perform now operation).2 := by
  obtain ⟨capacity, defaultTtl⟩ := s.limits_perform now operation
  obtain ⟨capacity', defaultTtl'⟩ := t.limits_perform now operation
  refine ⟨capacity'.trans (h.capacity.trans capacity.symm),
    defaultTtl'.trans (h.defaultTtl.trans defaultTtl.symm), ?_⟩
  cases operation with
  | set key value ttl =>
    have bound' := get?_set room' now
    rw [h.defaultTtl] at bound'
    exact h.rebind (get?_set room now) bound'
  | get key =>
    have bound' := t.get?_getEntry now key
    rw [h.fst_getEntry] at bound'
    exact h.rebind (s.get?_getEntry now key) bound'
  | getEntry key =>
    have bound' := t.get?_getEntry now key
    rw [h.fst_getEntry] at bound'
    exact h.rebind (s.get?_getEntry now key) bound'
  | peek key => exact h.entries
  | delete key => exact h.rebind (s.get?_delete key) (t.get?_delete key)
  | clear => exact fun _ => .inl rfl
  | sweep => cases plain

/-- The second store alone is swept. -/
theorem sweep (h : Thinned now s t) : Thinned now s (t.sweep now).2 where
  capacity := h.capacity
  defaultTtl := h.defaultTtl
  entries key := by
    rw [t.get?_sweep, h.peek]
    cases found : s.peek now key with
    | none => exact .inr ⟨rfl, rfl⟩
    | some e => exact .inl (peek_eq_some_iff.mp found).1.symm

/-- A look is answered alike by both stores. -/
theorem fst_perform (h : Thinned now s t) {operation : StoreOperation}
    (look : operation.isLook = true) :
    (t.perform now operation).1 = (s.perform now operation).1 := by
  cases operation with
  | get key =>
    have same : (t.get now key).1 = (s.get now key).1 := by rw [fst_get, fst_get, h.peek]
    exact congrArg StoreReply.value same
  | getEntry key => exact congrArg StoreReply.entry (h.fst_getEntry key)
  | peek key => exact congrArg StoreReply.entry (h.peek key)
  | _ => cases look

end Thinned

/-! ## Runs -/

/-- The looks of a run, and how they were answered. -/
def looks (steps : List StoreStep) : List (StoreOperation × StoreReply) :=
  (steps.filter (·.operation.isLook)).map fun step => (step.operation, step.reply)

/-- The operations of a run other than its sweeps. -/
def withoutSweeps (operations : List (Nat × StoreOperation)) : List (Nat × StoreOperation) :=
  operations.filter fun o => !o.2.isSweep

theorem looks_cons (step : StoreStep) (steps : List StoreStep) :
    looks (step :: steps) =
      if step.operation.isLook then (step.operation, step.reply) :: looks steps
      else looks steps := by
  rw [looks, List.filter_cons]
  split <;> rfl

/-- As long as the run without sweeps needs no room, the run with them needs none either, and its
looks are answered alike. -/
theorem Thinned.run (h : Thinned now s t) (within : s.WithinCapacity)
    {operations : List (Nat × StoreOperation)} (late : ∀ o ∈ operations, now ≤ o.1)
    (monotone : operations.Pairwise fun o o' => o.1 ≤ o'.1)
    (room : s.HasRoomThroughout (withoutSweeps operations)) :
    looks (t.steps operations) = looks (s.steps (withoutSweeps operations)) ∧
      t.HasRoomThroughout operations := by
  induction operations generalizing now s t with
  | nil => exact ⟨rfl, trivial⟩
  | cons o rest ih =>
    obtain ⟨time, operation⟩ := o
    obtain ⟨first, ordered⟩ := List.pairwise_cons.mp monotone
    have h := h.mono (late (time, operation) List.mem_cons_self)
    cases kind : operation.isSweep with
    | true =>
      obtain rfl : operation = .sweep := by cases operation <;> first | rfl | cases kind
      obtain ⟨same, room'⟩ := ih h.sweep within first ordered room
      exact ⟨same, trivial, room'⟩
    | false =>
      have split : withoutSweeps ((time, operation) :: rest) =
          (time, operation) :: withoutSweeps rest := List.filter_cons_of_pos (by simp [kind])
      rw [split] at room ⊢
      have room' := h.hasRoomFor within.bounded room.1
      obtain ⟨same, more⟩ := ih (h.perform room.1 room' kind) (within.perform time operation) first
        ordered room.2
      refine ⟨?_, room', more⟩
      rw [steps, steps, looks_cons, looks_cons, same]
      dsimp only
      split
      · rename_i look
        have replies : StoreStep.reply ⟨t, time, operation⟩ =
            StoreStep.reply ⟨s, time, operation⟩ := h.fst_perform look
        rw [replies]
      · rfl

/-- Sweeps do not show. Where no write of a run drops an entry while the clock does not go back,
none does if the store is swept in between, however often, and every read and every look is
answered as without the sweeps. -/
theorem looks_unswept (capacity : Nat) (defaultTtl : Option Duration)
    (before operations : List (Nat × StoreOperation))
    (monotone : operations.Pairwise fun o o' => o.1 ≤ o'.1) :
    let s := ((new capacity defaultTtl).run before).2
    (∀ step ∈ s.steps (withoutSweeps operations), step.evicts = false) →
      looks (s.steps operations) = looks (s.steps (withoutSweeps operations)) ∧
        ∀ step ∈ s.steps operations, step.evicts = false := by
  intro s noEviction
  have within : s.WithinCapacity := (withinCapacity_new capacity defaultTtl).run before
  rw [← hasRoomThroughout_iff within] at noEviction ⊢
  exact (Thinned.refl 0 s).run within (fun _ _ => Nat.zero_le _) monotone noEviction

/-- Writes, looks and a removal, and sweeps of which one takes what the removal would have found. -/
def sweptOperations : List (Nat × StoreOperation) :=
  [(3, .set ⟨"a"⟩ .null (some (.ofMillis 4))), (5, .sweep), (6, .getEntry ⟨"a"⟩), (7, .sweep),
    (7, .peek ⟨"a"⟩), (8, .delete ⟨"a"⟩), (8, .get ⟨"b"⟩), (9, .set ⟨"c"⟩ (.bool true) none),
    (9, .sweep), (9, .get ⟨"c"⟩)]

theorem looks_unswept_sweptOperations :
    let s := ((new 2 none).run [(1, .set ⟨"b"⟩ .null none)]).2
    looks (s.steps sweptOperations) = looks (s.steps (withoutSweeps sweptOperations)) ∧
      ∀ step ∈ s.steps sweptOperations, step.evicts = false :=
  looks_unswept 2 none [(1, .set ⟨"b"⟩ .null none)] sweptOperations (by decide) (by decide)

end Store
end CacheDepot
