import CacheDepot.Proofs.Store.Conservation
import CacheDepot.Proofs.Store.Isolation

/-!
# A store is never overfull

No run leaves more entries in a store than it has room for, and a full store always has an entry to
drop. So a write drops an entry exactly if it has to. None of this needs the ticks to be distinct:
after they have wrapped the order may have lost a key, but what it still has is there.
-/

namespace CacheDepot

namespace Assoc

variable {κ ν : Type}

theorem length_keys (map : Assoc κ ν) : map.keys.length = map.size := List.length_map Prod.fst

variable [DecidableEq κ] {map : Assoc κ ν} {key : κ}

theorem size_insert_of_contains (bound : map.contains key = true) (value : ν) :
    (map.insert key value).size = map.size := by
  rw [← length_keys, keys_insert_of_mem (contains_iff.mp bound), length_keys]

theorem size_insert_le (map : Assoc κ ν) (key : κ) (value : ν) :
    (map.insert key value).size ≤ map.size + 1 := by
  rw [← length_keys, ← length_keys]
  by_cases bound : key ∈ map.keys
  · rw [keys_insert_of_mem bound]
    exact Nat.le_succ _
  · rw [keys_insert_of_not_mem bound, List.length_append]
    exact Nat.le_refl _

theorem size_erase_lt (bound : map.contains key = true) : (map.erase key).size < map.size := by
  have member := contains_iff.mp bound
  rw [← length_keys, ← length_keys, keys_erase, List.length_erase_of_mem member]
  exact Nat.sub_lt (List.length_pos_of_mem member) Nat.one_pos

theorem contains_insert (map : Assoc κ ν) (key other : κ) (value : ν) :
    (map.insert key value).contains other = (decide (other = key) || map.contains other) := by
  rw [contains, get?_insert, contains]
  split <;> simp [*]

theorem contains_erase (map : Assoc κ ν) (key other : κ) :
    (map.erase key).contains other = (!decide (other = key) && map.contains other) := by
  rw [contains, get?_erase, contains]
  split <;> simp [*]

end Assoc

namespace Recency

variable {r : Recency} {key : CacheKey}

/-- What stands in the order stands there under the tick it has, each tick once. -/
structure Ranked (r : Recency) : Prop where
  sorted : r.order.Pairwise fun b c => b.1 < c.1
  current : ∀ b ∈ r.order, r.ticks.get? b.2 = some b.1

theorem mem_of_mem_placeTick {tick : UInt64} {order : List (UInt64 × CacheKey)}
    {b : UInt64 × CacheKey} (member : b ∈ placeTick tick key order) :
    b = (tick, key) ∨ b ∈ order := by
  induction order with
  | nil => exact .inl (List.mem_singleton.mp member)
  | cons first rest ih =>
    rw [placeTick] at member
    split at member
    · exact List.mem_cons.mp member
    · split at member
      · exact (List.mem_cons.mp member).imp_right (List.mem_cons_of_mem _)
      · rcases List.mem_cons.mp member with rfl | later
        · exact .inr List.mem_cons_self
        · exact (ih later).imp_right (List.mem_cons_of_mem _)

theorem placeTick_ne_nil (tick : UInt64) (key : CacheKey) (order : List (UInt64 × CacheKey)) :
    placeTick tick key order ≠ [] := by
  cases order with
  | nil => exact List.cons_ne_nil _ _
  | cons first rest =>
    rw [placeTick]
    split
    · exact List.cons_ne_nil _ _
    · split <;> exact List.cons_ne_nil _ _

theorem sorted_placeTick {tick : UInt64} (key : CacheKey) {order : List (UInt64 × CacheKey)}
    (sorted : order.Pairwise fun b c => b.1 < c.1) :
    (placeTick tick key order).Pairwise fun b c => b.1 < c.1 := by
  induction order with
  | nil => exact List.pairwise_singleton _ _
  | cons first rest ih =>
    obtain ⟨front, sorted'⟩ := List.pairwise_cons.mp sorted
    rw [placeTick]
    split
    · rename_i before
      refine List.pairwise_cons.mpr ⟨?_, sorted⟩
      intro b member
      rcases List.mem_cons.mp member with rfl | later
      · exact before
      · exact UInt64.lt_trans before (front b later)
    · split
      · rename_i same
        exact List.pairwise_cons.mpr ⟨same ▸ front, sorted'⟩
      · rename_i notBefore differs
        refine List.pairwise_cons.mpr ⟨?_, ih sorted'⟩
        intro b member
        rcases mem_of_mem_placeTick member with rfl | later
        · exact UInt64.lt_of_le_of_ne (UInt64.not_lt.mp notBefore) (Ne.symm differs)
        · exact front b later

namespace Ranked

theorem ne_of_mem_orderWithout (h : r.Ranked) {b : UInt64 × CacheKey}
    (member : b ∈ r.orderWithout key) : b.2 ≠ key := by
  rintro rfl
  have tracked := h.current b ((r.orderWithout_sublist b.2).subset member)
  rw [orderWithout, tracked] at member
  have differs := (List.mem_filter.mp member).2
  simp at differs

theorem touch (h : r.Ranked) (key : CacheKey) : (r.touch key).Ranked where
  sorted := sorted_placeTick key (h.sorted.sublist (r.orderWithout_sublist key))
  current := by
    intro b member
    have ticks : (r.touch key).ticks = r.ticks.insert key r.nextTick := rfl
    rw [ticks]
    rcases mem_of_mem_placeTick member with rfl | old
    · exact Assoc.get?_insert_self _ _ _
    · rw [Assoc.get?_insert_of_ne _ _ (Ne.symm (h.ne_of_mem_orderWithout old))]
      exact h.current b ((r.orderWithout_sublist key).subset old)

theorem remove (h : r.Ranked) (key : CacheKey) : (r.remove key).Ranked := by
  rw [Recency.remove]
  split
  · rename_i tick tracked
    have without : dropTick tick r.order = r.orderWithout key := by rw [orderWithout, tracked]
    rw [without]
    refine ⟨h.sorted.sublist (r.orderWithout_sublist key), ?_⟩
    intro b member
    rw [Assoc.get?_erase_of_ne _ (Ne.symm (h.ne_of_mem_orderWithout member))]
    exact h.current b ((r.orderWithout_sublist key).subset member)
  · exact h

theorem evictOldest (h : r.Ranked) {victim : CacheKey} {r' : Recency}
    (evicted : r.evictOldest = some (victim, r')) :
    r'.Ranked ∧ r.ticks.contains victim = true ∧ r'.ticks = r.ticks.erase victim := by
  cases front : r.order with
  | nil =>
    rw [Recency.evictOldest, front] at evicted
    cases evicted
  | cons oldest rest =>
    rw [Recency.evictOldest, front] at evicted
    cases evicted
    obtain ⟨sorted, current⟩ := h
    rw [front] at sorted current
    obtain ⟨first, sorted⟩ := List.pairwise_cons.mp sorted
    have held := current oldest List.mem_cons_self
    refine ⟨⟨sorted, ?_⟩, by rw [Assoc.contains, held, Option.isSome_some], rfl⟩
    intro b member
    have differs : oldest.2 ≠ b.2 := by
      intro same
      have younger := current b (List.mem_cons_of_mem _ member)
      rw [← same, held] at younger
      exact UInt64.lt_irrefl _ (Option.some.inj younger ▸ first b member)
    rw [Assoc.get?_erase_of_ne _ differs]
    exact current b (List.mem_cons_of_mem _ member)

end Ranked

theorem exists_evictOldest (some' : r.order ≠ []) :
    ∃ victim r', r.evictOldest = some (victim, r') := by
  obtain ⟨b, rest, front⟩ := List.exists_cons_of_ne_nil some'
  exact ⟨b.2, { r with order := rest, ticks := r.ticks.erase b.2 }, by rw [evictOldest, front]⟩

/-- What is tracked after a key was forgotten was tracked before, and is not the key. -/
theorem contains_ticks_remove {other : CacheKey}
    (tracked : (r.remove key).ticks.contains other = true) :
    other ≠ key ∧ r.ticks.contains other = true := by
  rw [remove] at tracked
  split at tracked
  · rw [Assoc.contains_erase] at tracked
    simpa using tracked
  · rename_i absent
    refine ⟨?_, tracked⟩
    rintro rfl
    rw [Assoc.contains, absent] at tracked
    cases tracked

end Recency

namespace Store

variable {s : Store} {key : CacheKey}

/-- The store has no more entries than it has room for, and a full one has an entry to drop. -/
structure WithinCapacity (s : Store) : Prop where
  positive : 0 < s.capacity
  ranked : s.recency.Ranked
  tracked : ∀ key, s.recency.ticks.contains key = true → s.entries.contains key = true
  bounded : s.entries.size ≤ s.capacity
  ready : s.capacity ≤ s.entries.size → s.recency.order ≠ []

namespace WithinCapacity

theorem insert (h : s.WithinCapacity)
    (room : s.entries.contains key = true ∨ s.entries.size < s.capacity) (e : Entry)
    (c : Counters) :
    WithinCapacity { s with
      entries := s.entries.insert key e, recency := s.recency.touch key, counters := c } where
  positive := h.positive
  ranked := h.ranked.touch key
  tracked := by
    intro other tracked
    have ticks : (s.recency.touch key).ticks =
        s.recency.ticks.insert key s.recency.nextTick := rfl
    rw [ticks, Assoc.contains_insert, Bool.or_eq_true] at tracked
    rw [Assoc.contains_insert, Bool.or_eq_true]
    exact tracked.imp_right (h.tracked other)
  bounded := by
    rcases room with bound | below
    · rw [Assoc.size_insert_of_contains bound]
      exact h.bounded
    · exact Nat.le_trans (Assoc.size_insert_le _ _ _) below
  ready _ := Recency.placeTick_ne_nil _ _ _

theorem erase (h : s.WithinCapacity) (key : CacheKey) (c : Counters) :
    WithinCapacity { s with
      entries := s.entries.erase key, recency := s.recency.remove key, counters := c } := by
  cases bound : s.entries.contains key with
  | true =>
    have fewer := Nat.lt_of_lt_of_le (Assoc.size_erase_lt bound) h.bounded
    refine ⟨h.positive, h.ranked.remove key, ?_, Nat.le_of_lt fewer,
      fun full => absurd full (Nat.not_le.mpr fewer)⟩
    intro other tracked
    obtain ⟨differs, tracked⟩ := Recency.contains_ticks_remove tracked
    rw [Assoc.contains_erase, h.tracked other tracked, decide_eq_false differs]
    rfl
  | false =>
    have fresh : s.entries.get? key = none := Option.isNone_iff_eq_none.mp (by
      rw [← Option.not_isSome, ← Assoc.contains, bound]
      rfl)
    have untracked : s.recency.remove key = s.recency := by
      rw [Recency.remove]
      split
      · rename_i tick tracked
        have held := h.tracked key (by rw [Assoc.contains, tracked, Option.isSome_some])
        rw [bound] at held
        cases held
      · rfl
    rw [Assoc.erase_of_fresh fresh, untracked]
    exact ⟨h.positive, h.ranked, h.tracked, h.bounded, h.ready⟩

theorem eraseAll (h : s.WithinCapacity) (keys : List CacheKey) (c : Counters) :
    WithinCapacity { s with
      entries := keys.foldl Assoc.erase s.entries
      recency := keys.foldl Recency.remove s.recency
      counters := c } := by
  induction keys generalizing s with
  | nil => exact ⟨h.positive, h.ranked, h.tracked, h.bounded, h.ready⟩
  | cons key rest ih => exact ih (h.erase key s.counters)

/-- A full store drops an entry, and there is room then. -/
theorem evict (h : s.WithinCapacity) (full : s.capacity ≤ s.entries.size) :
    ∃ victim s', s.evict = (some victim, s') ∧ s'.WithinCapacity ∧
      s'.entries.size < s'.capacity := by
  obtain ⟨victim, recency, evicted⟩ := Recency.exists_evictOldest (h.ready full)
  obtain ⟨ranked, tracked, ticks⟩ := h.ranked.evictOldest evicted
  have fewer := Nat.lt_of_lt_of_le (Assoc.size_erase_lt (h.tracked victim tracked)) h.bounded
  refine ⟨victim,
    { s with entries := s.entries.erase victim, recency, counters := s.counters.evict },
    by rw [Store.evict, evicted], ⟨h.positive, ranked, ?_, Nat.le_of_lt fewer, ?_⟩, fewer⟩
  · intro other tracked
    rw [ticks, Assoc.contains_erase, Bool.and_eq_true] at tracked
    rw [Assoc.contains_erase, Bool.and_eq_true]
    exact tracked.imp_right (h.tracked other)
  · exact fun full => absurd full (Nat.not_le.mpr fewer)

theorem set (h : s.WithinCapacity) (now : Nat) (key : CacheKey) (value : Json)
    (ttl : Option Duration) : (s.set now key value ttl).2.WithinCapacity := by
  cases resident : s.entries.contains key with
  | true =>
    rw [set_of_resident now value ttl resident]
    exact h.insert (.inl resident) _ _
  | false =>
    by_cases full : s.capacity ≤ s.entries.size
    · obtain ⟨victim, s', evicted, h', room⟩ := h.evict full
      rw [set_of_full now value ttl resident full evicted]
      exact h'.insert (.inr room) _ _
    · have room := Nat.not_le.mp full
      rw [set_of_room now value ttl resident room]
      exact h.insert (.inr room) _ _

theorem getEntry (h : s.WithinCapacity) (now : Nat) (key : CacheKey) :
    (s.getEntry now key).2.WithinCapacity := by
  rw [Store.getEntry]
  split
  · rename_i e found
    split
    · exact h.erase key _
    · exact h.insert (.inl (by rw [Assoc.contains, found, Option.isSome_some])) _ _
  · exact ⟨h.positive, h.ranked, h.tracked, h.bounded, h.ready⟩

theorem delete (h : s.WithinCapacity) (key : CacheKey) : (s.delete key).2.WithinCapacity := by
  rw [Store.delete]
  split
  · exact h.erase key _
  · exact h

theorem clear (h : s.WithinCapacity) : s.clear.WithinCapacity where
  positive := h.positive
  ranked := ⟨.nil, nofun⟩
  tracked := nofun
  bounded := Nat.zero_le _
  ready full := absurd h.positive (Nat.not_lt.mpr full)

theorem perform (h : s.WithinCapacity) (now : Nat) (operation : StoreOperation) :
    (s.perform now operation).2.WithinCapacity := by
  cases operation with
  | set key value ttl => exact h.set now key value ttl
  | get key => exact h.getEntry now key
  | getEntry key => exact h.getEntry now key
  | peek key => exact h
  | delete key => exact h.delete key
  | sweep => exact h.eraseAll _ _
  | clear => exact h.clear

theorem run (h : s.WithinCapacity) (operations : List (Nat × StoreOperation)) :
    (s.run operations).2.WithinCapacity := by
  induction operations generalizing s with
  | nil => exact h
  | cons o rest ih => exact ih (h.perform o.1 o.2)

/-- An operation drops an entry exactly if it has to. -/
theorem evicts_iff (h : s.WithinCapacity) (now : Nat) (operation : StoreOperation) :
    StoreStep.evicts ⟨s, now, operation⟩ = true ↔ ¬ s.HasRoomFor operation := by
  cases operation with
  | set key value ttl =>
    simp only [StoreStep.evicts, StoreStep.reply, Store.perform, HasRoomFor]
    cases resident : s.entries.contains key with
    | true => simp [set_of_resident now value ttl resident]
    | false =>
      by_cases full : s.capacity ≤ s.entries.size
      · obtain ⟨victim, s', evicted, -⟩ := h.evict full
        simp [set_of_full now value ttl resident full evicted, full]
      · simp [set_of_room now value ttl resident (Nat.not_le.mp full), Nat.not_le.mp full]
  | _ => exact iff_of_false Bool.false_ne_true (not_not_intro trivial)

end WithinCapacity

theorem withinCapacity_new (capacity : Nat) (defaultTtl : Option Duration) :
    (new capacity defaultTtl).WithinCapacity where
  positive := Nat.lt_of_lt_of_le Nat.one_pos (Nat.le_max_right capacity 1)
  ranked := ⟨.nil, nofun⟩
  tracked := nofun
  bounded := Nat.zero_le _
  ready full := absurd (Nat.le_trans (Nat.le_max_right capacity 1) full) (Nat.not_succ_le_zero 0)

/-- What holds of a run of operations that need no room, step by step. -/
theorem hasRoomThroughout_iff (h : s.WithinCapacity) (operations : List (Nat × StoreOperation)) :
    s.HasRoomThroughout operations ↔ ∀ step ∈ s.steps operations, step.evicts = false := by
  induction operations generalizing s with
  | nil => exact iff_of_true trivial nofun
  | cons o rest ih =>
    obtain ⟨now, operation⟩ := o
    have first : s.HasRoomFor operation ↔ StoreStep.evicts ⟨s, now, operation⟩ = false := by
      rw [← Bool.not_eq_true, h.evicts_iff now operation, not_not]
    rw [HasRoomThroughout, ih (h.perform now operation), steps, List.forall_mem_cons, first]

end Store
end CacheDepot
