import CacheDepot.Proofs.Store.Capacity
import CacheDepot.Proofs.Store.Eviction
import CacheDepot.WarmItem
import Mathlib.Data.List.Dedup
import Mathlib.Data.List.DropRight

/-!
# Many writes in a row

A list of items is written into a store that may hold anything before. Without a limit the order
of use would end with the keys of the list, each at the place of its last item, after the other
keys that were there. What a store with a limit has in the end is the last part of this order, as
much of it as there is room for: a key that is written again moves to the end, and what is dropped
to make room stands in front.
-/

namespace CacheDepot

/-! ## Keys in the order of their last uses -/

theorem dedup_concat (keys : List CacheKey) (key : CacheKey) :
    (keys ++ [key]).dedup = keys.dedup.filter (· ≠ key) ++ [key] := by
  induction keys with
  | nil => rfl
  | cons first rest ih =>
    rw [List.cons_append, List.dedup_cons, List.dedup_cons, ih]
    by_cases again : first ∈ rest
    · simp [again]
    · by_cases same : first = key
      · have absent : key ∉ rest := same ▸ again
        simp [same, absent]
      · simp [again, same]

/-- Of the end of a list no more is left than of the list's own end. -/
theorem rtake_append_of_le {α : Type} (front : List α) {back : List α} {n : Nat}
    (enough : n ≤ back.length) : (front ++ back).rtake n = back.rtake n := by
  rw [List.rtake, List.rtake, List.length_append, Nat.add_sub_assoc enough,
    List.drop_length_add_append]

theorem length_rtake {α : Type} (l : List α) (n : Nat) : (l.rtake n).length = min l.length n := by
  rw [List.rtake, List.length_drop]
  omega

theorem rtake_of_length_le {α : Type} {l : List α} {n : Nat} (short : l.length ≤ n) :
    l.rtake n = l := by
  rw [List.rtake, Nat.sub_eq_zero_of_le short, List.drop_zero]

theorem rtake_suffix {α : Type} (l : List α) (n : Nat) : l.rtake n <:+ l := List.drop_suffix _ _

/-- To use a key of a part that has been kept is to use it in the whole, and to keep the part. -/
theorem rtake_filter_concat {keys : List CacheKey} (distinct : keys.Nodup) (key : CacheKey)
    {n : Nat} (positive : 0 < n) :
    ((keys.rtake n).filter (· ≠ key) ++ [key]).rtake n =
      (keys.filter (· ≠ key) ++ [key]).rtake n := by
  obtain ⟨m, rfl⟩ := Nat.exists_eq_add_one.mpr positive
  rw [List.rtake_concat_succ, List.rtake_concat_succ]
  congr 1
  by_cases short : keys.length ≤ m + 1
  · rw [rtake_of_length_le short]
  · obtain ⟨front, split⟩ := rtake_suffix keys (m + 1)
    have kept : (keys.rtake (m + 1)).length = m + 1 := by
      rw [length_rtake]
      omega
    -- At most the one key is taken from the part, so it still has as many as are left in the end.
    have enough : m ≤ ((keys.rtake (m + 1)).filter (· ≠ key)).length := by
      have once : (keys.rtake (m + 1)).count key ≤ 1 :=
        List.nodup_iff_count_le_one.mp (distinct.sublist (rtake_suffix keys _).sublist) key
      have split := List.length_eq_length_filter_add (l := keys.rtake (m + 1)) (· ≠ key)
      have taken : ((keys.rtake (m + 1)).filter fun other => !decide (other ≠ key)).length =
          (keys.rtake (m + 1)).count key := by
        rw [List.count_eq_length_filter]
        congr 1
        apply List.filter_congr
        intro other _
        simp [beq_eq_decide]
      omega
    conv_rhs => rw [← split, List.filter_append]
    rw [rtake_append_of_le _ enough]

/-! ## Whatever is there is tracked -/

namespace Recency

variable {r : Recency} {key other : CacheKey}

theorem contains_ticks_touch :
    (r.touch key).ticks.contains other = (decide (other = key) || r.ticks.contains other) :=
  Assoc.contains_insert r.ticks key other r.nextTick

theorem contains_ticks_remove_of_ne (differs : other ≠ key)
    (tracked : r.ticks.contains other = true) : (r.remove key).ticks.contains other = true := by
  rw [remove]
  split
  · rw [Assoc.contains_erase, tracked, decide_eq_false differs]
    rfl
  · exact tracked

end Recency

namespace Store

variable {s : Store} {key : CacheKey}

/-- Every entry has a tick, wrapped or not. -/
def Tracks (s : Store) : Prop :=
  ∀ key, s.entries.contains key = true → s.recency.ticks.contains key = true

theorem tracks_new (capacity : Nat) (defaultTtl : Option Duration) :
    (new capacity defaultTtl).Tracks := nofun

theorem tracks_clear (s : Store) : s.clear.Tracks := nofun

namespace Tracks

theorem insert (h : s.Tracks) (key : CacheKey) (e : Entry) (c : Counters) :
    Tracks { s with
      entries := s.entries.insert key e, recency := s.recency.touch key, counters := c } := by
  intro other bound
  rw [Assoc.contains_insert, Bool.or_eq_true] at bound
  rw [Recency.contains_ticks_touch, Bool.or_eq_true]
  exact bound.imp_right (h other)

theorem erase (h : s.Tracks) (key : CacheKey) (c : Counters) :
    Tracks { s with
      entries := s.entries.erase key, recency := s.recency.remove key, counters := c } := by
  intro other bound
  rw [Assoc.contains_erase, Bool.and_eq_true, Bool.not_eq_true', decide_eq_false_iff_not] at bound
  exact Recency.contains_ticks_remove_of_ne bound.1 (h other bound.2)

theorem eraseAll (h : s.Tracks) (keys : List CacheKey) (c : Counters) :
    Tracks { s with
      entries := keys.foldl Assoc.erase s.entries
      recency := keys.foldl Recency.remove s.recency
      counters := c } := by
  induction keys generalizing s with
  | nil => exact h
  | cons key rest ih => exact ih (h.erase key s.counters)

theorem evict (h : s.Tracks) : s.evict.2.Tracks := by
  rw [Store.evict, Recency.evictOldest]
  split
  · rename_i victim recency taken
    split at taken
    · cases taken
    · cases taken
      intro other bound
      rw [Assoc.contains_erase, Bool.and_eq_true] at bound ⊢
      exact bound.imp_right (h other)
  · exact h

theorem set (h : s.Tracks) (now : Nat) (key : CacheKey) (value : Json) (ttl : Option Duration) :
    (s.set now key value ttl).2.Tracks := by
  rw [Store.set]
  dsimp only
  split
  · exact h.evict.insert key _ _
  · exact h.insert key _ _

theorem perform (h : s.Tracks) (now : Nat) (operation : StoreOperation) :
    (s.perform now operation).2.Tracks := by
  have read (key : CacheKey) : (s.getEntry now key).2.Tracks := by
    rw [getEntry]
    split
    · split
      · exact h.erase key _
      · exact h.insert key _ _
    · exact h
  cases operation with
  | set key value ttl => exact h.set now key value ttl
  | get key => exact read key
  | getEntry key => exact read key
  | peek key => exact h
  | delete key =>
    rw [Store.perform, Prod.map_snd, id, delete]
    split
    · exact h.erase key _
    · exact h
  | sweep => exact h.eraseAll _ _
  | clear => exact tracks_clear s

end Tracks

/-- The store is in order: its order of use lists the keys of its entries, each once, and there
are no more of them than it has room for. -/
structure InOrder (s : Store) : Prop where
  coherent : s.recency.Coherent
  within : s.WithinCapacity
  tracks : s.Tracks

theorem nextTick_evict (s : Store) : s.evict.2.recency.nextTick = s.recency.nextTick := by
  rw [evict, Recency.evictOldest]
  cases s.recency.order <;> rfl

namespace InOrder

theorem mem_toList (h : s.InOrder) :
    key ∈ s.recency.toList ↔ s.entries.contains key = true := by
  have tick : (∃ tick, s.recency.ticks.get? key = some tick) ↔
      s.recency.ticks.contains key = true := Option.isSome_iff_exists.symm
  rw [h.coherent.mem_toList, tick]
  exact ⟨h.within.tracked key, h.tracks key⟩

theorem length_toList (h : s.InOrder) : s.recency.toList.length = s.entries.size := by
  have same : s.recency.toList.Perm s.entries.keys := by
    refine (List.perm_ext_iff_of_nodup h.coherent.nodup_toList s.entries.distinct).mpr ?_
    intro key
    rw [h.mem_toList, Assoc.contains_iff, Assoc.keys]
  rw [same.length_eq, Assoc.length_keys]

/-- A write puts its key at the end, and of all keys no more than there is room for stay, those
at the end. -/
theorem toList_set (h : s.InOrder) (now : Nat) (key : CacheKey) (value : Json)
    (ttl : Option Duration) :
    (s.set now key value ttl).2.recency.toList =
      (s.recency.toList.filter (· ≠ key) ++ [key]).rtake s.capacity := by
  obtain ⟨n, capacity⟩ := Nat.exists_eq_add_one.mpr h.within.positive
  have bounded : s.recency.toList.length ≤ n + 1 := by
    rw [h.length_toList, ← capacity]
    exact h.within.bounded
  rw [Store.toList_set h.coherent, evicted_set, capacity, List.rtake_concat_succ]
  congr 1
  by_cases resident : s.entries.contains key = true
  · have shorter : (s.recency.toList.filter (· ≠ key)).length < s.recency.toList.length :=
      List.length_filter_lt_length_iff_exists.mpr ⟨key, h.mem_toList.mpr resident, by simp⟩
    rw [rtake_of_length_le (by omega)]
    simp [resident]
  · have others : s.recency.toList.filter (· ≠ key) = s.recency.toList := by
      apply List.filter_eq_self.mpr
      intro other member
      have differs : other ≠ key := fun same => resident (h.mem_toList.mp (same ▸ member))
      simpa using differs
    rw [others]
    rw [← h.length_toList] at *
    by_cases full : n + 1 ≤ s.recency.toList.length
    · have front : s.recency.toList.rtake n = s.recency.toList.tail := by
        rw [List.rtake, ← List.drop_one]
        congr 1
        omega
      rw [front, ← filter_ne_head? h.coherent.nodup_toList]
      apply List.filter_congr
      intro other member
      have differs : other ≠ key := fun same => resident (h.mem_toList.mp (same ▸ member))
      simp [resident, full, differs]
    · rw [rtake_of_length_le (by omega)]
      simpa [full] using List.filter_eq_self.mp others

/-- A write keeps the order, as long as there are ticks left, and uses up one. -/
theorem set (h : s.InOrder) (room : s.recency.HasRoom) (now : Nat) (key : CacheKey) (value : Json)
    (ttl : Option Duration) :
    (s.set now key value ttl).2.InOrder ∧
      (s.set now key value ttl).2.recency.nextTick.toNat = s.recency.nextTick.toNat + 1 := by
  have touched : (s.set now key value ttl).2.recency.Coherent ∧
      (s.set now key value ttl).2.recency.nextTick.toNat = s.recency.nextTick.toNat + 1 := by
    rw [Store.set]
    dsimp only
    split
    · have same := s.nextTick_evict
      have room' : s.evict.2.recency.HasRoom := by rwa [Recency.HasRoom, same]
      rw [Recency.toNat_touch_nextTick room', same]
      exact ⟨(toList_evict h.coherent).1.touch room' key, rfl⟩
    · exact ⟨h.coherent.touch room key, Recency.toNat_touch_nextTick room key⟩
  exact ⟨⟨touched.1, h.within.set now key value ttl, h.tracks.set now key value ttl⟩, touched.2⟩

end InOrder
end Store

/-! ## Lists of items -/

/-- The key under which an item is stored. -/
def WarmItem.cacheKey (item : WarmItem) : CacheKey := .derive none item.key

/-- The keys of items, in the order of the items. -/
def WarmItem.keys (items : List WarmItem) : List CacheKey := items.map cacheKey

/-- The last item for a key. -/
def WarmItem.last? (items : List WarmItem) (key : CacheKey) : Option WarmItem :=
  items.reverse.find? fun item => item.cacheKey = key

namespace WarmItem

variable {items : List WarmItem} {key : CacheKey}

theorem keys_concat (items : List WarmItem) (item : WarmItem) :
    keys (items ++ [item]) = keys items ++ [item.cacheKey] := List.map_append

end WarmItem

namespace Store

variable {s : Store} {key : CacheKey} {now : Nat}

/-- Writes items one after the other. -/
def fill (s : Store) (now : Nat) (items : List WarmItem) : Store :=
  items.foldl (fun s item => (s.set now item.cacheKey item.value item.ttl).2) s

theorem fill_concat (s : Store) (now : Nat) (items : List WarmItem) (item : WarmItem) :
    s.fill now (items ++ [item]) =
      ((s.fill now items).set now item.cacheKey item.value item.ttl).2 :=
  List.foldl_append

theorem limits_fill (s : Store) (now : Nat) (items : List WarmItem) :
    (s.fill now items).capacity = s.capacity ∧ (s.fill now items).defaultTtl = s.defaultTtl := by
  induction items using List.reverseRecOn with
  | nil => exact ⟨rfl, rfl⟩
  | append_singleton items item ih =>
    obtain ⟨capacity, defaultTtl⟩ :=
      (s.fill now items).limits_perform now (.set item.cacheKey item.value item.ttl)
    rw [fill_concat]
    exact ⟨capacity.trans ih.1, defaultTtl.trans ih.2⟩

/-- The order of use that a list of keys would bring about if there were no limit. -/
def usedAfter (before keys : List CacheKey) : List CacheKey :=
  before.filter (· ∉ keys) ++ keys.dedup

theorem usedAfter_concat (before keys : List CacheKey) (key : CacheKey) :
    usedAfter before (keys ++ [key]) = (usedAfter before keys).filter (· ≠ key) ++ [key] := by
  rw [usedAfter, usedAfter, dedup_concat, List.filter_append, List.filter_filter,
    List.append_assoc]
  congr 1
  apply List.filter_congr
  intro other _
  simp [and_comm]

theorem nodup_usedAfter {before : List CacheKey} (distinct : before.Nodup)
    (keys : List CacheKey) : (usedAfter before keys).Nodup := by
  refine List.nodup_append.mpr ⟨distinct.filter _, List.nodup_dedup keys, ?_⟩
  rintro other old _ new rfl
  have absent : other ∉ keys := by simpa using (List.mem_filter.mp old).2
  exact absent (List.mem_dedup.mp new)

/-- A store that is filled stays in order, and what it has in the end is the last part of the order
in which everything was used. -/
theorem InOrder.fill (h : s.InOrder) (now : Nat) {items : List WarmItem}
    (room : s.recency.nextTick.toNat + items.length < UInt64.size) :
    (s.fill now items).InOrder ∧
      (s.fill now items).recency.nextTick.toNat = s.recency.nextTick.toNat + items.length ∧
      (s.fill now items).recency.toList =
        (usedAfter s.recency.toList (WarmItem.keys items)).rtake s.capacity := by
  induction items using List.reverseRecOn with
  | nil =>
    refine ⟨h, rfl, ?_⟩
    have bounded := h.within.bounded
    rw [← h.length_toList] at bounded
    simp [usedAfter, WarmItem.keys, Store.fill, rtake_of_length_le bounded]
  | append_singleton items item ih =>
    rw [List.length_append, List.length_singleton] at room ⊢
    obtain ⟨filled, ticks, order⟩ := ih (by omega)
    have left : (s.fill now items).recency.HasRoom := by
      rw [Recency.HasRoom, ticks]
      omega
    obtain ⟨set, tick⟩ := filled.set left now item.cacheKey item.value item.ttl
    rw [fill_concat]
    refine ⟨set, by omega, ?_⟩
    rw [filled.toList_set, order, (s.limits_fill now items).1, WarmItem.keys_concat,
      usedAfter_concat]
    exact rtake_filter_concat (nodup_usedAfter h.coherent.nodup_toList _) _ h.within.positive

end Store
end CacheDepot
