import CacheDepot.Recency
import Mathlib.Data.List.Nodup

/-!
# The order of use as a list of keys

`Recency.toList` lists the tracked keys from the least to the most recently used. As long as the
ticks do not wrap, the two indexes of a `Recency` lead to each other, and each operation is a
plain operation on this list: a touch moves a key to the back, a removal takes it out, an eviction
takes the front.
-/

namespace CacheDepot.Recency

/-- The two indexes lead to each other, and every tick in use is older than the next one. -/
structure Coherent (r : Recency) : Prop where
  sorted : (r.order.map Prod.fst).Pairwise (· < ·)
  inverse : ∀ key tick, r.ticks.get? key = some tick ↔ (tick, key) ∈ r.order
  fresh : ∀ b ∈ r.order, b.1 < r.nextTick

/-- The next tick can be given out without wrapping. -/
def HasRoom (r : Recency) : Prop := r.nextTick.toNat + 1 < UInt64.size

variable {r : Recency}

theorem Coherent.tick_lt (h : r.Coherent) :
    r.order.Pairwise fun b c => b.1 < c.1 :=
  List.pairwise_map.mp h.sorted

/-- Of two bindings in the order, equal keys mean equal ticks. -/
theorem Coherent.tick_eq (h : r.Coherent) {key : CacheKey} {tick other : UInt64}
    (one : (tick, key) ∈ r.order) (two : (other, key) ∈ r.order) : tick = other := by
  have found := (h.inverse key tick).mpr one
  rw [(h.inverse key other).mpr two] at found
  exact (Option.some.inj found).symm

/-- Of two bindings in the order, equal ticks mean equal keys. -/
theorem Coherent.key_eq (h : r.Coherent) {b c : UInt64 × CacheKey} (one : b ∈ r.order)
    (two : c ∈ r.order) (same : b.1 = c.1) : b = c := by
  have distinct : (r.order.map Prod.fst).Nodup := by
    apply h.sorted.imp
    rintro tick _ less rfl
    exact UInt64.lt_irrefl tick less
  exact List.inj_on_of_nodup_map distinct one two same

theorem Coherent.nodup_toList (h : r.Coherent) : r.toList.Nodup := by
  rw [toList, List.Nodup, List.pairwise_map]
  refine h.tick_lt.imp_of_mem fun {b c} one two less same => ?_
  have ticks : b.1 = c.1 := h.tick_eq one (same ▸ two : (c.1, b.2) ∈ r.order)
  exact UInt64.lt_irrefl _ (ticks ▸ less)

theorem Coherent.mem_toList (h : r.Coherent) {key : CacheKey} :
    key ∈ r.toList ↔ ∃ tick, r.ticks.get? key = some tick := by
  simp [toList, h.inverse]

theorem Coherent.not_mem_toList (h : r.Coherent) {key : CacheKey} :
    key ∉ r.toList ↔ r.ticks.get? key = none := by
  rw [h.mem_toList, Option.eq_none_iff_forall_ne_some]
  simp

@[simp] theorem coherent_empty : Coherent {} where
  sorted := .nil
  inverse key tick := by simp
  fresh b member := by simp at member

/-! ## Touching -/

theorem placeTick_of_fresh {tick : UInt64} (key : CacheKey) {order : List (UInt64 × CacheKey)}
    (fresh : ∀ b ∈ order, b.1 < tick) : placeTick tick key order = order ++ [(tick, key)] := by
  induction order with
  | nil => rfl
  | cons b rest ih =>
    have older : b.1 < tick := fresh b List.mem_cons_self
    have distinct : tick ≠ b.1 := fun same => UInt64.lt_irrefl _ (same ▸ older)
    rw [placeTick, if_neg (UInt64.lt_asymm older), if_neg distinct,
      ih fun c member => fresh c (List.mem_cons_of_mem b member), List.cons_append]

/-- Dropping the tick of a key drops this key and no other. -/
theorem Coherent.snd_dropTick (h : r.Coherent) {key : CacheKey} {tick : UInt64}
    (tracked : r.ticks.get? key = some tick) :
    (dropTick tick r.order).map Prod.snd = r.toList.filter (· ≠ key) := by
  rw [toList, List.filter_map, dropTick]
  congr 1
  apply List.filter_congr
  intro b member
  have held := (h.inverse key tick).mp tracked
  have same : b.1 = tick ↔ b.2 = key := by
    constructor
    · intro ticks
      exact congrArg Prod.snd (h.key_eq member held ticks)
    · intro keys
      exact h.tick_eq (keys ▸ member : (b.1, key) ∈ r.order) held
  simp [same]

/-- The order without the old tick of a key that is about to be touched. -/
def orderWithout (r : Recency) (key : CacheKey) : List (UInt64 × CacheKey) :=
  match r.ticks.get? key with
  | some old => dropTick old r.order
  | none => r.order

theorem orderWithout_sublist (r : Recency) (key : CacheKey) :
    (r.orderWithout key).Sublist r.order := by
  unfold orderWithout
  split
  · exact List.filter_sublist
  · exact List.Sublist.refl _

theorem Coherent.snd_orderWithout (h : r.Coherent) (key : CacheKey) :
    (r.orderWithout key).map Prod.snd = r.toList.filter (· ≠ key) := by
  unfold orderWithout
  split
  · rename_i old tracked
    exact h.snd_dropTick tracked
  · rename_i absent
    refine (List.filter_eq_self.mpr ?_).symm
    intro other member
    have differs : other ≠ key := fun same => h.not_mem_toList.mpr absent (same ▸ member)
    simpa using differs

theorem Coherent.mem_orderWithout (h : r.Coherent) {key : CacheKey} {b : UInt64 × CacheKey} :
    b ∈ r.orderWithout key ↔ b ∈ r.order ∧ b.2 ≠ key := by
  constructor
  · intro member
    have kept : b.2 ∈ r.toList.filter (· ≠ key) :=
      h.snd_orderWithout key ▸ List.mem_map_of_mem member
    exact ⟨(r.orderWithout_sublist key).subset member, by simpa using (List.mem_filter.mp kept).2⟩
  · rintro ⟨member, differs⟩
    unfold orderWithout
    split
    · rename_i old tracked
      refine List.mem_filter.mpr ⟨member, ?_⟩
      have held := (h.inverse key old).mp tracked
      have ticks : b.1 ≠ old := fun same => differs (congrArg Prod.snd (h.key_eq member held same))
      simpa using ticks
    · exact member

theorem Coherent.touch_eq (h : r.Coherent) (key : CacheKey) :
    r.touch key =
      { order := r.orderWithout key ++ [(r.nextTick, key)]
        ticks := r.ticks.insert key r.nextTick
        nextTick := r.nextTick + 1 } := by
  have placed := placeTick_of_fresh key fun b member =>
    h.fresh b ((r.orderWithout_sublist key).subset member)
  rw [← placed]
  rfl

theorem Coherent.toList_touch (h : r.Coherent) (key : CacheKey) :
    (r.touch key).toList = r.toList.filter (· ≠ key) ++ [key] := by
  rw [h.touch_eq, toList, List.map_append, h.snd_orderWithout]
  rfl

theorem HasRoom.lt_next (room : r.HasRoom) : r.nextTick < r.nextTick + 1 := by
  rw [UInt64.lt_iff_toNat_lt, UInt64.toNat_add]
  exact Nat.lt_of_lt_of_eq (Nat.lt_succ_self _) (Nat.mod_eq_of_lt room).symm

theorem toNat_touch_nextTick (room : r.HasRoom) (key : CacheKey) :
    (r.touch key).nextTick.toNat = r.nextTick.toNat + 1 := by
  change (r.nextTick + 1).toNat = _
  rw [UInt64.toNat_add]
  exact Nat.mod_eq_of_lt room

theorem Coherent.touch (h : r.Coherent) (room : r.HasRoom) (key : CacheKey) :
    (r.touch key).Coherent := by
  rw [h.touch_eq]
  refine ⟨?_, ?_, ?_⟩
  · rw [List.map_append, List.pairwise_append]
    refine ⟨h.sorted.sublist ((r.orderWithout_sublist key).map _), by simp, ?_⟩
    intro tick member next single
    obtain ⟨b, held, rfl⟩ := List.mem_map.mp member
    obtain rfl : next = r.nextTick := by simpa using single
    exact h.fresh b ((r.orderWithout_sublist key).subset held)
  · intro other tick
    rw [Assoc.get?_insert, List.mem_append, h.mem_orderWithout, ← h.inverse]
    by_cases same : other = key
    · simp [same, eq_comm]
    · simp [same]
  · intro b member
    rcases List.mem_append.mp member with old | new
    · exact UInt64.lt_trans (h.fresh b ((r.orderWithout_sublist key).subset old)) room.lt_next
    · obtain rfl : b = (r.nextTick, key) := by simpa using new
      exact room.lt_next

/-! ## Removing, evicting, clearing -/

theorem Coherent.toList_remove (h : r.Coherent) (key : CacheKey) :
    (r.remove key).toList = r.toList.filter (· ≠ key) := by
  rw [← h.snd_orderWithout key]
  unfold remove orderWithout
  cases r.ticks.get? key <;> rfl

theorem Coherent.remove (h : r.Coherent) (key : CacheKey) : (r.remove key).Coherent := by
  have order : (r.remove key).order = r.orderWithout key := by
    unfold Recency.remove orderWithout
    cases r.ticks.get? key <;> rfl
  have ticks : ∀ other tick,
      (r.remove key).ticks.get? other = some tick ↔
        other ≠ key ∧ r.ticks.get? other = some tick := by
    intro other tick
    unfold Recency.remove
    split
    · rw [Assoc.get?_erase]
      split <;> simp_all
    · rename_i absent
      constructor
      · intro found
        exact ⟨fun same => by simp [same, absent] at found, found⟩
      · exact And.right
  have next : (r.remove key).nextTick = r.nextTick := by
    unfold Recency.remove
    cases r.ticks.get? key <;> rfl
  refine ⟨?_, ?_, ?_⟩
  · rw [order]
    exact h.sorted.sublist ((r.orderWithout_sublist key).map _)
  · intro other tick
    rw [ticks, order, h.mem_orderWithout, h.inverse, and_comm]
  · intro b member
    rw [order] at member
    rw [next]
    exact h.fresh b ((r.orderWithout_sublist key).subset member)

theorem remove_nextTick (r : Recency) (key : CacheKey) : (r.remove key).nextTick = r.nextTick := by
  unfold remove
  cases r.ticks.get? key <;> rfl

theorem foldl_remove_nextTick (r : Recency) (keys : List CacheKey) :
    (keys.foldl remove r).nextTick = r.nextTick := by
  induction keys generalizing r with
  | nil => rfl
  | cons key rest ih => rw [List.foldl_cons, ih, remove_nextTick]

/-- An eviction takes the front of the list. -/
theorem Coherent.evictOldest_eq_some (h : r.Coherent) {key : CacheKey} {rest : List CacheKey}
    (front : r.toList = key :: rest) :
    ∃ r' : Recency, r.evictOldest = some (key, r') ∧ r'.Coherent ∧ r'.toList = rest ∧
      r'.nextTick = r.nextTick := by
  obtain ⟨b, order, held, rfl, rfl⟩ := List.map_eq_cons_iff.mp front
  have others : ∀ c ∈ order, c.2 ≠ b.2 := by
    intro c member same
    have distinct := List.nodup_cons.mp (front ▸ h.nodup_toList)
    exact distinct.1 (same ▸ List.mem_map_of_mem member)
  refine ⟨{ r with order, ticks := r.ticks.erase b.2 }, by simp [evictOldest, held],
    ⟨?_, ?_, ?_⟩, rfl, rfl⟩
  · have sorted := h.sorted
    rw [held, List.map_cons, List.pairwise_cons] at sorted
    exact sorted.2
  · intro other tick
    have found := h.inverse other tick
    rw [held, List.mem_cons] at found
    rw [Assoc.get?_erase]
    by_cases same : other = b.2
    · simpa [same] using fun member => others (tick, b.2) member rfl
    · have differs : (tick, other) ≠ b := fun same' => same (congrArg Prod.snd same')
      simpa [same, differs] using found
  · intro c member
    exact h.fresh c (held ▸ List.mem_cons_of_mem b member)

theorem coherent_clear (r : Recency) : r.clear.Coherent where
  sorted := .nil
  inverse key tick := by simp [clear]
  fresh b member := by simp [clear] at member

end CacheDepot.Recency
