import CacheDepot.Proofs.Store.Run
import Mathlib.Data.List.Nodup

/-!
# A store as one list

`UseList` is a store without indexes: one list of keys and entries, from the least to the most
recently used, each key once. It says in a few lines what a store is to do, and every operation
reads and changes this list alone.
-/

namespace CacheDepot

/-- Keys and their entries, the least recently used first. -/
structure UseList where
  entries : List (CacheKey × Entry) := []
  tally : Tally := {}
  capacity : Nat
  defaultTtl : Option Duration
  positive : 0 < capacity

namespace UseList

/-- An empty list; a capacity of zero is taken as one. -/
def new (capacity : Nat) (defaultTtl : Option Duration) : UseList where
  capacity := max capacity 1
  defaultTtl
  positive := by omega

/-- The entry of a key. -/
def lookup (l : UseList) (key : CacheKey) : Option Entry := l.entries.lookup key

/-- The entries of all other keys, in their order. -/
def without (l : UseList) (key : CacheKey) : List (CacheKey × Entry) :=
  l.entries.filter fun b => b.1 ≠ key

/-- Writes a value at the back. A key that is not there takes the place of the front if the list
is full. -/
def set (l : UseList) (now : Nat) (key : CacheKey) (value : Json) (ttl : Option Duration) :
    SetOutcome × UseList :=
  let fresh := Entry.new now value (ttl.or l.defaultTtl)
  let sets := l.tally.sets + 1
  match l.lookup key with
  | some _ =>
    (⟨none, true⟩,
      { l with entries := l.without key ++ [(key, fresh)], tally := { l.tally with sets } })
  | none =>
    if l.entries.length < l.capacity then
      (⟨none, false⟩,
        { l with entries := l.entries ++ [(key, fresh)], tally := { l.tally with sets } })
    else
      (⟨l.entries.head?.map Prod.fst, false⟩,
        { l with
          entries := l.entries.tail ++ [(key, fresh)]
          tally := { l.tally with sets, evictions := l.tally.evictions + 1 } })

/-- What a write of a key leaves of the other entries. -/
def makeRoom (l : UseList) (key : CacheKey) : List (CacheKey × Entry) :=
  match l.lookup key with
  | some _ => l.without key
  | none => if l.entries.length < l.capacity then l.entries else l.entries.tail

/-- Reads an entry. A live one goes to the back, an expired one goes away. -/
def getEntry (l : UseList) (now : Nat) (key : CacheKey) : Option Entry × UseList :=
  let misses := l.tally.misses + 1
  match l.lookup key with
  | some e =>
    if e.isExpired now then
      (none, { l with
        entries := l.without key
        tally := { l.tally with misses, expirations := l.tally.expirations + 1 } })
    else
      (some (e.touch now), { l with
        entries := l.without key ++ [(key, e.touch now)]
        tally := { l.tally with hits := l.tally.hits + 1 } })
  | none => (none, { l with tally := { l.tally with misses } })

/-- Reads a value. -/
def get (l : UseList) (now : Nat) (key : CacheKey) : Option Json × UseList :=
  (l.getEntry now key).map (Option.map Entry.value) id

/-- Looks at a live entry. -/
def peek (l : UseList) (now : Nat) (key : CacheKey) : Option Entry :=
  (l.lookup key).filter fun e => !e.isExpired now

/-- Takes a key out, expired or not. -/
def delete (l : UseList) (key : CacheKey) : Bool × UseList :=
  match l.lookup key with
  | some _ =>
    (true, { l with
      entries := l.without key
      tally := { l.tally with deletes := l.tally.deletes + 1 } })
  | none => (false, l)

/-- Takes out what is expired; how much it was. -/
def sweep (l : UseList) (now : Nat) : Nat × UseList :=
  let expired := l.entries.countP fun b => b.2.isExpired now
  (expired, { l with
    entries := l.entries.filter fun b => !b.2.isExpired now
    tally := { l.tally with expirations := l.tally.expirations + expired } })

/-- Takes everything out. -/
def clear (l : UseList) : UseList := { l with entries := [] }

/-- Carries one operation out at the time `now`. -/
def perform (l : UseList) (now : Nat) : StoreOperation → StoreReply × UseList
  | .set key value ttl => (l.set now key value ttl).map .outcome id
  | .get key => (l.get now key).map .value id
  | .getEntry key => (l.getEntry now key).map .entry id
  | .peek key => (.entry (l.peek now key), l)
  | .delete key => (l.delete key).map .flag id
  | .sweep => (l.sweep now).map .count id
  | .clear => (.done, l.clear)

/-- Carries operations out one after the other, each at its own reading of the clock. -/
def run (l : UseList) : List (Nat × StoreOperation) → List StoreView × UseList
  | [] => ([], l)
  | (now, operation) :: rest =>
    let (reply, l) := l.perform now operation
    let (views, last) := l.run rest
    (⟨reply, l.entries.length, l.tally⟩ :: views, last)

/-- The last operation of a run is carried out on what the others have left. -/
theorem run_concat (l : UseList) (before : List (Nat × StoreOperation))
    (last : Nat × StoreOperation) :
    (l.run (before ++ [last])).2 = ((l.run before).2.perform last.1 last.2).2 := by
  induction before generalizing l with
  | nil => rfl
  | cons first rest ih => exact ih (l.perform first.1 first.2).2

/-- After `n` operations no count is above `n`, since whatever left the list was once written. -/
structure Bounded (l : UseList) (n : Nat) : Prop where
  reads : l.tally.hits + l.tally.misses ≤ n
  sets : l.tally.sets ≤ n
  left : l.tally.deletes + l.tally.evictions + l.tally.expirations + l.entries.length ≤
    l.tally.sets

variable {l : UseList} {key : CacheKey} {n : Nat}

theorem without_of_lookup_eq_none (absent : l.lookup key = none) :
    l.without key = l.entries := by
  rw [lookup, List.lookup_eq_none_iff] at absent
  apply List.filter_eq_self.mpr
  intro b member
  have differs : key ≠ b.1 := by simpa using absent b member
  simpa using Ne.symm differs

/-- Where each key stands once, an entry is found under its key. -/
theorem lookup_eq_some_of_mem (distinct : (l.entries.map Prod.fst).Nodup) {e : Entry}
    (member : (key, e) ∈ l.entries) : l.lookup key = some e := by
  obtain ⟨before, after, split⟩ := List.append_of_mem member
  refine List.lookup_eq_some_iff.mpr ⟨before, after, split, ?_⟩
  intro b earlier
  rw [split, List.map_append, List.nodup_append] at distinct
  have differs := distinct.2.2 b.1 (List.mem_map_of_mem earlier) key (by simp)
  simpa using Ne.symm differs

theorem length_without_lt {e : Entry} (found : l.lookup key = some e) :
    (l.without key).length < l.entries.length := by
  obtain ⟨before, after, split, -⟩ := List.lookup_eq_some_iff.mp found
  refine List.length_filter_lt_length_iff_exists.mpr ⟨(key, e), ?_, by simp⟩
  simp [split]

theorem entries_set (l : UseList) (now : Nat) (key : CacheKey) (value : Json)
    (ttl : Option Duration) :
    (l.set now key value ttl).2.entries =
      l.makeRoom key ++ [(key, .new now value (ttl.or l.defaultTtl))] := by
  rw [set, makeRoom]
  cases l.lookup key with
  | some e => rfl
  | none =>
    dsimp only
    split <;> rfl

theorem makeRoom_sublist (l : UseList) (key : CacheKey) :
    (l.makeRoom key).Sublist l.entries := by
  rw [makeRoom]
  split
  · exact List.filter_sublist
  · split
    · exact List.Sublist.refl _
    · exact List.tail_sublist _

theorem ne_of_mem_makeRoom {b : CacheKey × Entry} (member : b ∈ l.makeRoom key) : b.1 ≠ key := by
  rw [makeRoom] at member
  split at member
  · simpa using (List.mem_filter.mp member).2
  · rename_i absent
    rw [lookup, List.lookup_eq_none_iff] at absent
    have held : b ∈ l.entries := by
      split at member
      · exact member
      · exact List.mem_of_mem_tail member
    simpa using Ne.symm (by simpa using absent b held)

theorem limits_perform (l : UseList) (now : Nat) (operation : StoreOperation) :
    (l.perform now operation).2.capacity = l.capacity ∧
      (l.perform now operation).2.defaultTtl = l.defaultTtl := by
  have read (key : CacheKey) : (l.getEntry now key).2.capacity = l.capacity ∧
      (l.getEntry now key).2.defaultTtl = l.defaultTtl := by
    rw [getEntry]
    split
    · split <;> exact ⟨rfl, rfl⟩
    · exact ⟨rfl, rfl⟩
  cases operation with
  | set key value ttl =>
    rw [perform, Prod.map_snd, id, set]
    split
    · exact ⟨rfl, rfl⟩
    · split <;> exact ⟨rfl, rfl⟩
  | get key => exact read key
  | getEntry key => exact read key
  | delete key =>
    rw [perform, Prod.map_snd, id, delete]
    split <;> exact ⟨rfl, rfl⟩
  | _ => exact ⟨rfl, rfl⟩

theorem Bounded.set (h : l.Bounded n) (now : Nat) (value : Json) (ttl : Option Duration) :
    (l.set now key value ttl).2.Bounded (n + 1) := by
  obtain ⟨reads, sets, left⟩ := h
  unfold UseList.set
  split
  · rename_i e found
    have shorter := length_without_lt found
    constructor <;> simp <;> omega
  · split
    · constructor <;> simp <;> omega
    · have room := l.positive
      constructor <;> simp <;> omega

theorem Bounded.getEntry (h : l.Bounded n) (now : Nat) :
    (l.getEntry now key).2.Bounded (n + 1) := by
  obtain ⟨reads, sets, left⟩ := h
  unfold UseList.getEntry
  split
  · rename_i e found
    have shorter := length_without_lt found
    split <;> constructor <;> simp <;> omega
  · constructor <;> simp <;> omega

theorem Bounded.delete (h : l.Bounded n) : (l.delete key).2.Bounded (n + 1) := by
  obtain ⟨reads, sets, left⟩ := h
  unfold UseList.delete
  split
  · rename_i e found
    have shorter := length_without_lt found
    constructor <;> simp <;> omega
  · exact ⟨Nat.le_succ_of_le reads, Nat.le_succ_of_le sets, left⟩

theorem Bounded.sweep (h : l.Bounded n) (now : Nat) : (l.sweep now).2.Bounded (n + 1) := by
  obtain ⟨reads, sets, left⟩ := h
  have total := List.length_eq_countP_add_countP (fun b => b.2.isExpired now) (l := l.entries)
  have kept : (l.entries.filter fun b => !b.2.isExpired now).length =
      l.entries.countP fun b => ¬b.2.isExpired now := by
    rw [List.countP_eq_length_filter]
    simp
  constructor <;> simp only [UseList.sweep, kept] <;> omega

theorem Bounded.clear (h : l.Bounded n) : l.clear.Bounded (n + 1) := by
  obtain ⟨reads, sets, left⟩ := h
  constructor <;> simp only [UseList.clear, List.length_nil] <;> omega

theorem Bounded.perform (h : l.Bounded n) (now : Nat) (operation : StoreOperation) :
    (l.perform now operation).2.Bounded (n + 1) := by
  cases operation with
  | set key value ttl => exact h.set now value ttl
  | get key => exact h.getEntry now
  | getEntry key => exact h.getEntry now
  | peek key => exact ⟨Nat.le_succ_of_le h.reads, Nat.le_succ_of_le h.sets, h.left⟩
  | delete key => exact h.delete
  | sweep => exact h.sweep now
  | clear => exact h.clear

end UseList
end CacheDepot
