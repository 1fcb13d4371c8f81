/-!
# Finite maps as lists of bindings

`Assoc κ ν` keeps its bindings in the order in which their keys were first bound, each key once.
The stores look their entries up in one; the order is never shown, only `get?` and `size` are.
-/

namespace CacheDepot

/-- A finite map from `κ` to `ν`. -/
structure Assoc (κ ν : Type) where
  /-- The bindings, oldest key first. -/
  bindings : List (κ × ν) := []
  distinct : (bindings.map Prod.fst).Nodup := by simp

namespace Assoc

variable {κ ν : Type}

/-- The map without bindings. -/
def empty : Assoc κ ν := {}

variable [DecidableEq κ]

/-- Rebinds `key` where it stands, or binds it at the end. -/
def put (key : κ) (value : ν) : List (κ × ν) → List (κ × ν)
  | [] => [(key, value)]
  | b :: rest => if b.1 = key then (key, value) :: rest else b :: put key value rest

/-- The first value bound to `key`. -/
def find? (key : κ) : List (κ × ν) → Option ν
  | [] => none
  | b :: rest => if b.1 = key then some b.2 else find? key rest

theorem fst_put (key : κ) (value : ν) (bindings : List (κ × ν)) :
    (put key value bindings).map Prod.fst =
      if key ∈ bindings.map Prod.fst then bindings.map Prod.fst
      else bindings.map Prod.fst ++ [key] := by
  induction bindings with
  | nil => simp [put]
  | cons b rest ih =>
    by_cases same : b.1 = key
    · simp [put, same]
    · simp only [put, if_neg same, List.map_cons, ih, List.mem_cons, Ne.symm same, false_or]
      split <;> rfl

theorem nodup_put (key : κ) (value : ν) {bindings : List (κ × ν)}
    (distinct : (bindings.map Prod.fst).Nodup) :
    ((put key value bindings).map Prod.fst).Nodup := by
  rw [fst_put]
  split
  · exact distinct
  · rename_i fresh
    rw [List.nodup_append]
    refine ⟨distinct, by simp, ?_⟩
    intro k member other single
    rw [List.mem_singleton] at single
    subst single
    exact fun same => fresh (same ▸ member)

omit [DecidableEq κ] in
theorem nodup_filter_fst (p : κ × ν → Bool) {bindings : List (κ × ν)}
    (distinct : (bindings.map Prod.fst).Nodup) :
    ((bindings.filter p).map Prod.fst).Nodup :=
  distinct.sublist (List.filter_sublist.map Prod.fst)

/-- Binds `key` to `value`. -/
def insert (map : Assoc κ ν) (key : κ) (value : ν) : Assoc κ ν :=
  ⟨put key value map.bindings, nodup_put key value map.distinct⟩

/-- The value bound to `key`. -/
def get? (map : Assoc κ ν) (key : κ) : Option ν :=
  find? key map.bindings

/-- Whether `key` is bound. -/
def contains (map : Assoc κ ν) (key : κ) : Bool :=
  (map.get? key).isSome

/-- Removes the binding of `key`. -/
def erase (map : Assoc κ ν) (key : κ) : Assoc κ ν :=
  ⟨map.bindings.filter (fun b => b.1 ≠ key), nodup_filter_fst _ map.distinct⟩

/-- The bound keys. -/
def keys (map : Assoc κ ν) : List κ :=
  map.bindings.map Prod.fst

/-- The number of bindings. -/
def size (map : Assoc κ ν) : Nat :=
  map.bindings.length

/-- Whether nothing is bound. -/
def isEmpty (map : Assoc κ ν) : Bool :=
  map.bindings.isEmpty

theorem find?_eq_some_iff {key : κ} {value : ν} {bindings : List (κ × ν)}
    (distinct : (bindings.map Prod.fst).Nodup) :
    find? key bindings = some value ↔ (key, value) ∈ bindings := by
  induction bindings with
  | nil => simp [find?]
  | cons b rest ih =>
    obtain ⟨k, v⟩ := b
    rw [List.map_cons, List.nodup_cons] at distinct
    by_cases same : k = key
    · subst same
      have absent : (k, value) ∉ rest := fun member =>
        distinct.1 (List.mem_map.mpr ⟨(k, value), member, rfl⟩)
      simp [find?, absent, eq_comm]
    · simp [find?, same, Ne.symm same, ih distinct.2]

theorem find?_put_self (key : κ) (value : ν) (bindings : List (κ × ν)) :
    find? key (put key value bindings) = some value := by
  induction bindings with
  | nil => simp [put, find?]
  | cons b rest ih =>
    by_cases same : b.1 = key
    · simp [put, find?, same]
    · simp [put, find?, same, ih]

theorem find?_put_of_ne {key other : κ} (value : ν) (differs : key ≠ other)
    (bindings : List (κ × ν)) :
    find? other (put key value bindings) = find? other bindings := by
  induction bindings with
  | nil => simp [put, find?, differs]
  | cons b rest ih =>
    by_cases same : b.1 = key
    · simp [put, find?, same, differs]
    · simp [put, find?, same, ih]

@[simp] theorem get?_empty (key : κ) : (empty : Assoc κ ν).get? key = none := rfl

/-- A binding is in the list exactly when it is looked up under its key. -/
theorem get?_eq_some_iff {map : Assoc κ ν} {key : κ} {value : ν} :
    map.get? key = some value ↔ (key, value) ∈ map.bindings :=
  find?_eq_some_iff map.distinct

theorem get?_eq_none_iff {map : Assoc κ ν} {key : κ} :
    map.get? key = none ↔ key ∉ map.keys := by
  rw [Option.eq_none_iff_forall_ne_some]
  simp [get?_eq_some_iff, keys]

theorem contains_iff {map : Assoc κ ν} {key : κ} : map.contains key = true ↔ key ∈ map.keys := by
  rw [contains, Option.isSome_iff_ne_none, Ne, get?_eq_none_iff, Classical.not_not]

@[simp] theorem get?_insert_self (map : Assoc κ ν) (key : κ) (value : ν) :
    (map.insert key value).get? key = some value :=
  find?_put_self key value map.bindings

theorem get?_insert_of_ne (map : Assoc κ ν) {key other : κ} (value : ν) (differs : key ≠ other) :
    (map.insert key value).get? other = map.get? other :=
  find?_put_of_ne value differs map.bindings

theorem get?_insert (map : Assoc κ ν) (key other : κ) (value : ν) :
    (map.insert key value).get? other = if other = key then some value else map.get? other := by
  split
  · rename_i same
    rw [same, get?_insert_self]
  · rename_i differs
    exact get?_insert_of_ne map value (Ne.symm differs)

theorem get?_erase (map : Assoc κ ν) (key other : κ) :
    (map.erase key).get? other = if other = key then none else map.get? other := by
  ext value
  rw [get?_eq_some_iff, erase, List.mem_filter]
  split
  · rename_i same
    simp [same]
  · rename_i differs
    rw [get?_eq_some_iff]
    simp [differs]

@[simp] theorem get?_erase_self (map : Assoc κ ν) (key : κ) : (map.erase key).get? key = none :=
  (get?_erase map key key).trans (if_pos rfl)

theorem get?_erase_of_ne (map : Assoc κ ν) {key other : κ} (differs : key ≠ other) :
    (map.erase key).get? other = map.get? other :=
  (get?_erase map key other).trans (if_neg (Ne.symm differs))

/-- A bound key splits the bindings, and rebinding it changes its own binding only. -/
theorem exists_split {map : Assoc κ ν} {key : κ} {value : ν} (bound : map.get? key = some value) :
    ∃ before after, map.bindings = before ++ (key, value) :: after ∧
      (∀ new, (map.insert key new).bindings = before ++ (key, new) :: after) ∧
      (map.erase key).bindings = before ++ after := by
  obtain ⟨bindings, distinct⟩ := map
  simp only [get?, insert, erase] at bound ⊢
  induction bindings with
  | nil => simp [find?] at bound
  | cons b rest ih =>
    obtain ⟨k, v⟩ := b
    rw [List.map_cons, List.nodup_cons] at distinct
    by_cases same : k = key
    · subst same
      obtain rfl : v = value := by simpa [find?] using bound
      have others : rest.filter (fun b => b.1 ≠ k) = rest := by
        rw [List.filter_eq_self]
        intro c member
        have differs : c.1 ≠ k := fun same => distinct.1 (List.mem_map.mpr ⟨c, member, same⟩)
        simpa using differs
      exact ⟨[], rest, rfl, fun new => by simp [put], by simpa using others⟩
    · have inRest : find? key rest = some value := by simpa [find?, same] using bound
      obtain ⟨before, after, split, rebound, erased⟩ := ih distinct.2 inRest
      refine ⟨(k, v) :: before, after, by simp [split], fun new => ?_, ?_⟩
      · simp [put, same, rebound new]
      · rw [List.filter_cons_of_pos (by simpa using same), erased, List.cons_append]

/-- Of two values bound to a key the later one stays. -/
theorem insert_insert (map : Assoc κ ν) (key : κ) (old new : ν) :
    (map.insert key old).insert key new = map.insert key new := by
  obtain ⟨bindings, distinct⟩ := map
  simp only [insert, mk.injEq]
  clear distinct
  induction bindings with
  | nil => simp [put]
  | cons b rest ih =>
    by_cases same : b.1 = key
    · simp [put, same]
    · simp [put, same, ih]

theorem insert_of_get? {map : Assoc κ ν} {key : κ} {value : ν}
    (bound : map.get? key = some value) : map.insert key value = map := by
  obtain ⟨before, after, split, rebound, -⟩ := exists_split bound
  have same : (map.insert key value).bindings = map.bindings := (rebound value).trans split.symm
  cases map
  simp only [insert, mk.injEq] at same ⊢
  exact same

/-- A fresh key is bound at the end. -/
theorem bindings_insert_of_fresh {map : Assoc κ ν} {key : κ} (value : ν)
    (fresh : map.get? key = none) :
    (map.insert key value).bindings = map.bindings ++ [(key, value)] := by
  obtain ⟨bindings, distinct⟩ := map
  simp only [get?, insert] at fresh ⊢
  induction bindings with
  | nil => rfl
  | cons b rest ih =>
    rw [List.map_cons, List.nodup_cons] at distinct
    by_cases same : b.1 = key
    · simp [find?, same] at fresh
    · have absent : find? key rest = none := by simpa [find?, same] using fresh
      simp [put, same, ih distinct.2 absent]

theorem erase_of_fresh {map : Assoc κ ν} {key : κ} (fresh : map.get? key = none) :
    map.erase key = map := by
  obtain ⟨bindings, distinct⟩ := map
  have others : bindings.filter (fun b => b.1 ≠ key) = bindings := by
    refine List.filter_eq_self.mpr fun b member => ?_
    have differs : b.1 ≠ key := fun same =>
      get?_eq_none_iff.mp fresh (same ▸ List.mem_map_of_mem member)
    simpa using differs
  simp only [erase, others]

/-- Up to the order of the bindings, a key is rebound by erasing it and binding it anew. -/
theorem bindings_insert_perm (map : Assoc κ ν) (key : κ) (value : ν) :
    (map.insert key value).bindings.Perm ((map.erase key).bindings ++ [(key, value)]) := by
  cases found : map.get? key with
  | some old =>
    obtain ⟨before, after, -, rebound, erased⟩ := exists_split found
    rw [rebound, erased, List.append_assoc]
    exact (List.perm_append_singleton _ _).symm.append_left before
  | none => rw [bindings_insert_of_fresh value found, erase_of_fresh found]

end Assoc
end CacheDepot
