/-!
# Bindings in key order

Lists of bindings kept in the order of their keys, each key once. Keys are ordered by code
points, which for text is the order of the UTF-8 bytes. The fields of a JSON object, the
stores of a registry and the counters of all stores are kept this way, so listing them is
sorting them.
-/

namespace CacheDepot.Ordered

variable {ν : Type}

/-- Binds `key`, replacing an earlier binding of it. -/
def insert (key : String) (value : ν) : List (String × ν) → List (String × ν)
  | [] => [(key, value)]
  | (k, v) :: rest =>
    if key < k then (key, value) :: (k, v) :: rest
    else if key = k then (key, value) :: rest
    else (k, v) :: insert key value rest

/-- The value bound to `key`. -/
def get? (key : String) : List (String × ν) → Option ν
  | [] => none
  | (k, v) :: rest => if k = key then some v else get? key rest

/-- The bindings of a list given in any order; of two bindings of one key the later stays. -/
def ofList (bindings : List (String × ν)) : List (String × ν) :=
  bindings.foldl (fun sorted b => insert b.1 b.2 sorted) []

/-- The keys, in order. -/
def keys (bindings : List (String × ν)) : List String :=
  bindings.map Prod.fst

theorem get?_insert_self (key : String) (value : ν) (bindings : List (String × ν)) :
    get? key (insert key value bindings) = some value := by
  induction bindings with
  | nil => simp [insert, get?]
  | cons b rest ih =>
    obtain ⟨k, v⟩ := b
    simp only [insert]
    split
    · simp [get?]
    · split
      · simp [get?]
      · rename_i differs
        simp [get?, Ne.symm differs, ih]

theorem get?_insert_of_ne {key other : String} (value : ν) (differs : key ≠ other)
    (bindings : List (String × ν)) :
    get? other (insert key value bindings) = get? other bindings := by
  induction bindings with
  | nil => simp [insert, get?, differs]
  | cons b rest ih =>
    obtain ⟨k, v⟩ := b
    simp only [insert]
    split
    · simp [get?, differs]
    · split
      · rename_i same
        subst same
        simp [get?, differs]
      · simp [get?, ih]

end CacheDepot.Ordered
