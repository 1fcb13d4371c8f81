import CacheDepot.Ordered
import Mathlib.Data.List.Induction

/-!
# Bindings that stay in key order

Binding a key in a list whose keys stand in their order keeps the order, and in such a list each key
is bound once. A list that is in order already is not changed by sorting it.
-/

namespace CacheDepot.Ordered

variable {ν μ : Type} {key other : String} {value : ν} {bindings : List (String × ν)}

theorem mem_of_mem_insert {b : String × ν} (member : b ∈ insert key value bindings) :
    b = (key, value) ∨ b ∈ bindings := by
  induction bindings with
  | nil => exact .inl (List.mem_singleton.mp member)
  | cons first rest ih =>
    rw [insert] at member
    split at member
    · exact List.mem_cons.mp member
    · split at member
      · exact (List.mem_cons.mp member).imp_right (List.mem_cons_of_mem _)
      · rcases List.mem_cons.mp member with rfl | later
        · exact .inr List.mem_cons_self
        · exact (ih later).imp_right (List.mem_cons_of_mem _)

theorem mem_of_get? (bound : get? key bindings = some value) : (key, value) ∈ bindings := by
  induction bindings with
  | nil => cases bound
  | cons first rest ih =>
    rw [get?] at bound
    split at bound
    · rename_i same
      cases bound
      rw [← same]
      exact List.mem_cons_self
    · exact List.mem_cons_of_mem _ (ih bound)

/-- Whether the keys stand in their order, each once. -/
def Sorted (bindings : List (String × ν)) : Prop := (keys bindings).Pairwise (· < ·)

theorem mem_keys_insert :
    other ∈ keys (insert key value bindings) ↔ other = key ∨ other ∈ keys bindings := by
  induction bindings with
  | nil => simp [insert, keys]
  | cons b rest ih =>
    obtain ⟨k, v⟩ := b
    rw [keys] at ih ⊢
    rw [insert]
    split
    · simp [keys]
    · split
      · rename_i same
        simp [keys, same]
      · simp only [List.map_cons, List.mem_cons, ih, keys]
        exact or_left_comm

theorem Sorted.insert (h : Sorted bindings) (key : String) (value : ν) :
    Sorted (insert key value bindings) := by
  induction bindings with
  | nil => exact List.pairwise_singleton _ _
  | cons b rest ih =>
    obtain ⟨k, v⟩ := b
    obtain ⟨first, sorted⟩ := List.pairwise_cons.mp h
    rw [Ordered.insert]
    split
    · rename_i before
      refine List.pairwise_cons.mpr ⟨?_, h⟩
      intro other member
      rcases List.mem_cons.mp member with rfl | later
      · exact before
      · exact String.lt_trans before (first other later)
    · split
      · rename_i same
        exact same ▸ h
      · rename_i notBefore differs
        have after : k < key := Std.lt_of_le_of_ne (String.not_lt.mp notBefore) (Ne.symm differs)
        refine List.pairwise_cons.mpr ⟨?_, ih sorted⟩
        intro other member
        rcases mem_keys_insert.mp member with rfl | later
        · exact after
        · exact first other later

theorem get?_eq_some_iff (h : Sorted bindings) :
    get? key bindings = some value ↔ (key, value) ∈ bindings := by
  induction bindings with
  | nil => simp [get?]
  | cons b rest ih =>
    obtain ⟨k, v⟩ := b
    obtain ⟨first, sorted⟩ := List.pairwise_cons.mp h
    by_cases same : k = key
    · subst same
      have absent : (k, value) ∉ rest := fun member =>
        String.lt_irrefl k (first k (List.mem_map_of_mem member))
      simp [get?, absent, eq_comm]
    · simp [get?, same, Ne.symm same, ih sorted]

theorem isSome_get?_iff : (get? key bindings).isSome = true ↔ key ∈ keys bindings := by
  induction bindings with
  | nil => simp [get?, keys]
  | cons b rest ih =>
    obtain ⟨k, v⟩ := b
    by_cases same : k = key
    · simp [get?, keys, same]
    · rw [get?, if_neg same, ih]
      simp [keys, Ne.symm same]

theorem get?_map (f : ν → μ) (key : String) (bindings : List (String × ν)) :
    get? key (bindings.map fun b => (b.1, f b.2)) = (get? key bindings).map f := by
  induction bindings with
  | nil => rfl
  | cons b rest ih =>
    rw [List.map_cons, get?, get?, ih]
    split <;> rfl

theorem keys_map (f : ν → μ) (bindings : List (String × ν)) :
    keys (bindings.map fun b => (b.1, f b.2)) = keys bindings := by
  rw [keys, List.map_map]
  rfl

/-- A key that comes after all others is bound at the end. -/
theorem insert_of_lt (after : ∀ k ∈ keys bindings, k < key) (value : ν) :
    insert key value bindings = bindings ++ [(key, value)] := by
  induction bindings with
  | nil => rfl
  | cons b rest ih =>
    obtain ⟨k, v⟩ := b
    have larger := after k List.mem_cons_self
    have notBefore : ¬ key < k := fun smaller =>
      String.lt_irrefl k (String.lt_trans larger smaller)
    have differs : key ≠ k := fun same => String.lt_irrefl k (same ▸ larger)
    rw [insert, if_neg notBefore, if_neg differs,
      ih fun k member => after k (List.mem_cons_of_mem _ member), List.cons_append]

theorem foldl_insert_of_sorted {before after : List (String × ν)} (h : Sorted (before ++ after)) :
    after.foldl (fun sorted b => insert b.1 b.2 sorted) before = before ++ after := by
  induction after generalizing before with
  | nil => exact (List.append_nil before).symm
  | cons b rest ih =>
    have larger : ∀ k ∈ keys before, k < b.1 := by
      intro k member
      rw [Sorted, keys, List.map_append, List.pairwise_append] at h
      exact h.2.2 k member b.1 List.mem_cons_self
    rw [List.append_cons] at h ⊢
    rw [List.foldl_cons, insert_of_lt larger]
    exact ih h

/-- What is in order stays as it is. -/
theorem ofList_of_sorted (h : Sorted bindings) : ofList bindings = bindings :=
  foldl_insert_of_sorted h

theorem ofList_concat (bindings : List (String × ν)) (b : String × ν) :
    ofList (bindings ++ [b]) = insert b.1 b.2 (ofList bindings) :=
  List.foldl_append

theorem sorted_ofList (bindings : List (String × ν)) : Sorted (ofList bindings) := by
  induction bindings using List.reverseRecOn with
  | nil => exact List.Pairwise.nil
  | append_singleton bindings b ih =>
    rw [ofList_concat]
    exact ih.insert b.1 b.2

theorem mem_of_mem_ofList {b : String × ν} (member : b ∈ ofList bindings) : b ∈ bindings := by
  induction bindings using List.reverseRecOn with
  | nil => exact member
  | append_singleton bindings last ih =>
    rw [ofList_concat] at member
    rcases mem_of_mem_insert member with rfl | member
    · exact List.mem_append_right _ List.mem_cons_self
    · exact List.mem_append_left _ (ih member)

/-- Of two bindings of one key the later counts. -/
theorem get?_ofList (key : String) (bindings : List (String × ν)) :
    get? key (ofList bindings) = get? key bindings.reverse := by
  induction bindings using List.reverseRecOn with
  | nil => rfl
  | append_singleton bindings b ih =>
    rw [ofList_concat, List.reverse_concat, get?]
    by_cases same : b.1 = key
    · rw [if_pos same, ← same, get?_insert_self]
    · rw [if_neg same, get?_insert_of_ne _ same, ih]

/-- Lists in order that bind the same keys to the same values are the same. -/
theorem Sorted.ext {others : List (String × ν)} (h : Sorted bindings) (h' : Sorted others)
    (same : ∀ key, get? key bindings = get? key others) : bindings = others := by
  have pairs {l : List (String × ν)} (h : Sorted l) : l.Pairwise fun b c => b.1 < c.1 :=
    List.pairwise_map.mp h
  have distinct {l : List (String × ν)} (h : Sorted l) : l.Nodup := by
    apply (pairs h).imp
    rintro b _ less rfl
    exact String.lt_irrefl b.1 less
  have perm : bindings.Perm others := by
    refine (List.perm_ext_iff_of_nodup (distinct h) (distinct h')).mpr ?_
    rintro ⟨key, value⟩
    rw [← get?_eq_some_iff h, ← get?_eq_some_iff h', same]
  refine perm.eq_of_pairwise ?_ (pairs h) (pairs h')
  intro b c _ _ less more
  exact absurd (String.lt_trans less more) (String.lt_irrefl _)

end CacheDepot.Ordered
