import CacheDepot.Json.Basic
import CacheDepot.Proofs.Ordered

/-!
# When two values are the same

Two arrays are the same value if their items are, one by one, and two objects if they have fields
of the same names with the same values, whatever the order in which they were given. Integers and
doubles are never the same, and texts only if they have the same characters. Two values are the
same exactly if they have one canonical form.
-/

namespace CacheDepot.Json

/-- What holds of a value if it holds of all items or fields, holds of every value. -/
@[elab_as_elim]
theorem inductionOn {motive : Json → Prop} (v : Json) (null : motive .null)
    (bool : ∀ b, motive (.bool b)) (number : ∀ n, motive (.number n))
    (string : ∀ s, motive (.string s))
    (array : ∀ items, (∀ v ∈ items, motive v) → motive (.array items))
    (object : ∀ fields, (∀ f ∈ fields, motive f.2) → motive (.object fields)) : motive v := by
  refine @Json.rec motive (fun items => ∀ v ∈ items, motive v)
    (fun fields => ∀ f ∈ fields, motive f.2) (fun f => motive f.2) null bool number string array
    object ?_ ?_ ?_ ?_ ?_ v
  · exact nofun
  · intro first rest holds hold
    exact List.forall_mem_cons.mpr ⟨holds, hold⟩
  · exact nofun
  · intro first rest holds hold
    exact List.forall_mem_cons.mpr ⟨holds, hold⟩
  · exact fun _ _ holds => holds

theorem canonicalItems_eq (items : List Json) : canonicalItems items = items.map canonical := by
  induction items with
  | nil => rfl
  | cons v rest ih => rw [canonicalItems, ih, List.map_cons]

theorem canonicalFields_eq (fields : List (String × Json)) :
    canonicalFields fields = fields.map fun f => (f.1, f.2.canonical) := by
  induction fields with
  | nil => rfl
  | cons f rest ih => rw [canonicalFields, ih, List.map_cons]

/-- The value of a field; of a repeated field the last value counts. -/
def field? (name : String) (fields : List (String × Json)) : Option Json :=
  Ordered.get? name fields.reverse

/-- Whether two values are the same, whatever the order of the fields of objects. -/
inductive Same : Json → Json → Prop
  | null : Same .null .null
  | bool (b : Bool) : Same (.bool b) (.bool b)
  | number (n : Number) : Same (.number n) (.number n)
  | string (s : String) : Same (.string s) (.string s)
  | array {items items' : List Json} (length : items.length = items'.length)
      (each : ∀ (i : Nat) v w, items[i]? = some v → items'[i]? = some w → Same v w) :
      Same (.array items) (.array items')
  | object {fields fields' : List (String × Json)}
      (names : ∀ name, (field? name fields).isSome = (field? name fields').isSome)
      (each : ∀ name v w, field? name fields = some v → field? name fields' = some w → Same v w) :
      Same (.object fields) (.object fields')

/-- What the canonical form of an object has under a name. -/
theorem get?_canonical (name : String) (fields : List (String × Json)) :
    Ordered.get? name (Ordered.ofList (canonicalFields fields)) =
      (field? name fields).map canonical := by
  rw [Ordered.get?_ofList, canonicalFields_eq, ← List.map_reverse, Ordered.get?_map, field?]

theorem mem_of_field? {name : String} {fields : List (String × Json)} {v : Json}
    (found : field? name fields = some v) : (name, v) ∈ fields :=
  List.mem_reverse.mp (Ordered.mem_of_get? found)

theorem Same.canonical_eq {v w : Json} (same : Same v w) : v.canonical = w.canonical := by
  induction same with
  | null => rfl
  | bool b => rfl
  | number n => rfl
  | string s => rfl
  | @array items items' length _ ih =>
    rw [canonical, canonical, canonicalItems_eq, canonicalItems_eq]
    congr 1
    apply List.ext_getElem?
    intro i
    rw [List.getElem?_map, List.getElem?_map]
    by_cases inside : i < items.length
    · have inside' : i < items'.length := length ▸ inside
      have one := List.getElem?_eq_getElem inside
      have two := List.getElem?_eq_getElem inside'
      rw [one, two, Option.map_some, Option.map_some, ih i _ _ one two]
    · rw [List.getElem?_eq_none (Nat.le_of_not_lt inside),
        List.getElem?_eq_none (length ▸ Nat.le_of_not_lt inside)]
  | @object fields fields' names _ ih =>
    rw [canonical, canonical, ofFields, ofFields]
    congr 1
    refine (Ordered.sorted_ofList _).ext (Ordered.sorted_ofList _) ?_
    intro name
    rw [get?_canonical, get?_canonical]
    have named := names name
    cases found : field? name fields with
    | none =>
      rw [found, Option.isSome_none, eq_comm, Option.isSome_eq_false_iff] at named
      rw [Option.isNone_iff_eq_none.mp named]
    | some v =>
      rw [found, Option.isSome_some, eq_comm, Option.isSome_iff_exists] at named
      obtain ⟨w, found'⟩ := named
      rw [found', Option.map_some, Option.map_some, ih name v w found found']

theorem same_of_canonical_eq {v w : Json} (same : v.canonical = w.canonical) : Same v w := by
  induction v using inductionOn generalizing w with
  | null =>
    cases w with
    | null => exact .null
    | _ => simp [canonical, ofFields] at same
  | bool b =>
    cases w with
    | bool b' =>
      cases same
      exact .bool b
    | _ => simp [canonical, ofFields] at same
  | number n =>
    cases w with
    | number n' =>
      cases same
      exact .number n
    | _ => simp [canonical, ofFields] at same
  | string s =>
    cases w with
    | string s' =>
      cases same
      exact .string s
    | _ => simp [canonical, ofFields] at same
  | array items ih =>
    cases w with
    | array items' =>
      rw [canonical, canonical, Json.array.injEq, canonicalItems_eq, canonicalItems_eq] at same
      refine .array (by simpa using congrArg List.length same) ?_
      intro i v w one two
      have canonical := congrArg (fun l : List Json => l[i]?) same
      simp only [List.getElem?_map, one, two, Option.map_some, Option.some.injEq] at canonical
      exact ih v (List.mem_of_getElem? one) canonical
    | _ => simp [canonical, ofFields] at same
  | object fields ih =>
    cases w with
    | object fields' =>
      rw [canonical, canonical, ofFields, ofFields, Json.object.injEq] at same
      have each (name : String) :
          (field? name fields).map canonical = (field? name fields').map canonical := by
        rw [← get?_canonical, ← get?_canonical, same]
      refine .object ?_ ?_
      · intro name
        simpa using congrArg Option.isSome (each name)
      · intro name v w one two
        have canonical := each name
        rw [one, two, Option.map_some, Option.map_some, Option.some.injEq] at canonical
        exact ih (name, v) (mem_of_field? one) canonical
    | _ => simp [canonical, ofFields] at same

/-- Two values are the same exactly if they have one canonical form. -/
theorem canonical_eq_iff {v w : Json} : v.canonical = w.canonical ↔ Same v w :=
  ⟨same_of_canonical_eq, Same.canonical_eq⟩

end CacheDepot.Json
