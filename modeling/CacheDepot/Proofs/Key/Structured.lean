import CacheDepot.Proofs.Json.Unambiguous
import CacheDepot.Proofs.Key

/-!
# Structured keys stand for values

Under one namespace two values that are no texts have one key exactly if they are the same value,
unless their texts collide. Such a key has 64 hexadecimal digits behind the namespace, and a key
that was made of bindings is the key of the object with these fields.
-/

namespace CacheDepot

namespace RawKey

/-- Whether a value is no text. -/
def IsStructured (v : Json) : Prop := ∀ s, v ≠ .string s

theorem ofJson_of_isStructured {v : Json} (structured : IsStructured v) :
    ofJson v = .structured v := by
  cases v with
  | string s => exact absurd rfl (structured s)
  | _ => rfl

theorem digest_eq_iff {v w : Json} (apart : ¬ Collide v w) :
    digest v = digest w ↔ canonicalText v = canonicalText w := by
  constructor
  · intro same
    by_contra differ
    exact apart ⟨same, differ⟩
  · intro same
    rw [digest, digest, same]

/-- Whether a field has the name and the value of a binding. -/
def IsField (b : Json × Json) (f : String × Json) : Prop := fieldName? b.1 = some f.1 ∧ b.2 = f.2

/-- A key made of bindings is the key of the object that has a field for each of them. -/
theorem exists_fields_of_ofBindings? {bindings : List (Json × Json)} {raw : RawKey}
    (built : ofBindings? bindings = some raw) :
    ∃ fields, List.Forall₂ IsField bindings fields ∧ raw = ofJson (.ofFields fields) := by
  obtain ⟨fields, read, same⟩ := Option.bind_eq_some_iff.mp built
  refine ⟨fields, ?_, (Option.some.inj same).symm⟩
  clear built same
  induction bindings generalizing fields with
  | nil =>
    cases read
    exact .nil
  | cons b rest ih =>
    rw [List.mapM_cons] at read
    obtain ⟨f, first, read⟩ := Option.bind_eq_some_iff.mp read
    obtain ⟨more, others, read⟩ := Option.bind_eq_some_iff.mp read
    obtain ⟨name, named, same⟩ := Option.bind_eq_some_iff.mp first
    cases read
    cases same
    exact .cons ⟨named, rfl⟩ (ih more others)

end RawKey

namespace CacheKey

/-- Whether a key has 64 hexadecimal digits in lower case behind its namespace. -/
def IsDigest (ns : Option String) (key : CacheKey) : Prop :=
  ∃ digits : String, key = ⟨lead ns ++ digits⟩ ∧ digits.length = 64 ∧
    ∀ c ∈ digits.toList, c ∈ "0123456789abcdef".toList

theorem isDigest_structured (ns : Option String) (v : Json) :
    IsDigest ns (derive ns (.structured v)) := by
  refine ⟨RawKey.digest v, derive_eq ns _, ?_, ?_⟩
  · rw [RawKey.digest, ← String.length_toList, String.toList_ofList, Sha256.length_digest]
  · intro c member
    rw [RawKey.digest, String.toList_ofList] at member
    exact Sha256.mem_hexDigits_of_mem_digest member

open RawKey (IsStructured Collide IsField ofBindings?)
open Json (Number HasNumber Same)

/-- Structured keys stand for values. Under any namespace the keys of two values that are no texts
are the same exactly if the values are the same, unless their canonical texts collide or different
numbers in them have one text; the two zeros are two numbers. Behind the namespace such a key
always has 64 hexadecimal digits. A key that was made of bindings is the key of an object with
these fields, so all this holds of it as well. -/
theorem structured_key_eq_iff_same (ns : Option String) :
    (∀ v w : Json, IsStructured v → IsStructured w → ¬ Collide v w →
      {n | HasNumber n v ∨ HasNumber n w}.InjOn Number.text →
      (derive ns (.ofJson v) = derive ns (.ofJson w) ↔ Same v w)) ∧
    (∀ v : Json, IsStructured v → IsDigest ns (derive ns (.ofJson v))) ∧
    ∀ bindings raw, ofBindings? bindings = some raw →
      ∃ fields, List.Forall₂ IsField bindings fields ∧ IsStructured (.ofFields fields) ∧
        raw = .ofJson (.ofFields fields) := by
  refine ⟨?_, ?_, ?_⟩
  · intro v w structured structured' apart distinct
    rw [RawKey.ofJson_of_isStructured structured, RawKey.ofJson_of_isStructured structured',
      derive_inj, RawKey.base, RawKey.base, RawKey.digest_eq_iff apart]
    exact Json.text_canonical_inj distinct
  · intro v structured
    rw [RawKey.ofJson_of_isStructured structured]
    exact isDigest_structured ns v
  · intro bindings raw built
    obtain ⟨fields, named, same⟩ := RawKey.exists_fields_of_ofBindings? built
    exact ⟨fields, named, nofun, same⟩

/-- A page of a listing, its number given as one or the other number. -/
def listing (n : Number) : Json :=
  .object [("page", .array [.number n]), ("sort", .string "]")]

/-- The same page, its fields in another order. -/
def listingReordered (n : Number) : Json :=
  .object [("sort", .string "]"), ("page", .array [.number n])]

/-- The page number as an integer and as a double. -/
def pageNumber : Number := .int 1
def pageReal : Number := .real ⟨false, Binary64.leastNormal, -52⟩

/-- The order of the fields does not change the key, and a double in place of an integer does. -/
theorem listing_key_eq_iff_same :
    derive (some "q") (.ofJson (listing pageNumber)) =
        derive (some "q") (.ofJson (listingReordered pageNumber)) ∧
      derive (some "q") (.ofJson (listing pageNumber)) ≠
        derive (some "q") (.ofJson (listing pageReal)) := by
  obtain ⟨identifies, -, -⟩ := structured_key_eq_iff_same (some "q")
  have structured (n : Number) : IsStructured (listing n) := by
    rintro s ⟨⟩
  have distinct : ({pageNumber, pageReal} : Set Number).InjOn Number.text := by
    have texts : pageNumber.text ≠ pageReal.text := by decide +kernel
    rintro n (rfl | rfl) m (rfl | rfl) same
    · rfl
    · exact absurd same texts
    · exact absurd same.symm texts
    · rfl
  constructor
  · have texts : RawKey.canonicalText (listing pageNumber) =
        RawKey.canonicalText (listingReordered pageNumber) := by decide +kernel
    refine (identifies _ _ (structured _) (by rintro s ⟨⟩) (fun collide => collide.2 texts)
      (distinct.mono ?_)).mpr (Json.same_of_canonical_eq rfl)
    intro n
    simp [listing, listingReordered]
    tauto
  · have digests : RawKey.digest (listing pageNumber) ≠ RawKey.digest (listing pageReal) := by
      decide +kernel
    rw [Ne, identifies _ _ (structured _) (structured _) (fun collide => digests collide.1)
      (distinct.mono ?_)]
    · intro same
      have canonical := same.canonical_eq
      cases canonical
    · intro n
      simp [listing]

end CacheKey
end CacheDepot
