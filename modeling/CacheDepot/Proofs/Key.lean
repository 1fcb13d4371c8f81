import CacheDepot.Key

/-!
# What derived keys tell apart

The digest of a value has hexadecimal digits only, so it never looks like a namespace with its
colon. Texts may. Two keys under different namespaces are the same exactly when one of them is a
text that spells out what the namespace of the other has more.
-/

namespace CacheDepot

namespace Sha256

/-- The digits of hexadecimal numbers, the smallest first. -/
def hexDigits : List Char := "0123456789abcdef".toList

theorem hexDigit_mem : ∀ n < 16, hexDigit n ∈ hexDigits := by decide

theorem mem_hexDigits_of_mem_digest {message : List UInt8} {c : Char}
    (member : c ∈ digest message) : c ∈ hexDigits := by
  obtain ⟨w, -, digit⟩ := List.mem_flatMap.mp member
  obtain ⟨i, -, rfl⟩ := List.mem_map.mp digit
  exact hexDigit_mem _ (Nat.mod_lt _ (by decide))

end Sha256

namespace RawKey

/-- Whether two values have one digest although their canonical texts differ. -/
def Collide (v w : Json) : Prop := digest v = digest w ∧ canonicalText v ≠ canonicalText w

theorem not_collide_self (v : Json) : ¬ Collide v v := by
  rintro ⟨-, differ⟩
  exact differ rfl

theorem not_colon_mem_digest (value : Json) : ':' ∉ (digest value).toList := by
  rw [digest, String.toList_ofList]
  intro member
  exact absurd (Sha256.mem_hexDigits_of_mem_digest member) (by decide)

theorem exists_text_of_colon {r : RawKey} (colon : ':' ∈ r.base.toList) : ∃ s, r = .text s := by
  cases r with
  | text s => exact ⟨s, rfl⟩
  | structured value => exact absurd colon (not_colon_mem_digest value)

end RawKey

namespace CacheKey

/-- What stands before the name in a derived key. -/
def lead : Option String → String
  | none => ""
  | some ns => ns ++ ":"

theorem derive_eq (n : Option String) (r : RawKey) : derive n r = ⟨lead n ++ r.base⟩ := by
  cases n with
  | none => exact congrArg CacheKey.mk String.empty_append.symm
  | some ns => rfl

theorem derive_inj {n : Option String} {r r' : RawKey} :
    derive n r = derive n r' ↔ r.base = r'.base := by
  rw [derive_eq, derive_eq, CacheKey.mk.injEq, String.append_right_inj]

theorem lead_inj {n n' : Option String} (same : lead n = lead n') : n = n' := by
  cases n <;> cases n' <;> simp_all [lead]

/-- Where one lead goes on another, it goes on with a colon at its end. -/
theorem colon_mem_of_lead_eq {n n' : Option String} (differ : n ≠ n') {rest : String}
    (longer : lead n' = lead n ++ rest) : ':' ∈ rest.toList := by
  have more : rest ≠ "" := by
    rintro rfl
    exact differ (lead_inj (longer.trans String.append_empty).symm)
  cases n' with
  | none => exact absurd (String.append_eq_empty_iff.mp longer.symm).2 more
  | some ns =>
    have ends : (ns.toList ++ [':']).getLast? = ((lead n).toList ++ rest.toList).getLast? := by
      rw [← String.toList_append, ← longer, lead, String.toList_append]
      rfl
    rw [List.getLast?_concat, List.getLast?_append] at ends
    cases last : rest.toList.getLast? with
    | none => exact absurd (String.toList_eq_nil_iff.mp (List.getLast?_eq_none_iff.mp last)) more
    | some c =>
      rw [last, Option.some_or] at ends
      exact Option.some.inj ends ▸ List.mem_of_getLast? last

/-- Whether a raw key is a text that begins with what another lead has more than its own, and goes
on like the raw key behind that lead. -/
def SpellsOut (n : Option String) (r : RawKey) (n' : Option String) (r' : RawKey) : Prop :=
  ∃ rest, lead n' = lead n ++ rest ∧ r = .text (rest ++ r'.base)

theorem derive_of_spellsOut {n n' : Option String} {r r' : RawKey} (spells : SpellsOut n r n' r') :
    derive n r = derive n' r' := by
  obtain ⟨rest, longer, rfl⟩ := spells
  rw [derive_eq, derive_eq, longer, String.append_assoc]
  rfl

theorem spellsOut_of_append {n n' : Option String} (differ : n ≠ n') {r r' : RawKey}
    {rest : List Char} (longer : (lead n').toList = (lead n).toList ++ rest)
    (base : r.base.toList = rest ++ r'.base.toList) : SpellsOut n r n' r' := by
  have longer : lead n' = lead n ++ String.ofList rest := by
    rw [← String.toList_inj, longer, String.toList_append, String.toList_ofList]
  have base : r.base = String.ofList rest ++ r'.base := by
    rw [← String.toList_inj, base, String.toList_append, String.toList_ofList]
  have colon := colon_mem_of_lead_eq differ longer
  obtain ⟨s, rfl⟩ := RawKey.exists_text_of_colon (r := r) (by
    rw [base, String.toList_append]
    exact List.mem_append_left _ colon)
  exact ⟨String.ofList rest, longer, congrArg RawKey.text base⟩

/-- Keys under different namespaces are the same exactly if one of them spells out the other. -/
theorem derive_eq_derive_iff {n n' : Option String} (differ : n ≠ n') {r r' : RawKey} :
    derive n r = derive n' r' ↔ SpellsOut n r n' r' ∨ SpellsOut n' r' n r := by
  constructor
  · intro same
    rw [derive_eq, derive_eq, CacheKey.mk.injEq, ← String.toList_inj, String.toList_append,
      String.toList_append] at same
    rcases List.append_eq_append_iff.mp same with ⟨rest, longer, base⟩ | ⟨rest, longer, base⟩
    · exact .inl (spellsOut_of_append differ longer base)
    · exact .inr (spellsOut_of_append differ.symm longer base)
  · rintro (spells | spells)
    · exact derive_of_spellsOut spells
    · exact (derive_of_spellsOut spells).symm

end CacheKey
end CacheDepot
