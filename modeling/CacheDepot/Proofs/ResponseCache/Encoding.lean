import CacheDepot.Proofs.Depot.TaskOrigins
import CacheDepot.Proofs.Json.ReadBack
import CacheDepot.Proofs.ResponseCache.Provenance
import CacheDepot.Proofs.Store.Sweeping

/-!
# Kept responses survive being written

A kept response is written as a JSON object, or as the text of one, with its fields in the order of
the record or in the order of their names. Each of these is read back as the response that was
written, whatever its text, content type, status and time. All that a cache puts into a store is
written in this way, so it never takes out as unreadable what it has put there.
-/

namespace CacheDepot
open Json (Draft Fault)

namespace CachedResponse

/-! ## Values -/

/-- A response is read from the object that it is written as. -/
theorem read_toJson (kept : CachedResponse) : read (.ofJson kept.toJson) = .ok kept := by
  have fields : shape.read {} (.ofJson kept.toJson) =
      .ok ⟨some kept.status, some kept.body, some kept.contentType, some kept.timestamp⟩ := by
    rw [toJson, Draft.ofJson, Draft.RecordShape.read]
    simp only [Draft.ofFields]
    rw [Draft.RecordShape.readFields_cons (by decide) (by decide) (put_status {} kept.status),
      Draft.RecordShape.readFields_cons (by decide) (by decide) (put_body _ kept.body),
      Draft.RecordShape.readFields_cons (by decide) (by decide)
        (put_contentType _ kept.contentType),
      Draft.RecordShape.readFields_cons (by decide) (by decide) (put_timestamp _ kept.timestamp)]
    rfl
  rw [read, fields]
  rfl

theorem read_eq_ok_of_ofJson? {value : Json} {kept : CachedResponse}
    (found : ofJson? value = some kept) : read (.ofJson value) = .ok kept := by
  rw [ofJson?] at found
  cases result : read (.ofJson value) with
  | error fault =>
    rw [result] at found
    cases found
  | ok other =>
    rw [result] at found
    exact congrArg Except.ok (Option.some.inj found)

/-! ## Texts -/

/-- The numbers in what is written of a response fit 64 bits. -/
theorem numbersIn_toJson (kept : CachedResponse) :
    Json.NumbersIn {n | n.ReadsBack} kept.toJson := by
  intro n inside
  have contentType : ¬ Json.HasNumber n (Json.ofText? kept.contentType) := by
    cases kept.contentType <;> exact nofun
  simp only [toJson, Json.ofNat, Json.ofInt, Json.hasNumber_object_iff, List.mem_cons,
    List.not_mem_nil, or_false, exists_eq_or_imp, exists_eq_left, Json.hasNumber_number_iff,
    Json.not_hasNumber_string, contentType, false_or] at inside
  have largest : Json.maxNatural = 2 ^ 64 - 1 := rfl
  have half : UInt64.size / 2 = 2 ^ 63 := rfl
  rcases inside with rfl | rfl
  · have small := kept.status.toNat_lt
    exact Json.readsBack_int (by omega) (by omega)
  · have least := kept.timestamp.le_toInt
    have greatest := kept.timestamp.toInt_lt
    exact Json.readsBack_int (by omega) (by omega)

/-- A response is read from a text as from the value that the text is of. -/
theorem ofText_text {value : Json} (own : Json.NumbersIn {n | n.ReadsBack} value)
    {kept : CachedResponse} (found : read (.ofJson value) = .ok kept) :
    ofText value.text = .ok kept := by
  rw [ofText, Draft.whole, Draft.ofText_text own]
  dsimp only
  rw [found]
  rfl

/-- Whether a value is what is written of a response. -/
def IsWritten (value : Json) : Prop := ∃ kept : CachedResponse, value = kept.toJson.canonical

end CachedResponse

open Http (Request Response)
open ResponseCache (isRead briefCache lookup)
open CachedResponse (IsWritten)

/-! ## Looking up what was written -/

/-- A read of a live entry leaves it where it is. -/
theorem Depot.get?_getKey_of_live {d : Depot} {now : Nat} {h : Handle} {k : CacheKey} {e : Entry}
    (live : (d.store h.cell).peek now k = some e) :
    ((d.getKey now h k).2.store h.cell).entries.get? k = some (e.touch now) := by
  have inside : h.cell < d.stores.length := by
    refine Nat.lt_of_not_le fun outside => ?_
    rw [store, List.getD_eq_getElem?_getD, List.getElem?_eq_none outside] at live
    cases live
  rw [getKey, store_onStore_eq, if_pos ⟨rfl, inside⟩]
  have kept : ((d.store h.cell).getEntry now k).2.entries.get? k = some (e.touch now) := by
    rw [Store.get?_getEntry, if_pos rfl, Store.fst_getEntry, live, Option.map_some]
  exact kept

theorem ResponseCache.lookup_of_written {d : Depot} {now : Nat} {h : Handle} {k : CacheKey}
    {e : Entry} {kept : CachedResponse} (live : (d.store h.cell).peek now k = some e)
    (written : e.value = kept.toJson.canonical) :
    lookup d now h k = (some kept.hitResponse, (d.getKey now h k).2) := by
  have found : (d.getKey now h k).1 = some e.value := by
    have value : (d.getKey now h k).1 = ((d.store h.cell).peek now k).map Entry.value :=
      Store.fst_get (d.store h.cell) now k
    rw [value, live, Option.map_some]
  rw [lookup]
  generalize d.getKey now h k = result at found ⊢
  obtain ⟨stored, d'⟩ := result
  cases found
  dsimp only
  rw [written, CachedResponse.ofJson?_canonical_toJson]

namespace Traffic

variable {c : ResponseCache} {now : Nat} {t : Traffic}

/-! ## What a cache puts into stores -/

/-- Whether all that was put into stores in the background, and all that waits to be put there, is
what is written of a response. -/
structure KeepsWritten (t : Traffic) : Prop where
  tasks : ∀ id h k value ttl, t.depot.tasks.get? id = some (.storing h k value ttl) →
    IsWritten value
  stored : ∀ time cell k value, .stored time cell k value ∈ t.notes → IsWritten value

namespace KeepsWritten

/-- A note of another kind tells of nothing that was stored. -/
theorem stored_cons (keeps : t.KeepsWritten) {note : Note}
    (other : ∀ time cell k value, note ≠ .stored time cell k value) (time cell : Nat)
    (k : CacheKey) (value : Json) (member : .stored time cell k value ∈ note :: t.notes) :
    IsWritten value := by
  rcases List.mem_cons.mp member with new | old
  · exact absurd new.symm (other time cell k value)
  · exact keeps.stored time cell k value old

theorem of_tasks_eq (keeps : t.KeepsWritten) {d : Depot} (same : d.tasks = t.depot.tasks)
    (calls : Assoc Nat Call) (nextNumber : Nat) {note : Note}
    (other : ∀ time cell k value, note ≠ .stored time cell k value) :
    KeepsWritten { depot := d, calls, nextNumber, notes := note :: t.notes } where
  tasks := by
    rw [same]
    exact keeps.tasks
  stored := keeps.stored_cons other

/-- Of a response that is kept its written form is to be stored. -/
theorem conclude (keeps : t.KeepsWritten) {h : Handle} {r : Request} {given answer : Response}
    {d : Depot} (concluded : c.conclude now h r given t.depot = (answer, d)) (number : Nat)
    (calls : Assoc Nat Call) :
    KeepsWritten { t with
      depot := d
      calls
      notes := .answered number now r (some given) answer :: t.notes } := by
  have other : ∀ time cell k value,
      Note.answered number now r (some given) answer ≠ .stored time cell k value := by
    rintro time cell k value ⟨⟩
  -- a task is started only for a read whose response is kept
  by_cases kept : isRead r.method = true ∧ ∃ text, c.Keeps given text
  · obtain ⟨reads, text, kept⟩ := kept
    rw [ResponseCache.conclude, if_pos reads, kept.capture_eq] at concluded
    obtain ⟨-, rfl⟩ := Prod.mk.inj concluded
    refine ⟨?_, keeps.stored_cons other⟩
    intro id h k value ttl found
    dsimp only [Depot.spawn] at found
    rw [Assoc.get?_insert] at found
    split at found
    · cases found
      exact ⟨_, rfl⟩
    · exact keeps.tasks id h k value ttl found
  · have unchanged : d = t.depot := by
      rw [ResponseCache.conclude] at concluded
      split at concluded
      · rename_i reads
        have lost : ∀ text, ¬ c.Keeps given text := fun text keeps => kept ⟨reads, text, keeps⟩
        have same := ResponseCache.snd_capture_of_not_keeps lost t.depot now h (ResponseCache.key r)
        rw [concluded] at same
        exact same
      · exact (congrArg Prod.snd concluded).symm
    exact keeps.of_tasks_eq (congrArg Depot.tasks unchanged) calls _ other

/-- An action starts no such task, and copies what a task was to store. -/
theorem act (keeps : t.KeepsWritten) (now : Nat) (a : Action) :
    KeepsWritten
      { t with depot := t.depot.act now a, notes := t.depot.copies now a ++ t.notes } where
  tasks := fun id h k value ttl found =>
    keeps.tasks id h k value ttl (Depot.get?_of_isStoring rfl found)
  stored := by
    intro time cell k value member
    rcases List.mem_append.mp member with new | old
    · rcases t.depot.copies_cases now a with none | ⟨id, h, key, value, ttl, -, waits, one⟩
      · rw [none] at new
        cases new
      · rw [one] at new
        cases List.mem_singleton.mp new
        exact keeps.tasks id h k value ttl waits
    · exact keeps.stored time cell k value old

theorem step (keeps : t.KeepsWritten) (c : ResponseCache) (now : Nat) (h : Happening) :
    (t.step c now h).KeepsWritten := by
  have cases := t.step_cases c now h
  generalize t.step c now h = t' at cases ⊢
  cases cases with
  | @hit r answer d reads found =>
    have changes := ResponseCache.changes_lookup t.depot now (t.depot.getCache c.store)
      (ResponseCache.key r)
    rw [found] at changes
    exact keeps.of_tasks_eq changes.keeps.1 _ _ nofun
  | @call r d missed =>
    have changes := ResponseCache.changes_receive c now r t.depot
    rw [missed] at changes
    exact keeps.of_tasks_eq changes.keeps.1 _ _ nofun
  | answer bound concluded => exact keeps.conclude concluded _ _
  | ignore => exact keeps
  | act => exact keeps.act now _

theorem run (keeps : t.KeepsWritten) (c : ResponseCache) (happenings : List (Nat × Happening)) :
    (t.run c happenings).KeepsWritten := by
  induction happenings generalizing t with
  | nil => exact keeps
  | cons first rest ih => exact ih (keeps.step c first.1 first.2)

end KeepsWritten

/-- A response is read back as it was from the value and from the text that it is written as, with
the fields in either order. Whatever goes on behind a cache, and whoever else writes to the stores,
all that is put there in the background is written of a response; and a read that finds it live,
then or later, is answered with this response and leaves the entry where it is. -/
theorem kept_responses_read_back (c : ResponseCache) {d : Depot}
    (idle : ∀ id h k value ttl, d.tasks.get? id ≠ some (.storing h k value ttl))
    (happenings : List (Nat × Happening)) :
    (∀ kept : CachedResponse,
      CachedResponse.ofJson? kept.toJson = some kept ∧
      CachedResponse.ofJson? kept.toJson.canonical = some kept ∧
      CachedResponse.ofText kept.toJson.text = .ok kept ∧
      CachedResponse.ofText kept.toJson.canonical.text = .ok kept) ∧
    ∀ time cell k value,
      .stored time cell k value ∈ (run c { depot := d } happenings).notes →
      ∃ kept : CachedResponse, value = kept.toJson.canonical ∧
        ∀ (d' : Depot) (now : Nat) (h : Handle) (e : Entry),
          (d'.store h.cell).peek now k = some e → e.value = value →
          lookup d' now h k = (some kept.hitResponse, (d'.getKey now h k).2) ∧
          ((d'.getKey now h k).2.store h.cell).entries.get? k = some (e.touch now) := by
  refine ⟨?_, ?_⟩
  · intro kept
    have own := kept.numbersIn_toJson
    have value := kept.read_toJson
    have sorted := CachedResponse.read_eq_ok_of_ofJson? kept.ofJson?_canonical_toJson
    exact ⟨by rw [CachedResponse.ofJson?, value]; rfl, kept.ofJson?_canonical_toJson,
      CachedResponse.ofText_text own value,
      CachedResponse.ofText_text (fun n inside => own n inside.of_canonical) sorted⟩
  · intro time cell k value member
    have start : KeepsWritten { depot := d } :=
      ⟨fun id h k value ttl bound => absurd bound (idle id h k value ttl),
        fun _ _ _ _ member => absurd member List.not_mem_nil⟩
    obtain ⟨kept, rfl⟩ := (start.run c happenings).stored time cell k value member
    refine ⟨kept, rfl, ?_⟩
    intro d' now h e live written
    exact ⟨ResponseCache.lookup_of_written live written, Depot.get?_getKey_of_live live⟩

/-- A response with the largest status, the earliest time, and characters that are escaped or take
four bytes. -/
def strangeResponse : CachedResponse where
  status := 65535
  body := "\"\\/\x01\n\x7f😀"
  contentType := some "text/é"
  timestamp := Int64.minValue

/-- The strange response is read back, and so is what is stored when a page is kept. -/
theorem mixedRequests_read_back :
    let notes := (run briefCache { depot := .forQueue 10 3 } mixedRequests).notes
    (∀ id h k value ttl,
      (Depot.forQueue 10 3).tasks.get? id ≠ some (.storing h k value ttl)) ∧
    CachedResponse.ofText strangeResponse.toJson.text = .ok strangeResponse ∧
    ∃ k value, .stored 3 0 k value ∈ notes ∧
      ∃ kept : CachedResponse, value = kept.toJson.canonical ∧
        ∀ (d' : Depot) (now : Nat) (h : Handle) (e : Entry),
          (d'.store h.cell).peek now k = some e → e.value = value →
          lookup d' now h k = (some kept.hitResponse, (d'.getKey now h k).2) ∧
          ((d'.getKey now h k).2.store h.cell).entries.get? k = some (e.touch now) := by
  intro notes
  have idle : ∀ id h k value ttl,
      (Depot.forQueue 10 3).tasks.get? id ≠ some (.storing h k value ttl) := by
    intro id h k value ttl bound
    cases (Assoc.get?_empty id).symm.trans bound
  have stored : (notes.any fun | .stored 3 0 _ _ => true | _ => false) = true := by
    decide +kernel
  obtain ⟨note, member, copy⟩ := List.any_eq_true.mp stored
  split at copy
  · rename_i k value
    exact ⟨idle, ((kept_responses_read_back briefCache idle []).1 strangeResponse).2.2.1, k, value,
      member, (kept_responses_read_back briefCache idle mixedRequests).2 3 0 k value member⟩
  · cases copy

end Traffic
end CacheDepot
