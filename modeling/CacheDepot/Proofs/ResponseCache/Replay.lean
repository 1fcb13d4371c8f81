import CacheDepot.Depot.Registry
import CacheDepot.Proofs.Depot.ActionEffects
import CacheDepot.ResponseCache

/-!
# Responses that are given again

What is kept of a response is written as a value and read back whole, so a read that finds the
entry made for a response is answered with its status and its text. Of the content type only what
can be read as text is kept, and without one the answer is plain text.
-/

namespace CacheDepot
open Json (Draft Fault)

namespace CachedResponse

/-! ## Writing and reading -/

theorem canonical_toJson (kept : CachedResponse) :
    kept.toJson.canonical = .object [("body", .string kept.body),
      ("content_type", .ofText? kept.contentType), ("status", .ofNat kept.status.toNat),
      ("timestamp", .ofInt kept.timestamp.toInt)] := by
  have plain : (Json.ofText? kept.contentType).canonical = .ofText? kept.contentType := by
    cases kept.contentType <;> rfl
  have bodyFirst : "body" < "status" := by decide
  have typeNext : ¬ "content_type" < "body" ∧ "content_type" < "status" := by decide
  have timeLast : ¬ "timestamp" < "body" ∧ ¬ "timestamp" < "content_type" ∧
      ¬ "timestamp" < "status" := by decide
  have differ : "content_type" ≠ "body" ∧ "timestamp" ≠ "body" ∧ "timestamp" ≠ "content_type" ∧
      "timestamp" ≠ "status" := by decide
  simp only [toJson, Json.canonical, Json.canonicalFields, plain, Json.ofNat, Json.ofInt,
    Json.ofFields, Ordered.ofList, List.foldl, Ordered.insert, bodyFirst, typeNext, timeLast,
    differ, if_true, if_false]

section Fields

variable (fields : Fields)

theorem put_status (status : UInt16) :
    shape.put 0 (.ofJson (.ofNat status.toNat)) fields =
      .ok { fields with status := some status } := by
  have bound : (status.toNat : Int) ≤ 65535 := by
    have := status.toNat_lt
    omega
  have same : UInt16.ofNat (status.toNat : Int).toNat = status := UInt16.ofNat_toNat
  simp only [shape, Json.ofNat]
  rw [← Json.ofInt, Draft.integer_ofJson (Int.natCast_nonneg _) bound]
  exact congrArg (fun s => Except.ok { fields with status := some s }) same

theorem put_timestamp (timestamp : Int64) :
    shape.put 3 (.ofJson (.ofInt timestamp.toInt)) fields =
      .ok { fields with timestamp := some timestamp } := by
  simp only [shape]
  rw [Draft.integer_ofJson timestamp.minValue_le_toInt timestamp.toInt_le]
  exact congrArg (fun t => Except.ok { fields with timestamp := some t }) timestamp.ofInt_toInt

theorem put_body (body : String) :
    shape.put 1 (.ofJson (.string body)) fields = .ok { fields with body := some body } := rfl

theorem put_contentType (contentType : Option String) :
    shape.put 2 (.ofJson (.ofText? contentType)) fields =
      .ok { fields with contentType := some contentType } := by
  cases contentType <;> rfl

end Fields

/-- What is written of a response is read back whole. -/
theorem ofJson?_canonical_toJson (kept : CachedResponse) :
    ofJson? kept.toJson.canonical = some kept := by
  have fields : shape.read {} (.ofJson kept.toJson.canonical) =
      .ok ⟨some kept.status, some kept.body, some kept.contentType, some kept.timestamp⟩ := by
    rw [canonical_toJson, Draft.ofJson, Draft.RecordShape.read]
    simp only [Draft.ofFields]
    rw [Draft.RecordShape.readFields_cons (by decide) (by decide) (put_body {} kept.body),
      Draft.RecordShape.readFields_cons (by decide) (by decide)
        (put_contentType _ kept.contentType),
      Draft.RecordShape.readFields_cons (by decide) (by decide) (put_status _ kept.status),
      Draft.RecordShape.readFields_cons (by decide) (by decide) (put_timestamp _ kept.timestamp)]
    rfl
  rw [ofJson?, read, fields]
  rfl

end CachedResponse

/-! ## Keeping -/

/-- What can be read as text may stand in a header. -/
theorem Http.isFieldValue_of_isReadable {value : String} (readable : Http.isReadable value = true) :
    Http.isFieldValue value = true := by
  rw [Http.isReadable, List.all_eq_true] at readable
  rw [Http.isFieldValue, List.all_eq_true]
  intro c member
  have visible := readable c member
  simp only [Bool.or_eq_true, Bool.and_eq_true, decide_eq_true_eq] at visible ⊢
  rcases visible with tab | ⟨above, below⟩
  · exact .inl tab
  · exact .inr ⟨above, by omega⟩

namespace ResponseCache

open Http (Request Response Body)

variable {c : ResponseCache} {d d' : Depot} {now : Nat} {r : Request} {given : Response}
  {text : String}

/-- Whether a cache keeps a response, with this text: a success of announced and moderate size, the
body of which can be read and is a text. -/
structure Keeps (c : ResponseCache) (given : Response) (text : String) : Prop where
  cacheable : c.isCacheable given = true
  read : given.body.read c.maxBodyBytes = .ok given.body.data
  decodes : String.fromUTF8? given.body.data = some text

theorem data_of_read {body : Body} {limit : Nat} {data : ByteArray}
    (read : body.read limit = .ok data) : data = body.data := by
  rw [Body.read] at read
  split at read
  · cases read
  · split at read <;> cases read
    rfl

/-- A success with a text as its body is kept unless it is too long. -/
theorem keeps_of_text (success : given.isSuccess = true) (body : given.body = .ofText text)
    (fits : text.toUTF8.size ≤ c.maxBodyBytes) : c.Keeps given text where
  cacheable := by
    rw [isCacheable, success, body]
    exact decide_eq_true fits
  read := by
    rw [body]
    exact if_neg (Nat.not_lt_of_le fits)
  decodes := by
    rw [body]
    exact dif_pos text.isValidUTF8

/-- A response that is kept is answered from its bytes, and a task is to put it into the store. -/
theorem Keeps.capture_eq (keeps : c.Keeps given text) (d : Depot) (now : Nat) (h : Handle)
    (k : CacheKey) :
    c.capture d now h k given =
      (markMiss { given with body := .ofBytes given.body.data },
        (d.spawn (.storing h k (keep now given text).toJson.canonical c.ttl)).2) := by
  rw [capture, if_pos keeps.cacheable, keeps.read]
  dsimp only
  rw [keeps.decodes]

/-- A response that is not kept leaves everything as it is. -/
theorem snd_capture_of_not_keeps (lost : ∀ text, ¬ c.Keeps given text) (d : Depot) (now : Nat)
    (h : Handle) (k : CacheKey) : (c.capture d now h k given).2 = d := by
  rw [capture]
  split
  · rename_i cacheable
    cases read : given.body.read c.maxBodyBytes with
    | error reason => rfl
    | ok data =>
      obtain rfl := data_of_read read
      dsimp only
      cases decodes : String.fromUTF8? given.body.data with
      | none => rfl
      | some text => exact absurd ⟨cacheable, read, decodes⟩ (lost text)
  · rfl

/-! ## Answering from the store -/

/-- A read is answered from the store when a live entry is a kept response. -/
theorem fst_lookup (d : Depot) (now : Nat) (h : Handle) (k : CacheKey) :
    (lookup d now h k).1 =
      ((d.store h.cell).peek now k).bind fun e =>
        (CachedResponse.ofJson? e.value).map CachedResponse.hitResponse := by
  have found : (d.getKey now h k).1 = ((d.store h.cell).peek now k).map Entry.value :=
    Store.fst_get (d.store h.cell) now k
  rw [lookup]
  generalize d.getKey now h k = result at found ⊢
  obtain ⟨stored, d'⟩ := result
  dsimp only at found ⊢
  cases live : (d.store h.cell).peek now k with
  | none =>
    rw [found, live]
    rfl
  | some e =>
    rw [found, live, Option.map_some]
    dsimp only
    rw [Option.bind_some]
    cases CachedResponse.ofJson? e.value <;> rfl

theorem serve_of_lookup {handler : Handler} {answer : Response} (reads : isRead r.method = true)
    (found : (lookup d now (d.getCache c.store) (key r)).1 = some answer) :
    c.serve now handler r d = (answer, (lookup d now (d.getCache c.store) (key r)).2) := by
  rw [serve, if_pos reads]
  dsimp only
  generalize lookup d now (d.getCache c.store) (key r) = result at found ⊢
  obtain ⟨kept, d'⟩ := result
  cases found
  rfl

theorem serve_of_lookup_none {handler : Handler} (reads : isRead r.method = true)
    (missing : (lookup d now (d.getCache c.store) (key r)).1 = none) :
    c.serve now handler r d =
      c.capture (handler r (lookup d now (d.getCache c.store) (key r)).2).2 now
        (d.getCache c.store) (key r)
        (handler r (lookup d now (d.getCache c.store) (key r)).2).1 := by
  rw [serve, if_pos reads]
  dsimp only
  generalize lookup d now (d.getCache c.store) (key r) = result at missing ⊢
  obtain ⟨kept, d'⟩ := result
  cases missing
  rfl

theorem status_hitResponse (success : given.isSuccess = true) :
    (keep now given text).hitResponse.status = given.status := by
  rw [Response.isSuccess, Bool.and_eq_true, decide_eq_true_eq, decide_eq_true_eq] at success
  obtain ⟨above, below⟩ := success
  have small : (UInt16.ofNat given.status).toNat = given.status := by
    rw [UInt16.toNat_ofNat']
    omega
  show Response.statusOf (UInt16.ofNat given.status).toNat = given.status
  rw [small, Response.statusOf, if_pos ⟨by omega, by omega⟩]

theorem body_hitResponse (decodes : String.fromUTF8? given.body.data = some text) :
    (keep now given text).hitResponse.body = .ofBytes given.body.data := by
  rw [String.fromUTF8?] at decodes
  split at decodes
  · cases decodes
    rfl
  · cases decodes

theorem contentType_hitResponse :
    (keep now given text).hitResponse.headers.values "content-type" =
      [(given.headers.text? "content-type").getD Response.textType] := by
  have fits : (given.headers.text? "content-type").filter Http.isFieldValue =
      given.headers.text? "content-type" := by
    rw [Http.Headers.text?, Option.filter_filter]
    congr 1
    funext value
    cases readable : Http.isReadable value with
    | false => simp
    | true => simp [Http.isFieldValue_of_isReadable readable]
  show [((given.headers.text? "content-type").filter Http.isFieldValue).getD _] = _
  rw [fits]

/-- What a task has put into a store is found as long as nothing else has come in its place. -/
theorem value_of_retained {h : Handle} {k : CacheKey} {value : Json} {ttl : Duration}
    {id stored : Nat} {s : Store} {e : Entry}
    (waits : d.tasks.get? id = some (.storing h k value ttl))
    (retained : ((d.act stored (.resume id)).store h.cell).Retains k s)
    (bound : s.entries.get? k = some e) : e.value = value := by
  obtain ⟨old, was, continues⟩ := retained e bound
  rw [Depot.act, Depot.resume, waits] at was
  rw [continues.value, d.get?_setKey stored h k value (some ttl) was]
  rfl

/-- What a task has put into a store is live until its time is over. -/
theorem peek_of_stored {h : Handle} {k : CacheKey} {value : Json} {ttl : Duration}
    {id : Nat} (waits : d.tasks.get? id = some (.storing h k value ttl)) (stored : Nat)
    {later : Nat} (inside : h.cell < d.stores.length)
    (early : later < timestampAfter stored ttl) :
    ((d.act stored (.resume id)).store h.cell).peek later k =
      some (.new stored value (some ttl)) := by
  have written : (d.act stored (.resume id)).store h.cell =
      ((d.store h.cell).set stored k value (some ttl)).2 := by
    rw [Depot.act, Depot.resume, waits]
    show (d.stores.set h.cell ((d.store h.cell).set stored k value (some ttl)).2).getD h.cell _ = _
    rw [List.getD_eq_getElem?_getD, List.getElem?_set_self inside, Option.getD_some]
  rw [written, Store.peek_eq_some_iff]
  exact ⟨Store.get?_set_self .., decide_eq_false (Nat.not_le_of_lt early)⟩

/-- A read that finds the entry made for a response is answered from what was kept of it. -/
theorem fst_lookup_of_stored {d'' : Depot} {later : Nat} {h h' : Handle} {k : CacheKey}
    (keeps : c.Keeps given text)
    (waits : d'.tasks.get? d.nextTask = (c.capture d now h k given).2.tasks.get? d.nextTask)
    (stored : Nat)
    (retained : ((d'.act stored (.resume d.nextTask)).store h.cell).Retains k (d''.store h.cell))
    (there : h'.cell = h.cell) (live : ((d''.store h.cell).peek later k).isSome = true) :
    (lookup d'' later h' k).1 = some (keep now given text).hitResponse := by
  rw [keeps.capture_eq, Depot.spawn, Assoc.get?_insert_self] at waits
  obtain ⟨e, found⟩ := Option.isSome_iff_exists.mp live
  have value := value_of_retained waits retained (Store.peek_eq_some_iff.mp found).1
  rw [fst_lookup, there, found, Option.bind_some, value, CachedResponse.ofJson?_canonical_toJson,
    Option.map_some]

/-- A response that a cache keeps is put into the store some time after it was given. Whenever a
later read finds the entry made for it, the read is answered without its handler, with the status
and the bytes of the response. It has the content type of the response if that is readable as
text, and that of a plain text if not or if the response had none. -/
theorem serve_of_stored_response {d'' : Depot} {later : Nat} {h : Handle} {r' : Request}
    (keeps : c.Keeps given text)
    (waits : d'.tasks.get? d.nextTask = (c.capture d now h (key r) given).2.tasks.get? d.nextTask)
    (stored : Nat)
    (retained : ((d'.act stored (.resume d.nextTask)).store h.cell).Retains (key r)
      (d''.store h.cell))
    (reads : isRead r'.method = true) (same : key r' = key r)
    (there : (d''.getCache c.store).cell = h.cell)
    (live : ((d''.store h.cell).peek later (key r)).isSome = true) (handler : Handler) :
    let answer := (c.serve later handler r' d'').1
    answer.headers.values cacheMark = ["HIT"] ∧
    answer.status = given.status ∧
    answer.body = .ofBytes given.body.data ∧
    answer.headers.values "content-type" =
      [(given.headers.text? "content-type").getD Response.textType] ∧
    (c.serve later handler r' d'').2 = (lookup d'' later (d''.getCache c.store) (key r')).2 := by
  have answered : (lookup d'' later (d''.getCache c.store) (key r')).1 =
      some (keep now given text).hitResponse :=
    same ▸ fst_lookup_of_stored keeps waits stored retained there live
  have success : given.isSuccess = true := (Bool.and_eq_true_iff.mp keeps.cacheable).1
  rw [serve_of_lookup reads answered]
  exact ⟨rfl, status_hitResponse success, body_hitResponse keeps.decodes, contentType_hitResponse,
    rfl⟩

/-- A cache that keeps responses for a second in the store that is always there. -/
def briefCache : ResponseCache := { store := defaultName, ttl := .ofMillis 1000 }

/-- A read of the root. -/
def rootRead : Request := { target := ⟨"/", some "/"⟩ }

/-- The depot that was looked into for a first read. -/
def looked : Depot := (lookup (.forQueue 10 3) 0 ⟨defaultName, 0⟩ (key rootRead)).2

/-- The depot in which the response to a first read was kept. -/
def afterRead (given : Response) : Depot :=
  (briefCache.capture looked 0 ⟨defaultName, 0⟩ (key rootRead) given).2.act 0
    (.resume looked.nextTask)

theorem peek_afterRead (keeps : briefCache.Keeps given text) :
    (((afterRead given).store 0).peek 999 (key rootRead)).isSome = true := by
  have early : 999 < timestampAfter 0 briefCache.ttl := by decide
  have waits := Assoc.get?_insert_self looked.tasks looked.nextTask
    (.storing ⟨defaultName, 0⟩ (key rootRead) (keep 0 given text).toJson.canonical briefCache.ttl)
  have live := peek_of_stored (d := (looked.spawn _).2) waits 0 Nat.one_pos early
  rw [afterRead, keeps.capture_eq]
  exact Option.isSome_of_eq_some live

theorem cell_afterRead (keeps : briefCache.Keeps given text) :
    ((afterRead given).getCache defaultName).cell = 0 := by
  rw [afterRead, keeps.capture_eq]
  rfl

/-- What a second read is answered, just before the time of the first response is over. -/
def answerAgain (given : Response) : Response :=
  (briefCache.serve 999 (fun _ d => (.plain 500 "", d)) rootRead (afterRead given)).1

/-- A page with a content type is given again as it was. -/
theorem answerAgain_replays_page :
    let page : Response := .json 203 (.string "page")
    briefCache.Keeps page (Json.string "page").text ∧
      (answerAgain page).status = 203 ∧ (answerAgain page).body = .ofBytes page.body.data ∧
      (answerAgain page).headers.values "content-type" = ["application/json"] := by
  intro page
  have keeps : briefCache.Keeps page (Json.string "page").text := keeps_of_text rfl rfl (by decide)
  have live := peek_afterRead keeps
  have there := cell_afterRead keeps
  obtain ⟨-, status, body, contentType, -⟩ :=
    serve_of_stored_response (d := looked) (h := ⟨defaultName, 0⟩) (r := rootRead) keeps rfl 0
      (by exact .refl _ _) rfl rfl there live (fun _ d => (.plain 500 "", d))
  rw [answerAgain]
  exact ⟨keeps, status, body, contentType⟩

theorem answerAgain_eq (keeps : briefCache.Keeps given text) :
    answerAgain given = (keep 0 given text).hitResponse := by
  have live := peek_afterRead keeps
  have there := cell_afterRead keeps
  have found : (lookup (afterRead given) 999 ((afterRead given).getCache defaultName)
      (key rootRead)).1 = some (keep 0 given text).hitResponse :=
    fst_lookup_of_stored (d := looked) (h := ⟨defaultName, 0⟩) keeps rfl 0 (.refl _ _) there live
  exact congrArg Prod.fst (serve_of_lookup (c := briefCache) rfl found)

/-- A page without a content type, and one with a content type that is not readable as text: both
are given again as plain text. -/
theorem answerAgain_changes_contentType :
    let untyped : Response := { body := .ofText "page" }
    let typed : Response := { untyped with headers := [("content-type", "é")] }
    briefCache.Keeps untyped "page" ∧ untyped.headers.values "content-type" = [] ∧
      (answerAgain untyped).headers.values cacheMark = ["HIT"] ∧
      (answerAgain untyped).headers.values "content-type" = ["text/plain; charset=utf-8"] ∧
    briefCache.Keeps typed "page" ∧ typed.headers.values "content-type" = ["é"] ∧
      (answerAgain typed).headers.values cacheMark = ["HIT"] ∧
      (answerAgain typed).headers.values "content-type" = ["text/plain; charset=utf-8"] := by
  intro untyped typed
  have small : "page".toUTF8.size ≤ briefCache.maxBodyBytes := by decide
  have keeps : briefCache.Keeps untyped "page" := keeps_of_text rfl rfl small
  have keeps' : briefCache.Keeps typed "page" := keeps_of_text rfl rfl small
  have absent : untyped.headers.text? "content-type" = none := rfl
  have unreadable : typed.headers.text? "content-type" = none := by decide
  rw [answerAgain_eq keeps, answerAgain_eq keeps', contentType_hitResponse, contentType_hitResponse,
    absent, unreadable]
  exact ⟨keeps, rfl, rfl, rfl, keeps', rfl, rfl, rfl⟩

end ResponseCache
end CacheDepot
