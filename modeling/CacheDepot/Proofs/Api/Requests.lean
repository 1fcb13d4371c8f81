import CacheDepot.Api.Service
import CacheDepot.Proofs.Depot.Frame

/-!
# What requests about stores ask for

A well-formed request about a store stands for one operation on the store that its name leads to,
with the decoded key as a text under no namespace, and the answer says what the operation has
answered. No such request is answered from the response cache.
-/

namespace CacheDepot.Api

open Http (Request Response)

/-! ## Paths -/

namespace Resource

/-- The path of a store. -/
def storePath (store : String) : String := "/caches/" ++ store

/-- The path of a key. -/
def keyPath (store key : String) : String := "/caches/" ++ store ++ "/" ++ key

theorem segments_of_not_mem {cs : List Char} (whole : '/' ∉ cs) : segments cs = [cs] := by
  induction cs with
  | nil => rfl
  | cons c rest ih =>
    rw [List.mem_cons, not_or] at whole
    obtain ⟨differs, whole⟩ := whole
    rw [segments, ih whole]
    exact fun same => differs same.symm

theorem segments_append {cs : List Char} (whole : '/' ∉ cs) (rest : List Char) :
    segments (cs ++ '/' :: rest) = cs :: segments rest := by
  induction cs with
  | nil => rfl
  | cons c more ih =>
    rw [List.mem_cons, not_or] at whole
    obtain ⟨differs, whole⟩ := whole
    rw [List.cons_append, segments, ih whole]
    exact fun same => differs same.symm

theorem segments_caches (rest : List Char) :
    segments ("/caches/".toList ++ rest) = [] :: "caches".toList :: segments rest := by
  have split : "/caches/".toList ++ rest = [] ++ '/' :: ("caches".toList ++ '/' :: rest) := rfl
  rw [split, segments_append List.not_mem_nil, segments_append (by decide)]

theorem ofPath?_storePath {store : String} (whole : '/' ∉ store.toList) (named : store ≠ "") :
    ofPath? (storePath store) = some (.store store) := by
  have parts : segments (storePath store).toList = [[], "caches".toList, store.toList] := by
    rw [storePath, String.toList_append, segments_caches, segments_of_not_mem whole]
  rw [ofPath?, parts]
  simp [named]

theorem ofPath?_keyPath {store key : String} (whole : '/' ∉ store.toList)
    (whole' : '/' ∉ key.toList) (named : key ≠ "") :
    ofPath? (keyPath store key) = some (.key store key) := by
  have parts : segments (keyPath store key).toList =
      [[], "caches".toList, store.toList, key.toList] := by
    have slash : "/".toList ++ key.toList = '/' :: key.toList := rfl
    rw [keyPath, String.toList_append, String.toList_append, String.toList_append,
      List.append_assoc, List.append_assoc, slash, segments_caches, segments_append whole,
      segments_of_not_mem whole']
  rw [ofPath?, parts]
  simp [named]

end Resource

/-! ## Errands -/

/-- What a request about a store asks for. -/
inductive Errand where
  | get (store key : String)
  | set (store key : String) (payload : SetRequest)
  | delete (store key : String)
  | warm (store : String) (payload : WarmRequest)

/-- Whether a name in a path spells a text. -/
structure Spells (written text : String) : Prop where
  whole : '/' ∉ written.toList
  decoded : Http.Percent.decode? written = some text

/-- Whether a request is a well-formed one for an errand. -/
inductive Asks (r : Request) : Errand → Prop
  | get {s k store key : String} (path : r.target.path = Resource.keyPath s k)
      (within : Spells s store) (spells : Spells k key) (named : k ≠ "")
      (method : r.method = "GET") : Asks r (.get store key)
  | set {s k store key : String} {payload : SetRequest}
      (path : r.target.path = Resource.keyPath s k) (within : Spells s store)
      (spells : Spells k key) (named : k ≠ "") (method : r.method = "PUT")
      (readable : readPayload SetRequest.read r = .ok payload) : Asks r (.set store key payload)
  | delete {s k store key : String} (path : r.target.path = Resource.keyPath s k)
      (within : Spells s store) (spells : Spells k key) (named : k ≠ "")
      (method : r.method = "DELETE") : Asks r (.delete store key)
  | warm {s store : String} {payload : WarmRequest}
      (path : r.target.path = Resource.storePath s) (spells : Spells s store) (named : s ≠ "")
      (method : r.method = "POST") (readable : readPayload WarmRequest.read r = .ok payload) :
      Asks r (.warm store payload)

namespace Errand

/-- The name of the store that an errand is about. -/
def store : Errand → String
  | .get store _ | .set store _ _ | .delete store _ | .warm store _ => store

/-- The operation of an errand, unless it is refused. -/
def operation? : Errand → Option Operation
  | .get store key => some (.get (.named store) (.derive none (.text key)))
  | .set store key payload =>
    some (.set (.named store) (.derive none (.text key)) payload.value payload.ttl)
  | .delete store key => some (.delete (.named store) (.derive none (.text key)))
  | .warm store payload =>
    if payload.problem?.isNone then some (.warm store payload.items) else none

/-- The answer to an errand: what its operation has answered, with the real name of the store, that
there is no such key, or why it is refused. -/
def reply (name : String) : Errand → Option Answer → Response
  | .get _ key, some (.found (some value)) => .json 200 (getReply name key value)
  | .set _ key _, some (.outcome outcome) =>
    .json 200 (setReply name key (outcome.evicted.map CacheKey.text))
  | .delete _ key, some (.flag true) => .json 200 (deleteReply key)
  | .warm _ _, some (.count warmed) => .json 200 (warmReply name warmed)
  | .get _ key, _ | .set _ key _, _ | .delete _ key, _ =>
    .json 404 (errorReply ("Key not found: " ++ key))
  | .warm _ payload, _ =>
    .json 400 (errorReply ("Invalid request: " ++ (payload.problem?.map (·.text)).getD ""))

/-- Carries the operation of an errand out, and answers the errand. -/
def fulfil (now : Nat) (e : Errand) (d : Depot) : Response × Depot :=
  let name := (d.getCache e.store).name
  match e.operation? with
  | some operation =>
    match d.start now operation with
    | (.answered answer, d) => (e.reply name (some answer), d)
    | (.waits _, d) => (e.reply name none, d)
  | none => (e.reply name none, d)

end Errand

/-! ## One request -/

section Answers

variable (now : Nat) (store key : String) (r : Request) (d : Depot)

theorem fulfil_get :
    (Errand.get store key).fulfil now d =
      ((Errand.get store key).reply (d.getCache store).name
          (some (.found (d.getKey now (d.getCache store) (pathKey key)).1)),
        (d.getKey now (d.getCache store) (pathKey key)).2) := rfl

theorem fulfil_set (payload : SetRequest) :
    (Errand.set store key payload).fulfil now d =
      ((Errand.set store key payload).reply (d.getCache store).name
          (some (.outcome
            (d.setKey now (d.getCache store) (pathKey key) payload.value payload.ttl).1)),
        (d.setKey now (d.getCache store) (pathKey key) payload.value payload.ttl).2) := rfl

theorem fulfil_delete :
    (Errand.delete store key).fulfil now d =
      ((Errand.delete store key).reply (d.getCache store).name
          (some (.flag (d.deleteKey (d.getCache store) (pathKey key)).1)),
        (d.deleteKey (d.getCache store) (pathKey key)).2) := rfl

theorem fulfil_warm_of_accepted {payload : WarmRequest} (accepted : payload.problem? = none) :
    (Errand.warm store payload).fulfil now d =
      ((Errand.warm store payload).reply (d.getCache store).name
          (some (.count payload.items.length)),
        (d.warm now store payload.items).2) := by
  rw [Errand.fulfil, Errand.operation?, accepted]
  rfl

theorem fulfil_warm_of_refused {payload : WarmRequest} {problem : WarmProblem}
    (refused : payload.problem? = some problem) :
    (Errand.warm store payload).fulfil now d =
      ((Errand.warm store payload).reply (d.getCache store).name none, d) := by
  rw [Errand.fulfil, Errand.operation?, refused]
  rfl

theorem answerGet_eq : answerGet now store key d = (Errand.get store key).fulfil now d := by
  rw [fulfil_get, answerGet]
  generalize d.getKey now (d.getCache store) (pathKey key) = result
  obtain ⟨value, d'⟩ := result
  cases value <;> rfl

theorem answerSet_eq {payload : SetRequest}
    (readable : readPayload SetRequest.read r = .ok payload) :
    answerSet now store key r d = (Errand.set store key payload).fulfil now d := by
  rw [answerSet, readable]
  rfl

theorem answerDelete_eq : answerDelete store key d = (Errand.delete store key).fulfil now d := by
  rw [fulfil_delete, answerDelete]
  generalize d.deleteKey (d.getCache store) (pathKey key) = result
  obtain ⟨found, d'⟩ := result
  cases found <;> rfl

theorem getCache_warm (name : String) (items : List WarmItem) :
    (d.warm now name items).2.getCache name = d.getCache name :=
  congrArg (fun registry => (registry.resolve name).handle)
    (Depot.StoresOnly.warm d now name items).registry

theorem answerWarm_eq {payload : WarmRequest}
    (readable : readPayload WarmRequest.read r = .ok payload) :
    answerWarm now store r d = (Errand.warm store payload).fulfil now d := by
  rw [answerWarm, readable]
  dsimp only
  cases problem : payload.problem? with
  | none =>
    rw [fulfil_warm_of_accepted now store d problem]
    dsimp only
    rw [getCache_warm]
    rfl
  | some reason =>
    have refused : (Errand.warm store payload).reply (d.getCache store).name none =
        .ofError (.invalidRequest reason.text) := by
      simp only [Errand.reply, problem]
      rfl
    rw [fulfil_warm_of_refused now store d problem, refused]

end Answers

/-- The call that an errand is. -/
def Errand.call : Errand → Call
  | .get store key => .get store key
  | .set store key _ => .set store key
  | .delete store key => .delete store key
  | .warm store _ => .warm store

theorem Spells.onKey {s k store key : String} (within : Spells s store) (spells : Spells k key)
    (call : String → String → Call) : Routing.onKey s k call = .call (call store key) := by
  rw [Routing.onKey, within.decoded, spells.decoded]

namespace Asks

variable {r : Request} {e : Errand}

/-- A well-formed request is led to the call that its errand is. -/
theorem exists_routing (asks : Asks r e) :
    ∃ resource, Resource.ofPath? r.target.path = some resource ∧
      Routing.of r.method resource = .call e.call ∧
      r.method ≠ "OPTIONS" ∧ r.method ≠ "HEAD" := by
  cases asks with
  | get path within spells named method =>
    refine ⟨_, path ▸ Resource.ofPath?_keyPath within.whole spells.whole named, ?_⟩
    rw [method, Routing.of, if_pos (.inl rfl), within.onKey spells]
    exact ⟨rfl, by decide, by decide⟩
  | set path within spells named method readable =>
    refine ⟨_, path ▸ Resource.ofPath?_keyPath within.whole spells.whole named, ?_⟩
    rw [method, Routing.of, if_neg (by decide), if_pos rfl, within.onKey spells]
    exact ⟨rfl, by decide, by decide⟩
  | delete path within spells named method =>
    refine ⟨_, path ▸ Resource.ofPath?_keyPath within.whole spells.whole named, ?_⟩
    rw [method, Routing.of, if_neg (by decide), if_neg (by decide), if_pos rfl,
      within.onKey spells]
    exact ⟨rfl, by decide, by decide⟩
  | warm path spells named method readable =>
    refine ⟨_, path ▸ Resource.ofPath?_storePath spells.whole named, ?_⟩
    rw [method, Routing.of, if_pos rfl, Routing.onStore, spells.decoded]
    exact ⟨rfl, by decide, by decide⟩

theorem answerCall_eq (asks : Asks r e) (now : Nat) (d : Depot) :
    answerCall now e.call r d = e.fulfil now d := by
  cases asks with
  | get path within spells named method => exact answerGet_eq now _ _ d
  | set path within spells named method readable => exact answerSet_eq now _ _ r d readable
  | delete path within spells named method => exact answerDelete_eq now _ _ d
  | warm path spells named method readable => exact answerWarm_eq now _ r d readable

/-- A well-formed request about a store is answered as its errand is, with or without a response
cache. -/
theorem serve_eq (asks : Asks r e) (cache? : Option ResponseCache) (now : Nat) (d : Depot) :
    serve cache? now r d = (openToAll (e.fulfil now d).1, (e.fulfil now d).2) := by
  obtain ⟨resource, path, routed, notOptions, notHead⟩ := asks.exists_routing
  have dispatched : dispatch cache? now e.call r d = e.fulfil now d := by
    have whole (response : Response) : withoutBody r.method response = response :=
      if_neg notHead
    rw [← asks.answerCall_eq]
    cases e <;> exact Prod.ext (whole _) rfl
  rw [serve, path]
  dsimp only
  rw [if_neg notOptions, answerResource, routed]
  dsimp only
  rw [dispatched]

end Asks
end CacheDepot.Api
