import CacheDepot.Proofs.Depot.TaskOrigins
import CacheDepot.Proofs.ResponseCache.Traffic

/-!
# Where answers from a store come from

When nothing but a cache writes to its store, every answer from the store goes back to a read that
missed before, and the response to it was put into the store for a time that is not over. Entries
can leave the store in any way and at any time.
-/

namespace CacheDepot

open Http (Request Response)
open ResponseCache (isRead briefCache rootRead)

/-! ## Marks -/

namespace ResponseCache

variable {c : ResponseCache} {now : Nat} {d : Depot} {given : Response} {h : Handle} {k : CacheKey}

theorem values_markMiss (given : Response) :
    (markMiss given).headers.values cacheMark = ["MISS"] := by
  rw [markMiss, Http.Headers.set, Http.Headers.values, List.filter_append,
    List.filter_eq_nil_iff.mpr (by simp)]
  rfl

/-- The answer to a read that missed is not marked as a hit. -/
theorem values_capture_ne_hit (c : ResponseCache) (d : Depot) (now : Nat) (h : Handle)
    (k : CacheKey) (given : Response) :
    (c.capture d now h k given).1.headers.values cacheMark ≠ ["HIT"] := by
  have missed : ∀ given : Response, (markMiss given).headers.values cacheMark ≠ ["HIT"] := by
    intro given
    rw [values_markMiss]
    decide
  rw [capture]
  split
  · cases given.body.read c.maxBodyBytes with
    | error reason => exact (List.cons_ne_nil _ _).symm
    | ok data =>
      dsimp only
      cases String.fromUTF8? data with
      | none => exact missed _
      | some text => exact missed _
  · exact missed _

theorem values_of_lookup {answer : Response} (found : (lookup d now h k).1 = some answer) :
    answer.headers.values cacheMark = ["HIT"] := by
  rw [fst_lookup] at found
  obtain ⟨e, -, read⟩ := Option.bind_eq_some_iff.mp found
  obtain ⟨kept, -, rfl⟩ := Option.map_eq_some_iff.mp read
  rfl

/-- A look into a store brings nothing into any store and leaves all tasks alone. -/
theorem changes_lookup (d : Depot) (now : Nat) (h : Handle) (k : CacheKey) :
    d.Changes [] (lookup d now h k).2 := by
  have read : d.Changes [] (d.getKey now h k).2 := .getKey d now h k
  rw [lookup]
  generalize d.getKey now h k = result at read ⊢
  obtain ⟨stored, d'⟩ := result
  cases stored with
  | none => exact read
  | some value =>
    dsimp only
    cases CachedResponse.ofJson? value with
    | some kept => exact read
    | none => exact read.trans (.deleteKey d' h k)

theorem changes_receive (c : ResponseCache) (now : Nat) (r : Request) (d : Depot) :
    d.Changes [] (c.receive now r d).2 := by
  rw [receive]
  split
  · exact changes_lookup d now _ _
  · exact .refl d

/-- Whether notes tell of a read with this key that missed, and of which this was kept. -/
def Missed (c : ResponseCache) (k : CacheKey) (value : Json) (notes : List Note) : Prop :=
  ∃ number time r given text answer,
    .answered number time r (some given) answer ∈ notes ∧
    isRead r.method = true ∧ key r = k ∧ answer.headers.values cacheMark = ["MISS"] ∧
    c.Keeps given text ∧ value = (keep time given text).toJson.canonical

/-- Whether notes tell that this was put into the store in a cell at that time, and that it was kept
of the response to a read with this key that had missed before. -/
def StoredFrom (c : ResponseCache) (cell stored : Nat) (k : CacheKey) (value : Json)
    (notes : List Note) : Prop :=
  ∃ older, .stored stored cell k value :: older <:+ notes ∧ c.Missed k value older

theorem Missed.append {value : Json} {notes : List Note} (missed : c.Missed k value notes)
    (more : List Note) : c.Missed k value (more ++ notes) := by
  obtain ⟨number, time, r, given, text, answer, member, rest⟩ := missed
  exact ⟨number, time, r, given, text, answer, List.mem_append_right _ member, rest⟩

theorem StoredFrom.append {cell stored : Nat} {value : Json} {notes : List Note}
    (source : c.StoredFrom cell stored k value notes) (more : List Note) :
    c.StoredFrom cell stored k value (more ++ notes) := by
  obtain ⟨older, suffix, missed⟩ := source
  exact ⟨older, suffix.trans (List.suffix_append _ _), missed⟩

/-- Whether an entry under this key of the store in a cell is what was put there at a time that is
past, for the time to live of the cache. -/
def HasSource (c : ResponseCache) (cell clock : Nat) (k : CacheKey) (notes : List Note)
    (e : Entry) : Prop :=
  ∃ stored, stored ≤ clock ∧ e.expiresAt = some (timestampAfter stored c.ttl) ∧
    c.StoredFrom cell stored k e.value notes

end ResponseCache

/-! ## Where entries come from -/

namespace Traffic

/-- Where all that is found in the store in a cell comes from, and all that is to be put there. -/
structure Traced (c : ResponseCache) (cell clock : Nat) (t : Traffic) : Prop where
  tasks : ∀ id h k value ttl, t.depot.tasks.get? id = some (.storing h k value ttl) →
    h.cell = cell → ttl = c.ttl ∧ c.Missed k value t.notes
  entries : ∀ k e, (t.depot.store cell).entries.get? k = some e → c.HasSource cell clock k t.notes e

namespace Traced

variable {c : ResponseCache} {cell clock now : Nat} {t : Traffic}

/-- What stays in the store keeps its source, whatever else is noted. -/
theorem entries_of_retains (traced : t.Traced c cell clock) (later : clock ≤ now) {d : Depot}
    {k : CacheKey} (retains : (t.depot.store cell).Retains k (d.store cell)) (more : List Note)
    {e : Entry} (bound : (d.store cell).entries.get? k = some e) :
    c.HasSource cell now k (more ++ t.notes) e := by
  obtain ⟨old, was, same⟩ := retains e bound
  obtain ⟨stored, past, expires, source⟩ := traced.entries k old was
  refine ⟨stored, Nat.le_trans past later, same.expiresAt.trans expires, ?_⟩
  exact same.value ▸ source.append more

/-- An arrival brings nothing into the store. -/
theorem arrival (traced : t.Traced c cell clock) (later : clock ≤ now) {d : Depot}
    (changes : t.depot.Changes [] d) (calls : Assoc Nat Call) (nextNumber : Nat)
    (more : List Note) :
    Traced c cell now { depot := d, calls, nextNumber, notes := more ++ t.notes } where
  tasks := by
    intro id h k value ttl bound same
    rw [changes.keeps.1] at bound
    obtain ⟨sameTtl, missed⟩ := traced.tasks id h k value ttl bound same
    exact ⟨sameTtl, missed.append more⟩
  entries := by
    intro k e bound
    have retains := (changes.stems cell k).retains nofun
    exact traced.entries_of_retains later retains more bound

/-- When a handler has responded, a task is started to keep the response of a read, or nothing
is done. -/
theorem answer (traced : t.Traced c cell clock) (later : clock ≤ now) {call : Call}
    {given answer : Response} {d : Depot}
    (concluded : c.conclude now call.handle call.request given t.depot = (answer, d))
    (number : Nat) (calls : Assoc Nat Call) :
    Traced c cell now { t with
      depot := d
      calls
      notes := .answered number now call.request (some given) answer :: t.notes } := by
  rw [ResponseCache.conclude] at concluded
  by_cases reads : isRead call.request.method = true
  · rw [if_pos reads] at concluded
    by_cases keeps : ∃ text, c.Keeps given text
    · obtain ⟨text, keeps⟩ := keeps
      rw [keeps.capture_eq] at concluded
      obtain ⟨rfl, rfl⟩ := Prod.mk.inj concluded
      refine ⟨?_, ?_⟩
      · intro id h k value ttl found same
        dsimp only [Depot.spawn] at found
        rw [Assoc.get?_insert] at found
        split at found
        · cases found
          refine ⟨rfl, number, now, call.request, given, text, _, List.mem_cons_self, reads, rfl,
            ?_⟩
          exact ⟨ResponseCache.values_markMiss _, keeps, rfl⟩
        · obtain ⟨sameTtl, missed⟩ := traced.tasks id h k value ttl found same
          exact ⟨sameTtl, missed.append [_]⟩
      · intro k e found
        exact traced.entries_of_retains later (.refl k _) [_] found
    · have unchanged := ResponseCache.snd_capture_of_not_keeps (not_exists.mp keeps) t.depot now
        call.handle (ResponseCache.key call.request)
      rw [concluded] at unchanged
      exact traced.arrival later (unchanged ▸ .refl _) calls _ [_]
  · rw [if_neg reads] at concluded
    obtain ⟨-, rfl⟩ := Prod.mk.inj concluded
    exact traced.arrival later (.refl _) calls _ [_]

/-- A task that keeps a response puts it into the store. -/
theorem entries_of_copy (traced : t.Traced c cell clock) (later : clock ≤ now) {id : Nat}
    {h : Handle} {key k : CacheKey} {value : Json} {ttl : Duration}
    (waits : t.depot.tasks.get? id = some (.storing h key value ttl)) {e : Entry}
    (found : ((t.depot.act now (.resume id)).store cell).entries.get? k = some e) :
    c.HasSource cell now k (.stored now h.cell key value :: t.notes) e := by
  have written : (t.depot.act now (.resume id)).store cell =
      (t.depot.setKey now h key value (some ttl)).2.store cell := by
    rw [Depot.act, Depot.resume, waits]
    rfl
  rw [written] at found
  by_cases here : Write.isAt cell k ⟨h, key, value⟩ = true
  · obtain ⟨rfl, rfl⟩ := Depot.Write.isAt_iff.mp here
    obtain ⟨rfl, missed⟩ := traced.tasks id h key value ttl waits rfl
    rw [t.depot.get?_setKey now h key value _ found]
    exact ⟨now, Nat.le_refl _, rfl, t.notes, List.suffix_refl _, missed⟩
  · have stems : t.depot.Stems [⟨h, key, value⟩] cell k
        (t.depot.setKey now h key value (some ttl)).2 :=
      t.depot.stems_setKey now (List.mem_singleton_self _) (some ttl)
    have retains := stems.retains (by simpa using here)
    exact traced.entries_of_retains later retains [_] found

/-- An action puts into the store what a task was to keep, or nothing. -/
theorem act (traced : t.Traced c cell clock) (later : clock ≤ now) {a : Action}
    (own : t.owns c cell now (.acts a) = true) :
    Traced c cell now
      { t with depot := t.depot.act now a, notes := t.depot.copies now a ++ t.notes } where
  tasks := by
    intro id h k value ttl found same
    have before : t.depot.tasks.get? id = some (.storing h k value ttl) :=
      Depot.get?_of_isStoring rfl found
    obtain ⟨sameTtl, missed⟩ := traced.tasks id h k value ttl before same
    exact ⟨sameTtl, missed.append _⟩
  entries := by
    intro k e found
    rcases t.depot.copies_cases now a with none | ⟨id, h, key, value, ttl, rfl, waits, one⟩
    · have spared : ∀ w ∈ t.depot.writes now a, w.isAt cell k = false := by
        intro w member
        rw [owns, none] at own
        have elsewhere := List.all_eq_true.mp own w member
        simp only [decide_eq_true_eq] at elsewhere
        simp [Write.isAt, elsewhere]
      have retains := ((t.depot.turn_act now a).stems cell k).retains spared
      exact traced.entries_of_retains later retains _ found
    · rw [one]
      exact traced.entries_of_copy later waits found

theorem step (traced : t.Traced c cell clock) (later : clock ≤ now) {h : Happening}
    (own : t.owns c cell now h = true) : (t.step c now h).Traced c cell now := by
  have cases := t.step_cases c now h
  generalize t.step c now h = t' at cases ⊢
  cases cases with
  | @hit r answer d reads found =>
    have changes := ResponseCache.changes_lookup t.depot now (t.depot.getCache c.store)
      (ResponseCache.key r)
    rw [found] at changes
    exact traced.arrival later changes _ _ [_]
  | @call r d missed =>
    have changes := ResponseCache.changes_receive c now r t.depot
    rw [missed] at changes
    exact traced.arrival later changes _ _ [_]
  | answer bound concluded => exact traced.answer later concluded _ _
  | ignore => exact traced.arrival later (.refl _) _ _ []
  | act => exact traced.act later own

end Traced

end Traffic

/-! ## Answers -/

/-- Whether an answer from the store goes to a read and is marked as such, and an answer that a
handler has made is not, or is just what the handler has given if the request is no read. -/
def Note.IsMarked : Note → Prop
  | .answered _ _ r none answer =>
    isRead r.method = true ∧ answer.headers.values cacheMark = ["HIT"]
  | .answered _ _ r (some given) answer =>
    if isRead r.method then answer.headers.values cacheMark ≠ ["HIT"]
    else answer = given
  | _ => True

/-- Reads that are answered with a mark are those for which the handler was not called. -/
theorem Note.IsMarked.hit_iff {number time : Nat} {r : Request} {given : Option Response}
    {answer : Response} (marked : (Note.answered number time r given answer).IsMarked) :
    isRead r.method = true ∧ answer.headers.values cacheMark = ["HIT"] ↔
      given = none := by
  cases given with
  | none => exact ⟨fun _ => rfl, fun _ => marked⟩
  | some given =>
    refine ⟨?_, nofun⟩
    rintro ⟨reads, hit⟩
    rw [IsMarked, if_pos reads] at marked
    exact absurd hit marked

/-- Whether an answer from the store that a note tells of goes back to a read with the same key that
had missed, and comes within the time to live after the response to that was stored. -/
def Note.IsTraced (c : ResponseCache) (cell : Nat) (earlier : List Note) : Note → Prop
  | .answered _ time r none _ =>
    ∃ stored value, stored ≤ time ∧ time < stored + c.ttl.nanos / nanosPerMilli ∧
      c.StoredFrom cell stored (ResponseCache.key r) value earlier
  | _ => True

theorem Depot.isMarked_of_mem_copies {d : Depot} {now : Nat} {a : Action} {note : Note}
    (member : note ∈ d.copies now a) : note.IsMarked := by
  rcases d.copies_cases now a with none | ⟨id, h, key, value, ttl, -, -, one⟩
  · rw [none] at member
    cases member
  · rw [one] at member
    cases List.mem_singleton.mp member
    trivial

/-- A live entry is not older than the time to live it was stored with. -/
theorem lt_of_isExpired_eq_false {e : Entry} {now stored : Nat} {ttl : Duration}
    (live : e.isExpired now = false) (expires : e.expiresAt = some (timestampAfter stored ttl)) :
    now < stored + ttl.nanos / nanosPerMilli := by
  rw [Entry.isExpired, expires] at live
  have early : now < timestampAfter stored ttl := Nat.lt_of_not_le (of_decide_eq_false live)
  have cut : ttl.wholeMillis ≤ ttl.nanos / nanosPerMilli := Nat.mod_le _ _
  rw [timestampAfter] at early
  omega

namespace Traffic

variable {c : ResponseCache} {cell clock now : Nat} {t : Traffic} {h : Happening}

/-- Whether all notes are as they should be. -/
structure Sound (c : ResponseCache) (cell clock : Nat) (t : Traffic) : Prop where
  numbered : ∀ number, t.Numbered number
  traced : t.Traced c cell clock
  marked : ∀ note ∈ t.notes, note.IsMarked
  hits : ∀ note earlier, note :: earlier <:+ t.notes → note.IsTraced c cell earlier

theorem Step.isMarked {t' : Traffic} (h' : t.Step c now h t')
    (marked : ∀ note ∈ t.notes, note.IsMarked) : ∀ note ∈ t'.notes, note.IsMarked := by
  cases h' with
  | hit reads found =>
    refine List.forall_mem_cons.mpr ⟨⟨reads, ?_⟩, marked⟩
    exact ResponseCache.values_of_lookup (congrArg Prod.fst found)
  | call missed => exact List.forall_mem_cons.mpr ⟨trivial, marked⟩
  | @answer number call given answer d bound concluded =>
    refine List.forall_mem_cons.mpr ⟨?_, marked⟩
    rw [ResponseCache.conclude] at concluded
    rw [Note.IsMarked]
    split at concluded
    · rename_i reads
      have answered : (c.capture t.depot now call.handle (ResponseCache.key call.request) given).1 =
          answer := congrArg Prod.fst concluded
      rw [if_pos reads, ← answered]
      exact ResponseCache.values_capture_ne_hit c t.depot now call.handle _ given
    · rename_i reads
      rw [if_neg reads]
      exact (congrArg Prod.fst concluded).symm
  | ignore => exact marked
  | act =>
    intro note member
    rcases List.mem_append.mp member with copied | before
    · exact Depot.isMarked_of_mem_copies copied
    · exact marked note before

theorem Step.isTraced {t' : Traffic} (h' : t.Step c now h t') (traced : t.Traced c cell clock)
    (later : clock ≤ now) (own : t.owns c cell now h = true)
    (hits : ∀ note earlier, note :: earlier <:+ t.notes → note.IsTraced c cell earlier) :
    ∀ note earlier, note :: earlier <:+ t'.notes → note.IsTraced c cell earlier := by
  have consed : ∀ first : Note, first.IsTraced c cell t.notes → ∀ note earlier,
      note :: earlier <:+ first :: t.notes → note.IsTraced c cell earlier := by
    intro first new note earlier suffix
    rcases List.suffix_cons_iff.mp suffix with same | older
    · obtain ⟨rfl, rfl⟩ := List.cons.inj same
      exact new
    · exact hits note earlier older
  cases h' with
  | @hit r answer d reads found =>
    apply consed
    have here : (t.depot.getCache c.store).cell = cell := by
      simpa [owns, reads] using own
    have answered := congrArg Prod.fst found
    rw [ResponseCache.fst_lookup, here] at answered
    obtain ⟨e, live, -⟩ := Option.bind_eq_some_iff.mp answered
    obtain ⟨bound, alive⟩ := Store.peek_eq_some_iff.mp live
    obtain ⟨stored, past, expires, source⟩ := traced.entries _ e bound
    exact ⟨stored, e.value, Nat.le_trans past later, lt_of_isExpired_eq_false alive expires, source⟩
  | call missed => exact consed _ trivial
  | answer bound concluded => exact consed _ trivial
  | ignore => exact hits
  | @act a =>
    rcases t.depot.copies_cases now a with none | ⟨id, h, key, value, ttl, -, -, one⟩
    · rw [none]
      exact hits
    · rw [one]
      exact consed _ trivial

theorem Sound.step (sound : t.Sound c cell clock) (later : clock ≤ now)
    (own : t.owns c cell now h = true) : (t.step c now h).Sound c cell now where
  numbered := Numbered.step sound.numbered c now h
  traced := sound.traced.step later own
  marked := (t.step_cases c now h).isMarked sound.marked
  hits := (t.step_cases c now h).isTraced sound.traced later own sound.hits

theorem Sound.run (sound : t.Sound c cell clock) {happenings : List (Nat × Happening)}
    (owned : t.ownsThroughout c cell clock happenings = true) :
    ∃ clock, (t.run c happenings).Sound c cell clock := by
  induction happenings generalizing t clock with
  | nil => exact ⟨clock, sound⟩
  | cons first rest ih =>
    obtain ⟨now, h⟩ := first
    rw [ownsThroughout, Bool.and_eq_true, Bool.and_eq_true, decide_eq_true_eq] at owned
    obtain ⟨⟨later, own⟩, owned⟩ := owned
    exact ih (sound.step later own) owned

theorem sound_start {d : Depot} (empty : (d.store cell).isEmpty = true)
    (idle : ∀ id h k value ttl, d.tasks.get? id = some (.storing h k value ttl) → h.cell ≠ cell)
    (clock : Nat) : Sound c cell clock { depot := d } where
  numbered := fun number => ⟨fun _ => ⟨rfl, rfl, rfl⟩, nofun, nofun⟩
  traced := by
    refine ⟨?_, ?_⟩
    · intro id h k value ttl bound here
      exact absurd here (idle id h k value ttl bound)
    · intro k e bound
      cases (Store.get?_of_isEmpty empty k).symm.trans bound
  marked := nofun
  hits := by
    intro note earlier suffix
    cases List.suffix_nil.mp suffix

/-- Requests that pass a cache, with anything else going on beside them, where reads look into one
store that is empty at first and is written by nothing but the cache, and time does not go back.
An answer to a read that is marked as coming from the store goes back to an earlier read with the
same key that missed, and the response that was kept of that was stored less than the time to live
before. The handler is not called for such a read and is called once for every other request that is
answered, and no request is answered twice. A request that is no read gets the response of the
handler as it is, and what it leaves behind is what the handler leaves behind. -/
theorem run_accounts (c : ResponseCache) {d : Depot} (empty : (d.store cell).isEmpty = true)
    (idle : ∀ id h k value ttl, d.tasks.get? id = some (.storing h k value ttl) → h.cell ≠ cell)
    {happenings : List (Nat × Happening)}
    (owned : ownsThroughout c cell { depot := d } clock happenings = true) :
    let notes := (run c { depot := d } happenings).notes
    (∀ number time r given answer earlier,
      .answered number time r given answer :: earlier <:+ notes →
      isRead r.method = true → answer.headers.values cacheMark = ["HIT"] →
      ∃ stored value, stored ≤ time ∧ time < stored + c.ttl.nanos / nanosPerMilli ∧
        c.StoredFrom cell stored (ResponseCache.key r) value earlier) ∧
    (∀ number time r given answer, .answered number time r given answer ∈ notes →
      notes.countP (Note.isAnswerTo number) = 1 ∧
      notes.countP (Note.isCallOf number) =
        (if isRead r.method ∧ answer.headers.values cacheMark = ["HIT"] then 0
          else 1) ∧
      (isRead r.method = false → given = some answer)) ∧
    ∀ now handler r d', isRead r.method = false →
      c.serve now handler r d' = handler r d' := by
  intro notes
  obtain ⟨last, sound⟩ := (sound_start (c := c) empty idle clock).run owned
  refine ⟨?_, ?_, ?_⟩
  · intro number time r given answer earlier suffix reads hit
    have marked := sound.marked _ (suffix.subset List.mem_cons_self)
    obtain rfl := marked.hit_iff.mp ⟨reads, hit⟩
    exact sound.hits _ _ suffix
  · intro number time r given answer member
    obtain ⟨calls, answers⟩ := ((sound.numbered number).answered time r given answer member).2
    have marked := sound.marked _ member
    refine ⟨answers, calls.trans ?_, ?_⟩
    · simp only [marked.hit_iff]
      cases given <;> rfl
    · intro other
      cases given with
      | none => exact absurd (other.symm.trans marked.1) Bool.noConfusion
      | some given =>
        rw [Note.IsMarked, other] at marked
        exact congrArg some marked.symm
  · intro now handler r d' other
    exact if_neg (Bool.eq_false_iff.mp other)

/-- Two reads of the root and a request that is no read. While the first handler is busy the second
request arrives; the response to the first is kept, and later read twice, the second time too
late. -/
def mixedRequests : List (Nat × Happening) :=
  [(0, .arrives rootRead),
    (1, .arrives { rootRead with method := "POST" }),
    (2, .responds 0 (.plain 200 "page")),
    (3, .responds 1 (.plain 201 "made")),
    (3, .acts (.resume 0)),
    (4, .arrives rootRead),
    (1003, .arrives rootRead)]

/-- The read that comes in time is answered from the store, and all that was noted is accounted
for. -/
theorem mixedRequests_account :
    let t := run briefCache { depot := .forQueue 10 3 } mixedRequests
    ownsThroughout briefCache 0 { depot := .forQueue 10 3 } 0 mixedRequests = true ∧
    (t.notes.any fun | .answered 2 4 _ none _ => true | _ => false) = true ∧
    ∀ number time r given answer earlier,
      .answered number time r given answer :: earlier <:+ t.notes →
      isRead r.method = true → answer.headers.values cacheMark = ["HIT"] →
      ∃ stored value, stored ≤ time ∧
        time < stored + briefCache.ttl.nanos / nanosPerMilli ∧
        briefCache.StoredFrom 0 stored (ResponseCache.key r) value earlier := by
  have owned : ownsThroughout briefCache 0 { depot := .forQueue 10 3 } 0
      mixedRequests = true := by decide +kernel
  have hit : ((run briefCache { depot := .forQueue 10 3 } mixedRequests).notes.any
      fun | .answered 2 4 _ none _ => true | _ => false) = true := by decide +kernel
  refine ⟨owned, hit, (run_accounts _ rfl ?_ owned).1⟩
  intro id h k value ttl bound
  cases (Assoc.get?_empty id).symm.trans bound

end Traffic
end CacheDepot
