import CacheDepot.Proofs.ResponseCache.Replay

/-!
# Requests that pass a cache

While the handler of one request is busy, other requests arrive, responses are kept and entries
leave the store. What a cache does is cut in two at the call of the handler, and what happens is
noted down. Every request is answered once at most, and its handler is called once at most.
-/

namespace CacheDepot

open Http (Request Response)

namespace ResponseCache

variable {c : ResponseCache} {now : Nat} {r : Request} {d : Depot}

/-! ## Before and after the handler -/

/-- What a cache does when a request arrives: it may answer from the store. -/
def receive (c : ResponseCache) (now : Nat) (r : Request) (d : Depot) : Option Response × Depot :=
  if isRead r.method then lookup d now (d.getCache c.store) (key r) else (none, d)

/-- What a cache makes of the response that a handler has given to a request. -/
def conclude (c : ResponseCache) (now : Nat) (h : Handle) (r : Request) (given : Response)
    (d : Depot) : Response × Depot :=
  if isRead r.method then c.capture d now h (key r) given else (given, d)

/-- A handler behind a cache that answers at once is called between the two. -/
theorem serve_eq (c : ResponseCache) (now : Nat) (handler : Handler) (r : Request) (d : Depot) :
    c.serve now handler r d =
      match c.receive now r d with
      | (some answer, d') => (answer, d')
      | (none, d') =>
        c.conclude now (d.getCache c.store) r (handler r d').1 (handler r d').2 := by
  by_cases reads : isRead r.method = true
  · rw [receive, if_pos reads]
    cases found : (lookup d now (d.getCache c.store) (key r)).1 with
    | some answer =>
      rw [serve_of_lookup reads found]
      generalize lookup d now (d.getCache c.store) (key r) = result at found ⊢
      obtain ⟨kept, d'⟩ := result
      cases found
      rfl
    | none =>
      rw [serve_of_lookup_none reads found]
      generalize lookup d now (d.getCache c.store) (key r) = result at found ⊢
      obtain ⟨kept, d'⟩ := result
      cases found
      exact (if_pos reads).symm
  · rw [serve, if_neg reads, receive, if_neg reads]
    exact (if_neg reads).symm

end ResponseCache

/-- A request whose handler is busy. -/
structure Call where
  request : Request
  /-- The store that was looked into when the request arrived. -/
  handle : Handle

/-- What is noted about the traffic through a cache. -/
inductive Note where
  /-- The handler was called for a request. -/
  | called (number : Nat)
  /-- A request was answered; `given` is the response of its handler, if that was called. -/
  | answered (number time : Nat) (request : Request) (given : Option Response) (answer : Response)
  /-- A response was put into a store in the background. -/
  | stored (time cell : Nat) (key : CacheKey) (value : Json)

/-- A depot behind a cache, with the requests that are under way. -/
structure Traffic where
  depot : Depot
  calls : Assoc Nat Call := .empty
  /-- The number of the next request. -/
  nextNumber : Nat := 0
  /-- The latest first. -/
  notes : List Note := []

/-- What can happen behind a cache. -/
inductive Happening where
  | arrives (request : Request)
  /-- The handler of the request with this number has responded. -/
  | responds (number : Nat) (given : Response)
  | acts (action : Action)

/-- The responses that an action puts into stores. -/
def Depot.copies (d : Depot) (now : Nat) : Action → List Note
  | .resume id =>
    match d.tasks.get? id with
    | some (.storing h key value _) => [.stored now h.cell key value]
    | _ => []
  | _ => []

/-- Responses are put into stores by the tasks that keep them. -/
theorem Depot.copies_cases (d : Depot) (now : Nat) (a : Action) :
    d.copies now a = [] ∨ ∃ id h key value ttl, a = .resume id ∧
      d.tasks.get? id = some (.storing h key value ttl) ∧
      d.copies now a = [.stored now h.cell key value] := by
  unfold Depot.copies
  split
  · rename_i id
    split
    · rename_i h key value ttl bound
      exact .inr ⟨id, h, key, value, ttl, rfl, bound, rfl⟩
    · exact .inl rfl
  · exact .inl rfl

namespace Traffic

/-- What happens at the time `now`. -/
def step (c : ResponseCache) (now : Nat) (t : Traffic) : Happening → Traffic
  | .arrives r =>
    match c.receive now r t.depot with
    | (some answer, d) =>
      { t with
        depot := d
        nextNumber := t.nextNumber + 1
        notes := .answered t.nextNumber now r none answer :: t.notes }
    | (none, d) =>
      { depot := d
        calls := t.calls.insert t.nextNumber ⟨r, t.depot.getCache c.store⟩
        nextNumber := t.nextNumber + 1
        notes := .called t.nextNumber :: t.notes }
  | .responds number given =>
    match t.calls.get? number with
    | some call =>
      let (answer, d) := c.conclude now call.handle call.request given t.depot
      { t with
        depot := d
        calls := t.calls.erase number
        notes := .answered number now call.request (some given) answer :: t.notes }
    | none => t
  | .acts a =>
    { t with depot := t.depot.act now a, notes := t.depot.copies now a ++ t.notes }

/-- A run: what happens, and when. -/
def run (c : ResponseCache) (t : Traffic) (happenings : List (Nat × Happening)) : Traffic :=
  happenings.foldl (fun t h => t.step c h.1 h.2) t

/-- Whether reads look into the store in a cell, and nothing but kept responses is written there. -/
def owns (c : ResponseCache) (cell now : Nat) (t : Traffic) : Happening → Bool
  | .arrives r => !ResponseCache.isRead r.method || (t.depot.getCache c.store).cell = cell
  | .responds _ _ => true
  | .acts a =>
    !(t.depot.copies now a).isEmpty || (t.depot.writes now a).all fun w => w.handle.cell ≠ cell

/-- Whether all of a run is like this, and time never goes back. -/
def ownsThroughout (c : ResponseCache) (cell : Nat) (t : Traffic) (clock : Nat) :
    List (Nat × Happening) → Bool
  | [] => true
  | (now, h) :: rest =>
    clock ≤ now && t.owns c cell now h && (t.step c now h).ownsThroughout c cell now rest

/-- What can happen in one step. -/
inductive Step (c : ResponseCache) (now : Nat) (t : Traffic) : Happening → Traffic → Prop
  | hit {r : Request} {answer : Response} {d : Depot} (reads : ResponseCache.isRead r.method = true)
      (found : ResponseCache.lookup t.depot now (t.depot.getCache c.store) (ResponseCache.key r) =
        (some answer, d)) :
      Step c now t (.arrives r)
        { t with
          depot := d
          nextNumber := t.nextNumber + 1
          notes := .answered t.nextNumber now r none answer :: t.notes }
  | call {r : Request} {d : Depot} (missed : c.receive now r t.depot = (none, d)) :
      Step c now t (.arrives r)
        { depot := d
          calls := t.calls.insert t.nextNumber ⟨r, t.depot.getCache c.store⟩
          nextNumber := t.nextNumber + 1
          notes := .called t.nextNumber :: t.notes }
  | answer {number : Nat} {call : Call} {given answer : Response} {d : Depot}
      (bound : t.calls.get? number = some call)
      (concluded : c.conclude now call.handle call.request given t.depot = (answer, d)) :
      Step c now t (.responds number given)
        { t with
          depot := d
          calls := t.calls.erase number
          notes := .answered number now call.request (some given) answer :: t.notes }
  | ignore {number : Nat} {given : Response} : Step c now t (.responds number given) t
  | act {a : Action} :
      Step c now t (.acts a)
        { t with depot := t.depot.act now a, notes := t.depot.copies now a ++ t.notes }

theorem step_cases (c : ResponseCache) (now : Nat) (t : Traffic) (h : Happening) :
    t.Step c now h (t.step c now h) := by
  cases h with
  | arrives r =>
    rw [step]
    split
    · rename_i answer d admitted
      rw [ResponseCache.receive] at admitted
      split at admitted
      · exact .hit (by assumption) admitted
      · cases admitted
    · exact .call (by assumption)
  | responds number given =>
    rw [step]
    split
    · exact .answer (by assumption) rfl
    · exact .ignore
  | acts a => exact .act

end Traffic

/-! ## Numbers -/

/-- The request that a note is about. -/
def Note.number? : Note → Option Nat
  | .called number | .answered number _ _ _ _ => some number
  | .stored _ _ _ _ => none

/-- Whether a note tells that the handler was called for this request. -/
def Note.isCallOf (number : Nat) : Note → Bool
  | .called other => other = number
  | _ => false

/-- Whether a note tells that this request was answered. -/
def Note.isAnswerTo (number : Nat) : Note → Bool
  | .answered other _ _ _ _ => other = number
  | _ => false

/-- How often the handler was called for a request, and how often that was answered. -/
structure Counts (notes : List Note) (number calls answers : Nat) : Prop where
  calls : notes.countP (Note.isCallOf number) = calls
  answers : notes.countP (Note.isAnswerTo number) = answers

namespace Counts

variable {notes : List Note} {number calls answers : Nat}

/-- Notes about other requests do not count. -/
theorem cons_of_ne (counts : Counts notes number calls answers) {note : Note}
    (other : note.number? ≠ some number) : Counts (note :: notes) number calls answers := by
  have uncounted : ¬ note.isCallOf number = true ∧ ¬ note.isAnswerTo number = true := by
    cases note with
    | called number' => simpa [Note.isCallOf, Note.isAnswerTo, Note.number?] using other
    | answered number' time r given answer =>
      simpa [Note.isCallOf, Note.isAnswerTo, Note.number?] using other
    | stored time cell key value => simp [Note.isCallOf, Note.isAnswerTo]
  constructor
  · rw [List.countP_cons_of_neg uncounted.1, counts.calls]
  · rw [List.countP_cons_of_neg uncounted.2, counts.answers]

theorem called (counts : Counts notes number calls answers) :
    Counts (.called number :: notes) number (calls + 1) answers where
  calls := by rw [List.countP_cons_of_pos (by simp [Note.isCallOf]), counts.calls]
  answers := by rw [List.countP_cons_of_neg (by simp [Note.isAnswerTo]), counts.answers]

theorem answered (counts : Counts notes number calls answers) (time : Nat) (r : Request)
    (given : Option Response) (answer : Response) :
    Counts (.answered number time r given answer :: notes) number calls (answers + 1) where
  calls := by rw [List.countP_cons_of_neg (by simp [Note.isCallOf]), counts.calls]
  answers := by rw [List.countP_cons_of_pos (by simp [Note.isAnswerTo]), counts.answers]

end Counts

namespace Traffic

variable {c : ResponseCache} {now : Nat} {t t' : Traffic} {h : Happening}

/-- Whether the request of this number is answered once at most, and the handler is called once for
it unless it is answered from the store. -/
structure Numbered (number : Nat) (t : Traffic) : Prop where
  fresh : t.nextNumber ≤ number → t.calls.get? number = none ∧ Counts t.notes number 0 0
  waiting : ∀ call, t.calls.get? number = some call → Counts t.notes number 1 0
  answered : ∀ time r given answer, .answered number time r given answer ∈ t.notes →
    t.calls.get? number = none ∧ Counts t.notes number (if given.isSome then 1 else 0) 1

namespace Numbered

variable {number : Nat}

/-- A note about something else changes nothing. -/
theorem others (numbered : t.Numbered number) {note : Note} (other : note.number? ≠ some number)
    {calls : Assoc Nat Call} (same : calls.get? number = t.calls.get? number) {nextNumber : Nat}
    (grows : t.nextNumber ≤ nextNumber) (d : Depot) :
    Numbered number { depot := d, calls, nextNumber, notes := note :: t.notes } where
  fresh := by
    intro later
    obtain ⟨unbound, uncounted⟩ := numbered.fresh (Nat.le_trans grows later)
    exact ⟨same.trans unbound, uncounted.cons_of_ne other⟩
  waiting := fun call bound => (numbered.waiting call (same.symm.trans bound)).cons_of_ne other
  answered := by
    intro time r given answer member
    rcases List.mem_cons.mp member with new | member
    · exact absurd (congrArg Note.number? new).symm other
    · obtain ⟨unbound, counts⟩ := numbered.answered time r given answer member
      exact ⟨same.trans unbound, counts.cons_of_ne other⟩

theorem not_answered (numbered : t.Numbered number) {calls : Nat}
    (counts : Counts t.notes number calls 0) {time : Nat} {r : Request} {given : Option Response}
    {answer : Response} : .answered number time r given answer ∉ t.notes := by
  intro member
  have once := (numbered.answered time r given answer member).2.answers
  exact absurd (once.symm.trans counts.answers) Nat.one_ne_zero

theorem hit (numbered : ∀ number, t.Numbered number) (now : Nat) (r : Request) (answer : Response)
    (d : Depot) (number : Nat) :
    Numbered number { t with
      depot := d
      nextNumber := t.nextNumber + 1
      notes := .answered t.nextNumber now r none answer :: t.notes } := by
  by_cases own : t.nextNumber = number
  · subst own
    obtain ⟨unbound, uncounted⟩ := (numbered t.nextNumber).fresh (Nat.le_refl _)
    refine ⟨fun later => absurd later (Nat.not_succ_le_self _), ?_, ?_⟩
    · intro call bound
      cases unbound.symm.trans bound
    · intro time r' given answer' member
      rcases List.mem_cons.mp member with same | member
      · cases same
        exact ⟨unbound, uncounted.answered now r none answer⟩
      · exact absurd member ((numbered t.nextNumber).not_answered uncounted)
  · refine (numbered number).others ?_ rfl (Nat.le_succ _) d
    exact fun same => own (Option.some.inj same)

theorem call (numbered : ∀ number, t.Numbered number) (call : Call) (d : Depot) (number : Nat) :
    Numbered number {
      depot := d
      calls := t.calls.insert t.nextNumber call
      nextNumber := t.nextNumber + 1
      notes := .called t.nextNumber :: t.notes } := by
  by_cases own : t.nextNumber = number
  · subst own
    obtain ⟨-, uncounted⟩ := (numbered t.nextNumber).fresh (Nat.le_refl _)
    refine ⟨fun later => absurd later (Nat.not_succ_le_self _), fun _ _ => uncounted.called, ?_⟩
    intro time r given answer member
    rcases List.mem_cons.mp member with same | member
    · cases same
    · exact absurd member ((numbered t.nextNumber).not_answered uncounted)
  · refine (numbered number).others ?_ (Assoc.get?_insert_of_ne _ _ own) (Nat.le_succ _) d
    exact fun same => own (Option.some.inj same)

theorem answer (numbered : ∀ number, t.Numbered number) {responded : Nat} {call : Call}
    (bound : t.calls.get? responded = some call) (now : Nat) (r : Request) (given answer : Response)
    (d : Depot) (number : Nat) :
    Numbered number { t with
      depot := d
      calls := t.calls.erase responded
      notes := .answered responded now r (some given) answer :: t.notes } := by
  by_cases own : responded = number
  · subst own
    have gone : (t.calls.erase responded).get? responded = none := Assoc.get?_erase_self ..
    have counts := (numbered responded).waiting call bound
    refine ⟨?_, ?_, ?_⟩
    · intro later
      cases bound.symm.trans ((numbered responded).fresh later).1
    · intro call' bound'
      cases gone.symm.trans bound'
    · intro time r' given' answer' member
      rcases List.mem_cons.mp member with same | member
      · cases same
        exact ⟨gone, counts.answered now r (some given) answer⟩
      · exact absurd member ((numbered responded).not_answered counts)
  · refine (numbered number).others ?_ (Assoc.get?_erase_of_ne _ own) (Nat.le_refl _) d
    exact fun same => own (Option.some.inj same)

theorem step (numbered : ∀ number, t.Numbered number) (c : ResponseCache) (now : Nat)
    (h : Happening) : ∀ number, (t.step c now h).Numbered number := by
  have cases := t.step_cases c now h
  generalize t.step c now h = t' at cases ⊢
  cases cases with
  | hit reads found => exact hit numbered now _ _ _
  | call missed => exact call numbered _ _
  | answer bound concluded => exact answer numbered bound now _ _ _ _
  | ignore => exact numbered
  | @act a =>
    intro number
    rcases t.depot.copies_cases now a with none | ⟨id, h, key, value, ttl, -, -, one⟩
    · rw [none]
      exact ⟨(numbered number).fresh, (numbered number).waiting, (numbered number).answered⟩
    · rw [one]
      refine (numbered number).others ?_ rfl (Nat.le_refl _) _
      exact nofun

end Numbered

end Traffic

end CacheDepot
