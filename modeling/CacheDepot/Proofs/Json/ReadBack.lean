import CacheDepot.Proofs.Json.Numerals
import CacheDepot.Proofs.Json.Unambiguous

/-!
# Values are read as they are written

The text of a value takes the reader from where it expects a value to where it has this value, in
any depth: a text in quotes and a list in brackets end by themselves, and a number ends at the comma
or bracket behind it or at the end of the text. So the text of a value is read as the whole value
and nothing else, if only its numbers are read as they are written.
-/

namespace CacheDepot.Json

namespace Reader

theorem run_cons (r : Reader) (c : Char) (cs : List Char) : r.run (c :: cs) = (r.step c).run cs :=
  rfl

theorem run_append (r : Reader) (cs more : List Char) : r.run (cs ++ more) = (r.run cs).run more :=
  List.foldl_append

section Modes

variable (stack : List Frame) (c : Char)

theorem step_numeral (n : Numeral) : step ⟨stack, .numeral n⟩ c =
    match n.next c with
    | .grows n => ⟨stack, .numeral n⟩
    | .stops => afterValue (give stack (.number n.number?)) c
    | .breaks => ⟨stack, .valueBroken (.both .malformed)⟩ := rfl

theorem step_quoted (q : Quoted) : step ⟨stack, .quoted q⟩ c =
    match q.next c with
    | .grows q => ⟨stack, .quoted q⟩
    | .closes q => give stack (.string q.text?)
    | .breaks q => ⟨stack, .valueBroken (q.cut .malformed)⟩ := rfl

theorem step_quotedName (q : Quoted) : step ⟨stack, .quotedName q⟩ c =
    match q.next c with
    | .grows q => ⟨stack, .quotedName q⟩
    | .closes q => ⟨stack, .colon q.text?⟩
    | .breaks q => ⟨stack, .partsBroken (q.cut .malformed)⟩ := rfl

end Modes

/-- What follows a value in an array or object. -/
def EndsValue (c : Char) : Prop := c = ',' ∨ c = ']' ∨ c = '\x7d'

/-- Whether a reader has come to the end of a value: it has handed the value on, or it is in a
numeral that may end here. -/
inductive HasRead (stack : List Frame) : Draft → Reader → Prop
  | given (v : Draft) : HasRead stack v (give stack v)
  | numeral {n : Numeral} (complete : n.isComplete = true) :
      HasRead stack (.number n.number?) ⟨stack, .numeral n⟩

/-- Whether a text is read as a value, whatever arrays and objects are around it. -/
def Reads (text : List Char) (v : Draft) : Prop :=
  ∀ stack, HasRead stack v (run ⟨stack, .value⟩ text)

/-! ## The end of a value -/

theorem next_of_endsValue {n : Numeral} (complete : n.isComplete = true) {c : Char}
    (ends : EndsValue c) : n.next c = .stops := by
  obtain ⟨part, negative, whole, fraction, powerNegative, power⟩ := n
  rcases ends with rfl | rfl | rfl <;> cases part <;> first | rfl | cases complete

/-- What follows a value is read as after the value was handed on. -/
theorem HasRead.run_cons {stack : List Frame} {v : Draft} {r : Reader} (h : HasRead stack v r)
    {c : Char} (ends : EndsValue c) (rest : List Char) :
    r.run (c :: rest) = (give stack v).run (c :: rest) := by
  cases h with
  | given => rfl
  | @numeral n complete =>
    have stops : step ⟨stack, .numeral n⟩ c = afterValue (give stack (.number n.number?)) c := by
      rw [step_numeral, next_of_endsValue complete ends]
    have same : step (give stack (.number n.number?)) c =
        afterValue (give stack (.number n.number?)) c := by
      unfold give
      split <;> rfl
    rw [Reader.run_cons, Reader.run_cons, stops, same]

theorem HasRead.finish {v : Draft} {r : Reader} (h : HasRead [] v r) : r.finish = (v, false) := by
  cases h with
  | given => rfl
  | numeral complete =>
    rw [Reader.finish]
    dsimp only
    rw [if_pos complete]
    rfl

/-! ## Numbers -/

/-- What begins a thing is none of the characters that begin no such thing. -/
theorem ne_of_eq_some {α : Type} {begin? : Char → Option α} {c : Char} {a : α}
    (begins : begin? c = some a) {others : List Char}
    (none : (others.all fun d => (begin? d).isNone) = true) : ∀ d ∈ others, c ≠ d := by
  rintro d member rfl
  have nothing := List.all_eq_true.mp none c member
  rw [begins] at nothing
  cases nothing

theorem run_of_grow? {n m : Numeral} {cs : List Char} (grows : n.grow? cs = some m)
    (stack : List Frame) : run ⟨stack, .numeral n⟩ cs = ⟨stack, .numeral m⟩ := by
  induction cs generalizing n with
  | nil =>
    cases grows
    rfl
  | cons c rest ih =>
    rw [Numeral.grow?] at grows
    split at grows
    · rename_i next same
      rw [run_cons, step_numeral, same]
      exact ih grows
    · cases grows
    · cases grows

/-- What begins a numeral begins no other value and is no blank. -/
theorem step_of_start? {c : Char} {n : Numeral} (starts : Numeral.start? c = some n)
    (stack : List Frame) : step ⟨stack, .value⟩ c = ⟨stack, .numeral n⟩ := by
  have others : ∀ d ∈ [' ', '\t', '\n', '\r', '[', '\x7b', '"', 'n', 't', 'f'], c ≠ d :=
    ne_of_eq_some starts rfl
  simp only [List.forall_mem_cons, List.not_mem_nil, false_imp_iff, implies_true, and_true]
    at others
  simp [step, isBlank, beginValue, others, starts]

theorem reads_number {n : Number} (readsBack : n.ReadsBack) : Reads n.text (.number (some n)) := by
  obtain ⟨m, numeral, complete, value⟩ := readsBack
  intro stack
  generalize n.text = text at numeral ⊢
  cases text with
  | nil => cases numeral
  | cons c rest =>
    obtain ⟨start, starts, grows⟩ := Option.bind_eq_some_iff.mp numeral
    rw [run_cons, step_of_start? starts, run_of_grow? grows, ← value]
    exact .numeral complete

/-! ## Texts in quotes -/

/-- A mode that takes in a text in quotes does so character by character up to the closing quotation
mark. -/
theorem run_of_read? (stack : List Frame) (mode : Quoted → Mode) (closed : Quoted → Reader)
    (grows : ∀ {q q' c}, q.next c = .grows q' → step ⟨stack, mode q⟩ c = ⟨stack, mode q'⟩)
    (closes : ∀ {q q' c}, q.next c = .closes q' → step ⟨stack, mode q⟩ c = closed q')
    {q q' : Quoted} {cs rest : List Char} (read : q.read? cs = some (q', rest)) :
    run ⟨stack, mode q⟩ cs = run (closed q') rest := by
  induction cs generalizing q with
  | nil => cases read
  | cons c more ih =>
    rw [Quoted.read?] at read
    split at read
    · rename_i same
      rw [run_cons, grows same, ih read]
    · rename_i same
      cases read
      rw [run_cons, closes same]
    · cases read

theorem text?_of_chars (s : String) :
    ({ chars := s.toList.reverse } : Quoted).text? = some s := by
  simp [Quoted.text?]

theorem run_quote (stack : List Frame) (s : String) (rest : List Char) :
    run ⟨stack, .value⟩ (quote s ++ rest) = run (give stack (.string (some s))) rest := by
  have read := run_of_read? stack .quoted (fun q => give stack (.string q.text?))
    (fun same => by rw [step_quoted, same]) (fun same => by rw [step_quoted, same])
    (Quoted.read?_quote s rest)
  rw [text?_of_chars] at read
  exact read

theorem run_name {mode : Mode} (field : mode = .firstField ∨ mode = .nextField)
    (done : List (Option String × Draft)) (stack : List Frame) (name : String)
    (rest : List Char) :
    run ⟨.fields done :: stack, mode⟩ (quote name ++ ':' :: rest) =
      run ⟨.field done (some name) :: stack, .value⟩ rest := by
  have read := run_of_read? (.fields done :: stack) .quotedName
    (fun q => ⟨.fields done :: stack, .colon q.text?⟩)
    (fun same => by rw [step_quotedName, same]) (fun same => by rw [step_quotedName, same])
    (Quoted.read?_quote name (':' :: rest))
  rw [text?_of_chars] at read
  rcases field with rfl | rfl <;> exact read

/-! ## Lists in brackets -/

section Lists

variable {α β : Type} {text : α → List Char} {draft : α → β} {frame : List β → Frame}
  {stack : List Frame} {first next : Mode} {close : Char} {l : List α}

/-- Whether the text of a thing takes a reader that expects one to behind it. -/
def ReadsPart (frame : List β → Frame) (stack : List Frame) (modes : List Mode)
    (text : List Char) (part : β) : Prop :=
  ∀ mode ∈ modes, ∀ done c rest, EndsValue c →
    run ⟨frame done :: stack, mode⟩ (text ++ c :: rest) =
      run ⟨frame (part :: done) :: stack, .separator⟩ (c :: rest)

/-- Behind a thing in a list stands a comma or the closing bracket. -/
theorem exists_more_eq_cons (text : α → List Char) (ends : EndsValue close) (l : List α)
    (rest : List Char) :
    ∃ c tail, EndsValue c ∧ (l.flatMap fun a => ',' :: text a) ++ close :: rest = c :: tail := by
  cases l with
  | nil => exact ⟨close, rest, ends, rfl⟩
  | cons a more => exact ⟨',', _, .inl rfl, rfl⟩

theorem run_more
    (comma : ∀ done, step ⟨frame done :: stack, .separator⟩ ',' = ⟨frame done :: stack, next⟩)
    (ends : EndsValue close)
    (each : ∀ a ∈ l, ReadsPart frame stack [first, next] (text a) (draft a))
    (done : List β) (rest : List Char) :
    run ⟨frame done :: stack, .separator⟩ ((l.flatMap fun a => ',' :: text a) ++ close :: rest) =
      run ⟨frame ((l.map draft).reverse ++ done) :: stack, .separator⟩ (close :: rest) := by
  induction l generalizing done with
  | nil => rfl
  | cons a more ih =>
    obtain ⟨own, others⟩ := List.forall_mem_cons.mp each
    -- a number ends only at what comes next, so each step looks one character ahead
    obtain ⟨c, tail, endsHere, same⟩ := exists_more_eq_cons text ends more rest
    rw [List.flatMap_cons, List.append_assoc, List.cons_append, run_cons, comma, same,
      own next (by simp) done c tail endsHere, ← same, ih others]
    simp

variable (draft frame stack first close) in
/-- A list is read thing by thing, up to the closing bracket. -/
theorem run_joined
    (empty : step ⟨frame [] :: stack, first⟩ close = step ⟨frame [] :: stack, .separator⟩ close)
    (comma : ∀ done, step ⟨frame done :: stack, .separator⟩ ',' = ⟨frame done :: stack, next⟩)
    (ends : EndsValue close)
    (each : ∀ a ∈ l, ReadsPart frame stack [first, next] (text a) (draft a)) (rest : List Char) :
    run ⟨frame [] :: stack, first⟩ (joined text l ++ close :: rest) =
      run ⟨frame (l.map draft).reverse :: stack, .separator⟩ (close :: rest) := by
  cases l with
  | nil => rw [joined, List.nil_append, run_cons, empty, List.map_nil, List.reverse_nil, run_cons]
  | cons a more =>
    obtain ⟨own, others⟩ := List.forall_mem_cons.mp each
    obtain ⟨c, tail, endsHere, same⟩ := exists_more_eq_cons text ends more rest
    rw [joined, List.append_assoc, same, own first (by simp) [] c tail endsHere, ← same,
      run_more comma ends others, List.map_cons, List.reverse_cons]

end Lists

/-! ## Values in any depth -/

theorem ofItems_eq (items : List Json) : Draft.ofItems items = items.map Draft.ofJson := by
  induction items with
  | nil => rfl
  | cons v rest ih => rw [Draft.ofItems, ih, List.map_cons]

/-- The draft of a field. -/
def fieldDraft (f : String × Json) : Option String × Draft := (some f.1, .ofJson f.2)

theorem ofFields_eq (fields : List (String × Json)) :
    Draft.ofFields fields = fields.map fieldDraft := by
  induction fields with
  | nil => rfl
  | cons f rest ih => rw [Draft.ofFields, ih, List.map_cons, fieldDraft]

/-- What a value begins with begins it also where the closing bracket of an array could stand. -/
theorem run_firstItem (v : Json) (stack : List Frame) (rest : List Char) :
    run ⟨stack, .firstItem⟩ (v.render ++ rest) = run ⟨stack, .value⟩ (v.render ++ rest) := by
  obtain ⟨c, more, text, kind⟩ := exists_render_eq_cons v
  have others : ∀ d ∈ [' ', '\t', '\n', '\r', ']'], c ≠ d :=
    ne_of_eq_some kind rfl
  simp only [List.forall_mem_cons, List.not_mem_nil, false_imp_iff, implies_true, and_true]
    at others
  have same : step ⟨stack, .firstItem⟩ c = step ⟨stack, .value⟩ c := by
    simp [step, isBlank, others]
  rw [text, List.cons_append, run_cons, run_cons, same]

theorem readsPart_item {v : Json} (reads : Reads v.render (.ofJson v)) (stack : List Frame) :
    ReadsPart .items stack [.firstItem, .value] v.render (.ofJson v) := by
  intro mode member done c rest ends
  have value := (reads (.items done :: stack)).run_cons ends rest
  rw [← run_append] at value
  simp only [List.mem_cons, List.not_mem_nil, or_false] at member
  rcases member with rfl | rfl
  · rw [run_firstItem, value]
    rfl
  · exact value

theorem readsPart_field {f : String × Json} (reads : Reads f.2.render (.ofJson f.2))
    (stack : List Frame) :
    ReadsPart .fields stack [.firstField, .nextField] (fieldText f) (fieldDraft f) := by
  intro mode member done c rest ends
  have value := (reads (.field done (some f.1) :: stack)).run_cons ends rest
  rw [← run_append] at value
  rw [fieldText, List.append_assoc, List.cons_append, run_name (by simpa using member), value]
  rfl

theorem run_array {items : List Json} (each : ∀ v ∈ items, Reads v.render (.ofJson v))
    (stack : List Frame) :
    run ⟨stack, .value⟩ (Json.array items).render = give stack (.ofJson (.array items)) := by
  have read := run_joined Draft.ofJson .items stack .firstItem ']' rfl (fun _ => rfl)
    (.inr (.inl rfl)) (fun v member => readsPart_item (each v member) stack) []
  rw [render, renderItems_eq, Draft.ofJson, ofItems_eq, ← List.reverse_reverse (items.map _)]
  exact read

theorem run_object {fields : List (String × Json)}
    (each : ∀ f ∈ fields, Reads f.2.render (.ofJson f.2)) (stack : List Frame) :
    run ⟨stack, .value⟩ (Json.object fields).render = give stack (.ofJson (.object fields)) := by
  have read := run_joined fieldDraft .fields stack .firstField '\x7d' rfl (fun _ => rfl)
    (.inr (.inr rfl)) (fun f member => readsPart_field (each f member) stack) []
  rw [render, renderFields_eq, Draft.ofJson, ofFields_eq, ← List.reverse_reverse (fields.map _)]
  exact read

/-- The text of a value is read as this value. -/
theorem reads_render {v : Json} (own : NumbersIn {n | n.ReadsBack} v) :
    Reads v.render (.ofJson v) := by
  induction v using inductionOn with
  | null => exact fun stack => .given .null
  | bool b =>
    intro stack
    cases b
    · exact .given (.bool false)
    · exact .given (.bool true)
  | number n => exact reads_number (own n .number)
  | string s =>
    intro stack
    have read := run_quote stack s []
    rw [List.append_nil] at read
    rw [render, read]
    exact .given _
  | array items ih =>
    intro stack
    rw [run_array fun v member => ih v member fun n inside => own n (.array member inside)]
    exact .given _
  | object fields ih =>
    intro stack
    rw [run_object fun f member => ih f member fun n inside => own n (.object member inside)]
    exact .given _

end Reader

/-- The text of a value is read as this value, with nothing behind it. -/
theorem Draft.ofText_text {v : Json} (own : NumbersIn {n | n.ReadsBack} v) :
    Draft.ofText v.text = (.ofJson v, false) := by
  rw [ofText, Json.text, String.toList_ofList]
  exact (Reader.reads_render own []).finish

end CacheDepot.Json
