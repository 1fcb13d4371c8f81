import CacheDepot.Proofs.Json.Quoted
import CacheDepot.Proofs.Json.Sameness
import Mathlib.Data.List.Basic
import Mathlib.Data.Set.Function

/-!
# Texts of values are unambiguous

The first character of a text tells what kind of value it is. A text in quotes and a list in
brackets tell where they end; a number goes on as long as there are characters of numbers, and
what can follow it, a comma or a closing bracket, is none. So whoever reads the text of a value
gets back the value, in any depth, if only the numbers in it have different texts.
-/

namespace CacheDepot.Json

/-! ## Numbers -/

/-- Whether numbers are written with this character. -/
def isNumeral (c : Char) : Bool := c.isDigit || ['-', '+', '.', 'e'].contains c

/-- Whether a text consists of characters of numbers. -/
def AllNumeral (cs : List Char) : Prop := ∀ c ∈ cs, isNumeral c = true

theorem allNumeral_nil : AllNumeral [] := nofun

theorem allNumeral_naturalText (n : Nat) : AllNumeral (naturalText n) := by
  intro c member
  rw [isNumeral, Nat.isDigit_of_mem_toDigits (by decide) (by decide) member, Bool.true_or]

theorem naturalText_ne_nil (n : Nat) : naturalText n ≠ [] := Nat.toDigits_ne_nil

theorem AllNumeral.append {cs more : List Char} (h : AllNumeral cs) (h' : AllNumeral more) :
    AllNumeral (cs ++ more) := List.forall_mem_append.mpr ⟨h, h'⟩

theorem AllNumeral.cons {c : Char} {cs : List Char} (own : isNumeral c = true)
    (h : AllNumeral cs) : AllNumeral (c :: cs) := List.forall_mem_cons.mpr ⟨own, h⟩

theorem AllNumeral.sublist {cs part : List Char} (h : AllNumeral cs) (kept : part.Sublist cs) :
    AllNumeral part := fun c member => h c (kept.subset member)

theorem allNumeral_replicate (n : Nat) : AllNumeral (List.replicate n '0') := by
  intro c member
  rw [List.eq_of_mem_replicate member]
  rfl

theorem allNumeral_integerText (i : Int) : AllNumeral (integerText i) := by
  rw [integerText]
  split
  · exact .cons rfl (allNumeral_naturalText _)
  · exact allNumeral_naturalText _

theorem allNumeral_decimalText (d : Binary64.Decimal) : AllNumeral (decimalText d) := by
  have digits := allNumeral_naturalText d.digits
  have before (n : Nat) := digits.sublist (List.take_sublist n (naturalText d.digits))
  have behind (n : Nat) := digits.sublist (List.drop_sublist n (naturalText d.digits))
  rw [decimalText]
  dsimp only
  split
  · split
    · exact (digits.append (allNumeral_replicate _)).append (.cons rfl (.cons rfl allNumeral_nil))
    · split
      · exact (before _).append (.cons rfl (behind _))
      · exact .cons rfl (.cons rfl ((allNumeral_replicate _).append digits))
  · refine (((before 1).append ?_).append (behind 1)).append
      (.cons rfl (.cons ?_ (allNumeral_naturalText _)))
    · split
      · exact allNumeral_nil
      · exact .cons rfl allNumeral_nil
    · split <;> rfl

theorem decimalText_ne_nil (d : Binary64.Decimal) : decimalText d ≠ [] := by
  have digits := naturalText_ne_nil d.digits
  rw [decimalText]
  dsimp only
  split
  · split
    · simp [digits]
    · split <;> simp
  · simp

theorem allNumeral_text (n : Number) : AllNumeral n.text := by
  cases n with
  | int i => exact allNumeral_integerText i
  | real x =>
    rw [Number.text, realText]
    split
    · exact .cons rfl (allNumeral_decimalText _)
    · exact allNumeral_decimalText _

theorem text_ne_nil (n : Number) : n.text ≠ [] := by
  cases n with
  | int i =>
    rw [Number.text, integerText]
    split
    · exact List.cons_ne_nil _ _
    · exact naturalText_ne_nil _
  | real x =>
    rw [Number.text, realText]
    split
    · exact List.cons_ne_nil _ _
    · exact decimalText_ne_nil _

/-- Whether a number cannot go on here. -/
def Stops (rest : List Char) : Prop := ∀ c ∈ rest.head?, isNumeral c = false

/-- A number is read up to where it cannot go on. -/
theorem takeWhile_isNumeral {cs rest : List Char} (h : AllNumeral cs) (stops : Stops rest) :
    (cs ++ rest).takeWhile isNumeral = cs := by
  have none : rest.takeWhile isNumeral = [] := by
    cases rest with
    | nil => rfl
    | cons c more => simp [stops c rfl]
  rw [List.takeWhile_append_of_pos h, none, List.append_nil]

theorem numeral_append_inj {cs cs' rest rest' : List Char} (h : AllNumeral cs)
    (h' : AllNumeral cs') (stops : Stops rest) (stops' : Stops rest')
    (same : cs ++ rest = cs' ++ rest') : cs = cs' ∧ rest = rest' := by
  have numerals : cs = cs' := by
    rw [← takeWhile_isNumeral h stops, same, takeWhile_isNumeral h' stops']
  exact ⟨numerals, List.append_cancel_left (numerals ▸ same)⟩

/-! ## Kinds of values -/

/-- What a value is. -/
inductive Kind where
  | null
  | bool
  | number
  | string
  | array
  | object
  deriving DecidableEq

/-- What this value is. -/
def kind : Json → Kind
  | .null => .null
  | .bool _ => .bool
  | .number _ => .number
  | .string _ => .string
  | .array _ => .array
  | .object _ => .object

/-- What a value is whose text begins with this character. -/
def kindOf? (c : Char) : Option Kind :=
  if c = 'n' then some .null
  else if c = 't' ∨ c = 'f' then some .bool
  else if c = '"' then some .string
  else if c = '[' then some .array
  else if c = '\x7b' then some .object
  else if isNumeral c then some .number
  else none

theorem kindOf?_of_isNumeral {c : Char} (numeral : isNumeral c = true) :
    kindOf? c = some .number := by
  have differs (d : Char) (other : isNumeral d = false) : c ≠ d := by
    rintro rfl
    rw [numeral] at other
    cases other
  simp [kindOf?, numeral, differs 'n' rfl, differs 't' rfl, differs 'f' rfl, differs '"' rfl,
    differs '[' rfl, differs '\x7b' rfl]

/-- The first character of a text tells what the value is. -/
theorem exists_render_eq_cons (v : Json) :
    ∃ c more, v.render = c :: more ∧ kindOf? c = some v.kind := by
  cases v with
  | null => exact ⟨_, _, rfl, rfl⟩
  | bool b => cases b <;> exact ⟨_, _, rfl, rfl⟩
  | number n =>
    obtain ⟨c, more, text⟩ := List.exists_cons_of_ne_nil (text_ne_nil n)
    exact ⟨c, more, text,
      kindOf?_of_isNumeral (allNumeral_text n c (text ▸ List.mem_cons_self))⟩
  | string s => exact ⟨_, _, rfl, rfl⟩
  | array items => exact ⟨_, _, rfl, rfl⟩
  | object fields => exact ⟨_, _, rfl, rfl⟩

theorem kind_eq_of_render {v w : Json} {rest rest' : List Char}
    (same : v.render ++ rest = w.render ++ rest') : v.kind = w.kind := by
  obtain ⟨c, more, text, kind⟩ := exists_render_eq_cons v
  obtain ⟨c', more', text', kind'⟩ := exists_render_eq_cons w
  rw [text, text', List.cons_append, List.cons_append, List.cons.injEq] at same
  exact Option.some.inj (kind.symm.trans (same.1 ▸ kind'))

/-! ## Lists in brackets -/

section Lists

variable {α : Type}

/-- Texts with commas between them. -/
def joined (text : α → List Char) : List α → List Char
  | [] => []
  | a :: more => text a ++ more.flatMap fun b => ',' :: text b

/-- Whether what is written for a thing tells where it ends and which thing it is, among those of a
kind. -/
def Legible (text : α → List Char) (among : α → Prop) (a : α) : Prop :=
  ∀ b rest rest', among b → Stops rest → Stops rest' → text a ++ rest = text b ++ rest' →
    a = b ∧ rest = rest'

variable {text : α → List Char} {among : α → Prop} {close : Char} {l l' : List α}
  {rest rest' : List Char}

theorem stops_list (plain : isNumeral close = false) (l : List α) (rest : List Char) :
    Stops ((l.flatMap fun b => ',' :: text b) ++ close :: rest) := by
  cases l with
  | nil =>
    rintro c ⟨⟩
    exact plain
  | cons b more =>
    rintro c ⟨⟩
    rfl

/-- What follows the first thing of a list is read thing by thing, up to the closing bracket. -/
theorem more_inj (plain : isNumeral close = false) (notComma : close ≠ ',')
    (legible : ∀ a ∈ l, Legible text among a) (others : ∀ b ∈ l', among b)
    (same : (l.flatMap fun b => ',' :: text b) ++ close :: rest =
      (l'.flatMap fun b => ',' :: text b) ++ close :: rest') : l = l' ∧ rest = rest' := by
  induction l generalizing l' with
  | nil =>
    cases l' with
    | nil => exact ⟨rfl, List.tail_eq_of_cons_eq same⟩
    | cons b more' => exact absurd (List.head_eq_of_cons_eq same) notComma
  | cons a more ih =>
    cases l' with
    | nil => exact absurd (List.head_eq_of_cons_eq same).symm notComma
    | cons b more' =>
      obtain ⟨own, legibleMore⟩ := List.forall_mem_cons.mp legible
      obtain ⟨other, othersMore⟩ := List.forall_mem_cons.mp others
      simp only [List.flatMap_cons, List.cons_append, List.append_assoc, List.cons.injEq,
        true_and] at same
      obtain ⟨rfl, behind⟩ := own b _ _ other (stops_list plain more rest)
        (stops_list plain more' rest') same
      obtain ⟨rfl, rests⟩ := ih legibleMore othersMore behind
      exact ⟨rfl, rests⟩

/-- A list in brackets is read thing by thing. -/
theorem joined_inj (plain : isNumeral close = false) (notComma : close ≠ ',')
    (opens : ∀ b, ∃ c more, text b = c :: more ∧ c ≠ close)
    (legible : ∀ a ∈ l, Legible text among a) (others : ∀ b ∈ l', among b)
    (same : joined text l ++ close :: rest = joined text l' ++ close :: rest') :
    l = l' ∧ rest = rest' := by
  have begins (b : α) (more rest : List Char) : close :: rest ≠ text b ++ more := by
    obtain ⟨c, tail, begin, differs⟩ := opens b
    rw [begin]
    exact fun same => differs (List.head_eq_of_cons_eq same).symm
  cases l with
  | nil =>
    cases l' with
    | nil => exact ⟨rfl, List.tail_eq_of_cons_eq same⟩
    | cons b more' =>
      rw [joined, joined, List.append_assoc] at same
      exact absurd same (begins b _ rest)
  | cons a more =>
    cases l' with
    | nil =>
      rw [joined, joined, List.append_assoc] at same
      exact absurd same.symm (begins a _ rest')
    | cons b more' =>
      exact more_inj plain notComma legible others (congrArg (',' :: ·) same)

end Lists

theorem renderItems_eq (items : List Json) : renderItems items = joined render items := by
  have more (items : List Json) :
      renderMoreItems items = items.flatMap fun v => ',' :: render v := by
    induction items with
    | nil => rfl
    | cons v rest ih =>
      rw [renderMoreItems, ih]
      rfl
  cases items with
  | nil => rfl
  | cons v rest => rw [renderItems, joined, more]

/-- The text of a field. -/
def fieldText (f : String × Json) : List Char := quote f.1 ++ ':' :: f.2.render

theorem renderFields_eq (fields : List (String × Json)) :
    renderFields fields = joined fieldText fields := by
  have more (fields : List (String × Json)) :
      renderMoreFields fields = fields.flatMap fun f => ',' :: fieldText f := by
    induction fields with
    | nil => rfl
    | cons f rest ih =>
      rw [renderMoreFields, ih, List.flatMap_cons, fieldText]
      simp
  cases fields with
  | nil => rfl
  | cons f rest =>
    rw [renderFields, joined, more, fieldText]
    simp

/-- No text of a value begins with a closing bracket. -/
theorem render_opens (v : Json) : ∃ c more, v.render = c :: more ∧ c ≠ ']' := by
  obtain ⟨c, more, text, kind⟩ := exists_render_eq_cons v
  refine ⟨c, more, text, ?_⟩
  rintro rfl
  cases kind

/-! ## Values in any depth -/

/-- Whether a number stands somewhere in a value. -/
inductive HasNumber (n : Number) : Json → Prop
  | number : HasNumber n (.number n)
  | array {items : List Json} {v : Json} (member : v ∈ items) (inside : HasNumber n v) :
      HasNumber n (.array items)
  | object {fields : List (String × Json)} {f : String × Json} (member : f ∈ fields)
      (inside : HasNumber n f.2) : HasNumber n (.object fields)

section HasNumber

variable {n m : Number} {b : Bool} {s : String} {items : List Json} {fields : List (String × Json)}

@[simp] theorem not_hasNumber_null : ¬ HasNumber n .null := nofun

@[simp] theorem not_hasNumber_bool : ¬ HasNumber n (.bool b) := nofun

@[simp] theorem not_hasNumber_string : ¬ HasNumber n (.string s) := nofun

@[simp] theorem hasNumber_number_iff : HasNumber n (.number m) ↔ n = m := by
  constructor
  · rintro ⟨⟩
    rfl
  · rintro rfl
    exact .number

@[simp] theorem hasNumber_array_iff :
    HasNumber n (.array items) ↔ ∃ v ∈ items, HasNumber n v := by
  constructor
  · intro h
    cases h with
    | array member inside => exact ⟨_, member, inside⟩
  · rintro ⟨v, member, inside⟩
    exact .array member inside

@[simp] theorem hasNumber_object_iff :
    HasNumber n (.object fields) ↔ ∃ f ∈ fields, HasNumber n f.2 := by
  constructor
  · intro h
    cases h with
    | object member inside => exact ⟨_, member, inside⟩
  · rintro ⟨f, member, inside⟩
    exact .object member inside

end HasNumber

/-- Sorting the fields of objects brings no numbers in. -/
theorem HasNumber.of_canonical {n : Number} {v : Json} (h : HasNumber n v.canonical) :
    HasNumber n v := by
  induction v using inductionOn with
  | array items ih =>
    rw [canonical, canonicalItems_eq, hasNumber_array_iff] at h
    obtain ⟨_, member, inside⟩ := h
    obtain ⟨v, listed, rfl⟩ := List.mem_map.mp member
    exact .array listed (ih v listed inside)
  | object fields ih =>
    rw [canonical, ofFields, canonicalFields_eq, hasNumber_object_iff] at h
    obtain ⟨_, member, inside⟩ := h
    obtain ⟨f, given, rfl⟩ := List.mem_map.mp (Ordered.mem_of_mem_ofList member)
    exact .object given (ih f given inside)
  | _ => exact h

/-- Whether all numbers in a value belong to a set. -/
def NumbersIn (numbers : Set Number) (v : Json) : Prop := ∀ n, HasNumber n v → n ∈ numbers

variable {numbers : Set Number}

theorem legible_field {f : String × Json} (legible : Legible render (NumbersIn numbers) f.2) :
    Legible fieldText (fun f => NumbersIn numbers f.2) f := by
  rintro ⟨name, w⟩ rest rest' others stops stops' same
  obtain ⟨own, v⟩ := f
  simp only [fieldText, List.append_assoc, List.cons_append] at same
  obtain ⟨rfl, behind⟩ := quote_append_inj same
  obtain ⟨rfl, rests⟩ := legible w rest rest' others stops stops' (List.tail_eq_of_cons_eq behind)
  exact ⟨rfl, rests⟩

/-- The text of a value tells where it ends and which value it is, among the values whose numbers
have different texts. -/
theorem legible_render (distinct : numbers.InjOn Number.text) {v : Json}
    (own : NumbersIn numbers v) : Legible render (NumbersIn numbers) v := by
  induction v using inductionOn with
  | null =>
    intro w rest rest' _ _ _ same
    have kinds := kind_eq_of_render same
    cases w with
    | null => exact ⟨rfl, List.append_cancel_left same⟩
    | _ => cases kinds
  | bool b =>
    intro w rest rest' _ _ _ same
    have kinds := kind_eq_of_render same
    cases w with
    | bool b' =>
      cases b <;> cases b'
      · exact ⟨rfl, List.append_cancel_left same⟩
      · exact absurd (List.head_eq_of_cons_eq same) (by decide)
      · exact absurd (List.head_eq_of_cons_eq same) (by decide)
      · exact ⟨rfl, List.append_cancel_left same⟩
    | _ => cases kinds
  | number n =>
    intro w rest rest' others stops stops' same
    have kinds := kind_eq_of_render same
    cases w with
    | number m =>
      obtain ⟨texts, rests⟩ :=
        numeral_append_inj (allNumeral_text n) (allNumeral_text m) stops stops' same
      exact ⟨congrArg _ (distinct (own n .number) (others m .number) texts), rests⟩
    | _ => cases kinds
  | string s =>
    intro w rest rest' _ _ _ same
    have kinds := kind_eq_of_render same
    cases w with
    | string s' =>
      obtain ⟨rfl, rests⟩ := quote_append_inj same
      exact ⟨rfl, rests⟩
    | _ => cases kinds
  | array items ih =>
    intro w rest rest' others _ _ same
    have kinds := kind_eq_of_render same
    cases w with
    | array items' =>
      simp only [render, List.cons_append, List.append_assoc, List.cons.injEq, true_and,
        List.nil_append, renderItems_eq] at same
      obtain ⟨rfl, rests⟩ := joined_inj rfl (by decide) render_opens
        (fun v member => ih v member fun n inside => own n (.array member inside))
        (fun v member n inside => others n (.array member inside)) same
      exact ⟨rfl, rests⟩
    | _ => cases kinds
  | object fields ih =>
    intro w rest rest' others _ _ same
    have kinds := kind_eq_of_render same
    cases w with
    | object fields' =>
      simp only [render, List.cons_append, List.append_assoc, List.cons.injEq, true_and,
        List.nil_append, renderFields_eq] at same
      obtain ⟨rfl, rests⟩ := joined_inj rfl (by decide) (fun f => ⟨_, _, rfl, by decide⟩)
        (fun f member => legible_field (ih f member fun n inside => own n (.object member inside)))
        (fun f member n inside => others n (.object member inside)) same
      exact ⟨rfl, rests⟩
    | _ => cases kinds

/-- The text of a value is the text of no other value. -/
theorem text_inj (distinct : numbers.InjOn Number.text) {v w : Json} (own : NumbersIn numbers v)
    (others : NumbersIn numbers w) (same : v.text = w.text) : v = w := by
  refine (legible_render distinct own w [] [] others nofun nofun ?_).1
  rw [List.append_nil, List.append_nil]
  exact String.ofList_injective same

/-- Fields that are all texts. -/
def textFields (fields : List (String × String)) : List (String × Json) :=
  fields.map fun f => (f.1, .string f.2)

theorem text_textFields_inj {fields fields' : List (String × String)}
    (same : (Json.object (textFields fields)).text = (Json.object (textFields fields')).text) :
    fields = fields' := by
  have none (fields : List (String × String)) : NumbersIn ∅ (.object (textFields fields)) := by
    simp [NumbersIn, textFields]
  have objects := text_inj (Set.injOn_empty _) (none fields) (none fields') same
  refine List.map_injective_iff.mpr ?_ (Json.object.inj objects)
  rintro ⟨name, text⟩ ⟨name', text'⟩ same
  simpa using same

/-- The canonical texts of two values are the same exactly if the values are, unless different
numbers in them have one text. -/
theorem text_canonical_inj {v w : Json}
    (distinct : {n | HasNumber n v ∨ HasNumber n w}.InjOn Number.text) :
    v.canonical.text = w.canonical.text ↔ Same v w := by
  rw [← canonical_eq_iff]
  constructor
  · intro same
    have own : NumbersIn {n | HasNumber n v ∨ HasNumber n w} v.canonical :=
      fun n inside => .inl inside.of_canonical
    have others : NumbersIn {n | HasNumber n v ∨ HasNumber n w} w.canonical :=
      fun n inside => .inr inside.of_canonical
    exact text_inj distinct own others same
  · exact congrArg text

end CacheDepot.Json
