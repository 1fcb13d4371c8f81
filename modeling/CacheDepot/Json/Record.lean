import CacheDepot.Json.Draft

/-!
# Reading records

A record is read from an object by the names of its fields, or from an array by their order.
Names that are not the record's are passed over, a second value for one field is refused when
its name is met, and an array may not be longer than the record.
-/

namespace CacheDepot.Json.Draft

/-- The fault of meeting this value where one of another kind is wanted. Texts and numbers are
read before they are judged; arrays and objects are refused at their first character. -/
def mismatch : Draft → Fault
  | .number none | .string none => .malformed
  | .broken c => c.read
  | _ => .mismatched

/-- The fields of a record and how each is put into the state that collects them. -/
structure RecordShape (σ : Type) where
  names : List String
  put : Nat → Draft → σ → Except Fault σ

namespace RecordShape

variable {σ : Type}

/-- Reads the fields of an object; `seen` holds the positions already read. -/
def readFields (shape : RecordShape σ) (seen : List Nat) (state : σ) :
    List (Option String × Draft) → Except Fault σ
  | [] => .ok state
  | (none, _) :: _ => .error .malformed
  | (some name, v) :: rest =>
    match shape.names.idxOf? name with
    | none => do
      v.skip
      shape.readFields seen state rest
    | some i =>
      if seen.contains i then .error .mismatched
      else do
        let state ← shape.put i v state
        shape.readFields (i :: seen) state rest

/-- A field that has not been met is put into the state. -/
theorem readFields_cons {shape : RecordShape σ} {seen : List Nat} {state state' : σ}
    {name : String} {i : Nat} {v : Draft} (known : shape.names.idxOf? name = some i)
    (fresh : seen.contains i = false) (taken : shape.put i v state = .ok state')
    (rest : List (Option String × Draft)) :
    shape.readFields seen state ((some name, v) :: rest) =
      shape.readFields (i :: seen) state' rest := by
  rw [readFields, known]
  dsimp only
  rw [fresh, taken]
  rfl

/-- Reads the items of an array, the first of which belongs to field `i`. -/
def readItems (shape : RecordShape σ) (i : Nat) (state : σ) : List Draft → Except Fault σ
  | [] => .ok state
  | v :: rest =>
    if i < shape.names.length then do
      let state ← shape.put i v state
      shape.readItems (i + 1) state rest
    else .error .malformed

/-- Reads the fields of a record into `state`. Which fields must be there is for the caller to
check. -/
def read (shape : RecordShape σ) (state : σ) : Draft → Except Fault σ
  | .object fields cut => do
    let state ← shape.readFields [] state fields
    stopped cut
    .ok state
  | .array items cut => do
    let state ← shape.readItems 0 state items
    stopped cut
    .ok state
  | other => .error other.mismatch

end RecordShape

/-- A field that must be there. -/
def required {α : Type} : Option α → Except Fault α
  | some x => .ok x
  | none => .error .mismatched

/-- A text. -/
def text : Draft → Except Fault String
  | .string (some s) => .ok s
  | other => .error other.mismatch

/-- An integer within bounds. -/
def integer (least greatest : Int) : Draft → Except Fault Int
  | .number (some (.int i)) =>
    if least ≤ i ∧ i ≤ greatest then .ok i else .error .mismatched
  | other => .error other.mismatch

theorem integer_ofJson {least greatest i : Int} (above : least ≤ i) (below : i ≤ greatest) :
    integer least greatest (.ofJson (.ofInt i)) = .ok i :=
  if_pos ⟨above, below⟩

/-- A value or `null`. -/
def optional {α : Type} (read : Draft → Except Fault α) : Draft → Except Fault (Option α)
  | .null => .ok none
  | other => (read other).map some

/-- A list of values. -/
def list {α : Type} (read : Draft → Except Fault α) : Draft → Except Fault (List α)
  | .array items cut => do
    let xs ← items.mapM read
    stopped cut
    .ok xs
  | other => .error other.mismatch

end CacheDepot.Json.Draft
