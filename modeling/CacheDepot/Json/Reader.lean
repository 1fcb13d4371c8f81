import CacheDepot.Json.Draft

/-!
# Reading JSON texts

A text is read one character at a time by a machine that keeps the unfinished arrays and
objects on a stack. `Draft.ofText` runs it over a whole text. Nothing is ever refused here:
where the text stops being JSON the machine halts, and the draft ends there.
-/

namespace CacheDepot.Json

/-- The blanks between the parts of a text. -/
def isBlank (c : Char) : Bool :=
  c == ' ' || c == '\t' || c == '\n' || c == '\r'

/-- The value of a decimal digit. -/
def digit? (c : Char) : Option Nat :=
  if '0' ≤ c ∧ c ≤ '9' then some (c.toNat - 48) else none

/-- The value of a hexadecimal digit of either case. -/
def hexDigit? (c : Char) : Option Nat :=
  if '0' ≤ c ∧ c ≤ '9' then some (c.toNat - 48)
  else if 'a' ≤ c ∧ c ≤ 'f' then some (c.toNat - 87)
  else if 'A' ≤ c ∧ c ≤ 'F' then some (c.toNat - 55)
  else none

/-! ## Numerals -/

/-- The part of a numeral that was read last. -/
inductive NumeralPart where
  | sign | zero | whole | point | fraction | mark | markSign | power
  deriving DecidableEq, Repr

/-- A numeral that may go on; its digits are kept last first. -/
structure Numeral where
  part : NumeralPart
  negative : Bool
  whole : List Nat := []
  fraction : List Nat := []
  powerNegative : Bool := false
  power : Nat := 0
  deriving DecidableEq, Repr

/-- What a character does to a numeral. -/
inductive Numeral.Next where
  | grows (numeral : Numeral)
  /-- The character does not belong to the numeral, which is complete. -/
  | stops
  | breaks
  deriving DecidableEq, Repr

namespace Numeral

/-- Starts a numeral. -/
def start? (c : Char) : Option Numeral :=
  if c = '-' then some { part := .sign, negative := true }
  else if c = '0' then some { part := .zero, negative := false, whole := [0] }
  else (digit? c).map fun d => { part := .whole, negative := false, whole := [d] }

/-- Whether the numeral may end here. -/
def isComplete (n : Numeral) : Bool :=
  match n.part with
  | .zero | .whole | .fraction | .power => true
  | .sign | .point | .mark | .markSign => false

/-- What follows the digits before the point. -/
def afterWhole (n : Numeral) (c : Char) : Next :=
  if c = '.' then .grows { n with part := .point }
  else if c = 'e' ∨ c = 'E' then .grows { n with part := .mark }
  else .stops

/-- From here on an exponent makes every number too large or zero, whatever its digits. -/
def powerLimit : Nat := 2147483648

/-- Adds a digit of the exponent, which is not counted beyond its limit. -/
def addPower (n : Numeral) (d : Nat) : Next :=
  .grows { n with part := .power, power := min (n.power * 10 + d) powerLimit }

/-- The effect of the next character. -/
def next (n : Numeral) (c : Char) : Next :=
  match n.part, digit? c with
  | .sign, some 0 => .grows { n with part := .zero, whole := [0] }
  | .sign, some d => .grows { n with part := .whole, whole := [d] }
  | .sign, none => .breaks
  | .zero, some _ => .breaks
  | .zero, none => n.afterWhole c
  | .whole, some d => .grows { n with whole := d :: n.whole }
  | .whole, none => n.afterWhole c
  | .point, some d => .grows { n with part := .fraction, fraction := [d] }
  | .point, none => .breaks
  | .fraction, some d => .grows { n with fraction := d :: n.fraction }
  | .fraction, none =>
    if c = 'e' ∨ c = 'E' then .grows { n with part := .mark } else .stops
  | .mark, some d => n.addPower d
  | .mark, none =>
    if c = '+' then .grows { n with part := .markSign }
    else if c = '-' then .grows { n with part := .markSign, powerNegative := true }
    else .breaks
  | .markSign, some d => n.addPower d
  | .markSign, none => .breaks
  | .power, some d => n.addPower d
  | .power, none => .stops

/-- The number that was written. -/
def number? (n : Numeral) : Option Number :=
  NumeralParts.number? {
    negative := n.negative
    whole := n.whole.reverse
    isReal := n.part = .fraction ∨ n.part = .power
    fraction := n.fraction.reverse
    power := if n.powerNegative then -(n.power : Int) else n.power }

end Numeral

/-! ## Texts in quotes -/

/-- Where in a text in quotes the machine stands. -/
inductive QuotedPart where
  | plain
  /-- After a backslash. -/
  | escape
  /-- Inside the four digits of an escape: how many bytes of them are read, their value while
  all are digits, and the first half of a character if this must be its second half. -/
  | hex (bytes : Nat) (code : Option Nat) (half : Option Nat)
  /-- After the first half of a character. -/
  | afterHalf (half : Nat)
  /-- After the first half of a character and a backslash. -/
  | escapeAfterHalf (half : Nat)
  deriving DecidableEq, Repr

/-- A text in quotes that goes on; its characters are kept last first. -/
structure Quoted where
  part : QuotedPart := .plain
  chars : List Char := []
  /-- Whether an escape spelled half a character. -/
  spoiled : Bool := false
  deriving DecidableEq, Repr

/-- What a character does to a text in quotes. -/
inductive Quoted.Next where
  | grows (quoted : Quoted)
  | closes (quoted : Quoted)
  | breaks (quoted : Quoted)
  deriving DecidableEq, Repr

namespace Quoted

/-- Adds a character and goes on. -/
def add (q : Quoted) (c : Char) : Quoted :=
  { q with part := .plain, chars := c :: q.chars }

/-- A character outside escapes. -/
def nextPlain (q : Quoted) (c : Char) : Next :=
  if c = '"' then .closes q
  else if c = '\\' then .grows { q with part := .escape }
  else if c.toNat < 32 then .breaks q
  else .grows (q.add c)

/-- The character after a backslash. -/
def nextEscape (q : Quoted) (c : Char) : Next :=
  if c = '"' ∨ c = '\\' ∨ c = '/' then .grows (q.add c)
  else if c = 'b' then .grows (q.add '\x08')
  else if c = 'f' then .grows (q.add '\x0c')
  else if c = 'n' then .grows (q.add '\n')
  else if c = 'r' then .grows (q.add '\r')
  else if c = 't' then .grows (q.add '\t')
  else if c = 'u' then .grows { q with part := .hex 0 (some 0) none }
  else .breaks q

/-- Whether a code is the first half of a character. -/
def isFirstHalf (code : Nat) : Bool := 0xD800 ≤ code && code ≤ 0xDBFF

/-- Whether a code is the second half of a character. -/
def isSecondHalf (code : Nat) : Bool := 0xDC00 ≤ code && code ≤ 0xDFFF

/-- A whole escape of four digits was read. -/
def takeCode (q : Quoted) (code : Nat) : Option Nat → Quoted
  | none =>
    if isFirstHalf code then { q with part := .afterHalf code }
    else if isSecondHalf code then { q with part := .plain, spoiled := true }
    else q.add (Char.ofNat code)
  | some half =>
    if isSecondHalf code then
      q.add (Char.ofNat (0x10000 + (half - 0xD800) * 0x400 + (code - 0xDC00)))
    else { q with part := .plain, spoiled := true }

/-- A character inside the four digits of an escape. Too few bytes before the end of the text
count as an early end, so digits are judged only when four bytes are there. -/
def nextHex (q : Quoted) (bytes : Nat) (code : Option Nat) (half : Option Nat) (c : Char) :
    Next :=
  let bytes := bytes + c.utf8Size
  let code := do
    let high ← code
    let low ← hexDigit? c
    pure (high * 16 + low)
  if bytes < 4 then .grows { q with part := .hex bytes code half }
  else match code with
    | some code => .grows (q.takeCode code half)
    | none => .breaks q

/-- The effect of the next character. A first half that no second half follows spoils the text,
and the character is then taken as if nothing had been expected. -/
def next (q : Quoted) (c : Char) : Next :=
  match q.part with
  | .plain => q.nextPlain c
  | .escape => q.nextEscape c
  | .hex bytes code half => q.nextHex bytes code half c
  | .afterHalf half =>
    if c = '\\' then .grows { q with part := .escapeAfterHalf half }
    else ({ q with spoiled := true } : Quoted).nextPlain c
  | .escapeAfterHalf half =>
    if c = 'u' then .grows { q with part := .hex 0 (some 0) (some half) }
    else ({ q with spoiled := true } : Quoted).nextEscape c

/-- The text that was written, if every escape spelled a character. -/
def text? (q : Quoted) : Option String :=
  if q.spoiled then none else some (String.ofList q.chars.reverse)

/-- A fault inside the quotes. A reader who wants the text has met a spoiled escape first. -/
def cut (q : Quoted) (fault : Fault) : Cut :=
  ⟨if q.spoiled then .malformed else fault, fault⟩

end Quoted

/-! ## The machine -/

/-- An array or object whose end is not read yet; its parts are kept last first. -/
inductive Frame where
  | items (done : List Draft)
  | fields (done : List (Option String × Draft))
  /-- An object in which the value of a field is awaited. -/
  | field (done : List (Option String × Draft)) (name : Option String)

/-- What the machine expects or is inside of. -/
inductive Mode where
  | value
  /-- A value or the end of an array. -/
  | firstItem
  /-- A field or the end of an object. -/
  | firstField
  /-- A field, after a comma. -/
  | nextField
  | colon (name : Option String)
  /-- A comma or the end of an array or object. -/
  | separator
  | literal (left : List Char) (value : Draft)
  | numeral (n : Numeral)
  | quoted (q : Quoted)
  | quotedName (q : Quoted)
  /-- A whole value was read, and whether anything but blanks followed it. -/
  | finished (value : Draft) (trailing : Bool)
  /-- The text stopped being JSON inside or before a value. -/
  | valueBroken (cut : Cut)
  /-- The text stopped being JSON between the parts of an array or object. -/
  | partsBroken (cut : Cut)

/-- A reader of JSON texts. -/
structure Reader where
  stack : List Frame
  mode : Mode

namespace Reader

/-- Before the first character. -/
def start : Reader := ⟨[], .value⟩

/-- Hands a finished value to the array or object around it. -/
def give (stack : List Frame) (v : Draft) : Reader :=
  match stack with
  | [] => ⟨[], .finished v false⟩
  | .items done :: rest => ⟨.items (v :: done) :: rest, .separator⟩
  | .field done name :: rest => ⟨.fields ((name, v) :: done) :: rest, .separator⟩
  | .fields done :: rest => ⟨.fields done :: rest, .partsBroken (.both .malformed)⟩

/-- Ends the innermost array or object, if `c` is the end of one of its kind. -/
def endParts (stack : List Frame) (c : Char) : Reader :=
  match stack with
  | .items done :: rest =>
    if c = ']' then give rest (.array done.reverse none)
    else ⟨stack, .partsBroken (.both .malformed)⟩
  | .fields done :: rest =>
    if c = '\x7d' then give rest (.object done.reverse none)
    else ⟨stack, .partsBroken (.both .malformed)⟩
  | _ => ⟨stack, .partsBroken (.both .malformed)⟩

/-- The first character of a value. -/
def beginValue (stack : List Frame) (c : Char) : Reader :=
  if c = '[' then ⟨.items [] :: stack, .firstItem⟩
  else if c = '\x7b' then ⟨.fields [] :: stack, .firstField⟩
  else if c = '"' then ⟨stack, .quoted {}⟩
  else if c = 'n' then ⟨stack, .literal ['u', 'l', 'l'] .null⟩
  else if c = 't' then ⟨stack, .literal ['r', 'u', 'e'] (.bool true)⟩
  else if c = 'f' then ⟨stack, .literal ['a', 'l', 's', 'e'] (.bool false)⟩
  else match Numeral.start? c with
    | some n => ⟨stack, .numeral n⟩
    | none => ⟨stack, .valueBroken (.both .malformed)⟩

/-- The first character of a field. -/
def beginField (stack : List Frame) (c : Char) : Reader :=
  if c = '"' then ⟨stack, .quotedName {}⟩ else ⟨stack, .partsBroken (.both .malformed)⟩

/-- A character after a whole value. -/
def afterValue (r : Reader) (c : Char) : Reader :=
  match r.mode with
  | .finished v trailing => ⟨r.stack, .finished v (trailing || !isBlank c)⟩
  | .separator =>
    if isBlank c then r
    else if c = ',' then
      match r.stack with
      | .items done :: rest => ⟨.items done :: rest, .value⟩
      | stack => ⟨stack, .nextField⟩
    else endParts r.stack c
  | _ => r

/-- The character after a field's name. -/
def afterName (stack : List Frame) (name : Option String) (c : Char) : Reader :=
  match stack with
  | .fields done :: rest =>
    if c = ':' then ⟨.field done name :: rest, .value⟩
    else ⟨.field done name :: rest, .valueBroken (.both .malformed)⟩
  | _ => ⟨stack, .partsBroken (.both .malformed)⟩

/-- Reads one character. -/
def step (r : Reader) (c : Char) : Reader :=
  match r.mode with
  | .value => if isBlank c then r else beginValue r.stack c
  | .firstItem =>
    if isBlank c then r else if c = ']' then endParts r.stack c else beginValue r.stack c
  | .firstField =>
    if isBlank c then r else if c = '\x7d' then endParts r.stack c else beginField r.stack c
  | .nextField => if isBlank c then r else beginField r.stack c
  | .colon name => if isBlank c then r else afterName r.stack name c
  | .separator | .finished _ _ => afterValue r c
  | .literal [] v => afterValue (give r.stack v) c
  | .literal (expected :: left) v =>
    if c = expected then
      if left.isEmpty then give r.stack v else ⟨r.stack, .literal left v⟩
    else ⟨r.stack, .valueBroken (.both .malformed)⟩
  | .numeral n =>
    match n.next c with
    | .grows n => ⟨r.stack, .numeral n⟩
    | .stops => afterValue (give r.stack (.number n.number?)) c
    | .breaks => ⟨r.stack, .valueBroken (.both .malformed)⟩
  | .quoted q =>
    match q.next c with
    | .grows q => ⟨r.stack, .quoted q⟩
    | .closes q => give r.stack (.string q.text?)
    | .breaks q => ⟨r.stack, .valueBroken (q.cut .malformed)⟩
  | .quotedName q =>
    match q.next c with
    | .grows q => ⟨r.stack, .quotedName q⟩
    | .closes q => ⟨r.stack, .colon q.text?⟩
    | .breaks q => ⟨r.stack, .partsBroken (q.cut .malformed)⟩
  | .valueBroken _ | .partsBroken _ => r

/-- Reads characters one after the other. -/
def run (r : Reader) (cs : List Char) : Reader := cs.foldl step r

/-! ## The end of the text -/

/-- Puts the last part into the arrays and objects around it. -/
def close (v : Draft) : List Frame → Draft
  | [] => v
  | .items done :: rest => close (.array (v :: done).reverse none) rest
  | .field done name :: rest => close (.object ((name, v) :: done).reverse none) rest
  | .fields done :: rest => close (.object done.reverse (some (.both .malformed))) rest

/-- Cuts the innermost array or object between two parts. -/
def closeParts (cut : Cut) : List Frame → Draft
  | [] => .broken cut
  | .items done :: rest => close (.array done.reverse (some cut)) rest
  | .fields done :: rest => close (.object done.reverse (some cut)) rest
  | .field done name :: rest => close (.object ((name, .broken cut) :: done).reverse none) rest

/-- A numeral that misses digits at the end of the text. Who reads the number waits for more of
it; who skips it looks for a digit and finds none. -/
def cutNumeral : Cut := ⟨.ended, .malformed⟩

/-- The value read so far, and whether anything followed it. -/
def finish (r : Reader) : Draft × Bool :=
  let early : Cut := .both .ended
  match r.mode with
  | .finished v trailing => (v, trailing)
  | .numeral n =>
    if n.isComplete then
      match give r.stack (.number n.number?) with
      | ⟨_, .finished v trailing⟩ => (v, trailing)
      | ⟨stack, _⟩ => (closeParts early stack, false)
    else (close (.broken cutNumeral) r.stack, false)
  | .value | .literal _ _ => (close (.broken early) r.stack, false)
  | .firstItem | .firstField | .nextField | .separator => (closeParts early r.stack, false)
  | .colon name =>
    match r.stack with
    | .fields done :: rest => (close (.broken early) (.field done name :: rest), false)
    | stack => (closeParts early stack, false)
  | .quoted q => (close (.broken (q.cut .ended)) r.stack, false)
  | .quotedName q => (closeParts (q.cut .ended) r.stack, false)
  | .valueBroken cut => (close (.broken cut) r.stack, false)
  | .partsBroken cut => (closeParts cut r.stack, false)

end Reader

/-- What a text says, and whether anything but blanks follows its value. -/
def Draft.ofText (text : String) : Draft × Bool :=
  (Reader.start.run text.toList).finish

/-- Reads a text that holds one value and nothing else. -/
def Draft.whole {α : Type} (read : Draft → Except Fault α) (text : String) : Except Fault α := do
  let (draft, trailing) := ofText text
  let result ← read draft
  if trailing then .error .malformed else .ok result

/-- Reads a text that starts with a value, whatever follows it. -/
def Draft.leading {α : Type} (read : Draft → Except Fault α) (text : String) : Except Fault α :=
  read (ofText text).1

/-- The value of a JSON text. -/
def parse (text : String) : Except Fault Json :=
  Draft.whole (Draft.value 0) text

end CacheDepot.Json
