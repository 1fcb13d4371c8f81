import CacheDepot.Json.Reader

/-!
# Texts in quotes are unambiguous

Whoever reads a text in quotes that was written by `Json.quote` takes in its characters one after
the other and stops at the closing quotation mark, whatever follows it. So two such texts are the
same only if they were written for one text, also where more is written behind them.
-/

namespace CacheDepot.Json

theorem hexDigit?_hexDigit : ∀ n < 16, hexDigit? (hexDigit n) = some n := by decide

theorem utf8Size_hexDigit : ∀ n < 16, (hexDigit n).utf8Size = 1 := by decide

namespace Quoted

variable {q : Quoted}

/-- Reads up to the closing quotation mark: the text in quotes, and what follows it. -/
def read? (q : Quoted) : List Char → Option (Quoted × List Char)
  | [] => none
  | c :: rest =>
    match q.next c with
    | .grows q => q.read? rest
    | .closes q => some (q, rest)
    | .breaks _ => none

theorem read?_cons_of_grows {r : Quoted} {c : Char} (grows : q.next c = .grows r)
    (rest : List Char) : q.read? (c :: rest) = r.read? rest := by
  rw [read?, grows]

/-- The four digits of a control character are taken in as this character. -/
theorem read?_code (q : Quoted) {n : Nat} (small : n < 32) (rest : List Char) :
    ({ q with part := .escape } : Quoted).read?
        ('u' :: '0' :: '0' :: hexDigit (n / 16) :: hexDigit (n % 16) :: rest) =
      (q.add (Char.ofNat n)).read? rest := by
  have high := hexDigit?_hexDigit (n / 16) (by omega)
  have low := hexDigit?_hexDigit (n % 16) (by omega)
  have wide := utf8Size_hexDigit (n / 16) (by omega)
  have wide' := utf8Size_hexDigit (n % 16) (by omega)
  have whole : n / 16 * 16 + n % 16 = n := by omega
  have unpaired : isFirstHalf n = false ∧ isSecondHalf n = false := by
    simp [isFirstHalf, isSecondHalf]
    omega
  rw [read?_cons_of_grows (r := { q with part := .hex 0 (some 0) none }) rfl,
    read?_cons_of_grows (r := { q with part := .hex 1 (some 0) none }) rfl,
    read?_cons_of_grows (r := { q with part := .hex 2 (some 0) none }) rfl,
    read?_cons_of_grows (r := { q with part := .hex 3 (some (n / 16)) none }),
    read?_cons_of_grows (r := q.add (Char.ofNat n))]
  · simp [next, nextHex, low, wide', whole, takeCode, unpaired, add]
  · simp [next, nextHex, high, wide]

/-- The characters that are written as a backslash and a letter or mark. -/
def shortEscapes : List Char := ['"', '\\', '\x08', '\x0c', '\n', '\r', '\t']

/-- A character that was written is taken in. -/
theorem read?_escapeChar (plain : q.part = .plain) (c : Char) (rest : List Char) :
    q.read? (escapeChar c ++ rest) = (q.add c).read? rest := by
  obtain ⟨part, chars, spoiled⟩ := q
  cases plain
  by_cases short : c ∈ shortEscapes
  · simp only [shortEscapes, List.mem_cons, List.not_mem_nil, or_false] at short
    rcases short with rfl | rfl | rfl | rfl | rfl | rfl | rfl <;> rfl
  · simp only [shortEscapes, List.mem_cons, List.not_mem_nil, or_false, not_or] at short
    obtain ⟨quotation, backslash, others⟩ := short
    by_cases control : c.toNat < 32
    · have code := read?_code ⟨.plain, chars, spoiled⟩ control rest
      rw [Char.ofNat_toNat] at code
      simp only [escapeChar, quotation, backslash, others, control, if_true, if_false]
      exact code
    · simp only [escapeChar, quotation, backslash, others, control, if_false]
      apply read?_cons_of_grows
      simp [next, nextPlain, quotation, backslash, control]

/-- Reading takes in what was written and stops after the closing quotation mark. -/
theorem read?_escaped (plain : q.part = .plain) (cs rest : List Char) :
    q.read? (cs.flatMap escapeChar ++ '"' :: rest) =
      some ({ q with chars := cs.reverse ++ q.chars }, rest) := by
  induction cs generalizing q with
  | nil =>
    obtain ⟨part, chars, spoiled⟩ := q
    cases plain
    rfl
  | cons c more ih =>
    rw [List.flatMap_cons, List.append_assoc, read?_escapeChar plain, ih rfl, add,
      List.reverse_cons, List.append_assoc, plain]
    rfl

theorem read?_quote (s : String) (rest : List Char) :
    read? {} ((quote s ++ rest).tail) = some ({ chars := s.toList.reverse }, rest) := by
  rw [quote, List.cons_append, List.append_assoc, List.tail_cons]
  exact (read?_escaped rfl s.toList rest).trans (by rw [List.append_nil])

end Quoted

/-- A text in quotes tells where it ends, and no other text is written like it. -/
theorem quote_append_inj {s s' : String} {rest rest' : List Char}
    (same : quote s ++ rest = quote s' ++ rest') : s = s' ∧ rest = rest' := by
  have read := Quoted.read?_quote s rest
  rw [same, Quoted.read?_quote, Option.some.injEq, Prod.mk.injEq, Quoted.mk.injEq,
    List.reverse_inj, String.toList_inj] at read
  exact ⟨read.1.2.1.symm, read.2.symm⟩

end CacheDepot.Json
