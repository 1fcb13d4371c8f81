import CacheDepot.Json.Reader

/-!
# Integers are read as they are written

A numeral takes in one digit after the other, and as long as the digits fit 64 bits nothing of them
is lost. So the text of an integer from `-2 ^ 63` up to `2 ^ 64 - 1` is read as this integer.
-/

namespace CacheDepot.Json

namespace Numeral

/-- The numeral after these characters, if it goes on with each of them. -/
def grow? (n : Numeral) : List Char → Option Numeral
  | [] => some n
  | c :: rest =>
    match n.next c with
    | .grows n => n.grow? rest
    | .stops | .breaks => none

/-- The numeral that these characters are. -/
def ofText? : List Char → Option Numeral
  | [] => none
  | c :: rest => (start? c).bind fun n => n.grow? rest

end Numeral

/-- Whether the text of a number is read as this number. -/
def Number.ReadsBack (n : Number) : Prop :=
  ∃ numeral, Numeral.ofText? n.text = some numeral ∧ numeral.isComplete = true ∧
    numeral.number? = some n

/-! ## Digits -/

/-- The values of digits. -/
def digitValues (cs : List Char) : List Nat := cs.map fun c => c.toNat - 48

theorem digit?_of_isDigit {c : Char} (digit : c.isDigit = true) :
    digit? c = some (c.toNat - 48) :=
  if_pos (by simpa [Char.isDigit, Char.le_def] using digit)

theorem sub_ne_zero_of_isDigit {c : Char} (digit : c.isDigit = true) (positive : c ≠ '0') :
    c.toNat - 48 ≠ 0 := by
  have above : 48 ≤ c.toNat := (Char.isDigit_iff_toNat.mp digit).1
  have differs : c.toNat ≠ 48 := fun same => positive (Char.toNat_inj.mp same)
  omega

/-- The digits of a natural number that is not zero do not begin with a zero. -/
theorem ne_zero_of_naturalText {n : Nat} {c : Char} {rest : List Char} (positive : n ≠ 0)
    (text : naturalText n = c :: rest) : c ≠ '0' := by
  induction n using Nat.strongRecOn generalizing rest with
  | _ n ih =>
    rw [naturalText, Nat.toDigits_eq_if (by decide)] at text
    split at text
    · obtain ⟨rfl, -⟩ := List.cons.inj text
      exact fun zero => positive (Nat.digitChar_eq_zero.mp zero)
    · obtain ⟨first, more, begin⟩ := List.exists_cons_of_ne_nil
        (Nat.toDigits_ne_nil (n := n / 10) (b := 10))
      rw [begin, List.cons_append] at text
      obtain ⟨rfl, -⟩ := List.cons.inj text
      exact ih (n / 10) (by omega) (by omega) begin

/-- A numeral takes in all digits that follow its first. -/
theorem grow?_of_digits {cs : List Char} (digits : ∀ c ∈ cs, c.isDigit = true) (negative : Bool)
    (whole : List Nat) :
    ({ part := .whole, negative, whole } : Numeral).grow? cs =
      some { part := .whole, negative, whole := (digitValues cs).reverse ++ whole } := by
  induction cs generalizing whole with
  | nil => rfl
  | cons c rest ih =>
    obtain ⟨digit, others⟩ := List.forall_mem_cons.mp digits
    have grows : ({ part := .whole, negative, whole } : Numeral).next c =
        .grows { part := .whole, negative, whole := (c.toNat - 48) :: whole } := by
      rw [Numeral.next, digit?_of_isDigit digit]
    rw [Numeral.grow?, grows]
    dsimp only
    rw [ih others]
    simp [digitValues]

/-! ## Values -/

/-- What digits amount to when they follow others. -/
def decimalValue (start : Nat) (digits : List Nat) : Nat :=
  digits.foldl (fun n d => n * 10 + d) start

theorem le_decimalValue (start : Nat) (digits : List Nat) : start ≤ decimalValue start digits := by
  induction digits generalizing start with
  | nil => exact Nat.le_refl _
  | cons d rest ih => exact Nat.le_trans (by omega) (ih (start * 10 + d))

/-- Digits that fit the significand are all taken. -/
theorem takeWhole_of_fits {start : Nat} {digits : List Nat}
    (fits : decimalValue start digits ≤ maxNatural) :
    Scaled.takeWhole ⟨start, 0⟩ digits = ⟨decimalValue start digits, 0⟩ := by
  induction digits generalizing start with
  | nil => rfl
  | cons d rest ih =>
    have first : start * 10 + d ≤ maxNatural :=
      Nat.le_trans (le_decimalValue (start * 10 + d) rest) fits
    have taken : (⟨start, 0⟩ : Scaled).fits d = true := decide_eq_true first
    rw [Scaled.takeWhole, if_pos taken]
    exact ih fits

theorem decimalValue_naturalText (n : Nat) :
    decimalValue 0 (digitValues (naturalText n)) = n := by
  rw [decimalValue, digitValues, List.foldl_map]
  calc (naturalText n).foldl (fun n c => n * 10 + (c.toNat - 48)) 0
    _ = (naturalText n).foldl (fun n c => 10 * n + (c.toNat - 48)) 0 := by
      simp only [Nat.mul_comm]
    _ = Nat.ofDigitChars 10 (naturalText n) 0 := Nat.ofDigitChars_eq_foldl.symm
    _ = n := Nat.ofDigitChars_ten_toDigits

/-- The digits of a number that fits the significand amount to this number. -/
theorem takeWhole_naturalText {n : Nat} (fits : n ≤ maxNatural) :
    Scaled.takeWhole ⟨0, 0⟩ (digitValues (naturalText n)) = ⟨n, 0⟩ := by
  have value := decimalValue_naturalText n
  rw [takeWhole_of_fits (value.symm ▸ fits), value]

/-- The numeral of a number other than zero, with a minus sign or without. -/
def signedNumeral (negative : Bool) (n : Nat) : Numeral where
  part := .whole
  negative
  whole := (digitValues (naturalText n)).reverse

theorem number?_signedNumeral (negative : Bool) (n : Nat) :
    (signedNumeral negative n).number? =
      NumeralParts.number? ⟨negative, digitValues (naturalText n), false, [], 0⟩ := by
  rw [Numeral.number?, signedNumeral, List.reverse_reverse]
  rfl

/-! ## Integers -/

theorem readsBack_zero : (Number.int 0).ReadsBack := ⟨_, rfl, rfl, rfl⟩

/-- The digits of a positive number and what they begin with. -/
theorem exists_naturalText_eq_cons {n : Nat} (positive : n ≠ 0) :
    ∃ c rest, naturalText n = c :: rest ∧ c ≠ '0' ∧ c.isDigit = true ∧
      ∀ d ∈ rest, d.isDigit = true := by
  obtain ⟨c, rest, text⟩ := List.exists_cons_of_ne_nil (Nat.toDigits_ne_nil (n := n) (b := 10))
  have digits : ∀ d ∈ c :: rest, d.isDigit = true := fun d member =>
    Nat.isDigit_of_mem_toDigits (by decide) (by decide) (text ▸ member)
  obtain ⟨first, others⟩ := List.forall_mem_cons.mp digits
  exact ⟨c, rest, text, ne_zero_of_naturalText positive text, first, others⟩

theorem ofText?_naturalText {n : Nat} (positive : n ≠ 0) :
    Numeral.ofText? (naturalText n) = some (signedNumeral false n) := by
  obtain ⟨c, rest, text, differs, digit, others⟩ := exists_naturalText_eq_cons positive
  have notMinus : c ≠ '-' := by
    rintro rfl
    cases digit
  rw [signedNumeral, text, Numeral.ofText?, Numeral.start?, if_neg notMinus, if_neg differs,
    digit?_of_isDigit digit]
  simp [grow?_of_digits others, digitValues]

theorem ofText?_minus_naturalText {n : Nat} (positive : n ≠ 0) :
    Numeral.ofText? ('-' :: naturalText n) = some (signedNumeral true n) := by
  obtain ⟨c, rest, text, differs, digit, others⟩ := exists_naturalText_eq_cons positive
  have begins : ({ part := .sign, negative := true } : Numeral).next c =
      .grows { part := .whole, negative := true, whole := [c.toNat - 48] } := by
    have value := digit?_of_isDigit digit
    obtain ⟨d, larger⟩ := Nat.exists_eq_succ_of_ne_zero (sub_ne_zero_of_isDigit digit differs)
    rw [larger] at value ⊢
    rw [Numeral.next, value]
    rfl
  rw [signedNumeral, text, Numeral.ofText?, Numeral.start?, if_pos rfl, Option.bind_some,
    Numeral.grow?, begins]
  simp [grow?_of_digits others, digitValues]

/-- An integer that fits 64 bits, signed or unsigned, is read as it is written. -/
theorem readsBack_int {i : Int} (fits : i.natAbs ≤ maxNatural)
    (small : i < 0 → i.natAbs ≤ UInt64.size / 2) : (Number.int i).ReadsBack := by
  by_cases zero : i = 0
  · exact zero ▸ readsBack_zero
  -- zero has a numeral of its own; the digits of any other number begin with another digit
  have positive : i.natAbs ≠ 0 := Int.natAbs_ne_zero.mpr zero
  have whole := takeWhole_naturalText fits
  rw [Number.ReadsBack, Number.text, integerText]
  by_cases negative : i < 0
  · refine ⟨signedNumeral true i.natAbs, ?_, rfl, ?_⟩
    · rw [if_pos negative, ofText?_minus_naturalText positive]
    · have isSmall : (true && i.natAbs != 0 && i.natAbs ≤ UInt64.size / 2) = true := by
        simp [positive, small negative]
      have back : -(i.natAbs : Int) = i := by omega
      rw [number?_signedNumeral, NumeralParts.number?, whole]
      exact (if_pos isSmall).trans (congrArg (some ∘ Number.int) back)
  · refine ⟨signedNumeral false i.natAbs, ?_, rfl, ?_⟩
    · rw [if_neg negative, ofText?_naturalText positive]
    · have back : (i.natAbs : Int) = i := by omega
      rw [number?_signedNumeral, NumeralParts.number?, whole]
      exact congrArg (some ∘ Number.int) back

end CacheDepot.Json
