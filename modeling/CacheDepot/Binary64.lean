/-!
# Double-precision numbers, exactly

A finite double is kept as the integer and the power of two that make it up, and every
operation is one rounding of an exact ratio: to nearest, a tie to the even integer. Nothing
here depends on the machine's own arithmetic, so each result can be computed in a proof.
-/

namespace CacheDepot

/-- The number `± significand * 2 ^ exponent`. Results of `ofRatio?` are in the one form with
`2 ^ 52 ≤ significand < 2 ^ 53`, or `exponent = -1074` where that is not possible. -/
structure Binary64 where
  /-- Whether the sign bit is set; zero has a sign too. -/
  negative : Bool
  significand : Nat
  exponent : Int
  deriving DecidableEq, Repr

namespace Binary64

/-- The least exponent, that of the subnormal numbers. -/
def leastExponent : Int := -1074

/-- The exponent of the largest finite number. -/
def greatestExponent : Int := 971

/-- The least significand of a normal number, `2 ^ 52`. -/
def leastNormal : Nat := 4503599627370496

/-- Positive zero. -/
def zero : Binary64 := ⟨false, 0, leastExponent⟩

/-- The integer nearest to `num / den`; of two equally near ones the even one. -/
def roundEven (num den : Nat) : Nat :=
  let whole := num / den
  let rest := num % den
  if 2 * rest < den then whole
  else if den < 2 * rest then whole + 1
  else whole + whole % 2

/-- The ratio `num / den` in units of `2 ^ e`, again as a ratio. -/
def inUnits (num den : Nat) (e : Int) : Nat × Nat :=
  if 0 ≤ e then (num, den * Nat.pow 2 e.toNat) else (num * Nat.pow 2 (-e).toNat, den)

/-- The exponent whose units give `num / den` exactly 53 binary digits, or the least exponent
if that is larger. -/
def unitFor (num den : Nat) : Int :=
  let guess := (Nat.log2 num : Int) - (Nat.log2 den : Int) - 52
  let scaled := inUnits num den guess
  max (if scaled.1 / scaled.2 < leastNormal then guess - 1 else guess) leastExponent

/-- The double nearest to `num / den` with the given sign; `none` if it would be infinite. -/
def ofRatio? (negative : Bool) (num den : Nat) : Option Binary64 :=
  if num = 0 then some { zero with negative }
  else
    let e := unitFor num den
    let scaled := inUnits num den e
    let nearest := roundEven scaled.1 scaled.2
    let carried := if nearest = 2 * leastNormal then (leastNormal, e + 1) else (nearest, e)
    if greatestExponent < carried.2 then none
    else some ⟨negative, carried.1, carried.2⟩

/-- The double nearest to a natural number. -/
def ofNat? (n : Nat) : Option Binary64 := ofRatio? false n 1

/-- The magnitude as an exact ratio. -/
def ratio (x : Binary64) : Nat × Nat :=
  if 0 ≤ x.exponent then (x.significand * Nat.pow 2 x.exponent.toNat, 1)
  else (x.significand, Nat.pow 2 (-x.exponent).toNat)

/-- Whether this is a zero of either sign. -/
def isZero (x : Binary64) : Bool := x.significand == 0

/-- The number with the other sign. -/
def neg (x : Binary64) : Binary64 := { x with negative := !x.negative }

/-- The rounded product; `none` if it would be infinite. -/
def mul? (x y : Binary64) : Option Binary64 :=
  ofRatio? (x.negative != y.negative) (x.ratio.1 * y.ratio.1) (x.ratio.2 * y.ratio.2)

/-- The rounded quotient by a number other than zero; `none` if it would be infinite. -/
def div? (x y : Binary64) : Option Binary64 :=
  ofRatio? (x.negative != y.negative) (x.ratio.1 * y.ratio.2) (x.ratio.2 * y.ratio.1)

/-- Signed numerator of the value over the denominator of its `ratio`. -/
def numerator (x : Binary64) : Int :=
  if x.negative then -(x.ratio.1 : Int) else x.ratio.1

/-- Whether `x` is less than `y` as a number; the two zeros are equal. -/
def less (x y : Binary64) : Bool :=
  decide (x.numerator * y.ratio.2 < y.numerator * x.ratio.2)

end Binary64
end CacheDepot
