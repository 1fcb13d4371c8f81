/-!
# Dates of timestamps

A moment given in milliseconds since the Unix epoch is written as a date and a time of day in
UTC. Days are counted in eras of 400 years that begin on the first of March, so a leap day is
the last day of its year.
-/

namespace CacheDepot.Timestamp

/-- A date of the Gregorian calendar. -/
structure Date where
  year : Nat
  month : Nat
  day : Nat
  deriving DecidableEq, Repr

/-- The date that lies `days` days after the first of January 1970. -/
def dateOf (days : Nat) : Date :=
  let sinceEra := days + 719468
  let era := sinceEra / 146097
  let dayOfEra := sinceEra % 146097
  let yearOfEra :=
    (dayOfEra - dayOfEra / 1460 + dayOfEra / 36524 - dayOfEra / 146096) / 365
  let dayOfYear := dayOfEra - (365 * yearOfEra + yearOfEra / 4 - yearOfEra / 100)
  let fromMarch := (5 * dayOfYear + 2) / 153
  let month := if fromMarch < 10 then fromMarch + 3 else fromMarch - 9
  { year := yearOfEra + era * 400 + (if month ≤ 2 then 1 else 0)
    month
    day := dayOfYear - (153 * fromMarch + 2) / 5 + 1 }

/-- A number with zeros in front up to `width` digits. -/
def padded (width n : Nat) : String :=
  let digits := Nat.toDigits 10 n
  String.ofList (List.replicate (width - digits.length) '0' ++ digits)

/-- A year of four digits, or with a sign if it has more. -/
def yearText (year : Nat) : String :=
  if year ≤ 9999 then padded 4 year else "+" ++ padded 5 year

/-- Date and time of day, with milliseconds if there are any, and a zero offset. -/
def text (millis : Nat) : String :=
  let date := dateOf (millis / 86400000)
  let second := millis / 1000 % 86400
  let fraction := if millis % 1000 = 0 then "" else "." ++ padded 3 (millis % 1000)
  yearText date.year ++ "-" ++ padded 2 date.month ++ "-" ++ padded 2 date.day ++ "T" ++
    padded 2 (second / 3600) ++ ":" ++ padded 2 (second / 60 % 60) ++ ":" ++
    padded 2 (second % 60) ++ fraction ++ "+00:00"

end CacheDepot.Timestamp
