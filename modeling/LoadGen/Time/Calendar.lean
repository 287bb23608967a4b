import LoadGen.Time.Nanos

/-!
# Dates

Wall-clock instants are counted from the start of 1970, in UTC, and written in the form
`1970-01-01T00:00:00Z`.

* `Calendar.civil` — the proleptic Gregorian date of a day number.
* `Calendar.timestamp` — an instant with as many decimals of a second as it
  needs, in groups of three.
-/

namespace LoadGen
namespace Calendar

/-- A day of the proleptic Gregorian calendar. -/
structure Date where
  year : Nat
  month : Nat
  day : Nat
  deriving DecidableEq, Repr

/-- The date `days` after the first of January 1970.  Years are counted from the first of March, so
that a leap day ends its year, and grouped into eras of 400. -/
def civil (days : Nat) : Date :=
  -- 719468 days lie between the first of March of the year 0 and the start of 1970.
  let z := days + 719468
  let era := z / 146097
  let dayOfEra := z % 146097
  let yearOfEra := (dayOfEra - dayOfEra / 1460 + dayOfEra / 36524 - dayOfEra / 146096) / 365
  let dayOfYear := dayOfEra - (365 * yearOfEra + yearOfEra / 4 - yearOfEra / 100)
  let m := (5 * dayOfYear + 2) / 153
  let month := if m < 10 then m + 3 else m - 9
  { year := yearOfEra + era * 400 + (if month ≤ 2 then 1 else 0)
    month
    day := dayOfYear - (153 * m + 2) / 5 + 1 }

/-- The last instant that can be held, in nanoseconds after the start of 1970: the end
of the year 262142. -/
def lastInstant : Nat :=
  8210266876799 * Nanos.perSecond + 999999999

/-- A number with zeros in front up to `width` digits. -/
def padded (width n : Nat) : String :=
  let s := toString n
  String.ofList (List.replicate (width - s.length) '0') ++ s

/-- The decimals of a second: none, three, six or nine digits. -/
def decimals (nanos : Nat) : String :=
  if nanos = 0 then ""
  else if nanos % Nanos.perMilli = 0 then "." ++ padded 3 (nanos / Nanos.perMilli)
  else if nanos % Nanos.perMicro = 0 then "." ++ padded 6 (nanos / Nanos.perMicro)
  else "." ++ padded 9 nanos

/-- The instant `d` nanoseconds after the start of 1970.  Years of more than four
digits carry a sign. -/
def timestamp (d : Nat) : String :=
  let secs := d / Nanos.perSecond
  let date := civil (secs / 86400)
  let inDay := secs % 86400
  (if 9999 < date.year then "+" ++ toString date.year else padded 4 date.year) ++ "-" ++
    padded 2 date.month ++ "-" ++ padded 2 date.day ++ "T" ++
    padded 2 (inDay / 3600) ++ ":" ++ padded 2 (inDay % 3600 / 60) ++ ":" ++
    padded 2 (inDay % 60) ++
    decimals (d % Nanos.perSecond) ++ "Z"

end Calendar
end LoadGen
