import LoadGen.Decimal.Binary
import LoadGen.Decimal.Rounding

/-!
# The fewest digits that read back

A double is the only double within half a step of itself, so any decimal number inside that interval
reads back as the same double.  `shortest` searches the grids of 1, 2, … 17 significant digits for
the first one that has a point in the interval, and takes the point nearest to the value; two points
equally near are settled by the caller's `Tie`.

* `Digits` — a positive whole number times a power of ten, with no trailing zero.
* `shortest` — the digits of a finite, non-zero magnitude.
-/

namespace LoadGen
namespace Decimal

/-- The decimal number `coefficient * 10 ^ exponent`. -/
structure Digits where
  coefficient : Nat
  exponent : Int
  deriving DecidableEq, Repr

/-- The decimal digits of a natural number, most significant first. -/
def digitChars (n : Nat) : List Char :=
  Nat.toDigits 10 n

/-- The least `p` with `num / den < 10 ^ p`, for a positive quotient. -/
def magnitudeOfTen (num den : Nat) : Int :=
  if den ≤ num then
    (digitChars (num / den)).length
  else
    -- Below one the inverse quotient tells, and an exact power of ten lies one place higher.
    let d := (digitChars (den / num)).length
    if den = num * Nat.pow 10 (d - 1) then 2 - (d : Int) else 1 - (d : Int)

/-- The interval of numbers that read back as one double: twice the ends, over a
common denominator. -/
structure Interval where
  low : Nat
  value : Nat
  high : Nat
  den : Nat
  /-- Whether the ends themselves read back, which is so for even mantissas. -/
  closed : Bool

/-- The numbers nearer to `mantissa * 2 ^ exponent` than to any other double.  The step below a
power of two is half the step above it, except at the bottom of the range. -/
def Interval.around (mantissa : Nat) (exponent : Int) : Interval :=
  -- Everything is taken four times, so that halves and quarters of a step are whole.
  let below := if mantissa = Nat.pow 2 52 ∧ -1074 < exponent then 1 else 2
  let scale := fraction 1 (exponent - 2)
  { low := (4 * mantissa - below) * scale.1
    value := 4 * mantissa * scale.1
    high := (4 * mantissa + 2) * scale.1
    den := scale.2
    closed := mantissa % 2 = 0 }

/-- Whether `coefficient * unit` lies in the interval, `unit` being a quotient
of natural numbers. -/
def Interval.admits (i : Interval) (coefficient : Nat) (unit : Nat × Nat) : Bool :=
  let lhs := coefficient * unit.1 * i.den
  let low := i.low * unit.2
  let high := i.high * unit.2
  if i.closed then low ≤ lhs && lhs ≤ high else low < lhs && lhs < high

/-- The power `10 ^ e` as a quotient of natural numbers. -/
def powerOfTen (e : Int) : Nat × Nat :=
  match e with
  | .ofNat k => (Nat.pow 10 k, 1)
  | .negSucc k => (1, Nat.pow 10 (k + 1))

/-- The point of the grid `unit` that reads back and is nearest to the value,
if the grid has one. -/
def Interval.onGrid (tie : Tie) (i : Interval) (unit : Nat × Nat) : Option Nat :=
  let num := i.value * unit.2
  let den := i.den * unit.1
  -- If any point of the grid lies in the interval, one of the two around the value does.
  let down := num / den
  let near := roundDiv tie num den
  let far := if near = down then down + 1 else down
  if i.admits near unit then some near
  else if i.admits far unit then some far
  else none

/-- The first grid, among those of `digits`, `digits + 1`, … places, that has a
point in the interval. -/
def Interval.firstGrid (tie : Tie) (i : Interval) (top : Int) : Nat → Nat → Option Digits
  | 0, _ => none
  | left + 1, digits =>
    let e := top - digits
    match i.onGrid tie (powerOfTen e) with
    | some c => some ⟨c, e⟩
    | none => i.firstGrid tie top left (digits + 1)

/-- Moves trailing zeros from the coefficient into the exponent. -/
def Digits.trim (d : Digits) : Nat → Digits
  | 0 => d
  | n + 1 =>
    if d.coefficient ≠ 0 ∧ d.coefficient % 10 = 0 then
      Digits.trim ⟨d.coefficient / 10, d.exponent + 1⟩ n
    else d

/-- The shortest decimal that reads back as `mantissa * 2 ^ exponent`, for a positive mantissa.
Seventeen digits always suffice, so the last line is never reached. -/
def shortest (tie : Tie) (mantissa : Nat) (exponent : Int) : Digits :=
  let i := Interval.around mantissa exponent
  let top := magnitudeOfTen i.value i.den
  match i.firstGrid tie top 17 1 with
  | some d => d.trim 20
  | none => ⟨mantissa, exponent⟩

end Decimal
end LoadGen
