import LoadGen.Decimal.Shortest

/-!
# Writing a double as text

Two text forms are used in answers and reports.  Each is a `Style`: one record holding every
decision the form makes, beside the shortest digits that both share.

* `Style.plain` — positional notation for every number, no decimals on whole numbers.
* `Style.json` — the number form of a JSON document, where a number that is not finite is `null`.
* `fixed` — the exact value rounded to a given number of decimals.
-/

namespace LoadGen
namespace Decimal

/-- The decisions of a number form that prints the shortest digits. -/
structure Style where
  /-- Which of two equally near shortest decimals is written. -/
  tie : Tie
  /-- Numbers from `10 ^ k` to below `10 ^ (k + 1)` are positional if this holds of `k`. -/
  positional : Int → Bool
  /-- Whether a positional whole number ends in `.0`. -/
  marksWhole : Bool
  nan : String
  /-- The text of an infinity, by sign. -/
  infinity : Bool → String

/-- Positional at any size, `NaN`, `inf`; a tie goes up. -/
def Style.plain : Style where
  tie := .up
  positional := fun _ => true
  marksWhole := false
  nan := "NaN"
  infinity := fun negative => if negative then "-inf" else "inf"

/-- Positional from `1e-5` to below `1e16`, always with a decimal; a tie goes to the even digit. -/
def Style.json : Style where
  tie := .toEven
  positional := fun k => -5 ≤ k && k < 16
  marksWhole := true
  nan := "null"
  infinity := fun _ => "null"

/-- The digits of `d` with the decimal point in its place. -/
def Digits.positional (d : Digits) (marksWhole : Bool) : String :=
  let cs := digitChars d.coefficient
  match d.exponent with
  | .ofNat k => String.ofList (cs ++ List.replicate k '0') ++ (if marksWhole then ".0" else "")
  | .negSucc k =>
    let places := k + 1
    if cs.length ≤ places then
      "0." ++ String.ofList (List.replicate (places - cs.length) '0' ++ cs)
    else
      String.ofList (cs.take (cs.length - places)) ++ "." ++
        String.ofList (cs.drop (cs.length - places))

/-- The digits of `d` with one digit before the point and a signed power of ten. -/
def Digits.scientific (d : Digits) : String :=
  let cs := digitChars d.coefficient
  let k : Int := d.exponent + (cs.length : Int) - 1
  let head := String.ofList (cs.take 1)
  let tail := String.ofList (cs.drop 1)
  let mark := if k < 0 then "e-" else "e+"
  head ++ (if cs.length ≤ 1 then "" else "." ++ tail) ++ mark ++ toString k.natAbs

def Style.render (style : Style) (x : Float) : String :=
  match Magnitude.ofFloat x with
  | .nan => style.nan
  | .infinite => style.infinity (isNegative x)
  | .finite mantissa exponent =>
    let sign := if isNegative x then "-" else ""
    if mantissa = 0 then
      sign ++ (if style.marksWhole then "0.0" else "0")
    else
      let d := shortest style.tie mantissa exponent
      let k : Int := d.exponent + ((digitChars d.coefficient).length : Int) - 1
      sign ++ (if style.positional k then d.positional style.marksWhole else d.scientific)

/-- The exact value of a double rounded to `places` decimals, a tie to the even digit.  The sign of
a value that rounds to zero is kept. -/
def fixed (places : Nat) (x : Float) : String :=
  match Magnitude.ofFloat x with
  | .nan => "NaN"
  | .infinite => if isNegative x then "-inf" else "inf"
  | .finite mantissa exponent =>
    let q := fraction mantissa exponent
    let n := roundDiv .toEven (q.1 * Nat.pow 10 places) q.2
    let cs := digitChars n
    let padded := List.replicate (places + 1 - cs.length) '0' ++ cs
    let whole := padded.take (padded.length - places)
    let decimals := padded.drop (padded.length - places)
    (if isNegative x then "-" else "") ++ String.ofList whole ++
      (if places = 0 then "" else "." ++ String.ofList decimals)

end Decimal
end LoadGen
