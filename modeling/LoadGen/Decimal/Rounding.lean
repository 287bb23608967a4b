/-!
# Rounding a quotient to a whole number

Every place where the library turns an exact fraction into a whole number of units (nanoseconds,
hundredths, the last printed digit) goes through `roundDiv`.  What happens to a fraction that lies
exactly half way is a decision of the caller and is named by `Tie`.
-/

namespace LoadGen
namespace Decimal

/-- What a quotient exactly half way between two whole numbers becomes. -/
inductive Tie
  /-- The even one of the two neighbours. -/
  | toEven
  /-- The larger of the two neighbours. -/
  | up
  deriving DecidableEq, Repr

/-- The whole number nearest to `num / den`; a quotient half way goes where `tie` says. -/
def roundDiv (tie : Tie) (num den : Nat) : Nat :=
  let q := num / den
  let r := num % den
  if 2 * r < den then q
  else if den < 2 * r then q + 1
  else match tie with
    | .toEven => if q % 2 = 0 then q else q + 1
    | .up => q + 1

end Decimal
end LoadGen
