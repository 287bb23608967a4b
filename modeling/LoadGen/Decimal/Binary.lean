/-!
# The exact value of a double

A finite double is `± mantissa * 2 ^ exponent` with a natural mantissa.  `Magnitude.ofFloat` reads
that pair off the bits, and `Magnitude.fraction` writes it as a quotient of natural numbers, which
is the form the rounding and printing functions of this folder work on.
-/

namespace LoadGen
namespace Decimal

/-- What a double stands for, its sign apart. -/
inductive Magnitude
  | nan
  | infinite
  /-- The number `mantissa * 2 ^ exponent`. -/
  | finite (mantissa : Nat) (exponent : Int)
  deriving DecidableEq, Repr

/-- The sign bit, which negative zero and some NaNs carry too. -/
def isNegative (x : Float) : Bool :=
  x.toBits >>> 63 == 1

/-- The exact magnitude that the bits of a double encode. -/
def Magnitude.ofFloat (x : Float) : Magnitude :=
  let bits := x.toBits.toNat
  let field := bits / Nat.pow 2 52 % Nat.pow 2 11
  let fraction := bits % Nat.pow 2 52
  if field = 2047 then
    if fraction = 0 then .infinite else .nan
  else if field = 0 then
    .finite fraction (-1074)
  else
    .finite (fraction + Nat.pow 2 52) (Int.ofNat field - 1075)

/-- The quotient `mantissa * 2 ^ exponent`, as numerator and positive denominator. -/
def fraction (mantissa : Nat) (exponent : Int) : Nat × Nat :=
  match exponent with
  | .ofNat k => (mantissa * Nat.pow 2 k, 1)
  | .negSucc k => (mantissa, Nat.pow 2 (k + 1))

end Decimal
end LoadGen
