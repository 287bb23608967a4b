import LoadGen.Time.Nanos
import LoadGen.Decimal.Layout

/-!
# Latencies in a fitting unit

A latency is shown with two decimals in the largest unit in which it is at least one.

* `TimeUnit.fit` — the unit of a span; `fitMillis` that of a number of milliseconds.
* `TimeUnit.render`, `renderMillis` — the text in a unit.
-/

namespace LoadGen
namespace Report

/-- The units in which latencies are shown. -/
inductive TimeUnit
  | nanos
  | micros
  | millis
  | seconds
  deriving DecidableEq, Repr

namespace TimeUnit

/-- The largest unit in which the span is at least one. -/
def fit (d : Nat) : TimeUnit :=
  if d < 1000 then .nanos
  else if d < 1000000 then .micros
  else if d < 1000000000 then .millis
  else .seconds

/-- The unit for a number of milliseconds; a number that is no span counts as zero. -/
def fitMillis (millis : Float) : TimeUnit :=
  fit ((Nanos.ofSeconds? (millis / 1e3)).getD 0)

def length : TimeUnit → Float
  | .nanos => 1.0
  | .micros => 1e3
  | .millis => 1e6
  | .seconds => 1e9

def symbol : TimeUnit → String
  | .nanos => "ns"
  | .micros => "µs"
  | .millis => "ms"
  | .seconds => "s"

def render (u : TimeUnit) (d : Nat) : String :=
  Decimal.fixed 2 (Float.ofNat d / u.length) ++ u.symbol

def renderMillis (u : TimeUnit) (millis : Float) : String :=
  Decimal.fixed 2 (millis * 1e6 / u.length) ++ u.symbol

end TimeUnit
end Report
end LoadGen
