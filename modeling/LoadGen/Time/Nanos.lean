import LoadGen.Decimal.Binary
import LoadGen.Decimal.Rounding

/-!
# Spans of time

A span of time is a whole number of nanoseconds, and an instant is the span since the clock started;
both are natural numbers throughout the library.  The longest span that can be held is
`Nanos.longest`; the functions that could exceed it say so in their type or in their documentation.

* `toSeconds`, `toMillis` — a span as a double, with the roundings spelled out.
* `ofSeconds?` — the nearest span to a number of seconds, when there is one.
* `later?` — where the clock stands after a pause, for whoever moves it.
* `ceilMillis`, `wakeAt`, `wakeBy`, `deadlineAt` — timers fire on whole milliseconds only, and no
  wait is longer than `timerLimit`.
-/

namespace LoadGen

namespace Nanos

def perMicro : Nat := 1000
def perMilli : Nat := 1000000
def perSecond : Nat := 1000000000

/-- The longest span that can be held: `2 ^ 64` seconds less a nanosecond. -/
def longest : Nat := (Nat.pow 2 64 - 1) * 1000000000 + 999999999

/-- The largest number of nanoseconds in one 64-bit word. -/
def wordMax : Nat := Nat.pow 2 64 - 1

/-- The longest time that anything waits for a timer: thirty years of 365 days. -/
def timerLimit : Nat := 30 * 365 * 86400 * 1000000000

/-- Where the clock stands after a pause of `d` from `now`; it cannot be moved on to `2 ^ 63` seconds
or more. -/
def later? (now d : Nat) : Option Nat :=
  if (now + d) / perSecond < Nat.pow 2 63 then some (now + d) else none

/-- Seconds as a double: the whole seconds and the rest are converted apart and added. -/
def toSeconds (d : Nat) : Float :=
  Float.ofNat (d / perSecond) + Float.ofNat (d % perSecond) / 1e9

/-- Milliseconds as a double: a thousand times the seconds. -/
def toMillis (d : Nat) : Float :=
  toSeconds d * 1000.0

/-- The span nearest to `s` seconds, a tie going to the even nanosecond; none for negative numbers,
numbers of `2 ^ 64` seconds and more, and NaN.  Negative zero is the empty span. -/
def ofSeconds? (s : Float) : Option Nat :=
  match Decimal.Magnitude.ofFloat s with
  | .nan => none
  | .infinite => none
  | .finite mantissa exponent =>
    if Decimal.isNegative s && mantissa != 0 then none
    else
      let q := Decimal.fraction mantissa exponent
      let d := Decimal.roundDiv .toEven (q.1 * perSecond) q.2
      if d ≤ longest then some d else none

/-- The instant or span rounded up to a whole millisecond. -/
def ceilMillis (d : Nat) : Nat :=
  (d + (perMilli - 1)) / perMilli * perMilli

/-- When a wait of `d` that begins at `now` is over: at once for an empty span, else on the first
whole millisecond that is not before its end.  A span beyond the limit of timers is cut to it. -/
def wakeAt (now d : Nat) : Nat :=
  if d = 0 then now else ceilMillis (now + min d timerLimit)

/-- The whole millisecond on which a deadline set at `now` for `d` expires.  A deadline bounds what a
task does and is not slept through, so the limit of timers does not apply to it. -/
def deadlineAt (now d : Nat) : Nat :=
  ceilMillis (now + d)

/-- When a timer set at `now` for the instant `deadline` fires. -/
def wakeBy (now deadline : Nat) : Nat :=
  if deadline ≤ now then now else ceilMillis deadline

theorem le_ceilMillis (d : Nat) : d ≤ ceilMillis d := by
  unfold ceilMillis perMilli
  omega

theorem ceilMillis_dvd (d : Nat) : perMilli ∣ ceilMillis d :=
  Nat.dvd_mul_left _ _

/-- A whole number of milliseconds is its own ceiling. -/
theorem ceilMillis_of_dvd {d : Nat} (h : perMilli ∣ d) : ceilMillis d = d := by
  obtain ⟨k, rfl⟩ := h
  unfold ceilMillis perMilli
  omega

theorem le_wakeAt (now d : Nat) : now + min d timerLimit ≤ wakeAt now d := by
  unfold wakeAt
  split
  · omega
  · exact le_ceilMillis _

end Nanos
end LoadGen
