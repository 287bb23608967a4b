import LoadGen.Fault.Info
import LoadGen.Time.Nanos

/-!
# The retry policy

A policy says how often a failed call is made again, after which kinds of failure, and how
long to wait before it.

* `Policy.backoff` — the wait before a retry: it grows by a factor each time up to a maximum.
* `lengthen` — a wait and a share of it, where they make a span.
* `Policy.delay` — the wait with its random share, for a given draw from the unit interval.
-/

namespace LoadGen
namespace Retry

/-- When and how failed calls are made again. -/
structure Policy where
  /-- Calls after the first one. -/
  maxRetries : Nat := 3
  /-- The wait before the first retry, in nanoseconds. -/
  initialDelay : Nat := 100000000
  /-- The longest wait, its random share apart. -/
  maxDelay : Nat := 10000000000
  /-- What the wait is multiplied by after each retry. -/
  backoffFactor : Float := 2.0
  /-- The largest random share, as a fraction of the wait. -/
  jitter : Float := 0.1
  /-- The kinds of failure after which a call is made again. -/
  retryable : List Fault.Kind := [.timeout, .connection, .network, .temporary, .rateLimit]

/-- Why a wait and a share of it make no span. -/
inductive DelayFault
  /-- The share is below zero. -/
  | negative
  /-- The share is no number, or longer than every span. -/
  | unbounded
  /-- The share is a span, and the sum is longer than every span. -/
  | sum
  deriving DecidableEq, Repr

/-- A wait made longer by a fraction of itself. -/
def lengthen (wait : Nat) (fraction : Float) : Except DelayFault Nat :=
  -- No share leaves the wait as it is.
  if fraction == 0.0 then .ok wait
  else
    let seconds := fraction * Nanos.toSeconds wait
    match Nanos.ofSeconds? seconds with
    | some share => if wait + share ≤ Nanos.longest then .ok (wait + share) else .error .sum
    | none => .error (if seconds < 0.0 then .negative else .unbounded)

namespace Policy

/-- A policy that never makes a call again. -/
def noRetry : Policy := { maxRetries := 0 }

/-- Multiplies `r` by `x` to the power `n`, squaring as it goes. -/
def powerStep (r x : Float) (n : Nat) : Float :=
  let r := if n % 2 = 1 then r * x else r
  if h : n / 2 = 0 then r else powerStep r (x * x) (n / 2)
termination_by n
decreasing_by omega

/-- The power `x ^ n` with the roundings of repeated squaring. -/
def power (x : Float) (n : Nat) : Float :=
  powerStep 1.0 x n

/-- The wait before the retry with number `retry`, counted from zero. -/
def backoff (p : Policy) (retry : Nat) : Nat :=
  let seconds :=
    Nanos.toSeconds p.initialDelay * power p.backoffFactor (min retry (Nat.pow 2 31 - 1))
  match Nanos.ofSeconds? seconds with
  | some d => min d p.maxDelay
  -- A product that is no span of time is beyond every maximum.
  | none => p.maxDelay

/-- The fraction of the wait that is added for the draw `u` from the unit interval. -/
def jitterShare (p : Policy) (u : Float) : Float :=
  let bound := if p.jitter < 0.0 then 0.0 else if 1.0 < p.jitter then 1.0 else p.jitter
  if bound == 0.0 then 0.0 else bound * u

/-- The wait before a retry with the random share for the draw `u`. -/
def delay (p : Policy) (retry : Nat) (u : Float) : Except DelayFault Nat :=
  lengthen (p.backoff retry) (p.jitterShare u)

/-- Without a random share the wait is the backoff. -/
theorem delay_of_jitter_eq_zero (p : Policy) (retry : Nat) (u : Float) (h : p.jitter = 0.0) :
    p.delay retry u = .ok (p.backoff retry) := by
  have hneg : ¬ (0.0 : Float) < 0.0 := by decide
  have hone : ¬ (1.0 : Float) < 0.0 := by decide
  have heq : ((0.0 : Float) == 0.0) = true := by decide
  simp [delay, jitterShare, lengthen, h, hneg, hone, heq]

theorem backoff_le_maxDelay (p : Policy) (retry : Nat) : p.backoff retry ≤ p.maxDelay := by
  unfold backoff
  simp only
  split
  · exact Nat.min_le_right _ _
  · exact Nat.le_refl _

end Policy
end Retry
end LoadGen
