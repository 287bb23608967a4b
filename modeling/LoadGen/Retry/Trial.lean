import LoadGen.Data.Iterate
import LoadGen.Data.Soonest
import LoadGen.Retry.Execution

/-!
# Running one execution

A trial runs a single execution on the virtual clock.  Computing takes no time; when the execution
waits, the clock jumps to the instant at which it has a move again or is cancelled.

* `Trial.step` — the next event of a trial.
* `Trial.run` — a trial from its first call to its end.
-/

namespace LoadGen
namespace Retry

variable {α : Type}

/-- An execution on the clock. -/
structure Trial (α : Type) where
  now : Nat
  cancelled : Bool
  breaker : Circuit.Breaker
  execution : Execution α
  /-- The number and the instant of every call made, newest first. -/
  calls : List (Nat × Nat)

namespace Trial

/-- A trial about to make its first call at `now`. -/
def start (now : Nat) (cancelled : Bool) (breaker : Circuit.Breaker) : Trial α where
  now := now
  cancelled := cancelled
  breaker := breaker
  execution := {}
  calls := []

/-- The next event: the cancellation that is due, else a move of the execution, else the passing of
time.  `cancelAt` is the instant at which the cancellation fires from outside. -/
def step (S : Setting α) (cancelAt : Option Nat) (t : Trial α) : Option (Trial α) :=
  let pending := if t.cancelled then none else cancelAt
  if pending.any (· ≤ t.now) then some { t with cancelled := true }
  else match t.execution.step S t.now t.cancelled t.breaker with
    | some move =>
      some
        { t with
          cancelled := t.cancelled || move.cancels
          breaker := move.breaker
          execution := move.execution
          calls :=
            if move.execution.isCalling then (t.execution.attempts, t.now) :: t.calls
            else t.calls }
    | none =>
      match t.execution.wake? with
      | some wake => (soonest (wake :: pending.toList)).map fun now => { t with now }
      | none => none

/-- An upper bound on the number of events of a trial: each call takes four and a wait for it, and
the cancellation two more. -/
def eventBound (S : Setting α) : Nat :=
  8 * (S.policy.maxRetries + 2)

def run (S : Setting α) (cancelAt : Option Nat) (t : Trial α) : Trial α :=
  iterate (step S cancelAt) (eventBound S) t

def outcome? (t : Trial α) : Option (Except ExecuteError (α × Nat)) :=
  match t.execution.phase with
  | .done outcome => some outcome
  | _ => none

/-- What took the execution down, if anything did. -/
def crash? (t : Trial α) : Option Crash :=
  match t.execution.phase with
  | .crashed cause => some cause
  | _ => none

end Trial
end Retry
end LoadGen
