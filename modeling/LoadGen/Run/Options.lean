import LoadGen.Circuit.Breaker
import LoadGen.Measure.Ledger
import LoadGen.Retry.Policy

/-!
# Options

* `BenchOptions` — what one run is asked to do.
* `EngineOptions` — how an engine does it, for all of its runs; `fault?` says
  why it cannot work with them.
* `ConfigFault` — why options are refused.
-/

namespace LoadGen

/-- What one run is asked to do.  Times are in nanoseconds. -/
structure BenchOptions where
  total : Nat := 1
  parallels : Nat := 1
  /-- Stop making jobs after this long; none and zero set no limit. -/
  duration : Option Nat := none
  /-- Advisory limit for one call. -/
  timeout : Option Nat := none
  /-- Spread the jobs evenly over this span; none and zero make them as fast as they are taken. -/
  rampUp : Option Nat := none
  deriving Repr, DecidableEq

/-- How an engine works. -/
structure EngineOptions where
  /-- The most workers a run gets. -/
  workerCeiling : Nat := 1000
  /-- Room in the job queue; twice the number of workers if not given. -/
  jobQueueCapacity : Option Nat := none
  /-- Room in the result queue. -/
  resultQueueCapacity : Nat := 1024
  /-- The shortest time between two jobs of a ramp-up, in nanoseconds. -/
  minRampInterval : Nat := 1000000
  /-- Whether the backend's health is checked before a run. -/
  healthCheck : Bool := true
  ledger : LedgerOptions := {}
  policy : Retry.Policy := {}
  thresholds : Circuit.Thresholds := {}

/-- Why options are refused. -/
inductive ConfigFault
  /-- The wait between retries would shrink. -/
  | backoffFactor (factor : Float)
  /-- The random share of a wait is no fraction. -/
  | jitter (share : Float)
  /-- The first wait is longer than the longest. -/
  | delays
  /-- A breaker that moves without an outcome. -/
  | thresholds
  /-- A rate window without room. -/
  | window

def ConfigFault.message : ConfigFault → String
  | .backoffFactor factor =>
    "backoff factor must be at least 1, got " ++ Decimal.Style.plain.render factor
  | .jitter share => "jitter must be within 0..=1, got " ++ Decimal.Style.plain.render share
  | .delays => "initial retry delay exceeds the maximum delay"
  | .thresholds => "circuit breaker thresholds must be positive"
  | .window => "rate window must have at least one non-empty bucket"

namespace EngineOptions

/-- The workers a run gets: at least one, at most the ceiling. -/
def effectiveWorkers (o : EngineOptions) (parallels : Nat) : Nat :=
  min (max parallels 1) (max o.workerCeiling 1)

/-- The room in the job queue for a number of workers. -/
def jobCapacity (o : EngineOptions) (workers : Nat) : Nat :=
  max (o.jobQueueCapacity.getD (2 * workers)) 1

def resultCapacity (o : EngineOptions) : Nat :=
  max o.resultQueueCapacity 1

def fault? (o : EngineOptions) : Option ConfigFault :=
  if ¬ o.policy.backoffFactor.isFinite ∨ o.policy.backoffFactor < 1.0 then
    some (.backoffFactor o.policy.backoffFactor)
  else if ¬ (0.0 ≤ o.policy.jitter ∧ o.policy.jitter ≤ 1.0) then
    some (.jitter o.policy.jitter)
  else if o.policy.maxDelay < o.policy.initialDelay then
    some .delays
  else if o.thresholds.failure = 0 ∨ o.thresholds.success = 0 then
    some .thresholds
  else if o.ledger.bucketSize = 0 ∨ o.ledger.windowBuckets = 0 then
    some .window
  else
    none

theorem one_le_effectiveWorkers (o : EngineOptions) (parallels : Nat) :
    1 ≤ o.effectiveWorkers parallels := by
  unfold effectiveWorkers
  omega

theorem one_le_jobCapacity (o : EngineOptions) (workers : Nat) : 1 ≤ o.jobCapacity workers :=
  Nat.le_max_right _ _

theorem one_le_resultCapacity (o : EngineOptions) : 1 ≤ o.resultCapacity :=
  Nat.le_max_right _ _

end EngineOptions
end LoadGen
