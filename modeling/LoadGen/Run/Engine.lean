import LoadGen.Measure.Snapshot
import LoadGen.Run.Schedule

/-!
# Engines

An engine puts load on one backend, run after run.  From one run to the next it keeps the clock and
the circuit breaker; the ledger always holds the results of the last run.

* `Engine` — what an engine is made of, and `Session` — where it stands and what
  it asked of the backend.
* `Engine.run` — one run: the options are checked, then the backend's health, and then
  the tasks are started.
* `Report` — everything there is to say about a run.
-/

namespace LoadGen

/-- A backend, a factory for the operations, and how to put the two together. -/
structure Engine where
  backend : Backend
  factory : Factory
  options : EngineOptions
  classifier : Fault.Classifier := .standard
  /-- The draws for the random share of the waits: by job and number of the retry. -/
  draw : Nat → Nat → Float := fun _ _ => 0.0

/-- What a backend was asked for: one of its stages, or the calls of one run, newest call first. -/
inductive Contact
  | stage (stage : Stage)
  | run (calls : List Run.CallRecord)

/-- Where an engine stands between two runs. -/
structure Session where
  now : Nat
  breaker : Circuit.Breaker
  ledger : Ledger
  /-- Everything the backend was asked for, newest first. -/
  journal : List Contact

namespace Session

/-- The stages the backend was asked for, oldest first. -/
def stages (s : Session) : List Stage :=
  s.journal.reverse.filterMap fun
    | .stage stage => some stage
    | .run _ => none

/-- The calls of the last run, newest first. -/
def calls (s : Session) : List Run.CallRecord :=
  let runs := s.journal.filterMap fun
    | .stage _ => none
    | .run calls => some calls
  runs.head?.getD []

end Session

inductive RunOutcome
  | completed (result : Run.Result)
  | failed (error : RunError)
  /-- The run never ends, since nobody is left to take the job that the generator offers. -/
  | stalled
  /-- The run never begins, since one of its queues would need more room than there can be. -/
  | oversized

/-- Everything there is to say about a run. -/
structure Report where
  backend : String
  circuit : Circuit.State
  execution : Run.Result
  metrics : Snapshot
  figures : Assoc String MetaValue

namespace Report

/-- Successful results as a fraction of all. -/
def successRatio (r : Report) : Float :=
  r.metrics.successRatio

/-- Jobs that entered the queue and have no result. -/
def abandoned (r : Report) : Nat :=
  r.execution.dispatched - r.execution.completed

end Report

namespace Engine

/-- The session in which an engine is created. -/
def start (e : Engine) : Session where
  now := 0
  breaker := {}
  ledger := .start e.options.ledger 0
  journal := []

/-- Asks the backend for a stage. -/
def ask (e : Engine) (s : Session) (stage : Stage) : Session × Except RunError Unit :=
  let s := { s with journal := .stage stage :: s.journal }
  match e.backend.stageFault stage with
  | none => (s, .ok ())
  | some chain => (s, .error (.backend e.backend.name stage chain))

/-- The time between two jobs of a ramp-up: the span divided by the jobs, a 64-bit number of
nanoseconds, but not less than the shortest interval. -/
def interval (e : Engine) (bench : BenchOptions) : Option Nat :=
  match bench.rampUp with
  | none => none
  | some span =>
    -- Nothing is spread out over no time, and no jobs need no interval.
    if span = 0 ∨ bench.total = 0 then none
    else some (max (min (span / bench.total) Nanos.wordMax) e.options.minRampInterval)

/-- When generation stops, for a run that begins at `now`. -/
def stopAt (bench : BenchOptions) (now : Nat) : Option Nat :=
  match bench.duration with
  | none => none
  | some limit => if limit = 0 then none else some (Nanos.deadlineAt now limit)

/-- The plan of a run that begins at `now`. -/
def plan (e : Engine) (bench : BenchOptions) (now : Nat) : Run.Plan :=
  let workers := e.options.effectiveWorkers bench.parallels
  { started := now
    workers
    jobCapacity := e.options.jobCapacity workers
    resultCapacity := e.options.resultCapacity
    total := bench.total
    interval := e.interval bench
    stopAt := stopAt bench now
    timeout := bench.timeout
    operation := fun id => e.factory id bench
    policy := e.options.policy
    thresholds := e.options.thresholds
    classifier := e.classifier
    call := e.backend.call
    draw := e.draw
    workers_pos := e.options.one_le_effectiveWorkers bench.parallels
    jobCapacity_pos := e.options.one_le_jobCapacity workers
    resultCapacity_pos := e.options.one_le_resultCapacity }

/-- Starts the tasks of a run and waits for their end. -/
def launch (e : Engine) (s : Session) (bench : BenchOptions) (cancelAt : Option Nat) :
    Session × RunOutcome :=
  let p := e.plan bench s.now
  if p.fits then
    let cancelled := cancelAt.any (· ≤ s.now)
    let final := Run.run p cancelAt (.initial p cancelled s.breaker s.ledger)
    let s :=
      { s with
        now := final.now
        breaker := final.breaker
        ledger := final.ledger
        journal := .run final.calls :: s.journal }
    match final.outcome? p with
    | some (.ok result) => (s, .completed result)
    | some (.error task) => (s, .failed (.task task))
    | none => (s, .stalled)
  else (s, .oversized)

/-- One run.  The caller cancels it at the instant `cancelAt`, if ever. -/
def run (e : Engine) (s : Session) (bench : BenchOptions) (cancelAt : Option Nat) :
    Session × RunOutcome :=
  match e.options.fault? with
  | some fault => (s, .failed (.config fault))
  | none =>
    if e.options.healthCheck then
      match e.ask s .health with
      | (s, .error error) => (s, .failed error)
      | (s, .ok ()) => e.launch s bench cancelAt
    else
      e.launch s bench cancelAt

/-- The report of a run, unless its end lies beyond the calendar. -/
def report? (e : Engine) (s : Session) (execution : Run.Result) : Option Report :=
  (s.ledger.snapshot? s.now).map fun metrics =>
    { backend := e.backend.name
      circuit := s.breaker.state
      execution
      metrics
      figures := e.backend.figures s.calls.length }

end Engine
end LoadGen
