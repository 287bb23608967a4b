import LoadGen.Backend.Basic

/-!
# The state of a run

A run is made of tasks that work side by side: a generator that makes jobs, workers that execute
them, a collector that records the results, and a supervisor that waits for the others and ends the
run.  Between them stand two bounded queues, and the workers share the receiving end of the job
queue, so they stand in line for it.

* `Plan` — everything that is fixed when the run begins.
* `Generator`, `Worker`, `Collector`, `Supervisor` — where each task stands.
* `State` — all tasks, the queues, the clock and what the tasks share.
* `State.wakes` — the instants at which a task that waits for time to pass will go on.
-/

namespace LoadGen
namespace Run

/-- What is fixed when a run begins: at least one worker, and queues with room for something.
Instants and spans are in nanoseconds. -/
structure Plan where
  started : Nat
  workers : Nat
  /-- Room in the job queue. -/
  jobCapacity : Nat
  /-- Room in the result queue. -/
  resultCapacity : Nat
  /-- Jobs to make. -/
  total : Nat
  /-- The time between two jobs, if they are spread out. -/
  interval : Option Nat
  /-- When the generator stops at the latest, if there is a limit. -/
  stopAt : Option Nat
  /-- The advisory limit for one call. -/
  timeout : Option Nat
  /-- The operation of a job; none if the factory dies of it. -/
  operation : Nat → Option Operation
  policy : Retry.Policy
  thresholds : Circuit.Thresholds
  classifier : Fault.Classifier
  /-- How a call for a job goes, by its number and the time since the run began. -/
  call : Job → Nat → Nat → Retry.Reply OperationResult
  /-- The draw for the random share of each wait of a job. -/
  draw : Nat → Nat → Float
  workers_pos : 0 < workers
  jobCapacity_pos : 0 < jobCapacity
  resultCapacity_pos : 0 < resultCapacity

/-- The most room that a queue can have. -/
def roomLimit : Nat := Nat.pow 2 61 - 1

/-- Whether both queues can have the room that they are to have. -/
def Plan.fits (p : Plan) : Bool :=
  max p.jobCapacity p.resultCapacity ≤ roomLimit

/-- What the execution of a job runs with. -/
def Plan.setting (p : Plan) (job : Job) : Retry.Setting OperationResult where
  policy := p.policy
  thresholds := p.thresholds
  classifier := p.classifier
  draw := p.draw job.id
  call := fun n now => p.call job n (now - p.started)

inductive Generator
  /-- About to make job `id`. -/
  | next (id : Nat)
  /-- Waiting for the tick of job `id`. -/
  | ticking (id wake : Nat)
  /-- Waiting for room in the job queue. -/
  | offering (job : Job)
  /-- The job is in the queue and not counted yet. -/
  | counting (id : Nat)
  | stopped
  | crashed

/-- Whether the generator has ended, and with it the job queue. -/
def Generator.ended : Generator → Bool
  | .stopped => true
  | .crashed => true
  | _ => false

/-- The result of a job, on its way to the collector. -/
structure Completion where
  job : Job
  result : OperationResult

inductive Worker
  /-- About to ask for a job. -/
  | asking
  /-- In line for the job queue. -/
  | waiting
  /-- Executing a job that it took at `since`. -/
  | running (job : Job) (since : Nat) (execution : Retry.Execution OperationResult)
  /-- Waiting for room in the result queue. -/
  | sending (completion : Completion)
  /-- The result is in the queue and not counted yet. -/
  | counting (success : Bool)
  | exited
  | crashed

def Worker.ended : Worker → Bool
  | .exited => true
  | .crashed => true
  | _ => false

def Worker.isCrashed : Worker → Bool
  | .crashed => true
  | _ => false

/-- When a worker that waits for time to pass will go on. -/
def Worker.wake? : Worker → Option Nat
  | .running _ _ execution => execution.wake?
  | _ => none

inductive Collector
  | listening
  | ended
  | crashed
  deriving DecidableEq, Repr

inductive Supervisor
  /-- Waiting for the generator to end. -/
  | awaitingGenerator
  /-- Waiting for the workers to end; `alarmed` once it has seen one dead. -/
  | awaitingWorkers (alarmed : Bool)
  | awaitingCollector
  | finished
  deriving DecidableEq, Repr

/-- One call made by a worker. -/
structure CallRecord where
  /-- Time since the run began. -/
  elapsed : Nat
  job : Job
  /-- The number of the call among those of its job. -/
  attempt : Nat

/-- A run in progress. -/
structure State where
  now : Nat
  /-- Whether the caller's cancellation has fired. -/
  callerCancelled : Bool
  /-- Whether the run's own cancellation has fired. -/
  runCancelled : Bool
  generator : Generator
  /-- The job queue, oldest job first. -/
  jobs : List Job
  /-- The workers in line for the job queue, the first one at its head. -/
  line : List Nat
  workers : Array Worker
  /-- The result queue, oldest result first. -/
  results : List Completion
  collector : Collector
  supervisor : Supervisor
  /-- The first task that the supervisor saw dead. -/
  failure : Option Task
  breaker : Circuit.Breaker
  ledger : Ledger
  dispatched : Nat
  completed : Nat
  succeeded : Nat
  failed : Nat
  /-- Every call made, newest first. -/
  calls : List CallRecord

namespace State

def initial (p : Plan) (callerCancelled : Bool) (breaker : Circuit.Breaker) (ledger : Ledger) :
    State where
  now := p.started
  callerCancelled := callerCancelled
  runCancelled := false
  generator := .next 0
  jobs := []
  line := []
  workers := Array.replicate p.workers .asking
  results := []
  collector := .listening
  supervisor := .awaitingGenerator
  failure := none
  breaker := breaker
  ledger := ledger.reset p.started
  dispatched := 0
  completed := 0
  succeeded := 0
  failed := 0
  calls := []

/-- Whether the tasks of the run are cancelled: by the run itself or by its caller. -/
def cancelled (s : State) : Bool :=
  s.callerCancelled || s.runCancelled

def workersEnded (s : State) : Bool :=
  s.workers.all Worker.ended

def workerCrashed (s : State) : Bool :=
  s.workers.any Worker.isCrashed

def setWorker (s : State) (i : Nat) (w : Worker) : State :=
  { s with workers := s.workers.setIfInBounds i w }

/-- The instants at which the generator will go on if nothing else happens. -/
def generatorWakes (p : Plan) (s : State) : List Nat :=
  match s.generator with
  | .ticking _ wake => wake :: p.stopAt.toList
  | .offering _ => p.stopAt.toList
  | _ => []

/-- The instants at which a waiting task will go on. -/
def wakes (p : Plan) (s : State) : List Nat :=
  s.generatorWakes p ++ s.workers.toList.filterMap Worker.wake?

end State
end Run
end LoadGen
