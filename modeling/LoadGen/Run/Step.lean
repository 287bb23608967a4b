import LoadGen.Run.State

/-!
# The steps of a run

Each task has at most one step in every state; which task steps next is open.  Steps take no time.
Time passes when no task has a step, and never beyond the instant at which a waiting task goes on.

* `stepGenerator`, `stepWorker`, `stepCollector`, `stepSupervisor` — the tasks' steps.
* `Actor`, `Label`, `step` — the whole run as a transition function.
-/

namespace LoadGen
namespace Run

open Retry (ExecuteError)

/-! ## The generator -/

/-- Makes the operation of job `id` and offers the job. -/
def offerJob (p : Plan) (s : State) (id : Nat) : State :=
  match p.operation id with
  | some operation => { s with generator := .offering ⟨id, operation, p.timeout⟩ }
  | none => { s with generator := .crashed }

/-- Whether the time for making jobs is up. -/
def Plan.expired (p : Plan) (now : Nat) : Bool :=
  p.stopAt.any (· ≤ now)

/-- The generator's step.  Cancellation comes first, then the tick or the room it waits for, and
last the limit, so a tick on the very instant of the limit still makes a job.  The schedule of ticks
dies when it leaves the range of spans. -/
def stepGenerator (p : Plan) (s : State) : Option State :=
  match s.generator with
  | .next id =>
    if p.total ≤ id then some { s with generator := .stopped }
    else match p.interval with
      | some interval =>
        if id = 0 then some (offerJob p s id)
        else
          let wake := Nanos.wakeBy s.now (p.started + id * interval)
          some { s with generator := .ticking id wake }
      | none => some (offerJob p s id)
  | .ticking id wake =>
    if s.cancelled then some { s with generator := .stopped }
    else if wake ≤ s.now then
      if (id + 1) * p.interval.getD 0 ≤ Nanos.longest then some (offerJob p s id)
      else some { s with generator := .crashed }
    else if p.expired s.now then some { s with generator := .stopped }
    else none
  | .offering job =>
    if s.cancelled then some { s with generator := .stopped }
    else if s.jobs.length < p.jobCapacity then
      -- The job is in the queue from here on, although it is counted only in the next step.
      some { s with generator := .counting job.id, jobs := s.jobs ++ [job] }
    else if p.expired s.now then some { s with generator := .stopped }
    else none
  | .counting id => some { s with generator := .next (id + 1), dispatched := s.dispatched + 1 }
  | .stopped => none
  | .crashed => none

/-! ## The workers -/

/-- The text recorded for a job that the breaker refused before its first call. -/
def failureText (e : ExecuteError) : String :=
  match e.failure? with
  | some failure => failure.chain.text
  | none => e.message

/-- The result recorded for a job that the backend did not complete: a refusal after a call reports
the failure of that call.  `circuit` is the state of the breaker at that time. -/
def failedResult (duration : Nat) (isRead : Bool) (circuit : Circuit.State) (e : ExecuteError) :
    OperationResult :=
  let base := OperationResult.failed duration isRead (failureText e)
  let classified := match e.failure? with
    | some failure =>
      base.withMeta .errorType (.text failure.info.kind.name)
        |>.withMeta .errorSeverity (.text failure.info.severity.name)
        |>.withMeta .retryable (.bool failure.info.retryable)
        |>.withMeta .recoverable (.bool failure.info.recoverable)
    | none => base
  classified.withMeta .circuitState (.text circuit.name) |>.withMeta .attempts (.int e.attempts)

/-- What a worker does with the outcome of a job: a cancelled job is dropped, and
any other is reported. -/
def concludeJob (s : State) (job : Job) (since : Nat) :
    Except ExecuteError (OperationResult × Nat) → Worker
  | .ok (result, attempts) => .sending ⟨job, result.withMeta .attempts (.int attempts)⟩
  | .error .cancelled => .exited
  | .error e => .sending ⟨job, failedResult (s.now - since) job.operation.isRead s.breaker.state e⟩

/-- The step of worker `i` in the execution of a job. -/
def stepExecution (p : Plan) (s : State) (i : Nat) (job : Job) (since : Nat)
    (execution : Retry.Execution OperationResult) : Option State :=
  match execution.phase with
  | .done outcome => some (s.setWorker i (concludeJob s job since outcome))
  | .crashed _ => some (s.setWorker i .crashed)
  | _ =>
    (execution.step (p.setting job) s.now s.cancelled s.breaker).map fun move =>
      { s.setWorker i (.running job since move.execution) with
        breaker := move.breaker
        runCancelled := s.runCancelled || move.cancels
        calls :=
          if move.execution.isCalling then ⟨s.now - p.started, job, execution.attempts⟩ :: s.calls
          else s.calls }

/-- The step of worker `i`.  A worker that waits for a job leaves when it is cancelled, or when it
is first in line and the queue is empty for good; it sends a result whether cancelled or not, and
leaves if nobody listens. -/
def stepWorker (p : Plan) (s : State) (i : Nat) : Option State :=
  match s.workers[i]? with
  | none => none
  | some .asking =>
    if s.cancelled then some (s.setWorker i .exited)
    else some { s.setWorker i .waiting with line := s.line ++ [i] }
  | some .waiting =>
    -- Whoever leaves gives up the place in line, so the next worker can be first.
    if s.cancelled then some { s.setWorker i .exited with line := s.line.erase i }
    else if s.line.head? = some i then
      match s.jobs with
      | job :: rest =>
        some { s.setWorker i (.running job s.now {}) with line := s.line.tail, jobs := rest }
      | [] =>
        if s.generator.ended then some { s.setWorker i .exited with line := s.line.tail } else none
    else none
  | some (.running job since execution) => stepExecution p s i job since execution
  | some (.sending completion) =>
    if s.collector ≠ .listening then some (s.setWorker i .exited)
    else if s.results.length < p.resultCapacity then
      some
        { s.setWorker i (.counting completion.result.success) with
          results := s.results ++ [completion] }
    else none
  | some (.counting success) =>
    some
      { s.setWorker i .asking with
        completed := s.completed + 1
        succeeded := if success then s.succeeded + 1 else s.succeeded
        failed := if success then s.failed else s.failed + 1 }
  | some .exited => none
  | some .crashed => none

/-! ## The collector -/

/-- The collector's step: it records the oldest result, and dies when the ledger refuses it; it ends
when the queue is empty and every worker has ended. -/
def stepCollector (s : State) : Option State :=
  match s.collector with
  | .listening =>
    match s.results with
    | completion :: rest =>
      let recorded := s.ledger.record s.now completion.result
      if recorded.2 then some { s with ledger := recorded.1, results := rest }
      else
        -- The results still in the queue are lost with the collector.
        some { s with ledger := recorded.1, results := [], collector := .crashed }
    | [] => if s.workersEnded then some { s with collector := .ended } else none
  | .ended => none
  | .crashed => none

/-! ## The supervisor -/

/-- The supervisor's step.  It waits for the generator, then for the workers, then for the
collector.  A dead generator or worker makes it cancel the run; the first dead task that it sees is
the failure of the run. -/
def stepSupervisor (s : State) : Option State :=
  match s.supervisor with
  | .awaitingGenerator =>
    match s.generator with
    | .stopped => some { s with supervisor := .awaitingWorkers false }
    | .crashed =>
      some
        { s with
          supervisor := .awaitingWorkers false
          runCancelled := true
          failure := some .generator }
    | _ => none
  | .awaitingWorkers alarmed =>
    if !alarmed && s.workerCrashed then
      some
        { s with
          supervisor := .awaitingWorkers true
          runCancelled := true
          failure := some (s.failure.getD .worker) }
    else if s.workersEnded then some { s with supervisor := .awaitingCollector }
    else none
  | .awaitingCollector =>
    match s.collector with
    | .listening => none
    | .ended => some { s with supervisor := .finished, ledger := s.ledger.finish s.now }
    | .crashed =>
      some
        { s with
          supervisor := .finished
          ledger := s.ledger.finish s.now
          failure := some (s.failure.getD .collector) }
  | .finished => none

/-! ## The run -/

inductive Actor
  | generator
  | worker (i : Nat)
  | collector
  | supervisor
  deriving DecidableEq, Repr

/-- What happens next in a run. -/
inductive Label
  /-- A task makes its step. -/
  | act (actor : Actor)
  /-- Time passes until `instant`. -/
  | wait (instant : Nat)
  /-- The caller's cancellation fires. -/
  | cancel
  deriving DecidableEq, Repr

def stepActor (p : Plan) (s : State) : Actor → Option State
  | .generator => stepGenerator p s
  | .worker i => stepWorker p s i
  | .collector => stepCollector s
  | .supervisor => stepSupervisor s

def quiet (p : Plan) (s : State) : Bool :=
  (stepGenerator p s).isNone && (stepCollector s).isNone && (stepSupervisor s).isNone &&
    (List.range s.workers.size).all fun i => (stepWorker p s i).isNone

/-- What a label does to a run, where it can happen. -/
def step (p : Plan) (s : State) : Label → Option State
  | .act actor => stepActor p s actor
  | .wait instant =>
    if quiet p s && decide (s.now < instant) && (s.wakes p).all (decide <| instant ≤ ·) then
      some { s with now := instant }
    else none
  | .cancel => if s.callerCancelled then none else some { s with callerCancelled := true }

/-- The states that a run can reach, in any order of steps. -/
inductive Reachable (p : Plan) (s₀ : State) : State → Prop
  | refl : Reachable p s₀ s₀
  | step {s s' : State} (label : Label) (hs : Reachable p s₀ s) (hstep : step p s label = some s') :
      Reachable p s₀ s'

end Run
end LoadGen
