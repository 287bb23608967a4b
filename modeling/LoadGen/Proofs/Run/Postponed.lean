import LoadGen.Proofs.Measure.Postponed
import LoadGen.Proofs.Retry.Postponed
import LoadGen.Proofs.Run.Moves
import LoadGen.Run.Schedule

/-!
# Runs on a clock that is ahead

The tasks of a run know the time only by the instants that they keep.  A run that begins a whole
number of milliseconds later, with a breaker that stands the same way, makes the same steps, each of
them so much later, provided that the waits between retries have no random share.

* `Plan.postpone`, `State.postpone`, `Label.postpone` — the same thing with all of its instants put
  off.
* `lateStep_postpone`, `step_postpone` — every step is made later; what cannot happen, cannot happen
  later either.
* `exists_label` — no other step is made later.
* `wakes_postpone` — the timers that the tasks wait for.
-/

namespace LoadGen
namespace Run

variable {p : Plan} {s : State} {d : Nat} {draw : Nat → Nat → Float}

/-! ## The same, put off -/

def Plan.postpone (d : Nat) (draw : Nat → Nat → Float) (p : Plan) : Plan :=
  { p with started := d + p.started, stopAt := p.stopAt.map (d + ·), draw }

def Generator.postpone (d : Nat) : Generator → Generator
  | .next id => .next id
  | .ticking id wake => .ticking id (d + wake)
  | .offering job => .offering job
  | .counting id => .counting id
  | .stopped => .stopped
  | .crashed => .crashed

def Worker.postpone (d : Nat) : Worker → Worker
  | .asking => .asking
  | .waiting => .waiting
  | .running job since execution => .running job (d + since) (execution.postpone d)
  | .sending completion => .sending completion
  | .counting success => .counting success
  | .exited => .exited
  | .crashed => .crashed

/-- The state that a run has come to on a clock that is ahead. -/
def State.postpone (d : Nat) (s : State) : State :=
  { s with
    now := d + s.now
    generator := s.generator.postpone d
    workers := s.workers.map (Worker.postpone d)
    breaker := s.breaker.postpone d
    ledger := s.ledger.postpone d }

def Label.postpone (d : Nat) : Label → Label
  | .act actor => .act actor
  | .wait instant => .wait (d + instant)
  | .cancel => .cancel

@[simp] theorem postpone_total : (p.postpone d draw).total = p.total := rfl

@[simp] theorem postpone_interval : (p.postpone d draw).interval = p.interval := rfl

@[simp] theorem postpone_jobCapacity : (p.postpone d draw).jobCapacity = p.jobCapacity := rfl

@[simp] theorem postpone_resultCapacity :
    (p.postpone d draw).resultCapacity = p.resultCapacity := rfl

@[simp] theorem postpone_operation : (p.postpone d draw).operation = p.operation := rfl

@[simp] theorem postpone_started : (p.postpone d draw).started = d + p.started := rfl

@[simp] theorem postpone_now : (s.postpone d).now = d + s.now := rfl

@[simp] theorem postpone_cancelled : (s.postpone d).cancelled = s.cancelled := rfl

@[simp] theorem postpone_generator : (s.postpone d).generator = s.generator.postpone d := rfl

@[simp] theorem postpone_jobs : (s.postpone d).jobs = s.jobs := rfl

@[simp] theorem postpone_line : (s.postpone d).line = s.line := rfl

@[simp] theorem postpone_results : (s.postpone d).results = s.results := rfl

@[simp] theorem postpone_collector : (s.postpone d).collector = s.collector := rfl

@[simp] theorem postpone_supervisor : (s.postpone d).supervisor = s.supervisor := rfl

@[simp] theorem postpone_ledger : (s.postpone d).ledger = s.ledger.postpone d := rfl

@[simp] theorem getElem?_postpone (i : Nat) :
    (s.postpone d).workers[i]? = s.workers[i]?.map (Worker.postpone d) :=
  Array.getElem?_map

@[simp] theorem ended_postpone (g : Generator) : (g.postpone d).ended = g.ended := by
  cases g <;> rfl

@[simp] theorem workersEnded_postpone : (s.postpone d).workersEnded = s.workersEnded := by
  unfold State.workersEnded State.postpone
  rw [Array.all_map]
  congr 1
  funext w
  cases w <;> rfl

@[simp] theorem workerCrashed_postpone : (s.postpone d).workerCrashed = s.workerCrashed := by
  unfold State.workerCrashed State.postpone
  rw [Array.any_map]
  congr 1
  funext w
  cases w <;> rfl

@[simp] theorem expired_postpone (now : Nat) :
    (p.postpone d draw).expired (d + now) = p.expired now :=
  Nanos.any_le_add d now p.stopAt

theorem setWorker_postpone (i : Nat) (w : Worker) :
    (s.setWorker i w).postpone d = (s.postpone d).setWorker i (w.postpone d) := by
  unfold State.setWorker State.postpone
  simp only [Array.map_setIfInBounds]

/-- The state in which a run begins, with another ledger that is kept in the same way. -/
theorem initial_postpone {cancelled : Bool} {b : Circuit.Breaker} {l l' : Ledger}
    (hoptions : l'.options = l.options) : (State.initial p cancelled b l).postpone d =
      .initial (p.postpone d draw) cancelled (b.postpone d) l' := by
  unfold State.initial State.postpone Ledger.reset
  simp only [Ledger.start_postpone, hoptions, Array.map_replicate]
  rfl

/-! ## The steps of the tasks -/

theorem offerJob_postpone (id : Nat) :
    offerJob (p.postpone d draw) (s.postpone d) id = (offerJob p s id).postpone d := by
  unfold offerJob
  rw [postpone_operation]
  cases p.operation id <;> rfl

theorem stepGenerator_postpone (hd : Nanos.perMilli ∣ d) :
    stepGenerator (p.postpone d draw) (s.postpone d) =
      (stepGenerator p s).map (State.postpone d) := by
  unfold stepGenerator
  simp only [postpone_generator, postpone_cancelled, postpone_total, postpone_interval,
    postpone_jobCapacity, postpone_jobs, postpone_now, postpone_started, expired_postpone,
    offerJob_postpone, Nat.add_assoc, Nanos.wakeBy_add hd]
  cases s.generator with
  | next id =>
      simp only [Generator.postpone]
      split
      · rfl
      · cases p.interval with
        | none => rfl
        | some interval => simp only [apply_ite (Option.map (State.postpone d))]; rfl
  | ticking id wake =>
      simp only [Generator.postpone, Nat.add_le_add_iff_left]
      split
      · rfl
      · split
        · split <;> rfl
        · split <;> rfl
  | offering job =>
      simp only [Generator.postpone]
      split
      · rfl
      · split
        · rfl
        · split <;> rfl
  | counting id => rfl
  | stopped => rfl
  | crashed => rfl

/-- The executions of a job run with the same setting, as long as their waits have no random
share. -/
theorem setting_postpone (hjitter : p.policy.jitter = 0.0) (job : Job) :
    (p.setting job).Later d ((p.postpone d draw).setting job) where
  policy := rfl
  thresholds := rfl
  classifier := rfl
  call n now := by
    show p.call job n (d + now - (d + p.started)) = p.call job n (now - p.started)
    rw [Nat.add_sub_add_left]
  steady := hjitter

theorem concludeJob_postpone (job : Job) (since : Nat)
    (outcome : Except Retry.ExecuteError (OperationResult × Nat)) :
    concludeJob (s.postpone d) job (d + since) outcome =
      (concludeJob s job since outcome).postpone d := by
  unfold concludeJob
  rw [postpone_now, Nat.add_sub_add_left]
  split <;> rfl

/-- The state after a move of the execution of a job. -/
def State.moved (p : Plan) (s : State) (i : Nat) (job : Job) (since attempts : Nat)
    (move : Retry.Move OperationResult) : State :=
  { s.setWorker i (.running job since move.execution) with
    breaker := move.breaker
    runCancelled := s.runCancelled || move.cancels
    calls :=
      if move.execution.isCalling then ⟨s.now - p.started, job, attempts⟩ :: s.calls else s.calls }

theorem moved_postpone (i : Nat) (job : Job) (since attempts : Nat)
    (move : Retry.Move OperationResult) :
    (s.postpone d).moved (p.postpone d draw) i job (d + since) attempts (move.postpone d) =
      (s.moved p i job since attempts move).postpone d := by
  unfold State.moved
  rw [postpone_now, postpone_started, Nat.add_sub_add_left]
  simp only [Retry.Move.postpone, Retry.Execution.isCalling_postpone, State.setWorker,
    State.postpone, Array.map_setIfInBounds]
  rfl

theorem stepExecution_postpone (hd : Nanos.perMilli ∣ d) (hjitter : p.policy.jitter = 0.0)
    (i : Nat) (job : Job) (since : Nat) (e : Retry.Execution OperationResult) :
    stepExecution (p.postpone d draw) (s.postpone d) i job (d + since) (e.postpone d) =
      (stepExecution p s i job since e).map (State.postpone d) := by
  have hmoves : ((e.postpone d).step ((p.postpone d draw).setting job) (d + s.now) s.cancelled
      (s.breaker.postpone d)).map
        ((s.postpone d).moved (p.postpone d draw) i job (d + since) e.attempts) =
      ((e.step (p.setting job) s.now s.cancelled s.breaker).map
        (s.moved p i job since e.attempts)).map (State.postpone d) := by
    rw [Retry.Execution.step_postpone (setting_postpone hjitter job) hd e, Option.map_map,
      Option.map_map]
    congr 1
    funext move
    exact moved_postpone i job since e.attempts move
  obtain ⟨attempts, phase⟩ := e
  cases phase with
  -- An execution that has not ended makes its move, whatever its phase.
  | ready | calling | waiting => exact hmoves
  | done outcome =>
      show some (State.setWorker _ _ (concludeJob _ _ _ _)) =
        some (State.postpone d (State.setWorker _ _ _))
      rw [concludeJob_postpone, setWorker_postpone]
  | crashed cause =>
      show some (State.setWorker _ _ _) = some (State.postpone d (State.setWorker _ _ _))
      rw [setWorker_postpone]
      rfl

/-- A worker takes a step, and with it the queues and the counts, in which no instants are kept. -/
theorem workerStep_postpone (i : Nat) (w : Worker) (jobs : List Job) (line : List Nat)
    (results : List Completion) (completed succeeded failed : Nat) :
    some
        { (s.postpone d).setWorker i (w.postpone d) with
          jobs, line, results, completed, succeeded, failed } =
      (some { s.setWorker i w with jobs, line, results, completed, succeeded, failed }).map
        (State.postpone d) := by
  simp only [State.setWorker, State.postpone, Array.map_setIfInBounds, Option.map_some]

theorem stepWorker_postpone (hd : Nanos.perMilli ∣ d) (hjitter : p.policy.jitter = 0.0) (i : Nat) :
    stepWorker (p.postpone d draw) (s.postpone d) i =
      (stepWorker p s i).map (State.postpone d) := by
  unfold stepWorker
  rw [getElem?_postpone, postpone_cancelled, postpone_line, postpone_jobs, postpone_results,
    postpone_collector, postpone_resultCapacity]
  cases s.workers[i]? with
  | none => rfl
  | some w =>
      cases w with
      | asking =>
          simp only [Option.map_some, Worker.postpone]
          split
          · exact workerStep_postpone i .exited _ _ _ _ _ _
          · exact workerStep_postpone i .waiting _ _ _ _ _ _
      | waiting =>
          simp only [Option.map_some, Worker.postpone]
          split
          · exact workerStep_postpone i .exited _ _ _ _ _ _
          · split
            · cases s.jobs with
              | nil =>
                  simp only [postpone_generator, ended_postpone]
                  split
                  · exact workerStep_postpone i .exited _ _ _ _ _ _
                  · rfl
              | cons job rest => exact workerStep_postpone i (.running job s.now {}) _ _ _ _ _ _
            · rfl
      | running job since e => exact stepExecution_postpone hd hjitter i job since e
      | sending completion =>
          simp only [Option.map_some, Worker.postpone]
          split
          · exact workerStep_postpone i .exited _ _ _ _ _ _
          · split
            · exact workerStep_postpone i (.counting completion.result.success) _ _ _ _ _ _
            · rfl
      | counting success => exact workerStep_postpone i .asking _ _ _ _ _ _
      | exited => rfl
      | crashed => rfl

theorem stepCollector_postpone :
    stepCollector (s.postpone d) = (stepCollector s).map (State.postpone d) := by
  unfold stepCollector
  rw [postpone_collector, postpone_results, workersEnded_postpone]
  cases s.collector with
  | listening =>
      cases s.results with
      | nil =>
          simp only
          split <;> rfl
      | cons completion rest =>
          simp only [postpone_ledger, postpone_now, Ledger.record_postpone]
          split <;> rfl
  | ended => rfl
  | crashed => rfl

theorem stepSupervisor_postpone :
    stepSupervisor (s.postpone d) = (stepSupervisor s).map (State.postpone d) := by
  unfold stepSupervisor
  rw [postpone_supervisor, postpone_generator, postpone_collector, workersEnded_postpone,
    workerCrashed_postpone]
  cases s.supervisor with
  | awaitingGenerator => cases s.generator <;> rfl
  | awaitingWorkers alarmed =>
      simp only
      split
      · rfl
      · split <;> rfl
  | awaitingCollector =>
      cases s.collector with
      | listening => rfl
      | ended | crashed =>
          simp only [postpone_ledger, postpone_now, Ledger.finish_postpone]
          rfl
  | finished => rfl

/-! ## The steps of a run -/

variable (hd : Nanos.perMilli ∣ d) (hjitter : p.policy.jitter = 0.0)

include hd hjitter in
theorem stepActor_postpone (actor : Actor) :
    stepActor (p.postpone d draw) (s.postpone d) actor =
      (stepActor p s actor).map (State.postpone d) := by
  cases actor with
  | generator => exact stepGenerator_postpone hd
  | worker i => exact stepWorker_postpone hd hjitter i
  | collector => exact stepCollector_postpone
  | supervisor => exact stepSupervisor_postpone

include hd hjitter in
theorem quiet_postpone : quiet (p.postpone d draw) (s.postpone d) = quiet p s := by
  have hsize : (s.postpone d).workers.size = s.workers.size := Array.size_map
  unfold quiet
  rw [hsize, stepGenerator_postpone hd, stepCollector_postpone, stepSupervisor_postpone]
  simp only [stepWorker_postpone hd hjitter, Option.isNone_map]

theorem wake?_postpone (w : Worker) : (w.postpone d).wake? = w.wake?.map (d + ·) := by
  cases w with
  | running job since e => exact Retry.Execution.wake?_postpone e
  | _ => rfl

theorem wakes_postpone :
    (s.postpone d).wakes (p.postpone d draw) = (s.wakes p).map (d + ·) := by
  unfold State.wakes
  rw [List.map_append]
  congr 1
  · unfold State.generatorWakes
    have hstop : (p.postpone d draw).stopAt = p.stopAt.map (d + ·) := rfl
    rw [postpone_generator, hstop]
    cases s.generator <;> cases p.stopAt <;> rfl
  · show ((s.workers.map (Worker.postpone d)).toList).filterMap Worker.wake? = _
    rw [Array.toList_map, List.filterMap_map, List.map_filterMap]
    congr 1
    funext w
    exact wake?_postpone w

theorem postpone_cancel : step (p.postpone d draw) (s.postpone d) .cancel =
    (step p s .cancel).map (State.postpone d) := by
  have hcaller : (s.postpone d).callerCancelled = s.callerCancelled := rfl
  unfold step
  simp only [hcaller]
  split <;> rfl

include hd hjitter in
/-- Every step of a run of prompt tasks is made later. -/
theorem step_postpone (label : Label) :
    step (p.postpone d draw) (s.postpone d) (label.postpone d) =
      (step p s label).map (State.postpone d) := by
  cases label with
  | act actor => exact stepActor_postpone hd hjitter actor
  | wait instant =>
      have hstops : ((s.postpone d).wakes (p.postpone d draw)).all (decide <| d + instant ≤ ·) =
          (s.wakes p).all (decide <| instant ≤ ·) := by
        rw [wakes_postpone, List.all_map]
        simp only [Function.comp_def, Nat.add_le_add_iff_left]
      simp only [step, Label.postpone]
      rw [quiet_postpone hd hjitter, postpone_now, hstops]
      simp only [Nat.add_lt_add_iff_left]
      split <;> rfl
  | cancel => exact postpone_cancel

include hd hjitter in
/-- Every step of a run is made later. -/
theorem lateStep_postpone (label : Label) :
    lateStep (p.postpone d draw) (s.postpone d) (label.postpone d) =
      (lateStep p s label).map (State.postpone d) := by
  cases label with
  | act actor => exact stepActor_postpone hd hjitter actor
  | wait instant =>
      unfold lateStep Label.postpone
      simp only [postpone_now, Nat.add_lt_add_iff_left]
      split <;> rfl
  | cancel =>
      show step (p.postpone d draw) (s.postpone d) .cancel =
        (step p s .cancel).map (State.postpone d)
      exact postpone_cancel

/-- What happens later is something put off: time passes only to instants after the present one. -/
theorem exists_label {label : Label} {t : State}
    (h : lateStep (p.postpone d draw) (s.postpone d) label = some t) :
    ∃ label₀ : Label, label = label₀.postpone d := by
  cases label with
  | act actor => exact ⟨.act actor, rfl⟩
  | wait instant =>
      rw [lateStep] at h
      split at h
      · rename_i hlater
        rw [postpone_now] at hlater
        refine ⟨.wait (instant - d), ?_⟩
        rw [Label.postpone, Nat.add_sub_cancel' (by omega)]
      · cases h
  | cancel => exact ⟨.cancel, rfl⟩

end Run
end LoadGen
