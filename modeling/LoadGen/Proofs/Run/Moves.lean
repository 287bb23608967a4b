import LoadGen.Proofs.Trace
import LoadGen.Run.Step

/-!
# What a step of a run can be

The step functions decide which task can go on.  Here each of their steps gets a name, with all that
has to hold before it and all that it changes, so that a statement about every step is a case
analysis over names.  Tasks need not be prompt: one that could go on may be kept waiting while time
passes.

* `GeneratorMove`, `WorkerMove`, `CollectorMove`, `SupervisorMove` — the steps of the tasks.
* `lateStep`, `trace_of_reachable` — runs with tardy tasks, among them all that `step` allows.
* `Move`, `move_of_step` — the steps of such a run; every step is one of them.
* `Worker.ended` and the views `workersEnded_iff`, `workerCrashed_iff` — the workers one by one.
-/

namespace LoadGen
namespace Run

variable {p : Plan} {s s' : State} {label : Label} {i : Nat} {w : Worker}

abbrev History : Type := List (Transition State Label)

/-- A step of a run whose tasks may be late: time passes at any moment, and it may pass the instant
at which a waiting task could have gone on. -/
def lateStep (p : Plan) (s : State) : Label → Option State
  | .act actor => stepActor p s actor
  | .wait instant => if s.now < instant then some { s with now := instant } else none
  | .cancel => step p s .cancel

/-- Prompt tasks are a special case of late ones. -/
theorem lateStep_of_step (h : step p s label = some s') : lateStep p s label = some s' := by
  cases label with
  | act actor => exact h
  | wait instant =>
      simp only [step, Bool.and_eq_true, decide_eq_true_eq] at h
      split at h
      · rename_i hpasses
        rw [lateStep, if_pos hpasses.1.2]
        exact h
      · cases h
  | cancel => exact h

/-- Every state that a run can reach is the end of a history. -/
theorem trace_of_reachable {s₀ s : State} (h : Reachable p s₀ s) :
    ∃ ts : History, Trace (lateStep p) s₀ ts s := by
  induction h with
  | refl => exact ⟨[], .nil⟩
  | step label _ hstep ih =>
      obtain ⟨ts, ht⟩ := ih
      exact ⟨_, ht.snoc (lateStep_of_step hstep)⟩

/-! ## The workers one by one -/

@[simp] theorem setWorker_workers (s : State) (i : Nat) (w : Worker) :
    (s.setWorker i w).workers = s.workers.setIfInBounds i w := rfl

@[simp] theorem setWorker_jobs (s : State) (i : Nat) (w : Worker) :
    (s.setWorker i w).jobs = s.jobs := rfl

@[simp] theorem setWorker_results (s : State) (i : Nat) (w : Worker) :
    (s.setWorker i w).results = s.results := rfl

theorem getElem?_setWorker_self (hw : s.workers[i]? = some w) (w' : Worker) :
    (s.workers.setIfInBounds i w')[i]? = some w' := by
  obtain ⟨hi, _⟩ := Array.getElem?_eq_some_iff.1 hw
  rw [Array.getElem?_setIfInBounds, if_pos rfl, if_pos hi]

theorem getElem?_setWorker_ne {i j : Nat} (hij : i ≠ j) (w' : Worker) :
    (s.workers.setIfInBounds i w')[j]? = s.workers[j]? := by
  rw [Array.getElem?_setIfInBounds, if_neg hij]

theorem workersEnded_iff : s.workersEnded = true ↔
      ∀ (i : Nat) (w : Worker), s.workers[i]? = some w → w.ended = true := by
  rw [State.workersEnded, Array.all_eq_true_iff_forall_mem]
  constructor
  · intro h i w hw
    exact h w (Array.mem_of_getElem? hw)
  · intro h w hw
    obtain ⟨i, hi⟩ := Array.getElem?_of_mem hw
    exact h i w hi

theorem workerCrashed_iff : s.workerCrashed = true ↔ ∃ i : Nat, s.workers[i]? = some .crashed := by
  rw [State.workerCrashed, Array.any_eq_true]
  constructor
  · rintro ⟨i, hi, hcrashed⟩
    refine ⟨i, ?_⟩
    rw [Array.getElem?_eq_getElem hi]
    cases hw : s.workers[i] with
    | crashed => rfl
    | _ => simp [hw, Worker.isCrashed] at hcrashed
  · rintro ⟨i, hw⟩
    obtain ⟨hi, hget⟩ := Array.getElem?_eq_some_iff.1 hw
    exact ⟨i, hi, by simp [hget, Worker.isCrashed]⟩

/-! ## The steps of the tasks -/

/-- The generator makes the operation of job `id`: at once, or when the tick of the job is due. -/
def Makes (p : Plan) (s : State) (id : Nat) : Prop :=
  (s.generator = .next id ∧ id < p.total ∧ (id = 0 ∨ p.interval = none)) ∨
    ∃ wake, s.generator = .ticking id wake ∧ s.cancelled = false ∧ wake ≤ s.now ∧
      (id + 1) * p.interval.getD 0 ≤ Nanos.longest

/-- The steps of the generator.  Making the operation of a job ends in `offer` or in `fail`. -/
inductive GeneratorMove (p : Plan) (s : State) : State → Prop
  | finish {id : Nat} (hat : s.generator = .next id) (hdone : p.total ≤ id) :
      GeneratorMove p s { s with generator := .stopped }
  | schedule {id interval : Nat} (hat : s.generator = .next id) (hid : id < p.total)
      (hpos : id ≠ 0) (hinterval : p.interval = some interval) :
      GeneratorMove p s
        { s with generator := .ticking id (Nanos.wakeBy s.now (p.started + id * interval)) }
  | offer {id : Nat} {operation : Operation} (hmakes : Makes p s id)
      (hoperation : p.operation id = some operation) :
      GeneratorMove p s { s with generator := .offering ⟨id, operation, p.timeout⟩ }
  | fail {id : Nat} (hmakes : Makes p s id) (hoperation : p.operation id = none) :
      GeneratorMove p s { s with generator := .crashed }
  | overflow {id wake : Nat} (hat : s.generator = .ticking id wake) (hrun : s.cancelled = false)
      (hdue : wake ≤ s.now) (hbeyond : Nanos.longest < (id + 1) * p.interval.getD 0) :
      GeneratorMove p s { s with generator := .crashed }
  | quit (hat : (∃ id wake, s.generator = .ticking id wake) ∨ ∃ job, s.generator = .offering job)
      (hcancelled : s.cancelled = true) : GeneratorMove p s { s with generator := .stopped }
  | expire
      (hat : (∃ id wake, s.generator = .ticking id wake ∧ s.now < wake) ∨
        ∃ job, s.generator = .offering job ∧ p.jobCapacity ≤ s.jobs.length)
      (hrun : s.cancelled = false) (hexpired : p.expired s.now = true) :
      GeneratorMove p s { s with generator := .stopped }
  | send {job : Job} (hat : s.generator = .offering job) (hrun : s.cancelled = false)
      (hroom : s.jobs.length < p.jobCapacity) :
      GeneratorMove p s { s with generator := .counting job.id, jobs := s.jobs ++ [job] }
  | count {id : Nat} (hat : s.generator = .counting id) :
      GeneratorMove p s { s with generator := .next (id + 1), dispatched := s.dispatched + 1 }

/-- The steps of worker `i`, which stands at the given place. -/
inductive WorkerMove (p : Plan) (s : State) (i : Nat) : Worker → State → Prop
  | leave (hcancelled : s.cancelled = true) : WorkerMove p s i .asking (s.setWorker i .exited)
  | queueUp (hrun : s.cancelled = false) :
      WorkerMove p s i .asking { s.setWorker i .waiting with line := s.line ++ [i] }
  | giveUp (hcancelled : s.cancelled = true) :
      WorkerMove p s i .waiting { s.setWorker i .exited with line := s.line.erase i }
  | take {job : Job} {rest : List Job} (hrun : s.cancelled = false)
      (hfirst : s.line.head? = some i) (hjobs : s.jobs = job :: rest) :
      WorkerMove p s i .waiting
        { s.setWorker i (.running job s.now {}) with line := s.line.tail, jobs := rest }
  | retire (hrun : s.cancelled = false) (hfirst : s.line.head? = some i) (hjobs : s.jobs = [])
      (hended : s.generator.ended = true) :
      WorkerMove p s i .waiting { s.setWorker i .exited with line := s.line.tail }
  | conclude {job : Job} {since : Nat} {execution : Retry.Execution OperationResult}
      {outcome : Except Retry.ExecuteError (OperationResult × Nat)}
      (hphase : execution.phase = .done outcome) :
      WorkerMove p s i (.running job since execution)
        (s.setWorker i (concludeJob s job since outcome))
  | fall {job : Job} {since : Nat} {execution : Retry.Execution OperationResult}
      {cause : Retry.Crash} (hphase : execution.phase = .crashed cause) :
      WorkerMove p s i (.running job since execution) (s.setWorker i .crashed)
  | advance {job : Job} {since : Nat} {execution : Retry.Execution OperationResult}
      {move : Retry.Move OperationResult}
      (hmove : execution.step (p.setting job) s.now s.cancelled s.breaker = some move) :
      WorkerMove p s i (.running job since execution)
        { s.setWorker i (.running job since move.execution) with
          breaker := move.breaker
          runCancelled := s.runCancelled || move.cancels
          calls :=
            if move.execution.isCalling then ⟨s.now - p.started, job, execution.attempts⟩ :: s.calls
            else s.calls }
  | abandon {completion : Completion} (hdeaf : s.collector ≠ .listening) :
      WorkerMove p s i (.sending completion) (s.setWorker i .exited)
  | deliver {completion : Completion} (hlistens : s.collector = .listening)
      (hroom : s.results.length < p.resultCapacity) :
      WorkerMove p s i (.sending completion)
        { s.setWorker i (.counting completion.result.success) with
          results := s.results ++ [completion] }
  | count {success : Bool} :
      WorkerMove p s i (.counting success)
        { s.setWorker i .asking with
          completed := s.completed + 1
          succeeded := if success then s.succeeded + 1 else s.succeeded
          failed := if success then s.failed else s.failed + 1 }

inductive CollectorMove (s : State) : State → Prop
  | accept {completion : Completion} {rest : List Completion} (hat : s.collector = .listening)
      (hresults : s.results = completion :: rest)
      (haccepted : (s.ledger.record s.now completion.result).2 = true) :
      CollectorMove s
        { s with ledger := (s.ledger.record s.now completion.result).1, results := rest }
  | refuse {completion : Completion} {rest : List Completion} (hat : s.collector = .listening)
      (hresults : s.results = completion :: rest)
      (hrefused : (s.ledger.record s.now completion.result).2 = false) :
      CollectorMove s
        { s with
          ledger := (s.ledger.record s.now completion.result).1
          results := []
          collector := .crashed }
  | close (hat : s.collector = .listening) (hresults : s.results = [])
      (hended : s.workersEnded = true) : CollectorMove s { s with collector := .ended }

inductive SupervisorMove (s : State) : State → Prop
  | joinGenerator (hat : s.supervisor = .awaitingGenerator) (hgenerator : s.generator = .stopped) :
      SupervisorMove s { s with supervisor := .awaitingWorkers false }
  | buryGenerator (hat : s.supervisor = .awaitingGenerator) (hgenerator : s.generator = .crashed) :
      SupervisorMove s
        { s with
          supervisor := .awaitingWorkers false
          runCancelled := true
          failure := some .generator }
  | buryWorker (hat : s.supervisor = .awaitingWorkers false) (hcrashed : s.workerCrashed = true) :
      SupervisorMove s
        { s with
          supervisor := .awaitingWorkers true
          runCancelled := true
          failure := some (s.failure.getD .worker) }
  | joinWorkers {alarmed : Bool} (hat : s.supervisor = .awaitingWorkers alarmed)
      (hseen : alarmed = true ∨ s.workerCrashed = false) (hended : s.workersEnded = true) :
      SupervisorMove s { s with supervisor := .awaitingCollector }
  | joinCollector (hat : s.supervisor = .awaitingCollector) (hcollector : s.collector = .ended) :
      SupervisorMove s { s with supervisor := .finished, ledger := s.ledger.finish s.now }
  | buryCollector (hat : s.supervisor = .awaitingCollector) (hcollector : s.collector = .crashed) :
      SupervisorMove s
        { s with
          supervisor := .finished
          ledger := s.ledger.finish s.now
          failure := some (s.failure.getD .collector) }

/-! ## The steps of a run -/

/-- The steps of a run, with their labels. -/
inductive Move (p : Plan) (s : State) : Label → State → Prop
  | generator {s' : State} (hmove : GeneratorMove p s s') : Move p s (.act .generator) s'
  | worker {i : Nat} {w : Worker} {s' : State} (hw : s.workers[i]? = some w)
      (hmove : WorkerMove p s i w s') : Move p s (.act (.worker i)) s'
  | collector {s' : State} (hmove : CollectorMove s s') : Move p s (.act .collector) s'
  | supervisor {s' : State} (hmove : SupervisorMove s s') : Move p s (.act .supervisor) s'
  | wait {instant : Nat} (hlater : s.now < instant) :
      Move p s (.wait instant) { s with now := instant }
  | cancel (hrun : s.callerCancelled = false) : Move p s .cancel { s with callerCancelled := true }

theorem generatorMove_offerJob {id : Nat} (hmakes : Makes p s id) :
    GeneratorMove p s (offerJob p s id) := by
  unfold offerJob
  cases hoperation : p.operation id with
  | some operation => exact .offer hmakes hoperation
  | none => exact .fail hmakes hoperation

theorem generatorMove_of_step (h : stepGenerator p s = some s') : GeneratorMove p s s' := by
  unfold stepGenerator at h
  cases hat : s.generator with
  | next id =>
      simp only [hat] at h
      split at h
      · cases h
        exact .finish hat ‹_›
      · have hid : id < p.total := Nat.lt_of_not_le ‹_›
        cases hinterval : p.interval with
        | none =>
            simp only [hinterval] at h
            cases h
            exact generatorMove_offerJob (.inl ⟨hat, hid, .inr hinterval⟩)
        | some interval =>
            simp only [hinterval] at h
            split at h
            · cases h
              exact generatorMove_offerJob (.inl ⟨hat, hid, .inl ‹_›⟩)
            · cases h
              exact .schedule hat hid ‹_› hinterval
  | ticking id wake =>
      simp only [hat] at h
      cases hcancelled : s.cancelled with
      | true =>
          simp only [hcancelled, if_true] at h
          cases h
          exact .quit (.inl ⟨id, wake, hat⟩) hcancelled
      | false =>
          simp only [hcancelled, Bool.false_eq_true, if_false] at h
          split at h
          · split at h
            · cases h
              exact generatorMove_offerJob (.inr ⟨wake, hat, hcancelled, ‹_›, ‹_›⟩)
            · cases h
              exact .overflow hat hcancelled ‹_› (Nat.lt_of_not_le ‹_›)
          · split at h
            · cases h
              exact .expire (.inl ⟨id, wake, hat, Nat.lt_of_not_le ‹_›⟩) hcancelled ‹_›
            · cases h
  | offering job =>
      simp only [hat] at h
      cases hcancelled : s.cancelled with
      | true =>
          simp only [hcancelled, if_true] at h
          cases h
          exact .quit (.inr ⟨job, hat⟩) hcancelled
      | false =>
          simp only [hcancelled, Bool.false_eq_true, if_false] at h
          split at h
          · cases h
            exact .send hat hcancelled ‹_›
          · split at h
            · cases h
              exact .expire (.inr ⟨job, hat, Nat.le_of_not_lt ‹_›⟩) hcancelled ‹_›
            · cases h
  | counting id =>
      simp only [hat] at h
      cases h
      exact .count hat
  | stopped => simp [hat] at h
  | crashed => simp [hat] at h

theorem workerMove_of_execution {job : Job} {since : Nat}
    {execution : Retry.Execution OperationResult}
    (h : stepExecution p s i job since execution = some s') :
    WorkerMove p s i (.running job since execution) s' := by
  unfold stepExecution at h
  split at h
  · cases h
    exact .conclude ‹_›
  · cases h
    exact .fall ‹_›
  · obtain ⟨move, hmove, rfl⟩ := Option.map_eq_some_iff.1 h
    exact .advance hmove

theorem workerMove_of_step (h : stepWorker p s i = some s') :
    ∃ w, s.workers[i]? = some w ∧ WorkerMove p s i w s' := by
  unfold stepWorker at h
  cases hw : s.workers[i]? with
  | none => simp [hw] at h
  | some w =>
      refine ⟨w, rfl, ?_⟩
      simp only [hw] at h
      cases w with
      | asking =>
          cases hcancelled : s.cancelled with
          | true =>
              simp only [hcancelled, if_true] at h
              cases h
              exact .leave hcancelled
          | false =>
              simp only [hcancelled, Bool.false_eq_true, if_false] at h
              cases h
              exact .queueUp hcancelled
      | waiting =>
          cases hcancelled : s.cancelled with
          | true =>
              simp only [hcancelled, if_true] at h
              cases h
              exact .giveUp hcancelled
          | false =>
              simp only [hcancelled, Bool.false_eq_true, if_false] at h
              split at h
              · split at h
                · cases h
                  exact .take hcancelled ‹_› ‹_›
                · split at h
                  · cases h
                    exact .retire hcancelled ‹_› ‹_› ‹_›
                  · cases h
              · cases h
      | running job since execution => exact workerMove_of_execution h
      | sending completion =>
          simp only at h
          split at h
          · cases h
            exact .abandon ‹_›
          · split at h
            · cases h
              exact .deliver (Decidable.not_not.1 ‹_›) ‹_›
            · cases h
      | counting success =>
          cases h
          exact .count
      | exited => simp at h
      | crashed => simp at h

theorem collectorMove_of_step (h : stepCollector s = some s') : CollectorMove s s' := by
  unfold stepCollector at h
  split at h
  case h_1 hat =>
    split at h
    case h_1 completion rest hresults =>
      cases haccepted : (s.ledger.record s.now completion.result).2 with
      | true =>
          simp only [haccepted, if_true] at h
          cases h
          exact .accept hat hresults haccepted
      | false =>
          simp only [haccepted, Bool.false_eq_true, if_false] at h
          cases h
          exact .refuse hat hresults haccepted
    case h_2 hresults =>
      split at h
      · cases h
        exact .close hat hresults ‹_›
      · cases h
  case h_2 => cases h
  case h_3 => cases h

theorem supervisorMove_of_step (h : stepSupervisor s = some s') : SupervisorMove s s' := by
  unfold stepSupervisor at h
  split at h
  case h_1 hat =>
    split at h
    case h_1 hgenerator =>
      cases h
      exact .joinGenerator hat hgenerator
    case h_2 hgenerator =>
      cases h
      exact .buryGenerator hat hgenerator
    case h_3 => cases h
  case h_2 alarmed hat =>
    split at h
    case isTrue halarm =>
      obtain ⟨hsilent, hcrashed⟩ := Bool.and_eq_true_iff.1 halarm
      obtain rfl : alarmed = false := by simpa using hsilent
      cases h
      exact .buryWorker hat hcrashed
    case isFalse hcalm =>
      split at h
      · rename_i hended
        cases h
        refine .joinWorkers hat ?_ hended
        -- A supervisor that has not raised the alarm yet has seen no worker die.
        cases alarmed with
        | true => exact .inl rfl
        | false => exact .inr (eq_false_of_ne_true hcalm)
      · cases h
  case h_3 hat =>
    split at h
    case h_1 => cases h
    case h_2 hcollector =>
      cases h
      exact .joinCollector hat hcollector
    case h_3 hcollector =>
      cases h
      exact .buryCollector hat hcollector
  case h_4 => cases h

/-- Every step of a run is one of the named ones. -/
theorem move_of_step (h : lateStep p s label = some s') : Move p s label s' := by
  cases label with
  | act actor =>
      cases actor with
      | generator => exact .generator (generatorMove_of_step h)
      | worker i =>
          obtain ⟨w, hw, hmove⟩ := workerMove_of_step h
          exact .worker hw hmove
      | collector => exact .collector (collectorMove_of_step h)
      | supervisor => exact .supervisor (supervisorMove_of_step h)
  | wait instant =>
      rw [lateStep] at h
      split at h
      · cases h
        exact .wait ‹_›
      · cases h
  | cancel =>
      rw [lateStep] at h
      cases hrun : s.callerCancelled <;> simp only [step, hrun] at h <;> cases h
      exact .cancel hrun

/-- What every named step preserves holds at the end of every history. -/
theorem invariant_of_moves {s₀ s : State} {P : State → Prop} (ht : Trace (lateStep p) s₀ ts s)
    (hinit : P s₀) (hmove : ∀ s label s', P s → Move p s label s' → P s') : P s :=
  ht.invariant hinit fun s label s' hs hstep => hmove s label s' hs (move_of_step hstep)

/-! ## What a task leaves alone -/

/-- The generator changes nothing but its place, the job queue and the number of jobs sent. -/
theorem GeneratorMove.frame (h : GeneratorMove p s s') :
    s' = { s with generator := s'.generator, jobs := s'.jobs, dispatched := s'.dispatched } := by
  cases h <;> rfl

/-- The generator has no step once it has ended. -/
theorem GeneratorMove.not_ended (h : GeneratorMove p s s') : s.generator.ended = false := by
  cases h with
  | offer hmakes | fail hmakes =>
      rcases hmakes with ⟨hat, _⟩ | ⟨wake, hat, _⟩ <;> rw [hat] <;> rfl
  | quit hat =>
      rcases hat with ⟨id, wake, hat⟩ | ⟨job, hat⟩ <;> rw [hat] <;> rfl
  | expire hat =>
      rcases hat with ⟨id, wake, hat, _⟩ | ⟨job, hat, _⟩ <;> rw [hat] <;> rfl
  | finish hat | schedule hat | overflow hat | send hat | count hat => rw [hat]; rfl

/-- A worker changes neither another worker nor another task. -/
theorem WorkerMove.frame (h : WorkerMove p s i w s') :
    (∃ w', s'.workers = s.workers.setIfInBounds i w') ∧ s'.generator = s.generator ∧
      s'.collector = s.collector ∧ s'.supervisor = s.supervisor ∧ s'.failure = s.failure ∧
      s'.ledger = s.ledger ∧ s'.dispatched = s.dispatched ∧ s'.now = s.now := by
  cases h <;> exact ⟨⟨_, rfl⟩, rfl, rfl, rfl, rfl, rfl, rfl, rfl⟩

/-- A worker has no step once it has ended. -/
theorem WorkerMove.not_ended (h : WorkerMove p s i w s') : w.ended = false := by
  cases h <;> rfl

/-- The collector changes nothing but its place, the result queue and the ledger. -/
theorem CollectorMove.frame (h : CollectorMove s s') :
    s' = { s with collector := s'.collector, results := s'.results, ledger := s'.ledger } := by
  cases h <;> rfl

/-- The collector has no step once it has ended. -/
theorem CollectorMove.listening (h : CollectorMove s s') : s.collector = .listening := by
  cases h <;> assumption

/-- The supervisor changes nothing but its place, the cancellation, the failure and the ledger. -/
theorem SupervisorMove.frame (h : SupervisorMove s s') : s' = { s with
      supervisor := s'.supervisor
      runCancelled := s'.runCancelled
      failure := s'.failure
      ledger := s'.ledger } := by
  cases h <;> rfl

/-- Only the steps of workers change the workers. -/
theorem Move.workers_eq (h : Move p s label s') (hlabel : ∀ i, label ≠ .act (.worker i)) :
    s'.workers = s.workers := by
  cases h with
  | worker => exact absurd rfl (hlabel _)
  | generator hmove | collector hmove | supervisor hmove => rw [hmove.frame]
  | wait | cancel => rfl

/-- The steps of tasks take no time, and no task fires the caller's cancellation. -/
theorem Move.act_frame {actor : Actor} (h : Move p s (.act actor) s') :
    s'.now = s.now ∧ s'.callerCancelled = s.callerCancelled := by
  cases h with
  | generator hmove | collector hmove | supervisor hmove =>
      rw [hmove.frame]
      exact ⟨rfl, rfl⟩
  | worker _ hmove => cases hmove <;> exact ⟨rfl, rfl⟩

end Run
end LoadGen
