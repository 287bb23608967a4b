import LoadGen.Proofs.Run.Clock
import LoadGen.Proofs.Run.Handover

/-!
# Every run ends

Each step of a task takes away from the effort that is left: the effort of the jobs that are still
to be made, of those in the queues, and of what every task has to do in its place.  So there are only
so many steps of tasks in a run.  Between two of them prompt tasks wait no longer than they have to,
so a run of theirs ends.

* `State.effort` — how many steps the tasks have left at most; `Move.effort_lt`, `effort_initial`.
* `acts_add_effort_le`, `acts_le` — how many steps of tasks there are in a history.
* `ends_of_steps` — no run of prompt tasks goes on for ever.
-/

namespace LoadGen

namespace Run

variable {p : Plan} {cancelled : Bool} {b : Circuit.Breaker} {l : Ledger} {ts : History}
  {s s' : State} {label : Label} {i : Nat} {w : Worker}

/-! ## The effort that is left -/

/-- The steps that a job in the job queue is good for. -/
def Plan.jobEffort (p : Plan) : Nat :=
  3 * p.policy.maxRetries + 11

/-- The steps that the generator is good for, with those of the jobs that it has yet to make. -/
def Generator.effort (p : Plan) : Generator → Nat
  | .next id => (p.total - id) * (p.jobEffort + 4) + 1
  | .ticking id _ => (p.total - (id + 1)) * (p.jobEffort + 4) + (p.jobEffort + 4)
  | .offering job => (p.total - (job.id + 1)) * (p.jobEffort + 4) + (p.jobEffort + 3)
  | .counting id => (p.total - (id + 1)) * (p.jobEffort + 4) + 2
  | .stopped => 0
  | .crashed => 0

/-- The steps that a worker is good for, with the one that its result is good for. -/
def Worker.effort (p : Plan) : Worker → Nat
  | .running _ _ e => e.effort p.policy.maxRetries + 6
  | .sending _ => 5
  | .counting _ => 3
  | .asking => 2
  | .waiting => 1
  | .exited => 0
  | .crashed => 0

def Collector.effort : Collector → Nat
  | .listening => 1
  | .ended => 0
  | .crashed => 0

def Supervisor.effort : Supervisor → Nat
  | .awaitingGenerator => 4
  | .awaitingWorkers false => 3
  | .awaitingWorkers true => 2
  | .awaitingCollector => 1
  | .finished => 0

/-- How many steps the tasks have left at most. -/
def State.effort (p : Plan) (s : State) : Nat :=
  s.generator.effort p + s.jobs.length * p.jobEffort + (s.workers.toList.map (Worker.effort p)).sum +
    s.results.length + s.collector.effort + s.supervisor.effort

/-- A job that is put into the queue and the jobs that come after it are worth less than it was
worth before it was made. -/
theorem GeneratorMove.effort_lt (h : GeneratorMove p s s') :
    s'.generator.effort p + s'.jobs.length * p.jobEffort <
      s.generator.effort p + s.jobs.length * p.jobEffort := by
  have hnext {id : Nat} (hid : id < p.total) : (p.total - id) * (p.jobEffort + 4) =
      (p.total - (id + 1)) * (p.jobEffort + 4) + (p.jobEffort + 4) := by
    rw [← Nat.succ_mul]
    congr 1
    omega
  have hmaking {id : Nat} (hmakes : Makes p s id) :
      (p.total - (id + 1)) * (p.jobEffort + 4) + (p.jobEffort + 4) ≤ s.generator.effort p := by
    rcases hmakes with ⟨hat, hid, -⟩ | ⟨wake, hat, -⟩
    · rw [hat, Generator.effort, hnext hid]
      exact Nat.le_succ _
    · rw [hat]
      exact Nat.le_refl _
  cases h with
  | finish hat | overflow hat =>
      rw [hat]
      simp only [Generator.effort]
      omega
  | schedule hat hid =>
      rw [hat]
      simp only [Generator.effort, hnext hid]
      omega
  | offer hmakes | fail hmakes =>
      refine Nat.add_lt_add_right (Nat.lt_of_lt_of_le ?_ (hmaking hmakes)) _
      simp only [Generator.effort]
      omega
  | quit hat =>
      rcases hat with ⟨id, wake, hat⟩ | ⟨job, hat⟩ <;> rw [hat] <;> simp only [Generator.effort] <;>
        omega
  | expire hat =>
      rcases hat with ⟨id, wake, hat, -⟩ | ⟨job, hat, -⟩ <;> rw [hat] <;>
        simp only [Generator.effort] <;> omega
  | send hat =>
      rw [hat]
      simp only [Generator.effort, List.length_append, List.length_singleton, Nat.succ_mul]
      omega
  | count hat =>
      rw [hat]
      simp only [Generator.effort]
      omega

/-- A worker takes the effort of a job over from the queue and leaves that of a result in the other
queue. -/
theorem WorkerMove.effort_lt (h : WorkerMove p s i w s') :
    ∃ w', s'.workers = s.workers.setIfInBounds i w' ∧
      w'.effort p + s'.jobs.length * p.jobEffort + s'.results.length <
        w.effort p + s.jobs.length * p.jobEffort + s.results.length := by
  cases h with
  | take _ _ hjobs =>
      refine ⟨_, rfl, ?_⟩
      rw [hjobs]
      simp only [Worker.effort, Retry.Execution.effort, List.length_cons, Nat.succ_mul,
        Plan.jobEffort, setWorker_results]
      omega
  | @conclude job since execution outcome hphase =>
      refine ⟨_, rfl, ?_⟩
      have hless : (concludeJob s job since outcome).effort p ≤ 5 := by
        unfold concludeJob
        split <;> simp [Worker.effort]
      have hrunning : (Worker.running job since execution).effort p =
          execution.effort p.policy.maxRetries + 6 := rfl
      rw [hrunning, setWorker_jobs, setWorker_results]
      omega
  | @advance job since execution move hmove =>
      refine ⟨_, rfl, ?_⟩
      have hless : move.execution.effort p.policy.maxRetries <
          execution.effort p.policy.maxRetries :=
        (Retry.Execution.makes_of_step hmove).effort_lt (Retry.Execution.active_of_step hmove)
      simp only [Worker.effort, setWorker_jobs, setWorker_results]
      omega
  | deliver =>
      refine ⟨_, rfl, ?_⟩
      simp only [Worker.effort, setWorker_jobs, List.length_append, List.length_singleton]
      omega
  | leave | queueUp | giveUp | retire | fall | abandon | count =>
      refine ⟨_, rfl, ?_⟩
      simp only [Worker.effort, setWorker_jobs, setWorker_results]
      omega

theorem CollectorMove.effort_lt (h : CollectorMove s s') :
    s'.results.length + s'.collector.effort < s.results.length + s.collector.effort := by
  cases h with
  | accept hat hresults | refuse hat hresults =>
      rw [hat, hresults]
      simp only [Collector.effort, List.length_cons, List.length_nil]
      omega
  | close hat hresults =>
      rw [hat]
      simp only [Collector.effort]
      omega

theorem SupervisorMove.effort_lt (h : SupervisorMove s s') :
    s'.supervisor.effort < s.supervisor.effort := by
  cases h with
  | joinGenerator hat | buryGenerator hat | buryWorker hat | joinCollector hat | buryCollector hat =>
      rw [hat]
      simp [Supervisor.effort]
  | @joinWorkers alarmed hat =>
      rw [hat]
      cases alarmed <;> simp [Supervisor.effort]

/-- Every step of a task takes away from the effort that is left. -/
theorem Move.effort_lt {actor : Actor} (h : Move p s (.act actor) s') :
    s'.effort p < s.effort p := by
  cases h with
  | generator hmove =>
      have hless := hmove.effort_lt
      have hframe := hmove.frame
      rw [State.effort, State.effort, hframe]
      simp only
      omega
  | worker hw hmove =>
      obtain ⟨w', hworkers, hless⟩ := hmove.effort_lt
      obtain ⟨-, hgenerator, hcollector, hsupervisor, -⟩ := hmove.frame
      have hexchange := sum_map_setIfInBounds (Worker.effort p) hw w'
      rw [← hworkers] at hexchange
      rw [State.effort, State.effort, hgenerator, hcollector, hsupervisor]
      omega
  | collector hmove =>
      have hless := hmove.effort_lt
      have hframe := hmove.frame
      rw [State.effort, State.effort, hframe]
      simp only
      omega
  | supervisor hmove =>
      have hless := hmove.effort_lt
      have hframe := hmove.frame
      rw [State.effort, State.effort, hframe]
      simp only
      omega

theorem effort_initial (p : Plan) (cancelled : Bool) (b : Circuit.Breaker) (l : Ledger) :
    (State.initial p cancelled b l).effort p =
      p.total * (p.jobEffort + 4) + 2 * p.workers + 6 := by
  have hworkers : ((Array.replicate p.workers Worker.asking).toList.map (Worker.effort p)).sum =
      2 * p.workers := by
    simp [Worker.effort, Nat.mul_comm]
  simp only [State.effort, State.initial, hworkers, Generator.effort, Collector.effort,
    Supervisor.effort, List.length_nil, Nat.sub_zero, Nat.zero_mul]
  omega

/-! ## The number of steps -/

def Label.isAct : Label → Bool
  | .act _ => true
  | .wait _ => false
  | .cancel => false

/-- How many steps of tasks there are in a history. -/
def acts (ts : History) : Nat :=
  ts.countP fun x => x.label.isAct

/-- The steps of tasks use up the effort, and nothing adds to it. -/
theorem acts_add_effort_le {s₀ : State} (ht : Trace (lateStep p) s₀ ts s) :
    acts ts + s.effort p ≤ s₀.effort p := by
  induction ht with
  | nil => exact Nat.le_of_eq (Nat.zero_add _)
  | @snoc ts s s' label _ hstep ih =>
      rw [acts, List.countP_append, ← acts, List.countP_singleton]
      have hmove := move_of_step hstep
      cases label with
      | act actor =>
          have hless := hmove.effort_lt
          simp only [Label.isAct, if_true]
          omega
      | wait | cancel =>
          cases hmove
          exact ih

/-- A run has no more than so many steps of tasks, whenever they are made. -/
theorem acts_le (ht : Trace (lateStep p) (.initial p cancelled b l) ts s) :
    acts ts ≤ p.total * (3 * p.policy.maxRetries + 15) + 2 * p.workers + 6 := by
  have hacts := acts_add_effort_le ht
  rw [effort_initial] at hacts
  exact Nat.le_trans (Nat.le_add_right _ _) hacts

/-! ## No run goes on for ever -/

/-- How often something other than the passing of time can still happen. -/
def State.events (p : Plan) (s : State) : Nat :=
  s.effort p + if s.callerCancelled then 0 else 1

theorem events_of_step (h : step p s label = some s') : s'.events p < s.events p ∨
      ∃ instant, label = .wait instant ∧ s' = { s with now := instant } := by
  have hmove := move_of_step (lateStep_of_step h)
  cases label with
  | act actor =>
      have hless := hmove.effort_lt
      rw [State.events, State.events, hmove.act_frame.2]
      exact .inl (Nat.add_lt_add_right hless _)
  | wait instant => exact .inr ⟨instant, rfl, (wait_inv h).1⟩
  | cancel =>
      cases hmove with
      | cancel hrun =>
          refine .inl (Nat.add_lt_add_left ?_ _)
          rw [hrun]
          exact Nat.one_pos

/-- In a run of prompt tasks time does not pass for ever: it stops when a task goes on. -/
theorem exists_not_wait {f : Nat → State} {labels : Nat → Label}
    (hstep : ∀ n, step p (f n) (labels n) = some (f (n + 1))) {n wake : Nat}
    (hwake : wake ∈ (f n).wakes p) : ∃ m, n ≤ m ∧ ∀ instant, labels m ≠ .wait instant := by
  by_contra hwaits
  have hwait (k : Nat) : ∃ instant, labels (n + k) = .wait instant := by
    by_contra hother
    exact hwaits ⟨n + k, Nat.le_add_right n k, fun instant hlabel => hother ⟨instant, hlabel⟩⟩
  have hpasses (k : Nat) : (f (n + k)).wakes p = (f n).wakes p ∧ (f n).now + k ≤ (f (n + k)).now := by
    induction k with
    | zero => exact ⟨rfl, Nat.le_refl _⟩
    | succ k ih =>
        obtain ⟨instant, hlabel⟩ := hwait k
        have hnext := hstep (n + k)
        rw [hlabel] at hnext
        obtain ⟨htarget, hlater, -⟩ := wait_inv hnext
        rw [← Nat.add_assoc, htarget]
        exact ⟨ih.1, by show _ ≤ instant; omega⟩
  -- By now the wake has been passed, which a run of prompt tasks does not do.
  obtain ⟨instant, hlabel⟩ := hwait wake
  obtain ⟨hsame, hpassed⟩ := hpasses wake
  have hnext := hstep (n + wake)
  rw [hlabel] at hnext
  obtain ⟨-, hlater, -, hwakes⟩ := wait_inv hnext
  have hstops := hwakes wake (hsame ▸ hwake)
  omega

theorem trace_of_steps {f : Nat → State} {labels : Nat → Label}
    (hstart : f 0 = .initial p cancelled b l)
    (hstep : ∀ n, step p (f n) (labels n) = some (f (n + 1))) (n : Nat) :
    ∃ ts, Trace (lateStep p) (.initial p cancelled b l) ts (f n) := by
  induction n with
  | zero => exact ⟨[], hstart ▸ .nil⟩
  | succ n ih =>
      obtain ⟨ts, ht⟩ := ih
      exact ⟨_, ht.snoc (lateStep_of_step (hstep n))⟩

/-- Whatever the order of its steps, a run of prompt tasks comes to its end, unless it is deserted. -/
theorem ends_of_steps {f : Nat → State} {labels : Nat → Label}
    (hstart : f 0 = .initial p cancelled b l)
    (hstep : ∀ n, step p (f n) (labels n) = some (f (n + 1))) :
    ∃ n, (f n).supervisor = .finished ∨ Deserted p (f n) := by
  by_contra hnever
  have hunfinished (n : Nat) : (f n).supervisor ≠ .finished := fun h => hnever ⟨n, .inl h⟩
  have hgoes (n : Nat) : ∃ m, n ≤ m ∧ (f (m + 1)).events p < (f m).events p := by
    have hother : ∃ m, n ≤ m ∧ ∀ instant, labels m ≠ .wait instant := by
      by_cases hwaits : ∃ instant, labels n = .wait instant
      · obtain ⟨instant, hlabel⟩ := hwaits
        have hnext := hstep n
        rw [hlabel] at hnext
        obtain ⟨-, -, hquiet, -⟩ := wait_inv hnext
        obtain ⟨ts, ht⟩ := trace_of_steps hstart hstep n
        rcases progress_of_trace ht (hunfinished n) with
          (⟨actor, s', hact⟩ | ⟨wake, hwake, -⟩) | hdeserted
        · cases (hquiet actor).symm.trans hact
        · exact exists_not_wait hstep hwake
        · exact absurd ⟨n, .inr hdeserted⟩ hnever
      · exact ⟨n, Nat.le_refl n, fun instant hlabel => hwaits ⟨instant, hlabel⟩⟩
    obtain ⟨m, hm, hlabel⟩ := hother
    refine ⟨m, hm, ?_⟩
    rcases events_of_step (hstep m) with hless | ⟨instant, hwait, -⟩
    · exact hless
    · exact absurd hwait (hlabel instant)
  have hmono {n m : Nat} (h : n ≤ m) : (f m).events p ≤ (f n).events p := by
    induction h with
    | refl => exact Nat.le_refl _
    | @step m _ ih =>
        rcases events_of_step (hstep m) with hless | ⟨instant, -, htarget⟩
        · exact Nat.le_trans (Nat.le_of_lt hless) ih
        · rw [htarget]
          exact ih
  -- So it goes down without end.
  have hdown (k : Nat) : ∃ n, (f n).events p + k ≤ (f 0).events p := by
    induction k with
    | zero => exact ⟨0, Nat.le_refl _⟩
    | succ k ih =>
        obtain ⟨n, hn⟩ := ih
        obtain ⟨m, hm, hless⟩ := hgoes n
        have hle := hmono hm
        exact ⟨m + 1, by omega⟩
  obtain ⟨n, hn⟩ := hdown ((f 0).events p + 1)
  omega

end Run
end LoadGen
