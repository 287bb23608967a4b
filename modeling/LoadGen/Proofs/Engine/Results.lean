import LoadGen.Proofs.Run.Completeness
import LoadGen.Proofs.Run.Progress
import LoadGen.Run.Engine

/-!
# The results of a run

What an engine reports of a run that ended well, whatever the options, the factory, the backend, the
instant of the cancellation and the order of the steps.

* `Engine.Runs` — the histories of a run of an engine.
* `Engine.runs_counts_agree` — the counts of the result and those of the ledger agree.
* `Engine.counts_of_run` — the same for the run that `Engine.run` carries out.
* `Engine.runs_complete` — what is taken and recorded when nothing goes wrong.
* `Engine.runs_progress` — no run comes to a standstill while all of its tasks are alive.
-/

namespace LoadGen
namespace Engine

open Run (History Result)

/-- The steps of a run that an engine begins in a session, in any order: they lead to the state `s`.
The flag tells whether the caller has cancelled the run before it begins. -/
def Runs (e : Engine) (session : Session) (bench : BenchOptions) (cancelled : Bool) (ts : History)
    (s : Run.State) : Prop :=
  Trace (Run.lateStep (e.plan bench session.now))
    (.initial (e.plan bench session.now) cancelled session.breaker session.ledger) ts s

/-- The run that an engine carries out is one of its runs. -/
theorem runs_of_launch {e : Engine} {session session' : Session} {bench : BenchOptions}
    {cancelAt : Option Nat} {r : Result}
    (h : e.launch session bench cancelAt = (session', .completed r)) :
    ∃ cancelled ts s, e.Runs session bench cancelled ts s ∧
      s.outcome? (e.plan bench session.now) = some (.ok r) ∧ session'.ledger = s.ledger := by
  unfold launch at h
  simp only at h
  split at h
  · split at h
    · rename_i result hresult
      cases h
      have hreachable := Run.reachable_run (e.plan bench session.now) cancelAt
        (.initial (e.plan bench session.now) (cancelAt.any (· ≤ session.now)) session.breaker
          session.ledger)
      obtain ⟨ts, ht⟩ := Run.trace_of_reachable hreachable
      exact ⟨_, ts, _, ht, hresult, rfl⟩
    · cases h
    · cases h
  · cases h

/-- Unless it fails before it begins, a run is launched in the session as it stands.  The health check
leaves a mark in the journal, of which the run knows nothing. -/
theorem launch_of_run {e : Engine} {session session' : Session} {bench : BenchOptions}
    {cancelAt : Option Nat} {outcome : RunOutcome}
    (h : e.run session bench cancelAt = (session', outcome)) :
    (∃ error, outcome = .failed error) ∨
      ∃ journal, e.launch { session with journal } bench cancelAt = (session', outcome) := by
  unfold run at h
  split at h
  · cases h
    exact .inl ⟨_, rfl⟩
  · split at h
    · unfold ask at h
      simp only at h
      split at h
      · rename_i hask
        split at hask <;> cases hask
        cases h
        exact .inl ⟨_, rfl⟩
      · rename_i hask
        split at hask <;> cases hask
        exact .inr ⟨_, h⟩
    · exact .inr ⟨session.journal, h⟩

theorem runs_of_run {e : Engine} {session session' : Session} {bench : BenchOptions}
    {cancelAt : Option Nat} {r : Result}
    (h : e.run session bench cancelAt = (session', .completed r)) :
    ∃ cancelled ts s, e.Runs session bench cancelled ts s ∧
      s.outcome? (e.plan bench session.now) = some (.ok r) ∧ session'.ledger = s.ledger := by
  rcases launch_of_run h with ⟨error, hfailed⟩ | ⟨journal, hlaunch⟩
  · cases hfailed
  · obtain ⟨cancelled, ts, s, hruns, hr, hledger⟩ := runs_of_launch hlaunch
    exact ⟨cancelled, ts, s, hruns, hr, hledger⟩

/-- The workers and the ledger count the same results, each of a different dispatched job. -/
theorem runs_counts_agree (e : Engine) (session : Session) (bench : BenchOptions) (cancelled : Bool)
    {ts : History} {s : Run.State} {r : Result} (hruns : e.Runs session bench cancelled ts s)
    (hr : s.outcome? (e.plan bench session.now) = some (.ok r)) (instant : Nat) :
    r.completed = r.succeeded + r.failed ∧ r.completed ≤ r.dispatched ∧ r.dispatched ≤ bench.total ∧
      (s.ledger.view instant).total = r.completed ∧
      (s.ledger.view instant).success = r.succeeded ∧
      (s.ledger.view instant).failed = r.failed ∧
      (s.ledger.view instant).reads + (s.ledger.view instant).writes = r.completed ∧
      ((Run.records ts).map fun c => c.job.id).Subperm (List.range r.dispatched) :=
  Run.accounts_of_outcome? hruns hr

/-- Two workers share two jobs, of which the second fails. -/
def sample : Engine where
  backend :=
    { name := "sample"
      stageFault := fun _ => none
      call := fun job _ _ =>
        if job.id = 1 then { latency := 3, answer := .fault ⟨["refused"]⟩ }
        else { latency := 1000000, answer := .value (.succeeded 5 true) }
      figures := fun _ => .empty }
  factory := fun id _ => some (.read (.make "get" (toString id)))
  options := { jobQueueCapacity := some 1, resultQueueCapacity := 1, policy := { maxRetries := 0 } }
  classifier := ⟨[]⟩

/-- The end of a run of the sample. -/
def sampleEnd : Run.State :=
  let p := sample.plan { total := 2, parallels := 2 } 0
  Run.run p none (.initial p false sample.start.breaker sample.start.ledger)

theorem sample_runs :
    ∃ ts, sample.Runs sample.start { total := 2, parallels := 2 } false ts sampleEnd :=
  Run.trace_of_reachable (Run.reachable_run _ none _)

theorem sample_outcome? : sampleEnd.outcome? (sample.plan { total := 2, parallels := 2 } 0) =
    some (.ok ⟨2, 2, 2, 1, 1, 1000000⟩) := by
  have hcounts : sampleEnd.dispatched = 2 ∧ sampleEnd.completed = 2 ∧ sampleEnd.succeeded = 1 ∧
      sampleEnd.failed = 1 ∧ sampleEnd.now = 1000000 := by
    decide +kernel
  obtain ⟨hdispatched, hcompleted, hsucceeded, hfailed, hnow⟩ := hcounts
  rw [Run.outcome?_of_finished (by decide +kernel) (by decide +kernel), hdispatched, hcompleted,
    hsucceeded, hfailed, hnow]
  rfl

theorem runs_counts_agree_sample :
    ∃ ts, sample.Runs sample.start { total := 2, parallels := 2 } false ts sampleEnd ∧
      (sampleEnd.ledger.view 0).total = 2 ∧ (sampleEnd.ledger.view 0).failed = 1 := by
  obtain ⟨ts, hruns⟩ := sample_runs
  obtain ⟨-, -, -, htotal, -, hfailed, -⟩ :=
    runs_counts_agree sample sample.start _ false hruns sample_outcome? 0
  exact ⟨ts, hruns, htotal, hfailed⟩

/-- The counts of a run that `Engine.run` has carried out. -/
theorem counts_of_run {e : Engine} {session session' : Session} {bench : BenchOptions}
    {cancelAt : Option Nat} {r : Result}
    (h : e.run session bench cancelAt = (session', .completed r)) :
    r.completed = r.succeeded + r.failed ∧ r.completed ≤ r.dispatched ∧ r.dispatched ≤ bench.total ∧
      session'.ledger.counts.total = r.completed ∧ session'.ledger.counts.success = r.succeeded ∧
      session'.ledger.counts.failed = r.failed ∧
      session'.ledger.counts.reads + session'.ledger.counts.writes = r.completed := by
  obtain ⟨cancelled, ts, s, hruns, hr, hledger⟩ := runs_of_run h
  obtain ⟨hsum, hcompleted, hdispatched, htotal, hsuccess, hfailed, hdirections, -⟩ :=
    Run.accounts_of_outcome? hruns hr
  rw [hledger]
  exact ⟨hsum, hcompleted, hdispatched, htotal, hsuccess, hfailed, hdirections⟩

/-- Nothing limits the time for making jobs unless a positive limit is asked for. -/
theorem stopAt_eq_none {bench : BenchOptions} (hlimit : bench.duration.getD 0 = 0) (now : Nat) :
    stopAt bench now = none := by
  unfold stopAt
  cases hduration : bench.duration with
  | none => rfl
  | some limit =>
      rw [hduration] at hlimit
      exact if_pos hlimit

/-- While a run is not cancelled and no task has died, the jobs go through the queue in the order of
their numbers; once the run has ended, every one of them has been taken once and recorded once. -/
theorem runs_complete (e : Engine) (session : Session) (bench : BenchOptions) (cancelled : Bool)
    {ts : History} {s : Run.State} (hruns : e.Runs session bench cancelled ts s)
    (hrun : s.cancelled = false) (halive : ¬ s.Crashed) :
    (Run.dispatches ts).map Job.id = List.range s.sent ∧
      ((Run.takes ts).map Prod.snd) <+: Run.dispatches ts ∧
      (s.supervisor = .finished →
        ∃ r, s.outcome? (e.plan bench session.now) = some (.ok r) ∧
          (Run.dispatches ts).map Job.id = List.range r.dispatched ∧
          ((Run.takes ts).map fun t => t.2.id) = List.range r.dispatched ∧
          ((Run.records ts).map fun c => c.job.id).Perm (List.range r.dispatched) ∧
          s.ledger.counts.total = r.dispatched ∧ r.completed = r.dispatched ∧
          (bench.duration.getD 0 = 0 → r.dispatched = bench.total)) := by
  refine ⟨Run.dispatched_ids_of_trace hruns, ?_, ?_⟩
  · exact ⟨s.jobs, (Run.dispatches_eq_takes hruns).symm⟩
  · intro hfinished
    obtain ⟨r, hr, hdispatched, htaken, hrecorded, htotal, hcompleted, hall⟩ :=
      Run.complete_of_trace hruns hrun halive hfinished
    refine ⟨r, hr, hdispatched, htaken, hrecorded, htotal, hcompleted, ?_⟩
    intro hlimit
    exact hall (stopAt_eq_none hlimit session.now)

theorem runs_complete_sample :
    ∃ ts, sample.Runs sample.start { total := 2, parallels := 2 } false ts sampleEnd ∧
      sampleEnd.cancelled = false ∧ ¬ sampleEnd.Crashed ∧ sampleEnd.supervisor = .finished ∧
      ((Run.records ts).map fun c => c.job.id).Perm [0, 1] := by
  have hrun : sampleEnd.cancelled = false := by decide +kernel
  have halive : ¬ sampleEnd.Crashed := by decide +kernel
  have hfinished : sampleEnd.supervisor = .finished := by decide +kernel
  obtain ⟨ts, hruns⟩ := sample_runs
  obtain ⟨-, -, hend⟩ := runs_complete sample sample.start _ false hruns hrun halive
  obtain ⟨r, hr, -, -, hrecorded, -⟩ := hend hfinished
  cases hr.symm.trans sample_outcome?
  exact ⟨ts, hruns, hrun, halive, hfinished, hrecorded⟩

/-- A run that has not finished goes on, with a step of a task or with the passing of time, unless
the generator offers a job to a full queue that all workers have left.  This takes the death of a
task: while all tasks are alive no run is stuck, however many workers it has, however small its
queues are, and whether it is cancelled or its limit is over. -/
theorem runs_progress (e : Engine) (session : Session) (bench : BenchOptions) (cancelled : Bool)
    {ts : History} {s : Run.State} (hruns : e.Runs session bench cancelled ts s)
    (hunfinished : s.supervisor ≠ .finished) :
    (Run.GoesOn (e.plan bench session.now) s ∨ Run.Deserted (e.plan bench session.now) s) ∧
      (¬ s.Crashed → Run.GoesOn (e.plan bench session.now) s ∧
        ¬ Run.Deserted (e.plan bench session.now) s) := by
  have hprogress := Run.progress_of_trace hruns hunfinished
  refine ⟨hprogress, fun halive => ?_⟩
  have hserved := Run.not_deserted hruns halive
  exact ⟨hprogress.resolve_right hserved, hserved⟩

/-- The only worker dies of the first job. -/
def deadly : Engine where
  backend :=
    { name := "deadly"
      stageFault := fun _ => none
      call := fun _ _ _ => { answer := .crash "refused" }
      figures := fun _ => .empty }
  factory := fun id _ => some (.read (.make "get" (toString id)))
  options := { jobQueueCapacity := some 1, resultQueueCapacity := 1 }
  classifier := ⟨[]⟩

/-- The end of a run that is deserted. -/
def deadlyEnd : Run.State :=
  let p := deadly.plan { total := 3 } 0
  Run.run p none (.initial p false deadly.start.breaker deadly.start.ledger)

/-- There are deserted runs, in which nothing goes on, and there are runs that cannot be. -/
theorem runs_progress_deadly :
    Run.Deserted (deadly.plan { total := 3 } 0) deadlyEnd ∧
      ¬ Run.GoesOn (deadly.plan { total := 3 } 0) deadlyEnd ∧
      Run.GoesOn (sample.plan {} 0)
        (.initial (sample.plan {} 0) false sample.start.breaker sample.start.ledger) := by
  have hstuck : ¬ Run.GoesOn (deadly.plan { total := 3 } 0) deadlyEnd := by
    have hquiet : Run.quiet (deadly.plan { total := 3 } 0) deadlyEnd = true := by decide +kernel
    have htimeless : deadlyEnd.wakes (deadly.plan { total := 3 } 0) = [] := by decide +kernel
    rintro (⟨actor, s', hstep⟩ | ⟨wake, hwake, -⟩)
    · cases (Run.quiet_iff.1 hquiet actor).symm.trans hstep
    · rw [htimeless] at hwake
      cases hwake
  refine ⟨?_, hstuck, ?_⟩
  · have hunfinished : deadlyEnd.supervisor ≠ .finished := by decide +kernel
    obtain ⟨ts, hruns⟩ : ∃ ts, deadly.Runs deadly.start { total := 3 } false ts deadlyEnd :=
      Run.trace_of_reachable (Run.reachable_run _ none _)
    obtain ⟨hprogress, -⟩ := runs_progress deadly deadly.start _ false hruns hunfinished
    exact hprogress.resolve_left hstuck
  · obtain ⟨-, hgoes⟩ := runs_progress sample sample.start {} false .nil (by decide)
    exact (hgoes (by decide +kernel)).1

end Engine
end LoadGen
