import LoadGen.Proofs.Engine.Results
import LoadGen.Proofs.Run.Whereabouts

/-!
# What a run can hold

At every moment of a run, whatever the options, the instant of the cancellation and the order of the
steps, the calls under way and the jobs in the queue keep within their bounds, and every job that was
put into the queue is at one place.  Therefore the number of jobs that a run loses does not depend on
how many it was asked for.

* `Engine.runs_bounded` — the bounds, the places of the jobs, and the jobs that are abandoned.
* `Engine.runs_bounded_sample` — a run that abandons as many jobs as the bound allows.
-/

namespace LoadGen
namespace Engine

open Run (History Result)

variable {ts : History} {s : Run.State}

/-- No more calls are under way than there are workers, and no more jobs wait than the queue has room
for.  Every job that was put into the queue has a result that was handed over, or waits in the queue,
or is held by one worker, or was dropped by a worker that has ended and dropped no other.  So a run
that ended well has abandoned no more jobs than fit into the queue and into the hands of the
workers. -/
theorem runs_bounded (e : Engine) (session : Session) (bench : BenchOptions) (cancelled : Bool)
    (hruns : e.Runs session bench cancelled ts s) :
    s.inFlight ≤ e.options.effectiveWorkers bench.parallels ∧
      s.jobs.length ≤ e.options.jobCapacity (e.options.effectiveWorkers bench.parallels) ∧
      (Run.dispatches ts).Perm ((Run.deliveries ts).map Run.Completion.job ++ s.jobs ++ s.held ++
        (Run.leavers ts).map Prod.snd) ∧
      ((Run.dispatches ts).map Job.id).Nodup ∧
      (∀ (i j : Nat) (w w' : Run.Worker) (job job' : Job), s.workers[i]? = some w →
        s.workers[j]? = some w' → w.job? = some job → w'.job? = some job' → job.id = job'.id →
        i = j) ∧
      ((Run.leavers ts).map Prod.fst).Nodup ∧
      (∀ i ∈ (Run.leavers ts).map Prod.fst, ∃ w, s.workers[i]? = some w ∧ w.ended = true) ∧
      ∀ report : Report, s.outcome? (e.plan bench session.now) = some (.ok report.execution) →
        report.abandoned + report.execution.completed = report.execution.dispatched ∧
          report.abandoned ≤ e.options.effectiveWorkers bench.parallels +
            e.options.jobCapacity (e.options.effectiveWorkers bench.parallels) := by
  obtain ⟨hplaces, hids⟩ := Run.whereabouts_of_trace hruns
  obtain ⟨honce, hgone⟩ := Run.leavers_of_trace hruns
  refine ⟨Run.inFlight_le hruns, Run.jobs_length_le hruns, hplaces, hids, ?_, honce, hgone, ?_⟩
  · intro i j w w' job job' hw hw' hjob hjob' hid
    exact Run.holder_unique hruns hw hw' hjob hjob' hid
  · intro report hr
    obtain ⟨hle, hbound⟩ := Run.abandoned_le hruns hr
    constructor
    · exact Nat.sub_add_cancel hle
    · exact hbound

/-- The end of a run of six jobs of the sample, cancelled in the middle of its first calls. -/
def brokenOff : Run.State :=
  let p := sample.plan { total := 6, parallels := 2 } 0
  Run.run p (some 500000) (.initial p false sample.start.breaker sample.start.ledger)

theorem brokenOff_outcome? : brokenOff.outcome? (sample.plan { total := 6, parallels := 2 } 0) =
    some (.ok ⟨2, 3, 0, 0, 0, 500000⟩) := by
  have hcounts : brokenOff.dispatched = 3 ∧ brokenOff.completed = 0 ∧ brokenOff.succeeded = 0 ∧
      brokenOff.failed = 0 ∧ brokenOff.now = 500000 := by
    decide +kernel
  obtain ⟨hdispatched, hcompleted, hsucceeded, hfailed, hnow⟩ := hcounts
  rw [Run.outcome?_of_finished (by decide +kernel) (by decide +kernel), hdispatched, hcompleted,
    hsucceeded, hfailed, hnow]
  rfl

/-- Two workers and a queue with room for one job can lose three. -/
theorem runs_bounded_sample :
    ∃ ts, sample.Runs sample.start { total := 6, parallels := 2 } false ts brokenOff ∧
      ∀ report : Report, report.execution = ⟨2, 3, 0, 0, 0, 500000⟩ →
        report.abandoned = 3 ∧
          report.abandoned ≤ sample.options.effectiveWorkers 2 + sample.options.jobCapacity 2 := by
  obtain ⟨ts, hruns⟩ : ∃ ts,
      sample.Runs sample.start { total := 6, parallels := 2 } false ts brokenOff :=
    Run.trace_of_reachable (Run.reachable_run _ _ _)
  refine ⟨ts, hruns, ?_⟩
  intro report hexecution
  obtain ⟨-, -, -, -, -, -, -, hend⟩ := runs_bounded sample sample.start _ false hruns
  obtain ⟨hsum, hbound⟩ := hend report (hexecution ▸ brokenOff_outcome?)
  rw [hexecution] at hsum
  exact ⟨hsum, hbound⟩

end Engine
end LoadGen
