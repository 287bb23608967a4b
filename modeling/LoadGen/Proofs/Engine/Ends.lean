import LoadGen.Proofs.Engine.Results
import LoadGen.Proofs.Run.Turns

/-!
# The end of a run

A run whose tasks are prompt comes to its end in every order of its steps, as long as its tasks are
alive.  When an engine says of a run that it has stalled, then all workers have ended in front of a
full job queue, and a task has died.

* `Engine.PromptRuns` — the runs whose tasks are prompt: computing takes no time.
* `Engine.prompt_runs_end` — while its tasks are alive, no such run goes on for ever.
* `Engine.runs_acts_le` — a bound on the steps of tasks in any run.
* `Engine.crashed_of_stalled` — only a run in which a task has died stalls.
-/

namespace LoadGen
namespace Engine

open Run (History)

/-- The runs of an engine whose tasks are prompt: time passes only when no task has a step. -/
def PromptRuns (e : Engine) (session : Session) (bench : BenchOptions) (cancelled : Bool)
    (ts : History) (s : Run.State) : Prop :=
  Trace (Run.step (e.plan bench session.now))
    (.initial (e.plan bench session.now) cancelled session.breaker session.ledger) ts s

/-- A run of prompt tasks is a run. -/
theorem PromptRuns.runs {e : Engine} {session : Session} {bench : BenchOptions} {cancelled : Bool}
    {ts : History} {s : Run.State} (h : e.PromptRuns session bench cancelled ts s) :
    e.Runs session bench cancelled ts s :=
  Run.late_of_prompt h

/-- Whatever the order of its steps, a run comes to its end while its tasks are alive. -/
theorem prompt_runs_end (e : Engine) (session : Session) (bench : BenchOptions) (cancelled : Bool)
    {f : Nat → Run.State} {labels : Nat → Run.Label}
    (hstart : f 0 = .initial (e.plan bench session.now) cancelled session.breaker session.ledger)
    (hstep : ∀ n, Run.step (e.plan bench session.now) (f n) (labels n) = some (f (n + 1)))
    (halive : ∀ n, ¬ (f n).Crashed) : ∃ n, (f n).supervisor = .finished := by
  obtain ⟨n, hfinished | hdeserted⟩ := Run.ends_of_steps hstart hstep
  · exact ⟨n, hfinished⟩
  · obtain ⟨ts, ht⟩ := Run.trace_of_steps hstart hstep n
    exact absurd hdeserted (Run.not_deserted ht (halive n))

/-- A job is worth so many steps of tasks, the more the more often it may be retried, and a task a
few more. -/
theorem runs_acts_le (e : Engine) (session : Session) (bench : BenchOptions) (cancelled : Bool)
    {ts : History} {s : Run.State} (hruns : e.Runs session bench cancelled ts s) :
    Run.acts ts ≤ bench.total * (3 * e.options.policy.maxRetries + 15) +
      2 * e.options.effectiveWorkers bench.parallels + 6 := by
  have hacts := Run.acts_le hruns
  simpa only [plan] using hacts

/-- An engine says of a run that it has stalled only if all workers have ended in front of a full job
queue, which takes the death of a task. -/
theorem crashed_of_stalled {e : Engine} {session session' : Session} {bench : BenchOptions}
    {cancelAt : Option Nat} (h : e.run session bench cancelAt = (session', .stalled)) :
    ∃ cancelled ts s, e.PromptRuns session bench cancelled ts s ∧
      Run.Deserted (e.plan bench session.now) s ∧ s.Crashed := by
  rcases launch_of_run h with ⟨error, hfailed⟩ | ⟨journal, hlaunch⟩
  · cases hfailed
  unfold launch at hlaunch
  simp only at hlaunch
  split at hlaunch
  · split at hlaunch
    · cases hlaunch
    · cases hlaunch
    · rename_i hnone
      have hreachable := Run.reachable_run (e.plan bench session.now) cancelAt
        (.initial (e.plan bench session.now) (cancelAt.any (· ≤ session.now)) session.breaker
          session.ledger)
      obtain ⟨ts, ht⟩ := Run.prompt_of_reachable hreachable
      rcases Run.run_ends (e.plan bench session.now) cancelAt (cancelAt.any (· ≤ session.now))
        session.breaker session.ledger with hfinished | hdeserted
      · unfold Run.State.outcome? at hnone
        rw [hfinished] at hnone
        simp only at hnone
        split at hnone <;> cases hnone
      · refine ⟨_, ts, _, ht, hdeserted, ?_⟩
        by_contra halive
        exact Run.not_deserted (Run.late_of_prompt ht) halive hdeserted
  · cases hlaunch

end Engine
end LoadGen
