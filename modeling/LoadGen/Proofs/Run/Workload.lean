import LoadGen.Proofs.Circuit.Changes
import LoadGen.Proofs.Run.Clock
import Mathlib.Algebra.GroupWithZero.Nat

/-!
# What a workload comes to

A workload says what a backend is asked for and how it answers, by the numbers of jobs and calls
alone.  So what comes of a job can be told without workers, queues and a breaker: its calls are made
one after the other, each after the wait that the policy asks for, until one of them is the last.

* `Workload`, `Plan.Serves` — a workload, and the plans that put it on a backend.
* `Workload.verdict` — the last call of a job and the time that the calls take in all.
* `Workload.result?` — what is recorded for a job while the circuit is closed.
* `Workload.Ahead` — where a job stands after some of its calls, with `Ahead.last` and `Ahead.retry`
  for what the next call makes of it.
-/

namespace LoadGen
namespace Run

open Retry (Execution ExecuteError)

/-- What a backend is asked for and how it answers, whoever asks and whenever. -/
structure Workload where
  total : Nat
  /-- The operation of a job; none if the factory dies of it. -/
  operation : Nat → Option Operation
  /-- How a call goes, by the numbers of its job and of the call. -/
  reply : Nat → Nat → Retry.Reply OperationResult
  policy : Retry.Policy
  classifier : Fault.Classifier
  /-- The waits have no random share. -/
  jitter_eq : policy.jitter = 0.0

/-- How the calls of a job end. -/
structure Verdict where
  /-- The number of calls. -/
  attempts : Nat
  /-- The time from the first call to the answer of the last one. -/
  elapsed : Nat
  /-- What the last call answers. -/
  answer : Retry.Answer OperationResult

/-- How many of the calls fail: all of them but a last one that does not. -/
def Verdict.failures (v : Verdict) : Nat :=
  match v.answer with
  | .fault _ => v.attempts
  | _ => v.attempts - 1

namespace Workload

variable (w : Workload)

/-- Whether a failed call may be made again. -/
def retries (chain : Fault.Chain) : Bool :=
  w.policy.retryable.contains (w.classifier.classify chain).kind

/-- The verdict if call `n` is the last one and is made so long after the first one. -/
def lastCall (id n elapsed : Nat) : Verdict :=
  ⟨n + 1, Nanos.wakeAt elapsed (w.reply id n).latency, (w.reply id n).answer⟩

/-- The verdict once `n` calls have failed and call `n` is made so long after the first one, with so
many retries left. -/
def verdictFrom (id : Nat) : Nat → Nat → Nat → Verdict
  | 0, n, elapsed => w.lastCall id n elapsed
  | left + 1, n, elapsed =>
    match (w.reply id n).answer with
    | .fault chain =>
      if w.retries chain then
        let answered := Nanos.wakeAt elapsed (w.reply id n).latency
        verdictFrom id left (n + 1) (Nanos.wakeAt answered (w.policy.backoff n))
      else w.lastCall id n elapsed
    | _ => w.lastCall id n elapsed

/-- The verdict on a job. -/
def verdict (id : Nat) : Verdict :=
  w.verdictFrom id w.policy.maxRetries 0 0

/-- What an execution of a job ends with; none if it crashes. -/
def outcome? (id : Nat) : Option (Except ExecuteError (OperationResult × Nat)) :=
  let v := w.verdict id
  match v.answer with
  | .value r => some (.ok (r, v.attempts))
  | .fault chain => some (.error (.failed ⟨chain, w.classifier.classify chain⟩ v.attempts))
  | .crash _ => none

/-- What is recorded for a job while the circuit is closed; none if the job is never executed. -/
def result? (id : Nat) : Option OperationResult :=
  match w.operation id, w.outcome? id with
  | some _, some (.ok (r, attempts)) => some (r.withMeta .attempts (.int attempts))
  | some operation, some (.error e) =>
    some (failedResult (w.verdict id).elapsed operation.isRead .closed e)
  | _, _ => none

/-- The results of all jobs. -/
def results : List OperationResult :=
  (List.range w.total).filterMap w.result?

/-- How many of all the calls fail. -/
def failingCalls : Nat :=
  ((List.range w.total).map fun id => (w.verdict id).failures).sum

end Workload

/-- The plan puts a workload on a backend. -/
structure Plan.Serves (p : Plan) (w : Workload) : Prop where
  total : p.total = w.total
  operation : p.operation = w.operation
  policy : p.policy = w.policy
  classifier : p.classifier = w.classifier
  /-- The backend answers by the numbers of job and call, whenever it is asked. -/
  call : ∀ (job : Job) (n elapsed : Nat), w.operation job.id = some job.operation →
    p.call job n elapsed = w.reply job.id n

/-! ## The calls of one job -/

namespace Workload

variable {w : Workload} {id left n elapsed : Nat} {chain : Fault.Chain}

theorem verdictFrom_of_last (hlast : left = 0 ∨
    ∀ chain, (w.reply id n).answer = .fault chain → w.retries chain = false) :
    w.verdictFrom id left n elapsed = w.lastCall id n elapsed := by
  cases left with
  | zero => rfl
  | succ left =>
      have hnever := hlast.resolve_left (Nat.succ_ne_zero left)
      rw [verdictFrom]
      split
      · rename_i chain hanswer
        rw [if_neg (by simp [hnever chain hanswer])]
      · rfl

theorem verdictFrom_of_retries (hanswer : (w.reply id n).answer = .fault chain)
    (hretries : w.retries chain = true) :
    w.verdictFrom id (left + 1) n elapsed = w.verdictFrom id left (n + 1)
      (Nanos.wakeAt (Nanos.wakeAt elapsed (w.reply id n).latency) (w.policy.backoff n)) := by
  rw [verdictFrom, hanswer]
  exact if_pos hretries

/-- All calls that were made before have failed. -/
theorem le_failures_verdictFrom : n ≤ (w.verdictFrom id left n elapsed).failures := by
  have hlast (n elapsed : Nat) : n ≤ (w.lastCall id n elapsed).failures := by
    unfold Verdict.failures lastCall
    split
    · exact Nat.le_succ n
    · exact Nat.le_refl n
  induction left generalizing n elapsed with
  | zero => exact hlast n elapsed
  | succ left ih =>
      rw [verdictFrom]
      split
      · split
        · exact Nat.le_of_succ_le ih
        · exact hlast n elapsed
      · exact hlast n elapsed

/-- A call that fails is among the failing calls. -/
theorem lt_failures_verdictFrom (hanswer : (w.reply id n).answer = .fault chain) :
    n < (w.verdictFrom id left n elapsed).failures := by
  have hlast : n < (w.lastCall id n elapsed).failures := by
    simp [lastCall, Verdict.failures, hanswer]
  cases left with
  | zero => exact hlast
  | succ left =>
      rw [verdictFrom, hanswer]
      simp only
      split
      · exact le_failures_verdictFrom
      · exact hlast

/-- After `n` failed calls, so long after the first one, a job is still on its way to the verdict. -/
structure Ahead (w : Workload) (id n elapsed : Nat) : Prop where
  few : n ≤ w.policy.maxRetries
  verdict_eq : w.verdictFrom id (w.policy.maxRetries - n) n elapsed = w.verdict id

theorem ahead_initial (w : Workload) (id : Nat) : w.Ahead id 0 0 where
  few := Nat.zero_le _
  verdict_eq := rfl

/-- A call that is not made again is the last one. -/
theorem Ahead.last (h : w.Ahead id n elapsed) (hlast : w.policy.maxRetries ≤ n ∨
    ∀ chain, (w.reply id n).answer = .fault chain → w.retries chain = false) :
    w.verdict id = w.lastCall id n elapsed := by
  rw [← h.verdict_eq]
  apply verdictFrom_of_last
  rcases hlast with hexhausted | hnever
  · exact .inl (Nat.sub_eq_zero_of_le hexhausted)
  · exact .inr hnever

/-- A call that is made again takes the job one call further. -/
theorem Ahead.retry (h : w.Ahead id n elapsed) (hleft : n < w.policy.maxRetries)
    (hanswer : (w.reply id n).answer = .fault chain) (hretries : w.retries chain = true) :
    w.Ahead id (n + 1)
      (Nanos.wakeAt (Nanos.wakeAt elapsed (w.reply id n).latency) (w.policy.backoff n)) := by
  refine ⟨hleft, ?_⟩
  have hmore : w.policy.maxRetries - n = w.policy.maxRetries - (n + 1) + 1 := by omega
  rw [← verdictFrom_of_retries hanswer hretries, ← hmore]
  exact h.verdict_eq

end Workload
end Run
end LoadGen
