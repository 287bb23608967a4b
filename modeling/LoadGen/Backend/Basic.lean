import LoadGen.Job.Basic
import LoadGen.Retry.Execution
import LoadGen.Run.Error

/-!
# Backends and factories

A backend is what a run puts load on.  A factory makes the operation of each job.

Within one run a call is identified by its job and its number among the calls of that job, and no
call is made twice, so a function of the two (and of the time at which the call is made) describes
any backend, also one that remembers earlier calls.
-/

namespace LoadGen

/-- What a run puts load on. -/
structure Backend where
  name : String
  /-- What the backend answers when it is asked for a stage: the failure, if it fails. -/
  stageFault : Stage → Option Fault.Chain
  /-- How the call with the given number for a job goes, when it is made so many nanoseconds after
  the start of the run. -/
  call : Job → Nat → Nat → Retry.Reply OperationResult
  /-- The figures the backend reports of itself, after so many calls in the last run. -/
  figures : Nat → Assoc String MetaValue

/-- Makes the operation of a job, given its number and the options of the run;
none if it dies of it. -/
abbrev Factory := Nat → BenchOptions → Option Operation

/-- The reads of distinct keys. -/
def Factory.standard : Factory :=
  fun id _ => some (.read (.make "get" ("key:" ++ toString id)))

end LoadGen
