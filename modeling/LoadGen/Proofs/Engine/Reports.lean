import LoadGen.Proofs.Engine.Results
import LoadGen.Proofs.Run.Reports

/-!
# What a run reports of its jobs

Whatever the options, the backend and the order of the steps, the result of a job tells of the calls
that were made for it, and the metrics count one number of calls for every result.

* `Engine.runs_report` — what the results of a run say, each on its own and all together.
* `Engine.runs_report_tripping` — a job that is refused after its first call, and one that is refused
  at once.
-/

namespace LoadGen
namespace Engine

open Run (History)

/-- Every result says what it has to of the calls for its job, and what is recorded are such results.
If a run that was not cancelled ends and no task has died, the results tell of all calls.  As long as
the collector lives, the metrics have counted a number of calls for every result; for this, the number
of retries has to fit into 32 bits, as it always does. -/
theorem runs_report (e : Engine) (session : Session) (bench : BenchOptions) (cancelled : Bool)
    {ts : History} {s : Run.State} (hruns : e.Runs session bench cancelled ts s) :
    (∀ c ∈ Run.deliveries ts,
        (e.plan bench session.now).Reports (s.callsFor c.job.id) c) ∧
      (∀ c ∈ Run.records ts, c ∈ Run.deliveries ts) ∧
      (s.cancelled = false → ¬ s.Crashed → s.supervisor = .finished →
        ((Run.records ts).map fun c => c.result.attempts).sum = s.calls.length) ∧
      (e.options.policy.maxRetries < 2 ^ 32 → s.collector ≠ .crashed → ∀ instant,
        0 < (s.ledger.view instant).total →
          (s.ledger.view instant).numbers? .attempts = some (s.ledger.view instant).total) := by
  refine ⟨Run.reports_of_trace hruns, fun _ => Run.mem_deliveries_of_records hruns, ?_, ?_⟩
  · intro hrun halive hfinished
    exact Run.sum_attempts_of_trace hruns hrun halive hfinished
  · intro hretries halive instant hsome
    rw [Run.numbers?_attempts_of_trace hruns hretries halive, Tally.entry, if_neg (by omega)]

/-- A backend that refuses every connection, behind a breaker that its first failure trips. -/
def tripping : Engine where
  backend :=
    { name := "tripping"
      stageFault := fun _ => none
      call := fun _ _ _ => { latency := 1000000, answer := .fault ⟨["connection refused"]⟩ }
      figures := fun _ => .empty }
  factory := fun id _ => some (.read (.make "get" (toString id)))
  options := { thresholds := { failure := 1 } }

/-- The end of a run of two jobs. -/
def trippedEnd : Run.State :=
  let p := tripping.plan { total := 2 } 0
  Run.run p none (.initial p false tripping.start.breaker tripping.start.ledger)

theorem runs_report_tripping :
    ∃ ts, tripping.Runs tripping.start { total := 2 } false ts trippedEnd ∧
      ((Run.records ts).map fun c => c.result.attempts).sum = 1 ∧
      (trippedEnd.ledger.view 0).numbers? .attempts = some 2 ∧
      (∃ c ∈ Run.records ts, c.job.id = 0 ∧
        c.result.TellsOf c.job 1
          (some ⟨⟨["connection refused"]⟩, .connection, true, true, .high⟩) ∧
        c.result.metadata.get? .errorType = some (.text "connection")) ∧
      (∃ c ∈ Run.records ts, c.job.id = 1 ∧ c.result.TellsOf c.job 0 none) := by
  have hend : trippedEnd.cancelled = false ∧ ¬ trippedEnd.Crashed ∧
      trippedEnd.supervisor = .finished ∧ trippedEnd.collector ≠ .crashed ∧
      trippedEnd.ledger.counts.total = 2 ∧ trippedEnd.calls.length = 1 ∧
      (trippedEnd.callsFor 0).length = 1 ∧ (trippedEnd.callsFor 1).length = 0 := by
    decide +kernel
  obtain ⟨hrun, halive, hfinished, hcollector, htotal, hcalls, hone, hnone⟩ := hend
  obtain ⟨first, hfirst⟩ := List.length_eq_one_iff.1 hone
  have hsecond := List.length_eq_zero_iff.1 hnone
  obtain ⟨ts, hruns⟩ : ∃ ts, tripping.Runs tripping.start { total := 2 } false ts trippedEnd :=
    Run.trace_of_reachable (Run.reachable_run _ none _)
  obtain ⟨hreports, hdelivered, hsum, hnumbers⟩ :=
    runs_report tripping tripping.start _ false hruns
  obtain ⟨r, -, -, -, hrecorded, hall, -⟩ :=
    Run.complete_of_trace hruns hrun halive hfinished
  rw [← hall, htotal] at hrecorded
  -- Both jobs have a result, and there it says what it has to.
  have hresult (id : Nat) (hid : id < 2) : ∃ c ∈ Run.records ts, c.job.id = id ∧
      (tripping.plan { total := 2 } 0).Reports (trippedEnd.callsFor id) c := by
    obtain ⟨c, hc, rfl⟩ := List.mem_map.1 (hrecorded.mem_iff.2 (List.mem_range.2 hid))
    exact ⟨c, hc, rfl, hreports c (hdelivered c hc)⟩
  refine ⟨ts, hruns, ?_, ?_, ?_, ?_⟩
  · rw [hsum hrun halive hfinished, hcalls]
    rfl
  · have hview : (trippedEnd.ledger.view 0).total = 2 := htotal
    rw [hnumbers (by decide) hcollector 0 (by rw [hview]; decide), hview]
  · obtain ⟨c, hc, hid, hreport⟩ := hresult 0 (by decide)
    rw [hfirst] at hreport
    have htells : c.result.TellsOf c.job 1
        (some ⟨⟨["connection refused"]⟩, .connection, true, true, .high⟩) := hreport.tells
    refine ⟨c, hc, hid, htells, ?_⟩
    have htype := htells.errorType
    cases hvalue : c.result.metadata.get? .errorType with
    | none =>
        rw [hvalue] at htype
        cases htype
    | some value =>
        rw [hvalue] at htype
        obtain ⟨text, hspelled, rfl⟩ : ∃ text, Fault.Kind.Spelled .connection text ∧
            value = .text text := by
          cases htype with
          | some hrel => exact hrel
        cases hspelled
        rfl
  · obtain ⟨c, hc, hid, hreport⟩ := hresult 1 (by decide)
    rw [hsecond] at hreport
    exact ⟨c, hc, hid, hreport.tells⟩

end Engine
end LoadGen
