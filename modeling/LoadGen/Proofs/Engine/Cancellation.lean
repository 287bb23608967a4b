import LoadGen.Proofs.Engine.Ends
import LoadGen.Proofs.Run.Cancellation

/-!
# Cancelled runs

The caller of a run may cancel it at any moment, whatever its tasks are doing.  From then on nothing
begins, what has been achieved is still recorded, and the run ends well and at once.

* `Engine.runs_cancelled` — a run that is cancelled on the way, and one that begins cancelled.
* `Engine.runs_cancelled_sample` — a run of the sample that is cancelled during its first calls.
-/

namespace LoadGen
namespace Engine

open Run (History)

/-- As long as no task dies: a run that its caller cancels begins nothing any more, and it records
what had an outcome at that moment and nothing else.  If its tasks are prompt, it ends well at that
very instant.  A run that begins cancelled ends well too, without a job and without a call. -/
theorem runs_cancelled (e : Engine) (session : Session) (bench : BenchOptions) :
    (∀ {before after : History} {x : Transition Run.State Run.Label} {s : Run.State},
      e.Runs session bench false (before ++ x :: after) s → x.label = .cancel → ¬ s.Crashed →
        Run.CutShort (e.plan bench session.now) (before ++ [x]) x.target after s ∧
          (e.PromptRuns session bench false (before ++ x :: after) s →
            (∀ y ∈ after, y.source.supervisor ≠ .finished) →
              Run.EndsAt (e.plan bench session.now) x.target.now after s)) ∧
      ∀ {ts : History} {s : Run.State}, e.Runs session bench true ts s → ¬ s.Crashed →
        Run.CutShort (e.plan bench session.now) []
            (.initial (e.plan bench session.now) true session.breaker session.ledger) ts s ∧
          (e.PromptRuns session bench true ts s → (∀ y ∈ ts, y.source.supervisor ≠ .finished) →
            Run.EndsAt (e.plan bench session.now) session.now ts s) ∧
          ∀ r, s.outcome? (e.plan bench session.now) = some (.ok r) →
            s.calls = [] ∧ r.dispatched = 0 ∧ r.completed = 0 := by
  constructor
  · intro before after x s hruns hcancel halive
    obtain ⟨hbefore, hafter, hcaller⟩ := Run.cancelled_of_label hruns hcancel
    constructor
    · apply Run.cutShort_of_trace hbefore hafter ?_ halive
      rw [Run.State.cancelled, hcaller, Bool.true_or]
    · intro hprompt hopen
      obtain ⟨hpromptly, hstep, hrest⟩ := hprompt.split_at
      exact Run.endsAt_of_trace (hpromptly.snoc hstep) hrest hcaller halive hopen
  · intro ts s hruns halive
    refine ⟨Run.cutShort_of_trace .nil hruns rfl halive, ?_, ?_⟩
    · intro hprompt hopen
      exact Run.endsAt_of_trace .nil hprompt rfl halive hopen
    · intro r hr
      exact Run.idle_of_cancelled hruns hr

/-- The steps of a run of three jobs of the sample, up to the middle of the second call. -/
def stepsBefore : List Run.Label :=
  let make := List.replicate 3 (Run.Label.act .generator)
  let take := List.replicate 3 (Run.Label.act (.worker 0))
  make ++ take ++ make ++ [.act .generator, .wait 1000000] ++ take ++
    [.act .collector, .act (.worker 0)] ++ take ++ make ++ [.act .supervisor, .wait 1500000]

/-- What is left of it once it is cancelled. -/
def stepsAfter : List Run.Label :=
  [.act (.worker 0), .act (.worker 0), .act .supervisor, .act .collector, .act .supervisor]

/-- The run as far as it has come when it is cancelled. -/
def sampleBefore : Option (History × Run.State) :=
  Trace.drive (Run.step (sample.plan { total := 3 } 0))
    (.initial (sample.plan { total := 3 } 0) false sample.start.breaker sample.start.ledger)
    stepsBefore

/-- The rest of the run. -/
def sampleAfter : Option (History × Run.State) :=
  sampleBefore.bind fun r =>
    Trace.drive (Run.step (sample.plan { total := 3 } 0)) { r.2 with callerCancelled := true }
      stepsAfter

/-- When the run is cancelled the first job is done, the second one is under way, and the third one
is in the queue. -/
theorem sampleBefore_seen :
    ∃ before m, sampleBefore = some (before, m) ∧ m.callerCancelled = false ∧ m.now = 1500000 ∧
      m.underway.map Job.id = [1] ∧ m.jobs.map Job.id = [2] ∧
      ((Run.deliveries before).map Run.Completion.job ++ m.decided).map Job.id = [0] := by
  have hseen : sampleBefore.map (fun r => (r.2.callerCancelled, r.2.now,
      r.2.underway.map Job.id, r.2.jobs.map Job.id,
      ((Run.deliveries r.1).map Run.Completion.job ++ r.2.decided).map Job.id)) =
        some (false, 1500000, [1], [2], [0]) := by
    decide +kernel
  obtain ⟨⟨before, m⟩, hbefore, hwhat⟩ := Option.map_eq_some_iff.1 hseen
  simp only [Prod.mk.injEq] at hwhat
  exact ⟨before, m, hbefore, hwhat⟩

/-- The rest brings it to its end, without the death of a task. -/
theorem sampleAfter_seen :
    ∃ after s, sampleAfter = some (after, s) ∧ s.supervisor = .finished ∧ ¬ s.Crashed ∧
      ∀ y ∈ after, y.source.supervisor ≠ .finished := by
  have hseen : sampleAfter.map (fun r => (r.2.supervisor, decide r.2.Crashed,
      r.1.all fun y => decide (y.source.supervisor ≠ .finished))) =
        some (.finished, false, true) := by
    decide +kernel
  obtain ⟨⟨after, s⟩, hafter, hwhat⟩ := Option.map_eq_some_iff.1 hseen
  simp only [Prod.mk.injEq, decide_eq_false_iff_not, List.all_eq_true, decide_eq_true_eq] at hwhat
  exact ⟨after, s, hafter, hwhat⟩

/-- The two parts with the cancellation between them are a run of the sample. -/
theorem promptRuns_sample {before after : History} {m s : Run.State}
    (hbefore : sampleBefore = some (before, m)) (hafter : sampleAfter = some (after, s))
    (hcalm : m.callerCancelled = false) :
    sample.PromptRuns sample.start { total := 3 } false
      (before ++ ⟨m, .cancel, { m with callerCancelled := true }⟩ :: after) s := by
  rw [sampleAfter, hbefore, Option.bind_some] at hafter
  have hcancel : Run.step (sample.plan { total := 3 } 0) m .cancel =
      some { m with callerCancelled := true } := by
    rw [Run.step, hcalm]
    rfl
  exact (Trace.of_drive hbefore).append
    (.cons (x := ⟨m, .cancel, { m with callerCancelled := true }⟩) hcancel (Trace.of_drive hafter))

/-- The first job is recorded, and the second one, which is under way, is not.  A run of the same
engine that begins cancelled makes no job. -/
theorem runs_cancelled_sample :
    (∃ (before after : History) (m s : Run.State),
      let x : Transition Run.State Run.Label :=
        ⟨m, .cancel, { m with callerCancelled := true }⟩
      sample.PromptRuns sample.start { total := 3 } false (before ++ x :: after) s ∧
        m.underway.map Job.id = [1] ∧ m.jobs.map Job.id = [2] ∧
        (((Run.records (before ++ x :: after)).map Run.Completion.job).map Job.id).Perm [0] ∧
        ∃ r, s.outcome? (sample.plan { total := 3 } 0) = some (.ok r) ∧ r.duration = 1500000) ∧
      ∃ ts s, sample.Runs sample.start { total := 3 } true ts s ∧ s.supervisor = .finished ∧
        s.calls = [] := by
  constructor
  · obtain ⟨before, m, hbefore, hcalm, hnow, hunderway, hqueue, hdone⟩ := sampleBefore_seen
    obtain ⟨after, s, hafter, hfinished, halive, hopen⟩ := sampleAfter_seen
    have hprompt := promptRuns_sample hbefore hafter hcalm
    obtain ⟨hcut, hends⟩ := (runs_cancelled sample sample.start { total := 3 }).1 hprompt.runs rfl
      halive
    refine ⟨before, after, m, s, hprompt, hunderway, hqueue, ?_, ?_⟩
    · have hrecorded := (hcut.recorded hfinished).map Job.id
      have hdelivered :
          Run.deliveries (before ++ [⟨m, .cancel, { m with callerCancelled := true }⟩]) =
            Run.deliveries before := by
        rw [Run.deliveries, filterMap_snoc]
        exact List.append_nil _
      rw [List.append_assoc, List.singleton_append, hdelivered] at hrecorded
      exact hdone ▸ hrecorded
    · obtain ⟨r, hr, hduration⟩ := (hends hprompt hopen).ends_well hfinished
      exact ⟨r, hr, hduration.trans hnow⟩
  · let p := sample.plan { total := 3 } 0
    let s := Run.run p none (.initial p true sample.start.breaker sample.start.ledger)
    obtain ⟨ts, hruns⟩ : ∃ ts, sample.Runs sample.start { total := 3 } true ts s :=
      Run.trace_of_reachable (Run.reachable_run _ _ _)
    have halive : ¬ s.Crashed := by decide +kernel
    have hfinished : s.supervisor = .finished := by decide +kernel
    obtain ⟨-, -, hidle⟩ := (runs_cancelled sample sample.start { total := 3 }).2 hruns halive
    exact ⟨ts, s, hruns, hfinished, (hidle _ (Run.ok_of_finished hruns halive hfinished)).1⟩

end Engine
end LoadGen
