import LoadGen.CommandLine.Flags
import LoadGen.Report.Document
import LoadGen.Report.Terminal

/-!
# A benchmark from the command line

A benchmark connects the backend, runs it, closes it and writes the report.  Once connected the
backend is closed whatever comes of the run, and whether it closes well does not matter.

* `Destination` — where a report goes.
* `Bench.run` — the whole benchmark, up to the writing of the text it leaves.
-/

namespace LoadGen
namespace CommandLine

/-- Where a report goes. -/
inductive Destination
  | file (path : String)
  | terminal
  | nowhere
  deriving DecidableEq, Repr

/-- Where the flags send the report: to a file if one is named, else to the terminal
unless it is to be quiet. -/
def Flags.destination (f : Flags) : Destination :=
  match f.outputFile with
  | some path => .file path
  | none => if f.quiet then .nowhere else .terminal

def Format.render (format : Format) (r : Report) : String :=
  match format with
  | .text => Report.Terminal.render r
  | .json => Report.Document.render r

namespace Bench

inductive Outcome
  | reported (report : Report)
  | failed (error : RunError)
  | stalled
  | oversized
  /-- The run ended beyond the calendar. -/
  | beyondCalendar

/-- A benchmark at its end: where the engine stands, what came of it, and what was written where. -/
structure Ending where
  session : Session
  outcome : Outcome
  written : Option (Destination × String) := none

def engine (f : Flags) (backend : Backend) (factory : Factory) : Engine where
  backend := backend
  factory := factory
  options := f.engineOptions

/-- Writes the report where the flags send it.  `refuses` tells which
destinations cannot be written. -/
def write (f : Flags) (refuses : Destination → Bool) (session : Session) (report : Report) :
    Ending :=
  match f.destination with
  | .nowhere => { session, outcome := .reported report }
  | destination =>
    if refuses destination then { session, outcome := .failed .report }
    else
      { session
        outcome := .reported report
        written := some (destination, f.output.render report) }

/-- What is left to do after the run. -/
def conclude (f : Flags) (e : Engine) (refuses : Destination → Bool) (session : Session) :
    RunOutcome → Ending
  | .failed error => { session, outcome := .failed error }
  | .stalled => { session, outcome := .stalled }
  | .oversized => { session, outcome := .oversized }
  | .completed result =>
    match e.report? session result with
    | some report => write f refuses session report
    | none => { session, outcome := .beyondCalendar }

/-- The benchmark that the flags describe, on a backend with a factory. -/
def run (f : Flags) (backend : Backend) (factory : Factory) (refuses : Destination → Bool) :
    Ending :=
  let e := engine f backend factory
  match e.ask e.start .connect with
  | (session, .error error) => { session, outcome := .failed error }
  | (session, .ok ()) =>
    let (session, outcome) := e.run session f.bench none
    -- The backend is closed whatever came of the run, and how it closes is not looked at.
    let (session, _) := e.ask session .close
    conclude f e refuses session outcome

end Bench
end CommandLine
end LoadGen
