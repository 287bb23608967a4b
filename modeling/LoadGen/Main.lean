import LoadGen.Backend.Scripted
import LoadGen.CommandLine.Bench

/-!
# The command line

Runs the benchmark that the flags describe, on the virtual clock and against a backend that answers
every call at once, and writes its report.
-/

open LoadGen LoadGen.CommandLine

def helpText : String :=
  "Options:\n" ++
  "  -n, --total <TOTAL>                    Number of jobs to generate [default: 1]\n" ++
  "  -c, --parallels <PARALLELS>            Number of concurrent workers [default: 1]\n" ++
  "  -d, --duration <DURATION>              Stop generating jobs after this long\n" ++
  "      --ramp-up <RAMP_UP>                Spread job generation evenly over this period\n" ++
  "      --timeout <TIMEOUT>                Per-job timeout handed to the adapter\n" ++
  "      --max-retries <MAX_RETRIES>        Retries after the first attempt [default: 3]\n" ++
  "      --worker-ceiling <WORKER_CEILING>  Upper bound on concurrent workers [default: 1000]\n" ++
  "      --no-health-check                  Skip the adapter health check\n" ++
  "  -q, --quiet                            Do not print the report to stdout\n" ++
  "  -o, --output <OUTPUT>                  Output format for the report [default: text]\n" ++
  "  -O, --output-file <OUTPUT_FILE>        Write the report to a file\n"

/-- Writes a report, and tells whether that went well. -/
def writeReport (destination : Destination) (text : String) : IO Bool := do
  match destination with
  | .nowhere => return true
  | .terminal => IO.print text; return true
  | .file path =>
    try
      IO.FS.writeFile path text
      return true
    catch _ => return false

def main (args : List String) : IO UInt32 := do
  match Flags.parse args with
  | .error .displayHelp => IO.print helpText; return 0
  | .error e => IO.eprintln ("error: " ++ e.message); return 2
  | .ok flags =>
    let ending := Bench.run flags (Scripted.backend {}) Factory.standard fun _ => false
    match ending.outcome with
    | .failed e => IO.eprintln ("error: " ++ e.message); return 1
    | .stalled => IO.eprintln "error: the run never ends"; return 1
    | .oversized => IO.eprintln "error: a queue cannot have that much room"; return 1
    | .beyondCalendar => IO.eprintln "error: the run ends beyond the calendar"; return 1
    | .reported _ =>
      match ending.written with
      | none => return 0
      | some (destination, text) =>
        if ← writeReport destination text then return 0
        else
          IO.eprintln ("error: " ++ RunError.report.message)
          return 1
