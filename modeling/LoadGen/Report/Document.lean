import LoadGen.Run.Engine

/-!
# Reports as documents

* `Document.report` — the JSON document of a report; parts that are empty are left out.
* `Document.result` — the counts of a run as a document, with dates at the start of 1970.
-/

namespace LoadGen
namespace Report
namespace Document

def summary (r : Report) : Json :=
  .object
    [ ("protocol", .text r.backend),
      ("workers", .nat r.execution.workers),
      ("success_ratio", .float r.successRatio),
      ("error_rate", .float r.metrics.errorRate),
      ("total_time", .float (Nanos.toSeconds r.execution.duration)),
      ("jobs", .object
        [ ("total", .nat r.execution.dispatched),
          ("completed", .nat r.execution.completed),
          ("success", .nat r.execution.succeeded),
          ("failed", .nat r.execution.failed),
          ("reads", .nat r.metrics.reads),
          ("writes", .nat r.metrics.writes) ]),
      ("rate", .object
        [ ("throughput", .float r.metrics.throughput),
          ("rps", .float r.metrics.rps) ]),
      ("circuit_state", .text r.circuit.name) ]

def members (r : Report) : List (String × Json) :=
  [("summary", summary r)] ++
  (if r.metrics.total = 0 then [] else [("latency", r.metrics.latency.toJson)]) ++
  [("errors", .object ((Tally.byLabel r.metrics.errors).map fun e => (e.1, .nat e.2)))] ++
  (if r.metrics.keys.isEmpty then [] else [("protocol", KeySummary.table r.metrics.keys)]) ++
  (if r.figures.isEmpty then []
    else
      let entries := r.figures.sorted fun x y => decide (x < y)
      [("adapter", .object (entries.map fun e => (e.1, e.2.toJson)))])

def report (r : Report) : Json :=
  .object (members r)

/-- The text of a report: its document over several lines, and a line break. -/
def render (r : Report) : String :=
  (report r).pretty ++ "\n"

/-- The counts of a run that began and ended with 1970. -/
def result (r : Run.Result) : Json :=
  .object
    [ ("workers", .nat r.workers), ("total_jobs", .nat r.dispatched),
      ("completed_jobs", .nat r.completed), ("success_jobs", .nat r.succeeded),
      ("failed_jobs", .nat r.failed),
      ("total_duration", .float (Nanos.toSeconds r.duration)),
      ("start_time", .text (Calendar.timestamp 0)), ("end_time", .text (Calendar.timestamp 0)) ]

end Document
end Report
end LoadGen
