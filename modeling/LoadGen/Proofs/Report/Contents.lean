import LoadGen.Proofs.Json.Grammar
import LoadGen.Proofs.Report.Labels

/-!
# What a report says

A report is written as a document or as lines for the terminal.  Either form names the backend, gives
the counts of the run, and shows the latencies, the failures, the labels of the metadata and the
figures of the backend as far as there are any.

* `Report.counts` — the counts that either form gives.
* `Document.Says`, `Terminal.Says` — what a document and what lines say of a report.
* `Document.Shows`, `Terminal.Shows` — the same of a text that is written.
* `Document.shows_render`, `Terminal.shows_render` — what is rendered shows the report.
-/

namespace LoadGen
namespace Report

/-- The counts of a run, under the names that they have in a document. -/
def counts (r : Report) : List (String × Nat) :=
  [ ("total", r.execution.dispatched), ("completed", r.execution.completed),
    ("success", r.execution.succeeded), ("failed", r.execution.failed),
    ("reads", r.metrics.reads), ("writes", r.metrics.writes) ]

/-! ## The document -/

namespace Document

/-- A document says what there is to be said of a report. -/
structure Says (doc : Json) (r : Report) : Prop where
  backend : doc.at? ["summary", "protocol"] = some (.text r.backend)
  counts : ∀ e ∈ r.counts, doc.at? ["summary", "jobs", e.1] = some (.nat e.2)
  latency : doc.at? ["latency"] =
    if r.metrics.total = 0 then none else some r.metrics.latency.toJson
  failures : ∀ message, doc.at? ["errors", message] =
    (r.metrics.errors.get? message).map Json.nat
  labels : ∀ (key : MetaKey) label, doc.at? ["protocol", key.name, "labels", label] =
    ((r.metrics.keys.lookup key).bind fun k => k.labels.get? label).map Json.nat
  figures : ∀ name, doc.at? ["adapter", name] = (r.figures.get? name).map MetaValue.toJson

/-- A text is one of a document that says what there is to be said of a report, on lines of its
own. -/
def Shows (r : Report) (text : String) : Prop :=
  ∃ doc body, Json.Written doc body ∧ text = body ++ "\n" ∧ Says doc r

end Document

/-! ## The lines for the terminal -/

namespace Terminal

/-- The line of a failure with its count, which is given so many places. -/
def failureLine (width : Nat) (e : String × Nat) : String :=
  Style.red.paint ("  [" ++ rightAligned width e.2 ++ "] " ++ e.1)

/-- Lines say what there is to be said of a report. -/
structure Says (lines : List String) (r : Report) : Prop where
  heading : lines.head? = some (Style.heading.paint "Summary")
  backend : "  Protocol:      " ++ Style.boldGreen.paint r.backend ∈ lines
  counts : ∃ line ∈ lines, ∀ e ∈ r.counts, (toString e.2).toList <:+: line.toList
  latency : r.metrics.total ≠ 0 → ∀ e ∈ r.metrics.latency.percentiles,
    "    " ++ Style.green.paint (toString e.1 ++ ".00%") ++ " in " ++
      Style.green.paint ((TimeUnit.fit r.metrics.latency.p50).render e.2) ∈ lines
  failures : ∀ message count, r.metrics.errors.get? message = some count →
    ∃ width, failureLine width (message, count) ∈ lines
  labels : ∀ e ∈ r.metrics.keys, e.2.numeric = none → ∀ label count,
    e.2.labels.get? label = some count → ∃ width, labelLine width (label, count) ∈ lines
  figures : ∀ name value, r.figures.get? name = some value →
    ∃ fill, "  " ++ name ++ Grid.blanks fill ++ "  " ++ Style.green.paint value.display ∈ lines

/-- A text is one of lines that say what there is to be said of a report. -/
def Shows (r : Report) (text : String) : Prop :=
  ∃ lines, text = String.join (lines.map (· ++ "\n")) ∧ Says lines r

end Terminal
end Report
end LoadGen
