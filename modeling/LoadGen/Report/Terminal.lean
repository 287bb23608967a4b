import LoadGen.Report.Grid
import LoadGen.Report.Latency
import LoadGen.Run.Engine

/-!
# Reports for the terminal

A report is written as styled lines in sections: a summary, and then latencies, metadata statistics,
figures of the backend and errors, each if there is something to say.

* `labelLines`, `keyLabels` — how the labels of the metadata are listed.
* `Terminal.lines` — all lines; `Terminal.render` the text.
-/

namespace LoadGen
namespace Report
namespace Terminal

/-- A number at the right end of `width` places. -/
def rightAligned (width n : Nat) : String :=
  let s := toString n
  Grid.blanks (width - s.length) ++ s

/-- The places of the largest of the given counts. -/
def countWidth (counts : List Nat) : Nat :=
  (toString (counts.foldl max 0)).length

/-! ## Summary -/

/-- The share of successful results: green at a hundred percent, yellow from
ninety-nine, else red. -/
def ratioText (percent : Float) : String :=
  let text := Decimal.fixed 2 percent ++ "%"
  if percent ≥ 100.0 then Style.boldGreen.paint text
  else if percent ≥ 99.0 then Style.boldYellow.paint text
  else Style.boldRed.paint text

def circuitText (state : Circuit.State) : String :=
  match state with
  | .closed => Style.boldGreen.paint state.name
  | .halfOpen => Style.boldYellow.paint state.name
  | .opened => Style.boldRed.paint state.name

def jobsTable (r : Report) : List String :=
  let header := ["", "Total", "Completed", "Success", "Failed", "Reads", "Writes"]
  let green n := Cell.mk (toString n) Style.cellGreen
  Grid.lines { margin := 0, padding := 2, align := fun _ => .centre }
    [ header.map fun text => { text, style := Style.cellBold },
      [ { text := "Jobs" }, green r.execution.dispatched, green r.execution.completed,
        green r.execution.succeeded,
        { text := toString r.execution.failed, style := Style.cellRed },
        green r.metrics.reads, green r.metrics.writes ] ]

def summary (r : Report) : List String :=
  let seconds := Decimal.fixed 2 (Nanos.toSeconds r.execution.duration) ++ "s"
  [ Style.heading.paint "Summary",
    "  Protocol:      " ++ Style.boldGreen.paint r.backend,
    "  Time:          " ++ Style.boldGreen.paint seconds,
    "  Workers:       " ++ Style.boldGreen.paint (toString r.execution.workers),
    "  Success ratio: " ++ ratioText (100.0 * r.successRatio),
    "  Circuit:       " ++ circuitText r.circuit,
    "" ] ++
  jobsTable r ++
  [ "",
    "  Throughput:    " ++ Style.green.paint (Decimal.fixed 2 r.metrics.throughput ++ "/s"),
    "  Recent rate:   " ++ Style.green.paint (Decimal.fixed 2 r.metrics.rps ++ "/s"),
    "  Error rate:    " ++ Style.green.paint (Decimal.fixed 2 r.metrics.errorRate ++ "%") ] ++
  (if 0 < r.abandoned then
    ["  Abandoned:     " ++ Style.yellow.paint (toString r.abandoned)]
  else []) ++
  [""]

/-! ## Latencies -/

/-- The latencies, all in the unit of the median; nothing if no result was recorded. -/
def latencies (m : Snapshot) : List String :=
  if m.total = 0 then []
  else
    let u := TimeUnit.fit m.latency.p50
    let green d := Cell.mk (u.render d) Style.cellGreen
    [Style.heading.paint "Latencies"] ++
    Grid.lines { margin := 1, padding := 1, align := fun _ => .centre }
      [ [⟨"Avg", Style.cellBlue⟩, ⟨"Min", Style.cellCyan⟩, ⟨"Max", Style.cellRed⟩],
        [green m.latency.avg, green m.latency.min, green m.latency.max] ] ++
    ["", Style.subheading.paint "  Percentiles"] ++
    m.latency.percentiles.map (fun e =>
      "    " ++ Style.green.paint (toString e.1 ++ ".00%") ++ " in " ++
        Style.green.paint (u.render e.2)) ++
    [""]

/-! ## Statistics of the metadata -/

/-- A number recorded under a key: times pick a unit each. -/
def numberText (key : MetaKey) (v : Float) : String :=
  if key.isTime then (TimeUnit.fitMillis v).renderMillis v else Decimal.fixed 2 v

/-- The table of the keys with numbers; nothing if there are none. -/
def numericTable (keys : List (MetaKey × KeySummary)) : List String :=
  let rows := keys.filterMap fun e => e.2.numeric.map fun n => (e.1, n)
  if rows.isEmpty then []
  else
    let header := ["Key", "Count", "Avg", "Min", "Max", "P50", "P95", "P99"]
    let headerRow := header.mapIdx fun i text =>
      Cell.mk text (if i = 0 then Style.cellCyan else Style.cellBold)
    let row (e : MetaKey × NumericSummary) :=
      let n := e.2
      let numbers := [n.avg, n.min, n.max, n.p50, n.p95, n.p99]
      let texts := toString n.count :: numbers.map (numberText e.1)
      Cell.mk e.1.name Style.cellCyan :: texts.map fun text => ⟨text, Style.cellGreen⟩
    Grid.lines { margin := 1, padding := 1, align := fun i => if i = 0 then .left else .right }
      (headerRow :: rows.map row)

/-- One line for each label with its count, the most frequent first. -/
def labelLines (labels : Tally) : List String :=
  let ranked := Tally.ranked labels
  let width := countWidth (ranked.map Prod.snd)
  ranked.map fun e => "    [" ++ Style.green.paint (rightAligned width e.2) ++ "] " ++ e.1

/-- The labels of a key under its name; nothing for a key that is in the table of numbers. -/
def keyLabels (e : MetaKey × KeySummary) : List String :=
  if e.2.numeric.isSome then []
  else Style.subheading.paint ("  " ++ e.1.name) :: labelLines e.2.labels

/-- The statistics of the metadata; nothing if no key was recorded. -/
def keyStatistics (keys : List (MetaKey × KeySummary)) : List String :=
  if keys.isEmpty then []
  else
    [Style.heading.paint "Protocol metrics"] ++ numericTable keys ++ keys.flatMap keyLabels ++ [""]

/-! ## Backend figures and errors -/

/-- The figures of the backend, by name.  Names are padded by characters up to the longest
name's number of bytes. -/
def backendFigures (figures : Assoc String MetaValue) : List String :=
  if figures.isEmpty then []
  else
    let entries := figures.sorted fun x y => decide (x < y)
    let width := entries.foldl (fun w e => max w e.1.utf8ByteSize) 0
    [Style.heading.paint "Adapter metrics"] ++
    entries.map (fun e =>
      "  " ++ e.1 ++ Grid.blanks (width - e.1.length) ++ "  " ++ Style.green.paint e.2.display) ++
    [""]

/-- The errors with their counts, the most frequent first. -/
def errorDistribution (errors : Tally) : List String :=
  if errors.isEmpty then []
  else
    let ranked := Tally.ranked errors
    let width := countWidth (ranked.map Prod.snd)
    [Style.heading.paint "Error distribution"] ++
    ranked.map fun e => Style.red.paint ("  [" ++ rightAligned width e.2 ++ "] " ++ e.1)

def lines (r : Report) : List String :=
  summary r ++ latencies r.metrics ++ keyStatistics r.metrics.keys ++ backendFigures r.figures ++
    errorDistribution r.metrics.errors

def render (r : Report) : String :=
  String.join ((lines r).map (· ++ "\n"))

end Terminal
end Report
end LoadGen
