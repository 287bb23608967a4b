import LoadGen.Measure.Ledger
import LoadGen.Time.Calendar

/-!
# Snapshots

A snapshot is everything a ledger has to say at one instant.  Taking one changes nothing.

* `LatencySummary` — the durations of a run in seven figures.
* `Ledger.view` — the snapshot at an instant.
* `Ledger.snapshot?` — the same, refused when the end of the recording lies beyond the calendar.
-/

namespace LoadGen

/-- The durations of a run, in nanoseconds. -/
structure LatencySummary where
  avg : Nat := 0
  min : Nat := 0
  max : Nat := 0
  p50 : Nat := 0
  p90 : Nat := 0
  p95 : Nat := 0
  p99 : Nat := 0
  deriving Repr, DecidableEq

namespace LatencySummary

def percentiles (l : LatencySummary) : List (Nat × Nat) :=
  [(50, l.p50), (90, l.p90), (95, l.p95), (99, l.p99)]

/-- The summary in a document, in seconds. -/
def toJson (l : LatencySummary) : Json :=
  let seconds d := Json.float (Nanos.toSeconds d)
  .object
    [ ("avg", seconds l.avg), ("min", seconds l.min), ("max", seconds l.max),
      ("p50", seconds l.p50), ("p90", seconds l.p90), ("p95", seconds l.p95),
      ("p99", seconds l.p99) ]

end LatencySummary

/-- The figures of a run at one instant. -/
structure Snapshot where
  total : Nat
  success : Nat
  failed : Nat
  reads : Nat
  writes : Nat
  latency : LatencySummary
  /-- Failed results as a percentage of all. -/
  errorRate : Float
  /-- Results per second over the rate window. -/
  rps : Float
  /-- Results per second over the whole recording. -/
  throughput : Float
  /-- How long the recording took, in nanoseconds. -/
  duration : Nat
  errors : Tally
  keys : List (MetaKey × KeySummary)

namespace Snapshot

/-- Successful results as a fraction of all. -/
def successRatio (s : Snapshot) : Float :=
  if s.total = 0 then 0.0 else Float.ofNat s.success / Float.ofNat s.total

/-- The longest distance between two dates, in nanoseconds. -/
def longestSpan : Nat := (Nat.pow 2 63 - 1) * Nanos.perMilli

/-- The distance from the start to the end of the recording as dates tell it: too long a
duration reads as none. -/
def span (s : Snapshot) : Nat :=
  if s.duration ≤ longestSpan then s.duration else 0

/-- Whether the end of a recording that began with 1970 can be written as a date. -/
def endsInCalendar (s : Snapshot) : Bool :=
  s.span ≤ Calendar.lastInstant

/-- The snapshot as a document, for a recording that began with 1970. -/
def toJson (s : Snapshot) : Json :=
  .object
    [ ("total", .nat s.total), ("success", .nat s.success), ("failed", .nat s.failed),
      ("reads", .nat s.reads), ("writes", .nat s.writes), ("latency", s.latency.toJson),
      ("error_rate", .float s.errorRate), ("rps", .float s.rps),
      ("throughput", .float s.throughput),
      ("start_time", .text (Calendar.timestamp 0)), ("end_time", .text (Calendar.timestamp s.span)),
      ("duration", .float (Nanos.toSeconds s.duration)),
      ("errors", .object ((Tally.byLabel s.errors).map fun e => (e.1, .nat e.2))),
      ("protocol", KeySummary.table s.keys) ]

end Snapshot

/-- The mean of `total` durations that add up to `sum`, rounded down; zero if there are none.
Beyond the range of 32-bit counts the mean is computed in seconds. -/
def meanDuration (sum total : Nat) : Nat :=
  if total < Nat.pow 2 32 then sum / total
  else (Nanos.ofSeconds? (Nanos.toSeconds sum / Float.ofNat total)).getD 0

namespace Ledger

/-- The durations in seven figures. -/
def latency (l : Ledger) : LatencySummary :=
  -- The percentiles cover the kept durations only, the other figures all that were accepted.
  let sorted := l.figures.samples.sorted fun x y => decide (x < y)
  let percentile p := (Percentile.nearestRank? sorted p).getD 0
  { avg := meanDuration l.figures.sum l.counts.total
    min := l.figures.fastest.getD 0
    max := l.figures.slowest
    p50 := percentile 50
    p90 := percentile 90
    p95 := percentile 95
    p99 := percentile 99 }

def duration (l : Ledger) (now : Nat) : Nat :=
  l.finished.getD (now - l.started)

def view (l : Ledger) (now : Nat) : Snapshot :=
  let total := l.counts.total
  let seconds := Nanos.toSeconds (l.duration now)
  { total
    success := l.counts.success
    failed := l.counts.failed
    reads := l.counts.reads
    writes := l.counts.writes
    latency := l.latency
    errorRate := if total = 0 then 0.0 else Float.ofNat l.counts.failed / Float.ofNat total * 100.0
    rps := l.figures.window.rate
    throughput := if seconds > 0.0 then Float.ofNat total / seconds else 0.0
    duration := l.duration now
    errors := l.figures.errors
    keys := l.figures.keys.summary }

/-- The figures at `now`, unless the recording ends beyond the calendar. -/
def snapshot? (l : Ledger) (now : Nat) : Option Snapshot :=
  let s := l.view now
  if s.endsInCalendar then some s else none

end Ledger
end LoadGen
